import Dataflow.Json.Reader
import Dataflow.Proofs.Json.Record
import Mathlib.Tactic.SplitIfs

/-!
# Quoted texts and integers are read back

* `Ends rest`: what may follow a value inside a JSON text that was written.

Results:
* `readString?_quoted`: a text in quotes is read back.
* `readNumber?_integer`: so is an integer of 64 bits.
-/

namespace Dataflow.Json

/-! ## Quoted texts -/

/-- Control characters are escaped by their number. -/
theorem hexadecimalValue?_control : ∀ n < 32,
    Text.hexadecimalValue? ['0', '0', hexDigit (n / 16), hexDigit (n % 16)] = some n := by
  decide

/-- **A character inside quotes is read back**, escaped or not. -/
theorem readChars_escaped (c : Char) (rest : List Char) :
    readChars none (escaped c ++ rest) =
      (readChars none rest).map fun (cs, rest) => (c :: cs, rest) := by
  unfold escaped
  split_ifs with hquote hbackslash hbackspace htab hline hfeed hreturn hcontrol
  · subst hquote
    simp [readChars, simpleEscape?]
  · subst hbackslash
    simp [readChars, simpleEscape?]
  · subst hbackspace
    simp [readChars, simpleEscape?]
  · subst htab
    simp [readChars, simpleEscape?]
  · subst hline
    simp [readChars, simpleEscape?]
  · subst hfeed
    simp [readChars, simpleEscape?]
  · subst hreturn
    simp [readChars, simpleEscape?]
  · have hvalue := hexadecimalValue?_control c.toNat hcontrol
    have hhigh : isHighSurrogate c.toNat = false := by
      simp [isHighSurrogate]
      omega
    have hlow : isLowSurrogate c.toNat = false := by
      simp [isLowSurrogate]
      omega
    simp [readChars, hvalue, hhigh, hlow, Char.ofNat_toNat]
  · rw [List.singleton_append, readChars]
    · rw [if_neg hcontrol]
    all_goals simp_all

theorem readChars_flatMap_escaped (cs rest : List Char) :
    readChars none (cs.flatMap escaped ++ '"' :: rest) = some (cs, rest) := by
  induction cs with
  | nil => rw [List.flatMap_nil, List.nil_append, readChars]
  | cons c cs ih =>
    rw [List.flatMap_cons, List.append_assoc, readChars_escaped, ih]
    rfl

theorem toList_quoted (text : String) :
    (quoted text).toList = '"' :: (text.toList.flatMap escaped ++ ['"']) := by
  rw [quoted, String.toList_ofList, List.cons_append]

/-- **A text in quotes is read back.** -/
theorem readString?_escaped (text : String) (rest : List Char) :
    readString? (text.toList.flatMap escaped ++ '"' :: rest) = some (text, rest) := by
  unfold readString?
  rw [readChars_flatMap_escaped, Option.map_some]
  simp only [String.ofList_toList]

/-! ## Integers -/

/-- What may follow a value: nothing, a comma or the end of the line. -/
def Ends (rest : List Char) : Prop :=
  ∀ c ∈ rest.head?, c = ',' ∨ c = '\n'

theorem isAsciiDigit_of_mem_digitsOf {n : Nat} {c : Char} (h : c ∈ Number.digitsOf n) :
    Text.isAsciiDigit c = true :=
  Nat.isDigit_of_mem_toDigits (by decide) (by decide) h

theorem exists_digitsOf_eq_cons (n : Nat) :
    ∃ d ds, Number.digitsOf n = d :: ds ∧ Text.isAsciiDigit d = true := by
  obtain ⟨d, ds, hds⟩ := List.exists_cons_of_ne_nil (@Nat.toDigits_ne_nil n 10)
  exact ⟨d, ds, hds, isAsciiDigit_of_mem_digitsOf (hds ▸ List.mem_cons_self)⟩

theorem decimalValue_digitsOf (n : Nat) : Text.decimalValue (Number.digitsOf n) = n := by
  unfold Text.decimalValue Text.valueOf Number.digitsOf
  rw [List.foldl_map, ← Nat.ofDigitChars_eq_foldl, Nat.ofDigitChars_ten_toDigits]

/-- Only zero starts with a zero. -/
theorem head?_digitsOf_ne {n : Nat} (h : 0 < n) : (Number.digitsOf n).head? ≠ some '0' := by
  induction n using Nat.strongRecOn with
  | ind n ih =>
    unfold Number.digitsOf
    by_cases hlt : n < 10
    · rw [Nat.toDigits_of_lt_base hlt]
      have hall : ∀ d < 10, 0 < d → some d.digitChar ≠ some '0' := by decide
      exact hall n hlt h
    · have hfront := ih (n / 10) (by omega) (by omega)
      obtain ⟨d, ds, hds, -⟩ := exists_digitsOf_eq_cons (n / 10)
      rw [hds] at hfront
      rw [Nat.toDigits_of_base_le (by decide) (by omega), ← Number.digitsOf, hds]
      exact hfront

theorem takeDigits_append {digits rest : List Char}
    (hdigits : ∀ c ∈ digits, Text.isAsciiDigit c = true) (hrest : Ends rest) :
    takeDigits (digits ++ rest) = (digits, rest) := by
  have hstop : ∀ c ∈ rest.head?, Text.isAsciiDigit c = false := by
    intro c hc
    rcases hrest c hc with rfl | rfl <;> decide
  unfold takeDigits
  rw [List.takeWhile_append_of_pos hdigits, List.dropWhile_append_of_pos hdigits]
  cases rest with
  | nil => simp
  | cons c rest =>
    have hc := hstop c rfl
    simp [hc]

theorem readIntegerDigits?_digitsOf (n : Nat) {rest : List Char} (hrest : Ends rest) :
    readIntegerDigits? (Number.digitsOf n ++ rest) = some (Number.digitsOf n, rest) := by
  unfold readIntegerDigits?
  rw [takeDigits_append (fun c hc => isAsciiDigit_of_mem_digitsOf hc) hrest]
  by_cases hzero : n = 0
  · subst hzero
    rfl
  · have hhead := head?_digitsOf_ne (Nat.pos_of_ne_zero hzero)
    have hne : Number.digitsOf n ≠ [] := Nat.toDigits_ne_nil
    split <;> simp_all

theorem readFraction?_of_ends {rest : List Char} (hrest : Ends rest) :
    readFraction? rest = some (none, rest) := by
  unfold readFraction?
  split
  · exact absurd (hrest '.' rfl) (by decide)
  · rfl

theorem readExponent?_of_ends {rest : List Char} (hrest : Ends rest) :
    readExponent? rest = some (none, rest) := by
  cases rest with
  | nil => rfl
  | cons c rest =>
    have hc : ¬ (c = 'e' ∨ c = 'E') := by
      rcases hrest c rfl with rfl | rfl <;> decide
    exact if_neg hc

/-- An integer of 64 bits is kept as such, unless it is the negative zero. -/
theorem numberOf?_integer {negative : Bool} {digits : List Char} {n : Int}
    (hsigned : (if negative = true then -(Text.decimalValue digits : Int)
      else Text.decimalValue digits) = n)
    (hzero : (negative && Text.decimalValue digits == 0) = false) (hfits : fitsWord n = true) :
    numberOf? negative digits none none = some (.integer n) := by
  have hkept : (fitsWord n && !(negative && Text.decimalValue digits == 0)) = true := by
    rw [hfits, hzero]
    rfl
  rw [← hsigned] at hkept ⊢
  unfold numberOf?
  rw [Option.getD_none, List.append_nil]
  exact if_pos hkept

theorem readNumber?_negative {cs digits rest : List Char} {number : Number}
    (hdigits : readIntegerDigits? cs = some (digits, rest)) (hrest : Ends rest)
    (hnumber : numberOf? true digits none none = some number) :
    readNumber? ('-' :: cs) = some (number, rest) := by
  unfold readNumber?
  simp only [bind_of_eq_some hdigits, bind_of_eq_some (readFraction?_of_ends hrest),
    bind_of_eq_some (readExponent?_of_ends hrest), bind_of_eq_some hnumber]
  rfl

theorem readNumber?_unsigned {c : Char} {cs digits rest : List Char} {number : Number}
    (hc : c ≠ '-') (hdigits : readIntegerDigits? (c :: cs) = some (digits, rest))
    (hrest : Ends rest) (hnumber : numberOf? false digits none none = some number) :
    readNumber? (c :: cs) = some (number, rest) := by
  unfold readNumber?
  split
  next negative unsigned hsign =>
  have hpair : (negative, unsigned) = (false, c :: cs) := by
    rw [← hsign]
    split
    · next h => exact absurd (List.cons.inj h).1 hc
    · rfl
  obtain ⟨rfl, rfl⟩ := Prod.mk.inj hpair
  simp only [bind_of_eq_some hdigits, bind_of_eq_some (readFraction?_of_ends hrest),
    bind_of_eq_some (readExponent?_of_ends hrest), bind_of_eq_some hnumber]
  rfl

/-- **An integer of 64 bits is read back.** -/
theorem readNumber?_integerText {n : Int} (hfits : fitsWord n = true) {rest : List Char}
    (hrest : Ends rest) : readNumber? (Number.integerText n ++ rest) = some (.integer n, rest) := by
  have hdigits := readIntegerDigits?_digitsOf n.natAbs hrest
  have hvalue := decimalValue_digitsOf n.natAbs
  unfold Number.integerText
  split_ifs with hnegative
  · have hnumber : numberOf? true (Number.digitsOf n.natAbs) none none = some (.integer n) := by
      refine numberOf?_integer ?_ ?_ hfits
      · rw [hvalue, if_pos rfl]
        omega
      · rw [hvalue, Bool.true_and, beq_eq_false_iff_ne]
        omega
    rw [List.cons_append]
    exact readNumber?_negative hdigits hrest hnumber
  · have hnumber : numberOf? false (Number.digitsOf n.natAbs) none none = some (.integer n) := by
      refine numberOf?_integer ?_ (Bool.false_and _) hfits
      rw [hvalue, if_neg Bool.false_ne_true]
      omega
    obtain ⟨d, ds, hds, hdigit⟩ := exists_digitsOf_eq_cons n.natAbs
    have hunsigned : d ≠ '-' := by
      rintro rfl
      exact absurd hdigit (by decide)
    rw [hds, List.cons_append] at hdigits ⊢
    rw [hds] at hnumber
    exact readNumber?_unsigned hunsigned hdigits hrest hnumber

end Dataflow.Json
