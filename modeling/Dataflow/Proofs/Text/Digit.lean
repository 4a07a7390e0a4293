import Dataflow.Text.Digit
import Mathlib.Data.String.Basic
import Mathlib.Tactic.Ring

/-!
# Numbers of any size by their digits

Results:
* `decimalValue_cons`: what the first digit adds to a number.
* `decimalValue_dropWhile`: zeros in front add nothing.
* `lt_iff_decimalValue_lt`: as many digits are in the order of their numbers.
* `compare_decimalValue`: without zeros in front, digits are in the order of their numbers when the
  shorter ones come first.
-/

namespace Dataflow.Text

theorem isAsciiDigit_iff {c : Char} :
    isAsciiDigit c = true ↔ '0'.toNat ≤ c.toNat ∧ c.toNat ≤ '9'.toNat := by
  unfold isAsciiDigit
  rw [Bool.and_eq_true, decide_eq_true_eq, decide_eq_true_eq]
  rfl

theorem isDecimalDigit_of_isAsciiDigit {c : Char} (h : isAsciiDigit c = true) :
    isDecimalDigit c = true :=
  List.any_eq_true.mpr ⟨0x30, List.mem_cons_self, by simpa [isAsciiDigit_iff] using h⟩

/-- A digit of ASCII takes one byte. -/
theorem utf8Size_of_isAsciiDigit {c : Char} (h : isAsciiDigit c = true) : c.utf8Size = 1 := by
  rw [Char.utf8Size_eq_one_iff, UInt32.le_iff_toNat_le]
  exact (isAsciiDigit_iff.mp h).2.trans (by decide)

theorem utf8ByteSize_of_digits {ds : List Char} (h : ∀ c ∈ ds, isAsciiDigit c = true) :
    (String.ofList ds).utf8ByteSize = ds.length := by
  induction ds with
  | nil => rfl
  | cons d ds ih =>
    obtain ⟨hd, hds⟩ := List.forall_mem_cons.mp h
    rw [String.utf8ByteSize_ofList, String.utf8Len_cons, ← String.utf8ByteSize_ofList, ih hds,
      utf8Size_of_isAsciiDigit hd, List.length_cons]

/-! ## The value of digits -/

/-- Digits are read behind a number that has been read. -/
theorem foldl_valueOf (base : Nat) : ∀ (digits : List Nat) (read : Nat),
    digits.foldl (fun n digit => base * n + digit) read =
      read * base ^ digits.length + valueOf base digits
  | [], read => by simp [valueOf]
  | digit :: digits, read => by
    unfold valueOf
    rw [List.foldl_cons, List.foldl_cons, foldl_valueOf, foldl_valueOf base digits,
      List.length_cons]
    ring

/-- **What the first digit adds to a number.** -/
theorem decimalValue_cons (d : Char) (ds : List Char) :
    decimalValue (d :: ds) = (d.toNat - '0'.toNat) * 10 ^ ds.length + decimalValue ds := by
  unfold decimalValue
  rw [List.map_cons, valueOf, List.foldl_cons, foldl_valueOf, List.length_map, Nat.mul_zero,
    Nat.zero_add]

theorem decimalValue_lt {ds : List Char} (h : ∀ c ∈ ds, isAsciiDigit c = true) :
    decimalValue ds < 10 ^ ds.length := by
  induction ds with
  | nil => decide
  | cons d ds ih =>
    obtain ⟨hd, hds⟩ := List.forall_mem_cons.mp h
    have hdigit : d.toNat - '0'.toNat + 1 ≤ 10 := by
      have := (isAsciiDigit_iff.mp hd).2
      rw [show '9'.toNat = '0'.toNat + 9 from rfl] at this
      omega
    calc decimalValue (d :: ds)
        = (d.toNat - '0'.toNat) * 10 ^ ds.length + decimalValue ds := decimalValue_cons d ds
      _ < (d.toNat - '0'.toNat) * 10 ^ ds.length + 10 ^ ds.length := by
        exact Nat.add_lt_add_left (ih hds) _
      _ = (d.toNat - '0'.toNat + 1) * 10 ^ ds.length := by ring
      _ ≤ 10 * 10 ^ ds.length := Nat.mul_le_mul_right _ hdigit
      _ = 10 ^ (d :: ds).length := by rw [List.length_cons, pow_succ']

/-- **Zeros in front add nothing.** -/
theorem decimalValue_dropWhile (ds : List Char) :
    decimalValue (ds.dropWhile (· == '0')) = decimalValue ds := by
  induction ds with
  | nil => rfl
  | cons d ds ih =>
    by_cases hd : d = '0'
    · subst hd
      rw [List.dropWhile_cons_of_pos rfl, ih, decimalValue_cons]
      simp
    · rw [List.dropWhile_cons_of_neg (by simpa using hd)]

/-- A number whose first digit is not a zero. -/
theorem le_decimalValue {d : Char} {ds : List Char} (hd : isAsciiDigit d = true) (hne : d ≠ '0') :
    10 ^ ds.length ≤ decimalValue (d :: ds) := by
  have hpos : 1 ≤ d.toNat - '0'.toNat := by
    have hle := (isAsciiDigit_iff.mp hd).1
    have hneq : d.toNat ≠ '0'.toNat := fun h => hne (Char.toNat_inj.mp h)
    omega
  calc 10 ^ ds.length = 1 * 10 ^ ds.length := (Nat.one_mul _).symm
    _ ≤ (d.toNat - '0'.toNat) * 10 ^ ds.length := Nat.mul_le_mul_right _ hpos
    _ ≤ decimalValue (d :: ds) := by
      rw [decimalValue_cons]
      exact Nat.le_add_right _ _

/-! ## The order of numbers -/

theorem mul_add_lt_mul_add_iff {p a b x y : Nat} (ha : a < p) (hb : b < p) :
    x * p + a < y * p + b ↔ x < y ∨ x = y ∧ a < b := by
  rcases Nat.lt_trichotomy x y with hlt | rfl | hgt
  · have := Nat.mul_le_mul_right p (Nat.succ_le_of_lt hlt)
    rw [Nat.succ_mul] at this
    exact iff_of_true (by omega) (Or.inl hlt)
  · simp
  · have := Nat.mul_le_mul_right p (Nat.succ_le_of_lt hgt)
    rw [Nat.succ_mul] at this
    exact iff_of_false (by omega) (by omega)

/-- **As many digits are in the order of their numbers.** -/
theorem lt_iff_decimalValue_lt : ∀ {ds es : List Char}, ds.length = es.length →
    (∀ c ∈ ds, isAsciiDigit c = true) → (∀ c ∈ es, isAsciiDigit c = true) →
      (ds < es ↔ decimalValue ds < decimalValue es)
  | [], [], _, _, _ => by simp
  | d :: ds, e :: es, hlength, hds, hes => by
    obtain ⟨hd, hds⟩ := List.forall_mem_cons.mp hds
    obtain ⟨he, hes⟩ := List.forall_mem_cons.mp hes
    have hlength := Nat.succ.inj hlength
    have hzerod := (isAsciiDigit_iff.mp hd).1
    have hzeroe := (isAsciiDigit_iff.mp he).1
    have hlt : d < e ↔ d.toNat - '0'.toNat < e.toNat - '0'.toNat := by
      rw [show d < e ↔ d.toNat < e.toNat from Iff.rfl]
      omega
    have heq : d = e ↔ d.toNat - '0'.toNat = e.toNat - '0'.toNat := by
      rw [← Char.toNat_inj]
      omega
    rw [List.cons_lt_cons_iff, lt_iff_decimalValue_lt hlength hds hes, hlt, heq, decimalValue_cons,
      decimalValue_cons, hlength, mul_add_lt_mul_add_iff (hlength ▸ decimalValue_lt hds)
        (decimalValue_lt hes)]

/-- Fewer digits make a smaller number, when the longer ones do not start with a zero. -/
theorem decimalValue_lt_of_shorter {ds es : List Char} (hlength : ds.length < es.length)
    (hds : ∀ c ∈ ds, isAsciiDigit c = true) (hes : ∀ c ∈ es, isAsciiDigit c = true)
    (hzero : es.head? ≠ some '0') : decimalValue ds < decimalValue es := by
  cases es with
  | nil => exact absurd hlength (Nat.not_lt_zero _)
  | cons e es =>
    have hne : e ≠ '0' := fun h => hzero (congrArg some h)
    calc decimalValue ds < 10 ^ ds.length := decimalValue_lt hds
      _ ≤ 10 ^ es.length := Nat.pow_le_pow_right (by decide) (Nat.le_of_lt_succ hlength)
      _ ≤ decimalValue (e :: es) := le_decimalValue (hes e List.mem_cons_self) hne

/-- **Digits without zeros in front are in the order of their numbers** when the shorter ones come
first and those of one length are compared as texts. -/
theorem compare_decimalValue {ds es : List Char} (hds : ∀ c ∈ ds, isAsciiDigit c = true)
    (hes : ∀ c ∈ es, isAsciiDigit c = true) (hzerod : ds.head? ≠ some '0')
    (hzeroe : es.head? ≠ some '0') :
    compare (decimalValue ds) (decimalValue es) =
      (compare ds.length es.length).then (compare (String.ofList ds) (String.ofList es)) := by
  rcases Nat.lt_trichotomy ds.length es.length with hlt | heq | hgt
  · rw [Nat.compare_eq_lt.mpr hlt]
    exact Nat.compare_eq_lt.mpr (decimalValue_lt_of_shorter hlt hds hes hzeroe)
  · rw [heq, Nat.compare_eq_eq.mpr rfl, Ordering.then]
    have hless : ∀ {xs ys : List Char}, String.ofList xs < String.ofList ys ↔ xs < ys := by
      intro xs ys
      rw [String.lt_iff_toList_lt, String.toList_ofList, String.toList_ofList]
    cases hcompare : compare (String.ofList ds) (String.ofList es) with
    | lt =>
      have hlt := hless.mp (compare_lt_iff_lt.mp hcompare)
      exact Nat.compare_eq_lt.mpr ((lt_iff_decimalValue_lt heq hds hes).mp hlt)
    | eq => rw [String.ofList_injective (compare_eq_iff_eq.mp hcompare), Nat.compare_eq_eq.mpr rfl]
    | gt =>
      have hgt := hless.mp (compare_gt_iff_gt.mp hcompare)
      exact Nat.compare_eq_gt.mpr ((lt_iff_decimalValue_lt heq.symm hes hds).mp hgt)
  · rw [Nat.compare_eq_gt.mpr hgt]
    exact Nat.compare_eq_gt.mpr (decimalValue_lt_of_shorter hgt hes hds hzerod)

end Dataflow.Text
