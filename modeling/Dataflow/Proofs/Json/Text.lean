import Dataflow.Proofs.Json.Token

/-!
# JSON texts are read back

* `Legible room json`: `room` levels of arrays and objects are enough for a value, and its numbers
  are integers of 64 bits.
* `ReadsFrom room json`: the value is read from its text at any level, whatever follows.

Results:
* `readItems_pretty`, `readEntries_pretty`: elements and entries are read one after the other.
* `readsFrom_of_legible`: a legible value is read from its text.
* `read?_pretty`: the text of a value that does not nest too deep is read as the value.
-/

namespace Dataflow.Json

/-- A value that can be read from its text, with some levels left. -/
inductive Legible : Nat → Json → Prop
  | null {room : Nat} : Legible room .null
  | boolean {room : Nat} {value : Bool} : Legible room (.boolean value)
  | integer {room : Nat} {n : Int} (h : fitsWord n = true) : Legible room (.number (.integer n))
  | string {room : Nat} {text : String} : Legible room (.string text)
  | array {room : Nat} {items : List Json} (h : ∀ item ∈ items, Legible room item) :
      Legible (room + 1) (.array items)
  | object {room : Nat} {entries : List (String × Json)}
      (h : ∀ entry ∈ entries, Legible room entry.2) : Legible (room + 1) (.object entries)

/-- More levels do no harm. -/
theorem Legible.mono {room : Nat} {json : Json} (h : Legible room json) :
    ∀ {more : Nat}, room ≤ more → Legible more json := by
  induction h with
  | null => exact fun _ => .null
  | boolean => exact fun _ => .boolean
  | integer h => exact fun _ => .integer h
  | string => exact fun _ => .string
  | array h ih =>
    intro more hmore
    obtain ⟨more, rfl⟩ := Nat.exists_eq_add_one_of_ne_zero (show more ≠ 0 by omega)
    exact .array fun item hitem => ih item hitem (by omega)
  | object h ih =>
    intro more hmore
    obtain ⟨more, rfl⟩ := Nat.exists_eq_add_one_of_ne_zero (show more ≠ 0 by omega)
    exact .object fun entry hentry => ih entry hentry (by omega)

/-! ## Blanks -/

section

variable {blanks : List Char} (h : ∀ c ∈ blanks, isBlank c = true)

include h

theorem skipBlanks_append (cs : List Char) : skipBlanks (blanks ++ cs) = skipBlanks cs :=
  List.dropWhile_append_of_pos h

attribute [local simp] readValue readItems readEntries readKey?

theorem readValue_append (steps room : Nat) (cs : List Char) :
    readValue steps room (blanks ++ cs) = readValue steps room cs := by
  cases steps with
  | zero => rfl
  | succ steps => simp [skipBlanks_append h]

theorem readItems_append (steps room : Nat) (cs : List Char) :
    readItems steps room (blanks ++ cs) = readItems steps room cs := by
  cases steps with
  | zero => rfl
  | succ steps => simp [readValue_append h]

theorem readEntries_append (steps room : Nat) (cs : List Char) :
    readEntries steps room (blanks ++ cs) = readEntries steps room cs := by
  cases steps with
  | zero => rfl
  | succ steps => simp [skipBlanks_append h]

end

theorem skipBlanks_cons {c : Char} (h : isBlank c = false) (cs : List Char) :
    skipBlanks (c :: cs) = c :: cs :=
  List.dropWhile_cons_of_neg (by simp [h])

theorem toList_margin (level : Nat) :
    (margin level).toList = '\n' :: List.replicate (2 * level) ' ' := by
  rw [margin, String.toList_ofList]

theorem isBlank_of_mem_margin (level : Nat) : ∀ c ∈ (margin level).toList, isBlank c = true := by
  intro c hc
  rw [toList_margin] at hc
  rcases List.mem_cons.mp hc with rfl | hc
  · rfl
  · rw [List.eq_of_mem_replicate hc]
    rfl

/-! ## The parts of a value -/

section

variable (steps room : Nat) (cs : List Char)

theorem readValue_string :
    readValue (steps + 1) room ('"' :: cs) =
      (readString? cs).map fun (text, rest) => (.string text, rest) := by
  rw [readValue]
  rfl

theorem readValue_space : readValue steps room (' ' :: cs) = readValue steps room cs :=
  readValue_append (List.forall_mem_singleton.mpr rfl) steps room cs

theorem readValue_emptyArray :
    readValue (steps + 1) (room + 1) ('[' :: ']' :: cs) = some (.array [], cs) := by
  rw [readValue]
  rfl

theorem readValue_emptyObject :
    readValue (steps + 1) (room + 1) ('\x7b' :: '\x7d' :: cs) = some (.object [], cs) := by
  rw [readValue]
  rfl

theorem readValue_array {c : Char} (level : Nat) (hblank : isBlank c = false) (hc : c ≠ ']') :
    readValue (steps + 1) (room + 1) ('[' :: ((margin level).toList ++ c :: cs)) =
      (readItems steps room (c :: cs)).map fun (items, rest) => (.array items, rest) := by
  rw [readValue, skipBlanks_cons rfl]
  simp only [skipBlanks_append (isBlank_of_mem_margin level), skipBlanks_cons hblank]
  split
  · contradiction
  · next h => exact absurd (List.cons.inj h).1 hc
  · next hroom _ => rw [Nat.succ.inj hroom]

theorem readValue_object (level : Nat) :
    readValue (steps + 1) (room + 1) ('\x7b' :: ((margin level).toList ++ '"' :: cs)) =
      (readEntries steps room ('"' :: cs)).map fun (entries, rest) => (.object entries, rest) := by
  rw [readValue, skipBlanks_cons rfl]
  have hquote : isBlank '"' = false := rfl
  simp only [skipBlanks_append (isBlank_of_mem_margin level), skipBlanks_cons hquote]
  rfl

end

theorem ne_of_sign_or_digit {c d : Char} (hc : c = '-' ∨ Text.isAsciiDigit c = true)
    (hd : ¬ (d = '-' ∨ Text.isAsciiDigit d = true)) : c ≠ d := by
  rintro rfl
  exact hd hc

theorem isBlank_of_sign_or_digit {c : Char} (hc : c = '-' ∨ Text.isAsciiDigit c = true) :
    isBlank c = false := by
  have hne := fun d : Char => @ne_of_sign_or_digit c d hc
  simp [isBlank, hne ' ' (by decide), hne '\n' (by decide), hne '\t' (by decide),
    hne '\r' (by decide)]

theorem readValue_number {steps room : Nat} {c : Char} {cs : List Char}
    (hc : c = '-' ∨ Text.isAsciiDigit c = true) :
    readValue (steps + 1) room (c :: cs) =
      (readNumber? (c :: cs)).map fun (value, rest) => (.number value, rest) := by
  have hne := fun d : Char => @ne_of_sign_or_digit c d hc
  rw [readValue, skipBlanks_cons (isBlank_of_sign_or_digit hc)]
  split
  · next h => exact absurd (List.cons.inj h).1 (hne 'n' (by decide))
  · next h => exact absurd (List.cons.inj h).1 (hne 't' (by decide))
  · next h => exact absurd (List.cons.inj h).1 (hne 'f' (by decide))
  · next h => exact absurd (List.cons.inj h).1 (hne '"' (by decide))
  · next h => exact absurd (List.cons.inj h).1 (hne '[' (by decide))
  · next h => exact absurd (List.cons.inj h).1 (hne '\x7b' (by decide))
  · rfl

/-! ## Values -/

/-- A value is read from its text at any level, whatever follows. An element or entry takes two
steps, one for itself and one for its value, and has a character in front of it. -/
def ReadsFrom (room : Nat) (json : Json) : Prop :=
  ∀ (level steps : Nat) (rest : List Char), Ends rest →
    2 * (json.prettyAt level).length ≤ steps →
      readValue (steps + 1) room ((json.prettyAt level).toList ++ rest) = some (json, rest)

theorem ends_margin (level : Nat) (cs : List Char) : Ends ((margin level).toList ++ cs) := by
  rw [toList_margin]
  exact fun c hc => Or.inr (Option.some.inj hc).symm

theorem toList_prettyItems_cons (level : Nat) (item : Json) (items : List Json) :
    (prettyItems level (item :: items)).toList =
      ',' :: ((margin level).toList ++
        ((item.prettyAt level).toList ++ (prettyItems level items).toList)) := by
  simp [prettyItems]

theorem toList_prettyEntries_cons (level : Nat) (key : String) (value : Json)
    (entries : List (String × Json)) :
    (prettyEntries level ((key, value) :: entries)).toList =
      ',' :: ((margin level).toList ++ ((quoted key).toList ++ ':' :: ' ' ::
        ((value.prettyAt level).toList ++ (prettyEntries level entries).toList))) := by
  simp [prettyEntries]

theorem ends_prettyItems (level : Nat) (items : List Json) {cs : List Char} (h : Ends cs) :
    Ends ((prettyItems level items).toList ++ cs) := by
  cases items with
  | nil => exact h
  | cons item items =>
    rw [toList_prettyItems_cons]
    exact fun c hc => Or.inl (Option.some.inj hc).symm

theorem ends_prettyEntries (level : Nat) (entries : List (String × Json)) {cs : List Char}
    (h : Ends cs) : Ends ((prettyEntries level entries).toList ++ cs) := by
  cases entries with
  | nil => exact h
  | cons entry entries =>
    rw [toList_prettyEntries_cons]
    exact fun c hc => Or.inl (Option.some.inj hc).symm

/-! ## Elements and entries -/

section

variable {steps room : Nat} {cs tail more rest : List Char} {item : Json}

theorem readItems_last (hitem : readValue steps room cs = some (item, tail))
    (htail : skipBlanks tail = ']' :: rest) :
    readItems (steps + 1) room cs = some ([item], rest) := by
  rw [readItems, hitem]
  simp only [htail]

theorem readItems_more {items : List Json} (hitem : readValue steps room cs = some (item, tail))
    (htail : skipBlanks tail = ',' :: more)
    (hmore : readItems steps room more = some (items, rest)) :
    readItems (steps + 1) room cs = some (item :: items, rest) := by
  rw [readItems, hitem]
  simp only [htail, hmore]
  rfl

theorem readKey?_quoted (key : String) (cs : List Char) :
    readKey? ((quoted key).toList ++ ':' :: cs) = some (key, cs) := by
  rw [toList_quoted, List.cons_append, List.append_assoc, readKey?, skipBlanks_cons rfl]
  simp only [List.singleton_append, readString?_escaped]
  rfl

theorem readEntries_last {key : String} (hitem : readValue steps room cs = some (item, tail))
    (htail : skipBlanks tail = '\x7d' :: rest) :
    readEntries (steps + 1) room ((quoted key).toList ++ ':' :: ' ' :: cs) =
      some ([(key, item)], rest) := by
  rw [readEntries, readKey?_quoted]
  simp only [readValue_space, hitem, htail]

theorem readEntries_more {key : String} {entries : List (String × Json)}
    (hitem : readValue steps room cs = some (item, tail)) (htail : skipBlanks tail = ',' :: more)
    (hmore : readEntries steps room more = some (entries, rest)) :
    readEntries (steps + 1) room ((quoted key).toList ++ ':' :: ' ' :: cs) =
      some ((key, item) :: entries, rest) := by
  rw [readEntries, readKey?_quoted]
  simp only [readValue_space, hitem, htail, hmore]
  rfl

end

section

variable {room level close : Nat} {rest : List Char}

/-- **Elements are read one after the other**, up to the closing bracket. -/
theorem readItems_pretty : ∀ (items : List Json) {item : Json},
    (∀ json ∈ item :: items, ReadsFrom room json) → ∀ (steps : Nat),
      2 * ((item.prettyAt level).length + (prettyItems level items).length) + 2 ≤ steps →
        readItems steps room ((item.prettyAt level).toList ++ ((prettyItems level items).toList ++
          ((margin close).toList ++ ']' :: rest))) = some (item :: items, rest)
  | _, _, _, 0, hsteps | _, _, _, 1, hsteps => absurd hsteps (by omega)
  | [], item, h, steps + 2, hsteps => by
    have hitem := h item List.mem_cons_self level steps _
      (ends_prettyItems level [] (ends_margin close (']' :: rest))) (by omega)
    exact readItems_last hitem (skipBlanks_append (isBlank_of_mem_margin close) (']' :: rest))
  | next :: items, item, h, steps + 2, hsteps => by
    have hitem := h item List.mem_cons_self level steps _
      (ends_prettyItems level (next :: items) (ends_margin close (']' :: rest))) (by omega)
    have hlength : (prettyItems level (next :: items)).length =
        1 + (margin level).length + (next.prettyAt level).length +
          (prettyItems level items).length := by
      rw [prettyItems, String.length_append, String.length_append, String.length_append]
      rfl
    have hmore := readItems_pretty items
      (fun json hjson => h json (List.mem_cons_of_mem item hjson)) (steps + 1) (by omega)
    rw [← readItems_append (isBlank_of_mem_margin level)] at hmore
    refine readItems_more hitem ?_ hmore
    rw [toList_prettyItems_cons, List.cons_append, skipBlanks_cons rfl]
    simp only [List.append_assoc]

/-- **Entries are read one after the other**, up to the closing brace. -/
theorem readEntries_pretty : ∀ (entries : List (String × Json)) {key : String} {value : Json},
    (∀ entry ∈ (key, value) :: entries, ReadsFrom room entry.2) → ∀ (steps : Nat),
      2 * ((value.prettyAt level).length + (prettyEntries level entries).length) + 2 ≤ steps →
        readEntries steps room ((quoted key).toList ++ ':' :: ' ' ::
          ((value.prettyAt level).toList ++ ((prettyEntries level entries).toList ++
            ((margin close).toList ++ '\x7d' :: rest)))) =
          some ((key, value) :: entries, rest)
  | _, _, _, _, 0, hsteps | _, _, _, _, 1, hsteps => absurd hsteps (by omega)
  | [], key, value, h, steps + 2, hsteps => by
    have hfirst : ReadsFrom room value := h (key, value) List.mem_cons_self
    have hvalue := hfirst level steps _
      (ends_prettyEntries level [] (ends_margin close ('\x7d' :: rest))) (by omega)
    exact readEntries_last hvalue
      (skipBlanks_append (isBlank_of_mem_margin close) ('\x7d' :: rest))
  | (next, nextValue) :: entries, key, value, h, steps + 2, hsteps => by
    have hfirst : ReadsFrom room value := h (key, value) List.mem_cons_self
    have hvalue := hfirst level steps _
      (ends_prettyEntries level ((next, nextValue) :: entries)
        (ends_margin close ('\x7d' :: rest))) (by omega)
    have hlength : (prettyEntries level ((next, nextValue) :: entries)).length =
        1 + (margin level).length + (quoted next).length + 2 + (nextValue.prettyAt level).length +
          (prettyEntries level entries).length := by
      rw [prettyEntries, String.length_append, String.length_append, String.length_append,
        String.length_append, String.length_append]
      rfl
    have hmore := readEntries_pretty entries
      (fun entry hentry => h entry (List.mem_cons_of_mem (key, value) hentry)) (steps + 1)
      (by omega)
    rw [← readEntries_append (isBlank_of_mem_margin level)] at hmore
    refine readEntries_more hvalue ?_ hmore
    rw [toList_prettyEntries_cons, List.cons_append, skipBlanks_cons rfl]
    simp only [List.append_assoc, List.cons_append]

end

/-! ## Texts -/

theorem exists_integerText_eq_cons (n : Int) :
    ∃ c cs, Number.integerText n = c :: cs ∧ (c = '-' ∨ Text.isAsciiDigit c = true) := by
  unfold Number.integerText
  split_ifs
  · exact ⟨'-', _, rfl, Or.inl rfl⟩
  · obtain ⟨d, ds, hds, hd⟩ := exists_digitsOf_eq_cons n.natAbs
    exact ⟨d, ds, hds, Or.inr hd⟩

theorem toList_prettyAt_array (level : Nat) (item : Json) (items : List Json) :
    (prettyAt level (.array (item :: items))).toList =
      '[' :: ((margin (level + 1)).toList ++ ((item.prettyAt (level + 1)).toList ++
        ((prettyItems (level + 1) items).toList ++ ((margin level).toList ++ [']'])))) := by
  simp [prettyAt]

theorem toList_prettyAt_object (level : Nat) (key : String) (value : Json)
    (entries : List (String × Json)) :
    (prettyAt level (.object ((key, value) :: entries))).toList =
      '\x7b' :: ((margin (level + 1)).toList ++ ((quoted key).toList ++ ':' :: ' ' ::
        ((value.prettyAt (level + 1)).toList ++ ((prettyEntries (level + 1) entries).toList ++
          ((margin level).toList ++ ['\x7d']))))) := by
  simp [prettyAt]

theorem length_prettyAt_array (level : Nat) (item : Json) (items : List Json) :
    (item.prettyAt (level + 1)).length + (prettyItems (level + 1) items).length + 2 ≤
      (prettyAt level (.array (item :: items))).length := by
  have hlength := congrArg List.length (toList_prettyAt_array level item items)
  simp only [List.length_cons, List.length_append, String.length_toList, List.length_nil]
    at hlength
  omega

theorem length_prettyAt_object (level : Nat) (key : String) (value : Json)
    (entries : List (String × Json)) :
    (value.prettyAt (level + 1)).length + (prettyEntries (level + 1) entries).length + 2 ≤
      (prettyAt level (.object ((key, value) :: entries))).length := by
  have hlength := congrArg List.length (toList_prettyAt_object level key value entries)
  simp only [List.length_cons, List.length_append, String.length_toList, List.length_nil]
    at hlength
  omega

/-- The text of a legible value starts with neither a blank nor a closing bracket. -/
theorem exists_prettyAt_eq_cons {room : Nat} {json : Json} (h : Legible room json) (level : Nat) :
    ∃ c cs, (json.prettyAt level).toList = c :: cs ∧ isBlank c = false ∧ c ≠ ']' := by
  cases h with
  | null => exact ⟨'n', ['u', 'l', 'l'], by simp [prettyAt], rfl, by decide⟩
  | @boolean _ value =>
    cases value with
    | true => exact ⟨'t', ['r', 'u', 'e'], by simp [prettyAt], rfl, by decide⟩
    | false => exact ⟨'f', ['a', 'l', 's', 'e'], by simp [prettyAt], rfl, by decide⟩
  | @integer _ n _ =>
    obtain ⟨c, cs, htext, hc⟩ := exists_integerText_eq_cons n
    refine ⟨c, cs, ?_, isBlank_of_sign_or_digit hc, ?_⟩
    · rw [prettyAt, Number.render, String.toList_ofList, htext]
    · exact ne_of_sign_or_digit hc (by decide)
  | @string _ text =>
    rw [prettyAt]
    exact ⟨'"', _, toList_quoted text, rfl, by decide⟩
  | @array _ items _ =>
    cases items with
    | nil => exact ⟨'[', [']'], by simp [prettyAt], rfl, by decide⟩
    | cons item items => exact ⟨'[', _, toList_prettyAt_array level item items, rfl, by decide⟩
  | @object _ entries _ =>
    cases entries with
    | nil => exact ⟨'\x7b', ['\x7d'], by simp [prettyAt], rfl, by decide⟩
    | cons entry entries =>
      exact ⟨'\x7b', _, toList_prettyAt_object level entry.1 entry.2 entries, rfl, by decide⟩

/-- **A legible value is read from its text.** -/
theorem readsFrom_of_legible {room : Nat} {json : Json} (h : Legible room json) :
    ReadsFrom room json := by
  -- Along the legible value: its elements and entries are legible with one level less.
  induction h with
  | null =>
    intro level steps rest _ _
    rw [prettyAt, readValue]
    rfl
  | @boolean room value =>
    intro level steps rest _ _
    rw [prettyAt, readValue]
    cases value <;> rfl
  | @integer room n hfits =>
    intro level steps rest hrest _
    obtain ⟨c, cs, htext, hc⟩ := exists_integerText_eq_cons n
    have hnumber := readNumber?_integerText hfits hrest
    rw [htext, List.cons_append] at hnumber
    rw [prettyAt, Number.render, String.toList_ofList, htext, List.cons_append,
      readValue_number hc, hnumber]
    rfl
  | @string room text =>
    intro level steps rest _ _
    rw [prettyAt, toList_quoted, List.cons_append, readValue_string, List.append_assoc,
      List.singleton_append, readString?_escaped]
    rfl
  | @array room items hitems ih =>
    intro level steps rest _ hsteps
    cases items with
    | nil =>
      rw [prettyAt]
      exact readValue_emptyArray steps room rest
    | cons item items =>
      obtain ⟨c, cs, htext, hblank, hc⟩ :=
        exists_prettyAt_eq_cons (hitems item List.mem_cons_self) (level + 1)
      have hlength := length_prettyAt_array level item items
      have hread : readItems steps room ((item.prettyAt (level + 1)).toList ++
          ((prettyItems (level + 1) items).toList ++ ((margin level).toList ++ ']' :: rest))) =
            some (item :: items, rest) := readItems_pretty items ih steps (by omega)
      rw [htext, List.cons_append] at hread
      rw [toList_prettyAt_array, htext]
      simp only [List.cons_append, List.append_assoc, List.nil_append]
      rw [readValue_array _ _ _ _ hblank hc, hread]
      rfl
  | @object room entries hentries ih =>
    intro level steps rest _ hsteps
    cases entries with
    | nil =>
      rw [prettyAt]
      exact readValue_emptyObject steps room rest
    | cons entry entries =>
      obtain ⟨key, value⟩ := entry
      have hlength := length_prettyAt_object level key value entries
      have hread : readEntries steps room ((quoted key).toList ++ ':' :: ' ' ::
          ((value.prettyAt (level + 1)).toList ++ ((prettyEntries (level + 1) entries).toList ++
            ((margin level).toList ++ '\x7d' :: rest)))) = some ((key, value) :: entries, rest) :=
        readEntries_pretty entries ih steps (by omega)
      rw [toList_quoted, List.cons_append] at hread
      rw [toList_prettyAt_object, toList_quoted]
      simp only [List.cons_append, List.append_assoc, List.nil_append] at hread ⊢
      rw [readValue_object, hread]
      rfl

theorem ends_nil : Ends [] := by
  intro c hc
  exact absurd hc (by simp)

/-- **The text of a value is read as the value**, when it does not nest too deep. -/
theorem read?_pretty {json : Json} (h : Legible maxNesting json) :
    read? json.pretty = some json := by
  have hlength : json.pretty.toList.length = (json.prettyAt 0).length := String.length_toList
  have hread := readsFrom_of_legible h 0 (2 * json.pretty.toList.length + 1) [] ends_nil (by omega)
  rw [List.append_nil] at hread
  unfold read?
  rw [pretty] at hread ⊢
  simp only [hread]
  rfl

end Dataflow.Json
