import Dataflow.Proofs.MemberChain.Chain
import Dataflow.Proofs.MemberChain.TypeColumn

/-!
# What is read from a type column and a path

The two columns of an endpoint, read by their parts. Every token of the path goes somewhere: the
links in front give the names of the type and the method, and the others are the suffix.

* `Run links names`: tokens `Instance` and `Member[name]`, and the names in them.
* `PathParts path links names rest`: the longest run at the start of a path, and the tokens behind.
* `ColumnParts column package short bare`: the package of a type column, what stands behind its
  first dot, and this without the class marker.

Results:
* `run_iff`, `pathParts_iff`: runs are lists of links, and every path has one longest run.
* `bareType_eq_iff`, `columnParts_iff`: every type column has its parts.
* `parse_eq_iff`: what is read is put together from the parts of both columns.
-/

namespace Dataflow.MemberChain

open AccessPath (texts join append)

/-! ## Runs of links -/

/-- Links, and the names of the members among them. -/
inductive Run : List String → List String → Prop
  | nil : Run [] []
  | viaInstance {links names : List String} (h : Run links names) :
      Run ("Instance" :: links) names
  | member {name : String} {links names : List String} (hname : name ≠ "")
      (hline : '\n' ∉ name.toList) (h : Run links names) :
      Run (("Member[" ++ name ++ "]") :: links) (name :: names)

/-- **Runs are lists of links**, and their names are read off them. -/
theorem run_iff {links names : List String} :
    Run links names ↔ (∀ token ∈ links, IsLink token) ∧ names = links.filterMap memberName? := by
  constructor
  · intro h
    induction h with
    | nil => exact ⟨List.forall_mem_nil _, rfl⟩
    | viaInstance _ ih =>
      refine ⟨List.forall_mem_cons.mpr ⟨Or.inl rfl, ih.1⟩, ?_⟩
      rw [List.filterMap_cons_none memberName?_instance, ih.2]
    | member hname hline _ ih =>
      refine ⟨List.forall_mem_cons.mpr ⟨Or.inr ⟨_, hname, hline, rfl⟩, ih.1⟩, ?_⟩
      rw [List.filterMap_cons_some (memberName?_eq_some_iff.mpr ⟨hname, hline, rfl⟩), ih.2]
  · rintro ⟨hlinks, rfl⟩
    induction links with
    | nil => exact .nil
    | cons token links ih =>
      obtain ⟨htoken, hmore⟩ := List.forall_mem_cons.mp hlinks
      rcases htoken with rfl | ⟨name, hname, hline, rfl⟩
      · rw [List.filterMap_cons_none memberName?_instance]
        exact .viaInstance (ih hmore)
      · rw [List.filterMap_cons_some (memberName?_eq_some_iff.mpr ⟨hname, hline, rfl⟩)]
        exact .member hname hline (ih hmore)

theorem Run.ne_empty {links names : List String} (h : Run links names) :
    ∀ name ∈ names, name ≠ "" := by
  induction h with
  | nil => exact List.forall_mem_nil _
  | viaInstance _ ih => exact ih
  | member hname _ _ ih => exact List.forall_mem_cons.mpr ⟨hname, ih⟩

/-! ## The parts of the two columns -/

/-- The longest run of links at the start of a path, and the tokens behind it. -/
structure PathParts (path : String) (links names rest : List String) : Prop where
  tokens : texts path = links ++ rest
  run : Run links names
  longest : ∀ other otherNames, Run other otherNames → other <+: texts path →
    other.length ≤ links.length

/-- The package of a type column, the text behind its first dot, and this text without its
marker. -/
structure ColumnParts (column package short bare : String) : Prop where
  undotted : '.' ∉ package.toList
  parts : (column = package ∧ short = "") ∨ column = package ++ "." ++ short
  marker : short = bare ++ "!" ∨ (short = bare ∧ ¬ Marked short)

/-- **Every path has one longest run.** -/
theorem pathParts_iff {path : String} {links names rest : List String} :
    PathParts path links names rest ↔
      links = (texts path).takeWhile (IsLink ·) ∧ rest = (texts path).dropWhile (IsLink ·) ∧
        names = links.filterMap memberName? := by
  have htake : ∀ {front : List String} (back : List String), (∀ token ∈ front, IsLink token) →
      (front ++ back).takeWhile (IsLink ·) = front ++ back.takeWhile (IsLink ·) :=
    fun back hfront => List.takeWhile_append_of_pos fun token h => decide_eq_true (hfront token h)
  have hlinks : ∀ token ∈ (texts path).takeWhile (IsLink ·), IsLink token :=
    fun _ => isLink_of_mem_chain
  constructor
  · intro h
    obtain ⟨hrun, rfl⟩ := run_iff.mp h.run
    have hle := h.longest _ _ (run_iff.mpr ⟨hlinks, rfl⟩) (List.takeWhile_prefix _)
    have hwhole := List.takeWhile_append_dropWhile (p := (decide <| IsLink ·)) (l := texts path)
    rw [h.tokens, htake rest hrun, List.length_append] at hle
    have hnil : rest.takeWhile (IsLink ·) = [] := List.length_eq_zero_iff.mp (by omega)
    have htaken : links = (texts path).takeWhile (IsLink ·) := by
      rw [h.tokens, htake rest hrun, hnil, List.append_nil]
    refine ⟨htaken, ?_, rfl⟩
    rw [← htaken] at hwhole
    exact List.append_cancel_left (h.tokens.symm.trans hwhole.symm)
  · rintro ⟨rfl, rfl, rfl⟩
    refine ⟨List.takeWhile_append_dropWhile.symm, run_iff.mpr ⟨hlinks, rfl⟩, ?_⟩
    rintro other otherNames hother ⟨back, hback⟩
    rw [← hback, htake back (run_iff.mp hother).1, List.length_append]
    exact Nat.le_add_right _ _

/-- The type is what the marker was put behind, or has none. -/
theorem bareType_eq_iff {short bare : String} :
    bareType short = bare ↔ short = bare ++ "!" ∨ (short = bare ∧ ¬ Marked short) := by
  constructor
  · rintro rfl
    by_cases hmarked : Marked short
    · obtain ⟨bare, rfl⟩ := marked_iff.mp hmarked
      rw [bareType_append_marker]
      exact Or.inl rfl
    · exact Or.inr ⟨(bareType_of_not_marked hmarked).symm, hmarked⟩
  · rintro (rfl | ⟨rfl, hmarked⟩)
    · exact bareType_append_marker bare
    · exact bareType_of_not_marked hmarked

/-- **Every type column has one package**, one text behind it and one type. -/
theorem columnParts_iff {column package short bare : String} :
    ColumnParts column package short bare ↔
      splitType column = (package, short) ∧ bareType short = bare := by
  rw [splitType, Text.splitFirst_eq_iff, bareType_eq_iff]
  exact ⟨fun h => ⟨⟨h.undotted, h.parts⟩, h.marker⟩, fun h => ⟨h.1.1, h.1.2, h.2⟩⟩

theorem exists_pathParts (path : String) : ∃ links names rest, PathParts path links names rest :=
  ⟨_, _, _, pathParts_iff.mpr ⟨rfl, rfl, rfl⟩⟩

theorem exists_columnParts (column : String) :
    ∃ package short bare, ColumnParts column package short bare :=
  ⟨_, _, _, columnParts_iff.mpr ⟨rfl, rfl⟩⟩

/-! ## Reading by parts -/

/-- A text in front of others is left out when it is empty. -/
theorem append_join_of_ne_empty (text : String) {ts : List String} (h : ∀ t ∈ ts, t ≠ "") :
    append text (join ts) = join (if text = "" then ts else text :: ts) := by
  by_cases htext : text = ""
  · rw [if_pos htext, htext, AccessPath.append_empty_left]
  · rw [if_neg htext]
    by_cases hts : join ts = ""
    · rcases AccessPath.join_eq_empty_iff.mp hts with rfl | rfl
      · rw [hts, AccessPath.append_empty_right, AccessPath.join_singleton]
      · exact absurd rfl (h "" List.mem_cons_self)
    · exact AccessPath.append_join htext hts

/-- What is read is put together from the parts. -/
theorem parse_of_parts {column path package short bare : String} {links names rest : List String}
    (hcolumn : ColumnParts column package short bare) (hpath : PathParts path links names rest) :
    parse column path =
      { package := package
        typeName := join (if bare = "" then names.dropLast else bare :: names.dropLast)
        method := names.getLast?.getD ""
        endpointType :=
          if path = "" ∨ "Instance" ∈ links ∨ (short ≠ "" ∧ ¬ Marked short) then .method
          else .function
        suffix := join rest } := by
  obtain ⟨hsplit, rfl⟩ := columnParts_iff.mp hcolumn
  have hnames : ∀ name ∈ names.dropLast, name ≠ "" :=
    fun name h => hpath.run.ne_empty name (List.dropLast_subset _ h)
  obtain ⟨hlinks, rfl, rfl⟩ := pathParts_iff.mp hpath
  have hmethod : (decide (path = "") || decide ("Instance" ∈ links) ||
      (short != "" && !Text.endsWith '!' short)) = true ↔
        path = "" ∨ "Instance" ∈ links ∨ (short ≠ "" ∧ ¬ Marked short) := by
    simp only [Bool.or_eq_true, Bool.and_eq_true, decide_eq_true_eq, bne_iff_ne,
      Bool.not_eq_true', ← Bool.not_eq_true, Text.endsWith_iff, Marked, or_assoc]
  rw [← append_join_of_ne_empty _ hnames, ← if_congr hmethod rfl rfl]
  unfold parse
  rw [hsplit, ofTokens_eq, ← hlinks]

/-- **Every token is accounted for.** What is read from a type column and a path is put together
from their parts: the last name in the longest run of links is the method, the names before it stand
behind the type of the column, and the tokens behind the run are the suffix. The endpoint is a
method when the path is empty, when the run has an `Instance`, and when the column has a type
without the class marker. -/
theorem parse_eq_iff {column path : String} {parsed : Parsed} :
    parse column path = parsed ↔
      ∃ short bare links names rest,
        ColumnParts column parsed.package short bare ∧ PathParts path links names rest ∧
          parsed.typeName = join (if bare = "" then names.dropLast else bare :: names.dropLast) ∧
          parsed.method = names.getLast?.getD "" ∧
          parsed.endpointType =
            (if path = "" ∨ "Instance" ∈ links ∨ (short ≠ "" ∧ ¬ Marked short) then .method
              else .function) ∧
          parsed.suffix = join rest := by
  constructor
  · rintro rfl
    obtain ⟨package, short, bare, hcolumn⟩ := exists_columnParts column
    obtain ⟨links, names, rest, hpath⟩ := exists_pathParts path
    rw [parse_of_parts hcolumn hpath]
    exact ⟨short, bare, links, names, rest, hcolumn, hpath, rfl, rfl, rfl, rfl⟩
  · rintro ⟨short, bare, links, names, rest, hcolumn, hpath, htype, hmethod, hendpoint, hsuffix⟩
    rw [parse_of_parts hcolumn hpath, ← htype, ← hmethod, ← hendpoint, ← hsuffix]

/-- An `Instance` behind the run does not make a method. -/
example :
    parse "pkg.Outer!" "Member[Inner].Member[f].Argument[0].Instance" =
      ⟨"pkg", "Outer.Inner", "f", .function, "Argument[0].Instance"⟩ := by decide

end Dataflow.MemberChain
