import Dataflow.Proofs.Json.Record
import Dataflow.Wire.Model
import Dataflow.Wire.Report
import Dataflow.Wire.Row
import Dataflow.Wire.Suggestion

/-!
# Records that are written are read back

The fields of a record are written in order, those that are absent left out, so they are selected
when the record is read. In a modeled method the fields of the model stand beside those of the
identity. No name is shared, so each of the two is selected from the whole.

Results:
* `Method.reads`, `ModeledMethod.reads`, `Consistency.Notice.reads`, `Row.reads`: what is written is
  read back.
* `Validation.Finding.ofJson?_toJson`: so is a finding whose index is a 64-bit word.
* `Completion.reads`: so is a completion of any depth.
-/

namespace Dataflow

open Json (Reads bind_of_eq_some)

/-! ## Endpoints -/

theorem Identity.ofFields?_entries_append (identity : Identity) (rest : List (String × Json)) :
    ofFields? (identity.entries ++ rest) = some identity := by
  have htype : Json.named? (.ofNamed identity.endpointType) = some identity.endpointType :=
    Json.reads_named identity.endpointType
  simp [ofFields?, entries, Json.Fields.required, List.lookup_cons, Json.string?, htype]

/-! ## Usages -/

namespace Location

/-- The entries of a location. -/
def entries (location : Location) : List (String × Json) :=
  [("uri", .string location.uri), ("startLine", .ofNat location.startLine.toNat),
    ("startColumn", .ofNat location.startColumn.toNat),
    ("endLine", .ofNat location.endLine.toNat), ("endColumn", .ofNat location.endColumn.toNat)]

theorem reads : Reads ofJson? toJson := by
  intro location
  have hfields : location.toJson.record? fieldNames = some location.entries :=
    Json.record?_object (List.Sublist.refl fieldNames) (by decide)
  have huri : Json.Fields.required location.entries "uri" Json.string? = some location.uri :=
    Json.required_of_lookup Json.reads_string rfl
  have hstartLine : Json.Fields.required location.entries "startLine" Json.word32? =
      some location.startLine := Json.required_of_lookup Json.reads_word32 rfl
  have hstartColumn : Json.Fields.required location.entries "startColumn" Json.word32? =
      some location.startColumn := Json.required_of_lookup Json.reads_word32 rfl
  have hendLine : Json.Fields.required location.entries "endLine" Json.word32? =
      some location.endLine := Json.required_of_lookup Json.reads_word32 rfl
  have hendColumn : Json.Fields.required location.entries "endColumn" Json.word32? =
      some location.endColumn := Json.required_of_lookup Json.reads_word32 rfl
  unfold ofJson?
  rw [bind_of_eq_some hfields, bind_of_eq_some huri, bind_of_eq_some hstartLine,
    bind_of_eq_some hstartColumn, bind_of_eq_some hendLine, bind_of_eq_some hendColumn]
  rfl

end Location

namespace Usage

/-- The entries of a usage. -/
def entries (usage : Usage) : List (String × Json) :=
  ("label", .string usage.label) :: Json.optionalEntry "location" Location.toJson usage.location ++
    [("classification", .ofNamed usage.classification)]

theorem reads : Reads ofJson? toJson := by
  intro usage
  have hnames : (usage.entries.map Prod.fst).Sublist fieldNames := by
    unfold entries
    rw [List.map_append, List.map_cons]
    exact ((Json.map_fst_optionalEntry_sublist "location" _).cons_cons "label").append
      (List.Sublist.refl ["classification"])
  have hfields : usage.toJson.record? fieldNames = some usage.entries :=
    Json.record?_object hnames (by decide)
  have hlabel : Json.Fields.required usage.entries "label" Json.string? = some usage.label :=
    Json.required_of_lookup Json.reads_string (by simp [entries])
  have hlocation : Json.Fields.optional usage.entries "location" Location.ofJson? =
      some usage.location :=
    Json.optional_of_lookup Location.reads (by simp [Location.toJson])
      (by simp [entries, List.lookup_cons, List.lookup_append])
  have hclass : Json.Fields.defaulting usage.entries "classification" Json.named?
      UsageClass.unknown = some usage.classification :=
    Json.defaulting_of_lookup Json.reads_named _
      (by simp [entries, List.lookup_cons, List.lookup_append])
  unfold ofJson?
  rw [bind_of_eq_some hfields, bind_of_eq_some hlabel, bind_of_eq_some hlocation,
    bind_of_eq_some hclass]
  rfl

end Usage

/-! ## Methods -/

namespace Method

/-- The entries of a method. -/
def entries (method : Method) : List (String × Json) :=
  method.identity.entries ++
    ("library", .string method.library) ::
      Json.optionalEntry "libraryVersion" .string method.libraryVersion ++
    [("supported", .boolean method.supported), ("supportedType", .ofNamed method.supportedType),
      ("usages", .ofList Usage.toJson method.usages)] ++
    Json.optionalEntry "endpointKind" .string method.endpointKind

theorem map_fst_entries_sublist (method : Method) :
    (method.entries.map Prod.fst).Sublist (Identity.fieldNames ++ fieldNames) := by
  unfold entries
  rw [List.map_append, List.map_append, List.map_append, List.map_cons]
  exact (((List.Sublist.refl Identity.fieldNames).append
    ((Json.map_fst_optionalEntry_sublist "libraryVersion" _).cons_cons "library")).append
      (List.Sublist.refl ["supported", "supportedType", "usages"])).append
        (Json.map_fst_optionalEntry_sublist "endpointKind" _)

theorem reads : Reads ofJson? toJson := by
  intro method
  have hfields : method.toJson.objectFields? (Identity.fieldNames ++ fieldNames) =
      some method.entries :=
    Json.select?_of_sublist (by decide) method.map_fst_entries_sublist
  have hidentity : Identity.ofFields? method.entries = some method.identity := by
    unfold entries
    rw [List.append_assoc, List.append_assoc]
    exact method.identity.ofFields?_entries_append _
  have hlibrary : Json.Fields.defaulting method.entries "library" Json.string? "" =
      some method.library :=
    Json.defaulting_of_lookup Json.reads_string _
      (by simp [entries, Identity.entries, List.lookup_cons])
  have hversion : Json.Fields.optional method.entries "libraryVersion" Json.string? =
      some method.libraryVersion :=
    Json.optional_of_lookup Json.reads_string (by simp)
      (by simp [entries, Identity.entries, List.lookup_cons, List.lookup_append])
  have hsupported : Json.Fields.defaulting method.entries "supported" Json.boolean? false =
      some method.supported :=
    Json.defaulting_of_lookup Json.reads_boolean _
      (by simp [entries, Identity.entries, List.lookup_cons, List.lookup_append])
  have htype : Json.Fields.defaulting method.entries "supportedType" Json.named? Variant.none =
      some method.supportedType :=
    Json.defaulting_of_lookup Json.reads_named _
      (by simp [entries, Identity.entries, List.lookup_cons, List.lookup_append])
  have husages : Json.Fields.defaulting method.entries "usages" (Json.list? Usage.ofJson?) [] =
      some method.usages :=
    Json.defaulting_of_lookup Usage.reads.list _
      (by simp [entries, Identity.entries, List.lookup_cons, List.lookup_append])
  have hkind : Json.Fields.optional method.entries "endpointKind" Json.string? =
      some method.endpointKind :=
    Json.optional_of_lookup Json.reads_string (by simp)
      (by simp [entries, Identity.entries, List.lookup_cons, List.lookup_append])
  unfold ofJson?
  rw [bind_of_eq_some hfields, bind_of_eq_some hidentity, bind_of_eq_some hlibrary,
    bind_of_eq_some hversion, bind_of_eq_some hsupported, bind_of_eq_some htype,
    bind_of_eq_some husages, bind_of_eq_some hkind]
  rfl

end Method

/-! ## Models -/

namespace Model

theorem map_fst_fieldEntries (model : Model) :
    model.fieldEntries.map Prod.fst = fieldNames model.variant := by
  cases model <;> rfl

theorem ofFields?_fieldEntries (model : Model) :
    ofFields? model.fieldEntries model.variant = some model := by
  have hprovenance : ∀ provenance : Provenance,
      Json.named? (.ofNamed provenance) = some provenance := Json.reads_named
  cases model <;>
    simp [ofFields?, variant, fieldEntries, Json.Fields.required, Json.Fields.defaulting,
      List.lookup_cons, Json.string?, hprovenance]

theorem variantOfTag?_ofNamed (variant : Variant) :
    variantOfTag? (.ofNamed variant) = some variant := by
  have hname : variantOfName? (.ofNamed variant) = some variant := LawfulNamed.ofName?_name variant
  unfold variantOfTag?
  rw [hname, Option.some_or]

/-- The names of the fields of a model are neither those of an identity nor that of the variant. -/
theorem fieldNames_distinct (variant : Variant) :
    (∀ name ∈ Identity.fieldNames, name ∉ fieldNames variant) ∧ "type" ∉ fieldNames variant ∧
      (fieldNames variant).Nodup := by
  cases variant <;> decide

/-- A model is read from entries that stand behind those of an identity. -/
theorem ofEntries?_append (identity : Identity) (model : Model) :
    ofEntries? variantOfTag? (identity.entries ++ model.entries) = some model := by
  obtain ⟨hidentity, htype, hnodup⟩ := fieldNames_distinct model.variant
  have htag : Json.select? ["type"] (identity.entries ++ model.entries) =
      some [("type", .ofNamed model.variant)] := by
    have hbehind : ∀ name ∈ model.fieldEntries.map Prod.fst, name ∉ ["type"] := by
      intro name hname heq
      rw [map_fst_fieldEntries, List.mem_singleton.mp heq] at hname
      exact htype hname
    rw [Json.select?_append_right _ (by simp [Identity.entries])]
    exact (Json.select?_append_left [("type", .ofNamed model.variant)] hbehind).trans
      (Json.select?_of_sublist (by decide) (List.Sublist.refl ["type"]))
  have hvariant : Json.Fields.required [("type", .ofNamed model.variant)] "type" variantOfTag? =
      some model.variant :=
    Json.required_of_lookup variantOfTag?_ofNamed (by simp)
  have hfields : Json.select? (fieldNames model.variant) (identity.entries ++ model.entries) =
      some model.fieldEntries := by
    have hbefore : Json.select? (fieldNames model.variant) (identity.entries ++ model.entries) =
        Json.select? (fieldNames model.variant) model.entries :=
      Json.select?_append_right model.entries hidentity
    have hbehind : Json.select? (fieldNames model.variant) model.entries =
        Json.select? (fieldNames model.variant) model.fieldEntries :=
      @Json.select?_append_right _ [("type", .ofNamed model.variant)] _ (by simpa using htype)
    rw [hbefore, hbehind, Json.select?_of_sublist hnodup]
    rw [map_fst_fieldEntries]
  unfold ofEntries?
  rw [bind_of_eq_some htag, bind_of_eq_some hvariant, bind_of_eq_some hfields]
  exact ofFields?_fieldEntries model

end Model

theorem ModeledMethod.reads : Reads ofJson? toJson := by
  rintro ⟨identity, model⟩
  have hmodel : ∀ name ∈ model.entries.map Prod.fst, name ∉ Identity.fieldNames := by
    unfold Model.entries
    rw [List.map_cons, Model.map_fst_fieldEntries]
    cases model.variant <;> decide
  have hfields : Json.select? Identity.fieldNames (identity.entries ++ model.entries) =
      some identity.entries :=
    (Json.select?_append_left identity.entries hmodel).trans
      (Json.select?_of_sublist (by decide) (List.Sublist.refl Identity.fieldNames))
  have hidentity : Identity.ofFields? identity.entries = some identity := by
    rw [← List.append_nil identity.entries]
    exact identity.ofFields?_entries_append []
  unfold ofJson? toJson
  simp only
  rw [bind_of_eq_some hfields, bind_of_eq_some hidentity,
    bind_of_eq_some (Model.ofEntries?_append identity model)]
  rfl

/-! ## Reports -/

theorem Consistency.Notice.reads : Reads ofJson? toJson := by
  intro notice
  cases notice <;> rfl

namespace Validation.Finding

/-- The entries of a finding. -/
def entries (finding : Finding) : List (String × Json) :=
  [("index", .ofNat finding.index), ("kind", .ofNamed finding.rule),
    ("title", .string finding.title), ("message", .string finding.message),
    ("actionText", .string finding.actionText)]

theorem ofJson?_toJson {finding : Finding} (h : finding.index < UInt64.size) :
    ofJson? finding.toJson = some finding := by
  have hfields : finding.toJson.record? ["index", "kind", "title", "message", "actionText"] =
      some finding.entries :=
    Json.record?_object (List.Sublist.refl _) (by decide)
  have hindex : Json.Fields.required finding.entries "index" (Json.natBelow? UInt64.size) =
      some finding.index := Json.required_of_read rfl (Json.natBelow?_ofNat h)
  have hrule : Json.Fields.required finding.entries "kind" Json.named? = some finding.rule :=
    Json.required_of_lookup Json.reads_named rfl
  have htitle : Json.Fields.required finding.entries "title" Json.string? = some finding.title :=
    Json.required_of_lookup Json.reads_string rfl
  have hmessage : Json.Fields.required finding.entries "message" Json.string? =
      some finding.message := Json.required_of_lookup Json.reads_string rfl
  have haction : Json.Fields.required finding.entries "actionText" Json.string? =
      some finding.actionText := Json.required_of_lookup Json.reads_string rfl
  unfold ofJson?
  rw [bind_of_eq_some hfields, bind_of_eq_some hindex, bind_of_eq_some hrule,
    bind_of_eq_some htitle, bind_of_eq_some hmessage, bind_of_eq_some haction]
  rfl

end Validation.Finding

/-! ## Rows -/

theorem Row.reads : Reads Row.ofJson? Row.toJson := by
  have hscalar : Reads Scalar.ofJson? Scalar.toJson := by
    intro scalar
    cases scalar <;> rfl
  exact hscalar.list

/-! ## Completions -/

namespace Completion

/-- The entry of what continues a completion, left out when there is nothing. -/
def followupEntry : List Completion → List (String × Json)
  | [] => []
  | option :: options => [("followup", .array (toJsonList (option :: options)))]

/-- The entries of a completion. -/
def entries : Completion → List (String × Json)
  | node label value icon details followup =>
    [("label", .string label), ("value", .string value), ("icon", .string icon)] ++
      Json.optionalEntry "details" .string details ++ followupEntry followup

theorem toJson_eq (completion : Completion) : completion.toJson = .object completion.entries := by
  obtain ⟨label, value, icon, details, _ | ⟨option, options⟩⟩ := completion
  · rw [toJson, entries, followupEntry, List.append_nil]
  · rw [toJson, entries, followupEntry, toJsonList]

theorem map_fst_entries_sublist (completion : Completion) :
    (completion.entries.map Prod.fst).Sublist fieldNames := by
  obtain ⟨label, value, icon, details, followup⟩ := completion
  have hfollowup : ((followupEntry followup).map Prod.fst).Sublist ["followup"] := by
    cases followup with
    | nil => exact List.nil_sublist _
    | cons option options => exact List.Sublist.refl _
  unfold entries
  rw [List.map_append, List.map_append]
  exact ((List.Sublist.refl ["label", "value", "icon"]).append
    (Json.map_fst_optionalEntry_sublist "details" _)).append hfollowup

theorem lookup_details (completion : Completion) :
    completion.entries.lookup "details" = completion.details.map .string := by
  obtain ⟨label, value, icon, details, _ | ⟨option, options⟩⟩ := completion
  all_goals
    simp [entries, followupEntry, List.lookup_cons, List.lookup_append,
      Completion.details]

theorem lookup_followup (completion : Completion) :
    completion.entries.lookup "followup" =
      (followupEntry completion.followup).lookup "followup" := by
  obtain ⟨label, value, icon, details, followup⟩ := completion
  simp [entries, List.lookup_cons, List.lookup_append, Completion.followup]

/-- What continues a completion has fewer levels. -/
theorem itemsHeight_followup_lt (completion : Completion) :
    Json.itemsHeight (toJsonList completion.followup) < completion.toJson.height := by
  obtain ⟨label, value, icon, details, _ | ⟨option, options⟩⟩ := completion
  · exact Nat.succ_pos _
  · have hmem : ("followup", Json.array (toJsonList (option :: options))) ∈
        entries (node label value icon details (option :: options)) :=
      List.mem_append_right _ List.mem_cons_self
    have hheight := Json.height_le_entriesHeight hmem
    rw [toJson_eq]
    simp only [Json.height] at hheight ⊢
    show Json.itemsHeight (toJsonList (option :: options)) < _
    omega

mutual

/-- A completion is read back when as many levels are read as it has. -/
theorem ofJsonWithin?_toJson : ∀ (completion : Completion) (levels : Nat),
    completion.toJson.height ≤ levels → ofJsonWithin? levels completion.toJson = some completion
  | completion, 0, h => absurd completion.itemsHeight_followup_lt (by omega)
  | node label value icon details followup, levels + 1, h => by
    let completion := node label value icon details followup
    have hlevels : Json.itemsHeight (toJsonList followup) ≤ levels := by
      have hlt := completion.itemsHeight_followup_lt
      exact Nat.le_of_lt_succ (Nat.lt_of_lt_of_le hlt h)
    have hfields : completion.toJson.record? fieldNames = some completion.entries := by
      rw [toJson_eq]
      exact Json.record?_object completion.map_fst_entries_sublist (by decide)
    have hlabel : Json.Fields.required completion.entries "label" Json.string? = some label :=
      Json.required_of_lookup Json.reads_string (by simp [completion, entries])
    have hvalue : Json.Fields.required completion.entries "value" Json.string? = some value :=
      Json.required_of_lookup Json.reads_string (by simp [completion, entries, List.lookup_cons])
    have hicon : Json.Fields.required completion.entries "icon" Json.string? = some icon :=
      Json.required_of_lookup Json.reads_string (by simp [completion, entries, List.lookup_cons])
    have hdetails : Json.Fields.optional completion.entries "details" Json.string? =
        some details :=
      Json.optional_of_lookup Json.reads_string (by simp) completion.lookup_details
    have hfollowup : Json.Fields.defaulting completion.entries "followup"
        (Json.list? (ofJsonWithin? levels)) [] = some followup := by
      have hlookup := completion.lookup_followup
      have hlist := mapM_toJsonList followup levels hlevels
      unfold Json.Fields.defaulting
      rw [hlookup]
      cases followup with
      | nil => rfl
      | cons option options => exact hlist
    unfold ofJsonWithin?
    rw [bind_of_eq_some hfields, bind_of_eq_some hlabel, bind_of_eq_some hvalue,
      bind_of_eq_some hicon, bind_of_eq_some hdetails, bind_of_eq_some hfollowup]
    rfl

theorem mapM_toJsonList : ∀ (completions : List Completion) (levels : Nat),
    Json.itemsHeight (toJsonList completions) ≤ levels →
      (toJsonList completions).mapM (ofJsonWithin? levels) = some completions
  | [], _, _ => rfl
  | completion :: completions, levels, h => by
    unfold toJsonList Json.itemsHeight at h
    have hfirst := ofJsonWithin?_toJson completion levels (Nat.le_trans (Nat.le_max_left _ _) h)
    have hrest := mapM_toJsonList completions levels (Nat.le_trans (Nat.le_max_right _ _) h)
    rw [toJsonList, List.mapM_cons, bind_of_eq_some hfirst, bind_of_eq_some hrest]
    rfl

end

/-- **A completion of any depth is read back.** -/
theorem reads : Reads ofJson? toJson :=
  fun completion => ofJsonWithin?_toJson completion _ (Nat.le_refl _)

end Completion

end Dataflow
