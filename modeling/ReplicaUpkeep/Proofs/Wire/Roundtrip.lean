import ReplicaUpkeep.Proofs.Json.Records
import ReplicaUpkeep.Proofs.Json.Values
import ReplicaUpkeep.Proofs.Timestamp.Text
import ReplicaUpkeep.Wire.Outcome

/-!
# Images and directives that are read back

Writer and reader fix the form of each record apart from each other: names, keys, and what is written
where a value is missing.  They agree, field by field and for every value; so whatever is written as
text, in either layout, is read back as what it was.
-/

namespace ReplicaUpkeep

/-! ## Fields -/

theorem ContainerId.ofJson?_toJson (id : ContainerId) : ofJson? id.toJson = some id := by
  simp [ofJson?, toJson]

theorem ContainerState.ofJson?_name (c : ContainerState) : ofJson? (.str c.name) = some c := by
  simp [ofJson?, ofName?_name]

theorem ReplicaState.ofJson?_name (r : ReplicaState) : ofJson? (.str r.name) = some r := by
  simp [ofJson?, ofName?_name]

theorem OperationalState.ofJson?_name (o : OperationalState) : ofJson? (.str o.name) = some o := by
  simp [ofJson?, ofName?_name]

theorem NodeHealth.ofJson?_name (h : NodeHealth) : ofJson? (.str h.name) = some h := by
  simp [ofJson?, ofName?_name]

theorem DirectiveKind.ofJson?_name (k : DirectiveKind) : ofJson? (.str k.name) = some k := by
  simp [ofJson?, ofName?_name]

theorem Timestamp.ofJson?_toJson (t : Timestamp) : ofJson? t.toJson = some t := by
  simp [ofJson?, toJson, parse?_render]

theorem Timestamp.optional_toJson (t : Timestamp) :
    Json.optional ofJson? (some t.toJson) = some (some t) :=
  Json.optional_of_ne_null t.ofJson?_toJson nofun

namespace Json

theorem optional_str (s : String) : optional toText? (some (str s)) = some (some s) :=
  optional_of_ne_null (toText?_str s) nofun

/-- A text that may be missing is `null` where it is. -/
theorem optional_optionalText (t : Option String) :
    optional toText? (some (optionalText t)) = some t := by
  cases t with
  | none => rfl
  | some s => exact optional_str s

theorem optional_optionalWord (n : Option UInt64) :
    optional toWord? (some (optionalWord n)) = some n := by
  cases n with
  | none => rfl
  | some n => exact optional_of_ne_null (toWord?_word n) nofun

end Json

/-! ## Records -/

theorem Container.ofJson?_toJson (c : Container) : ofJson? c.toJson = some c := by
  rw [toJson, ofJson?, Json.fields?_record _ (by simp)]
  simp [List.lookup_cons, Json.required, Json.withDefault, ContainerId.ofJson?_toJson,
    ContainerState.ofJson?_name]

theorem Report.ofJson?_toJson (r : Report) : ofJson? r.toJson = some r := by
  rw [toJson, ofJson?, Json.fields?_record _ (by simp)]
  simp [List.lookup_cons, Json.required, Json.withDefault, Json.optional_optionalText,
    Json.optional_optionalWord, ContainerId.ofJson?_toJson, ReplicaState.ofJson?_name]

/-- An expiry is left out where there is none, and read as missing. -/
theorem NodeStatus.ofJson?_toJson (s : NodeStatus) : ofJson? s.toJson = some s := by
  obtain ⟨operational, health, expiry⟩ := s
  cases expiry <;>
  · rw [toJson, ofJson?, Json.fields?_record _ (by simp)]
    simp [List.lookup_cons, Json.required, Timestamp.optional_toJson,
      OperationalState.ofJson?_name, NodeHealth.ofJson?_name]

theorem NodeInfo.ofJson?_toJson (n : NodeInfo) : ofJson? n.toJson = some n := by
  rw [toJson, ofJson?, Json.fields?_record _ (by simp)]
  simp [List.lookup_cons, Json.required, Json.withDefault, NodeStatus.ofJson?_toJson]

theorem ClusterImage.ofJson?_toJson (i : ClusterImage) : ofJson? i.toJson = some i := by
  rw [toJson, ofJson?, Json.fields?_record _ (by simp)]
  simp [List.lookup_cons, Json.withDefault, Json.toList?_array NodeInfo.ofJson?_toJson,
    Json.toList?_array Container.ofJson?_toJson, Json.toList?_array Report.ofJson?_toJson]

/-- The nodes that a directive does not name are left out, and read as missing. -/
theorem Directive.ofJson?_toJson (d : Directive) : ofJson? d.toJson = some d := by
  obtain ⟨kind, container, target, source⟩ := d
  cases target <;> cases source <;>
  · rw [toJson, ofJson?, Json.recordOf, Json.fields?_record _ (by simp)]
    simp [List.lookup_cons, Json.required, Json.optional_str,
      DirectiveKind.ofJson?_name, ContainerId.ofJson?_toJson]

/-! ## Texts -/

theorem ClusterImage.ofText_of_parse? {s : String} {i : ClusterImage}
    (h : Json.parse? s = some i.toJson) : ofText s = .ok i := by
  simp [ofText, h, ofJson?_toJson]

theorem Directive.ofText_of_parse? {s : String} {d : Directive}
    (h : Json.parse? s = some d.toJson) : ofText s = .ok d := by
  simp [ofText, h, ofJson?_toJson]

/-- A file that holds a text is read as the text. -/
theorem ClusterImage.ofFile_toUTF8 (s : String) : ofFile (some s.toUTF8) = ofText s := by
  have hText : String.fromUTF8? s.toUTF8 = some s := dif_pos s.isValidUTF8
  rw [ofFile, Option.map_some, hText]

/-- Whatever is written is read back.  Every image is read back from its text in either layout, and
from the file that holds the text; every directive from its text in either layout.  No name, number,
moment or combination of what may be missing is an exception. -/
theorem images_and_directives_read_back :
    (∀ i : ClusterImage,
      ClusterImage.ofText i.toJson.render = .ok i ∧
        ClusterImage.ofText i.toJson.renderIndented = .ok i ∧
        ClusterImage.ofFile (some i.toJson.render.toUTF8) = .ok i) ∧
      ∀ d : Directive,
        Directive.ofText d.toJson.render = .ok d ∧
          Directive.ofText d.toJson.renderIndented = .ok d := by
  constructor
  · intro i
    have hCompact := ClusterImage.ofText_of_parse? (Json.parse?_render i.toJson)
    refine ⟨hCompact, ClusterImage.ofText_of_parse? (Json.parse?_renderIndented i.toJson), ?_⟩
    rw [ClusterImage.ofFile_toUTF8, hCompact]
  · intro d
    exact ⟨Directive.ofText_of_parse? (Json.parse?_render d.toJson),
      Directive.ofText_of_parse? (Json.parse?_renderIndented d.toJson)⟩

end ReplicaUpkeep
