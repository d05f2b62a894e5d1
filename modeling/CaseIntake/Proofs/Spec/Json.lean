import CaseIntake.Proofs.Value.Ordered
import CaseIntake.Spec.Json

/-!
# CaseIntake.Proofs.Spec.Json

Test specifications come back from JSON as they were, but for one thing: an assertion that expects
`null` comes back expecting nothing. `Spec.withoutNulls` says what is left, and
`Spec.decode_sorted_toJson` says that it is read back so.

An assertion without an expected value is written without the field, and one that expects `null`
with it. The reader makes no difference between the two. A value of the inputs has a field of its
own, so there `null` stays.
-/

namespace CaseIntake

/-! ## What comes back -/

/-- The assertion, without an expected value if that is `null`. -/
def Assertion.withoutNull (a : Assertion) : Assertion :=
  { a with expected := a.expected.filter (!·.isNull) }

def Spec.withoutNulls (s : Spec) : Spec :=
  { s with assertions := s.assertions.map Assertion.withoutNull }

/-- The maps in the values of the specification have ascending keys. -/
structure Spec.Ordered (s : Spec) : Prop where
  inputs : s.inputs.Ordered
  expected : ∀ a ∈ s.assertions, ∀ v, a.expected = some v → v.Ordered

theorem Assertion.withoutNull_eq_self_iff {a : Assertion} :
    a.withoutNull = a ↔ a.expected ≠ some .null := by
  rw [← Value.filter_isNull_eq_self_iff]
  constructor
  · intro h
    exact congrArg Assertion.expected h
  · intro h
    rw [withoutNull, h]

/-- A specification loses something iff one of its assertions expects `null`. -/
theorem Spec.withoutNulls_eq_self_iff {s : Spec} :
    s.withoutNulls = s ↔ ∀ a ∈ s.assertions, a.expected ≠ some .null := by
  have hassertions : s.withoutNulls = s ↔
      s.assertions.map Assertion.withoutNull = s.assertions := by
    constructor
    · intro h
      exact congrArg Spec.assertions h
    · intro h
      rw [withoutNulls, h]
  rw [hassertions, map_eq_self_iff]
  exact forall₂_congr fun _ _ => Assertion.withoutNull_eq_self_iff

/-! ## Reading back -/

theorem Level.decode_toJson (l : Level) : Level.decode l.toJson.sorted = .ok l := by
  cases l <;> decide +kernel

theorem Assertion.decode_sorted_toJson {a : Assertion}
    (hordered : ∀ v, a.expected = some v → v.Ordered) :
    Assertion.decode a.toJson.sorted = .ok a.withoutNull := by
  rw [toJson, Assertion.decode]
  refine Shape.decoder_sorted_record (by simp) fun members hfield => ?_
  have hkind : Json.lookupLast "kind" members = some (.string a.kind) := by
    simp [hfield, findEntry, Json.sorted]
  have hactual : Json.lookupLast "actual" members = some (.string a.actual) := by
    simp [hfield, findEntry, Json.sorted]
  have hexpected : Json.lookupLast "expected" members =
      a.expected.map fun v => v.toJson.sorted := by
    simp [hfield, findEntry, Function.comp_def]
  have hmessage : Json.lookupLast "message" members = a.message.map .string := by
    simp [hfield, findEntry, Json.sorted, Function.comp_def]
  exact (((Shape.Reads.map Assertion.mk (Shape.reads_required hkind rfl)).seq
    (Shape.reads_required hactual rfl)).seq (Shape.reads_optional_value hexpected hordered)).seq
    (Shape.reads_optional_string hmessage)

theorem Spec.decode_sorted_toJson {s : Spec} (hordered : s.Ordered) :
    Spec.decode s.toJson.sorted = .ok s.withoutNulls := by
  rw [toJson, Spec.decode]
  refine Shape.decoder_sorted_record (by simp) fun members hfield => ?_
  have hid : Json.lookupLast "id" members = some (.string s.id) := by
    simp [hfield, findEntry, Json.sorted]
  have hlevel : Json.lookupLast "level" members = some s.level.toJson.sorted := by
    simp [hfield, findEntry]
  have hkind : Json.lookupLast "target_kind" members = some (.string s.targetKind) := by
    simp [hfield, findEntry, Json.sorted]
  have htarget : Json.lookupLast "target_id" members = some (.string s.targetId) := by
    simp [hfield, findEntry, Json.sorted]
  have hname : Json.lookupLast "function_name" members = some (.string s.functionName) := by
    simp [hfield, findEntry, Json.sorted]
  have hpath : Json.lookupLast "file_path" members = s.filePath.map .string := by
    simp [hfield, findEntry, Json.sorted, Function.comp_def]
  have hdescription : Json.lookupLast "description" members = some (.string s.description) := by
    simp [hfield, findEntry, Json.sorted]
  have hinputs : Json.lookupLast "inputs" members = some s.inputs.toJson.sorted := by
    simp [hfield, findEntry]
  have htypes : Json.lookupLast "input_types" members = some (Json.stringDict s.inputTypes) := by
    simp [hfield, findEntry, Json.sorted_stringDict]
  have horder : Json.lookupLast "arg_order" members = some (Json.strings s.argOrder) := by
    simp [hfield, findEntry, Json.sorted_strings]
  have hassertions : Json.lookupLast "assertions" members =
      some (.array (s.assertions.map fun a => a.toJson.sorted)) := by
    simp [hfield, findEntry, Json.sorted_array_map]
  have htags : Json.lookupLast "tags" members = some (Json.strings s.tags) := by
    simp [hfield, findEntry, Json.sorted_strings]
  have hpriority : Json.lookupLast "priority" members = some (.string s.priority) := by
    simp [hfield, findEntry, Json.sorted]
  have hdecodeTypes : Decoder.dict Decoder.string (Json.stringDict s.inputTypes) =
      .ok s.inputTypes := Decoder.dict_map fun _ _ => rfl
  have hdecodeAssertions :
      Decoder.list Assertion.decode (.array (s.assertions.map fun a => a.toJson.sorted)) =
        .ok (s.assertions.map Assertion.withoutNull) :=
    Decoder.list_array_map fun a ha => Assertion.decode_sorted_toJson (hordered.expected a ha)
  exact ((((((((((((Shape.Reads.map Spec.mk (Shape.reads_required hid rfl)).seq
    (Shape.reads_required hlevel (Level.decode_toJson s.level))).seq
    (Shape.reads_required hkind rfl)).seq
    (Shape.reads_required htarget rfl)).seq
    (Shape.reads_required hname rfl)).seq
    (Shape.reads_optional_string hpath)).seq
    (Shape.reads_required hdescription rfl)).seq
    (Shape.reads_required hinputs hordered.inputs.decode_sorted_toJson)).seq
    (Shape.reads_required htypes hdecodeTypes)).seq
    (Shape.reads_required horder (Decoder.list_strings s.argOrder))).seq
    (Shape.reads_required hassertions hdecodeAssertions)).seq
    (Shape.reads_withDefault htags (Decoder.list_strings s.tags))).seq
    (Shape.reads_required hpriority rfl)

end CaseIntake
