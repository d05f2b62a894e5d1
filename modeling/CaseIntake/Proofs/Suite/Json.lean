import CaseIntake.Proofs.Value.Ordered
import CaseIntake.Suite.Json

/-!
# CaseIntake.Proofs.Suite.Json

Canonical suites come back from JSON as they were, but for one thing: where a value may be missing,
`null` is read as a missing one. `withoutNull` and `withoutNulls` say what is left of a variable, a
check, a case and a suite; `decode_sorted_toJson` says for each of them that it is read back so.

Records are written with their fields in the order of declaration and read with their members in
the order of the keys, so every statement is about the sorted tree.
-/

namespace CaseIntake

/-! ## What comes back -/

/-- The variable, without a value if its value is `null`. -/
def Variable.withoutNull (v : Variable) : Variable :=
  { v with value := v.value.filter (!·.isNull) }

def Check.withoutNull (c : Check) : Check :=
  { c with expected := c.expected.filter (!·.isNull) }

def TestCase.withoutNulls (c : TestCase) : TestCase :=
  { c with given := c.given.map Variable.withoutNull, checks := c.checks.map Check.withoutNull }

def Suite.withoutNulls (s : Suite) : Suite :=
  { s with tests := s.tests.map TestCase.withoutNulls }

/-- The maps in the values of the case have ascending keys. -/
structure TestCase.Ordered (c : TestCase) : Prop where
  given : ∀ v ∈ c.given, ∀ x, v.value = some x → x.Ordered
  checks : ∀ k ∈ c.checks, ∀ x, k.expected = some x → x.Ordered

def Suite.Ordered (s : Suite) : Prop :=
  ∀ c ∈ s.tests, c.Ordered

/-! ## The parts of a case -/

theorem Variable.decode_sorted_toJson {v : Variable}
    (hordered : ∀ x, v.value = some x → x.Ordered) :
    Variable.decode v.toJson.sorted = .ok v.withoutNull := by
  rw [toJson, Variable.decode]
  refine Shape.decoder_sorted_record (by simp) fun members hfield => ?_
  have hname : Json.lookupLast "name" members = some (.string v.name) := by
    simp [hfield, findEntry, Json.sorted]
  have hvalue : Json.lookupLast "value" members =
      some ((v.value.map Value.toJson).getD .null).sorted := by
    simp [hfield, findEntry]
  have hhint : Json.lookupLast "type" members = v.hint.map .string := by
    simp [hfield, findEntry, Json.sorted, Function.comp_def]
  have hdecode : Decoder.optional Value.decode ((v.value.map Value.toJson).getD .null).sorted =
      .ok (v.value.filter (!·.isNull)) := by
    cases hv : v.value with
    | none => rfl
    | some x =>
      rw [Value.filter_isNull]
      exact Value.optional_decode_sorted_toJson (hordered x hv)
  exact ((Shape.Reads.map Variable.mk (Shape.reads_withDefault hname rfl)).seq
    (Shape.reads_withDefault hvalue hdecode)).seq (Shape.reads_optional_string hhint)

theorem Invocation.decode_sorted_toJson (a : Invocation) :
    Invocation.decode a.toJson.sorted = .ok a := by
  have hrecord : ∃ members, a.toJson.sorted = .object members ∧
      Invocation.shape.Reads members a := by
    rw [toJson]
    refine Json.exists_sorted_record (by simp) fun members hfield => ?_
    have hcall : Json.lookupLast "call" members = some (.string a.call) := by
      simp [hfield, findEntry, Json.sorted]
    have hargs : Json.lookupLast "args" members = Json.unlessEmpty a.args := by
      simp [hfield, findEntry, Json.sorted_unlessEmpty]
    exact (Shape.Reads.map Invocation.mk (Shape.reads_withDefault hcall rfl)).seq
      (Shape.reads_strings hargs)
  obtain ⟨members, hobject, hreads⟩ := hrecord
  have hmembers : Invocation.shape.decodeMembers members = .ok a := by
    rw [Shape.decodeMembers, hreads]
    rfl
  rw [hobject, Invocation.decode]
  simp only [hmembers]
  rfl

theorem Check.decode_sorted_toJson {c : Check}
    (hordered : ∀ x, c.expected = some x → x.Ordered) :
    Check.decode c.toJson.sorted = .ok c.withoutNull := by
  rw [toJson, Check.decode]
  refine Shape.decoder_sorted_record (by simp) fun members hfield => ?_
  have htype : Json.lookupLast "type" members = some (.string c.type) := by
    simp [hfield, findEntry, Json.sorted]
  have hactual : Json.lookupLast "actual" members = some (.string c.actual) := by
    simp [hfield, findEntry, Json.sorted]
  have hexpected : Json.lookupLast "expected" members =
      c.expected.map fun x => x.toJson.sorted := by
    simp [hfield, findEntry, Function.comp_def]
  have hmessage : Json.lookupLast "message" members = c.message.map .string := by
    simp [hfield, findEntry, Json.sorted, Function.comp_def]
  exact (((Shape.Reads.map Check.mk (Shape.reads_withDefault htype rfl)).seq
    (Shape.reads_withDefault hactual rfl)).seq (Shape.reads_optional_value hexpected hordered)).seq
    (Shape.reads_optional_string hmessage)

/-! ## Cases and suites -/

theorem TestCase.decode_sorted_toJson {c : TestCase} (hordered : c.Ordered) :
    TestCase.decode c.toJson.sorted = .ok c.withoutNulls := by
  rw [toJson, TestCase.decode]
  refine Shape.decoder_sorted_record (by simp) fun members hfield => ?_
  have hname : Json.lookupLast "name" members = some (.string c.name) := by
    simp [hfield, findEntry, Json.sorted]
  have hdescription : Json.lookupLast "description" members = c.description.map .string := by
    simp [hfield, findEntry, Json.sorted, Function.comp_def]
  have hgiven : Json.lookupLast "given" members =
      some (.array (c.given.map fun v => v.toJson.sorted)) := by
    simp [hfield, findEntry, Json.sorted_array_map]
  have hwhen : Json.lookupLast "when" members = some c.action.toJson.sorted := by
    simp [hfield, findEntry]
  have hthen : Json.lookupLast "then" members =
      some (.array (c.checks.map fun k => k.toJson.sorted)) := by
    simp [hfield, findEntry, Json.sorted_array_map]
  have htags : Json.lookupLast "tags" members = Json.unlessEmpty c.tags := by
    simp [hfield, findEntry, Json.sorted_unlessEmpty]
  have hvariables : Decoder.list Variable.decode (.array (c.given.map fun v => v.toJson.sorted)) =
      .ok (c.given.map Variable.withoutNull) :=
    Decoder.list_array_map fun v hv => Variable.decode_sorted_toJson (hordered.given v hv)
  have hchecks : Decoder.list Check.decode (.array (c.checks.map fun k => k.toJson.sorted)) =
      .ok (c.checks.map Check.withoutNull) :=
    Decoder.list_array_map fun k hk => Check.decode_sorted_toJson (hordered.checks k hk)
  exact (((((Shape.Reads.map TestCase.mk (Shape.reads_withDefault hname rfl)).seq
    (Shape.reads_optional_string hdescription)).seq
    (Shape.reads_withDefault hgiven hvariables)).seq
    (Shape.reads_withDefault hwhen (Invocation.decode_sorted_toJson c.action))).seq
    (Shape.reads_withDefault hthen hchecks)).seq (Shape.reads_strings htags)

theorem Suite.decode_sorted_toJson {s : Suite} (hordered : s.Ordered) :
    Suite.decode s.toJson.sorted = .ok s.withoutNulls := by
  rw [toJson, Suite.decode]
  refine Shape.decoder_sorted_record (by simp) fun members hfield => ?_
  have hname : Json.lookupLast "function_name" members = some (.string s.functionName) := by
    simp [hfield, findEntry, Json.sorted]
  have hdescription : Json.lookupLast "description" members = s.description.map .string := by
    simp [hfield, findEntry, Json.sorted, Function.comp_def]
  have htests : Json.lookupLast "tests" members =
      some (.array (s.tests.map fun c => c.toJson.sorted)) := by
    simp [hfield, findEntry, Json.sorted_array_map]
  have hcases : Decoder.list TestCase.decode (.array (s.tests.map fun c => c.toJson.sorted)) =
      .ok (s.tests.map TestCase.withoutNulls) :=
    Decoder.list_array_map fun c hc => TestCase.decode_sorted_toJson (hordered c hc)
  exact ((Shape.Reads.map Suite.mk (Shape.reads_withDefault hname rfl)).seq
    (Shape.reads_optional_string hdescription)).seq (Shape.reads_withDefault htests hcases)

end CaseIntake
