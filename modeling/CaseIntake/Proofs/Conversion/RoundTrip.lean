import CaseIntake.Proofs.Conversion.Consistency
import CaseIntake.Proofs.SimpleCase.Decoded
import CaseIntake.Proofs.Spec.Json
import CaseIntake.Proofs.Suite.Decoded

/-!
# CaseIntake.Proofs.Conversion.RoundTrip

Specifications that ingestion hands on, written as JSON and read again: `ingest_reads_back`.

Conversion moves values from the document to the specification, or reads them from texts, and all
of these have ascending keys. So a specification comes back as it was but for an expected `null`. A
check of a canonical case never expects one; a simplified case does where its text says so.
-/

namespace CaseIntake
namespace Conversion

/-! ## Inputs -/

/-- One argument brings in no value but its own or a literal. -/
theorem Places.ordered {env : Environment} {index : Nat} {a : Argument} {inputs inputs' : Dict Value}
    {name : String} (h : Places env index inputs a name inputs') (ha : a.Ordered)
    (hinputs : inputs.Ordered) : inputs'.Ordered := by
  cases h with
  | named => exact hinputs.insert _ ha
  | bound _ => exact hinputs
  | textLiteral _ _ => exact hinputs.insert _ (Literal.ordered_coerce _)
  | valueLiteral _ _ => exact hinputs.insert _ ha

theorem PlacesAll.ordered {env : Environment} {index : Nat} {args : List Argument}
    {inputs inputs' : Dict Value} {names : List String}
    (h : PlacesAll env index inputs args names inputs') (hargs : ∀ a ∈ args, a.Ordered)
    (hinputs : inputs.Ordered) : inputs'.Ordered := by
  induction h with
  | nil => exact hinputs
  | cons hplace _ ih =>
    obtain ⟨ha, hrest⟩ := List.forall_mem_cons.1 hargs
    exact ih hrest (hplace.ordered ha hinputs)

theorem ordered_of_declareAll :
    ∀ {given : List Variable} {inputs values : Dict Value},
      (∀ v ∈ given, ∀ x, v.value = some x → x.Ordered) → inputs.Ordered →
      declareAll given inputs = .ok values → values.Ordered := by
  intro given
  induction given with
  | nil =>
    intro inputs values _ hinputs h
    obtain rfl := Except.ok.inj h
    exact hinputs
  | cons v rest ih =>
    intro inputs values hgiven hinputs h
    obtain ⟨hv, hrest⟩ := List.forall_mem_cons.1 hgiven
    have hvalue : (v.value.getD .null).Ordered := by
      cases hx : v.value with
      | none => trivial
      | some x => exact hv x hx
    rw [declareAll] at h
    split at h
    · cases h
    · exact ih hrest (hinputs.insert v.name hvalue) h

/-! ## Specifications -/

section Spec

variable {ctx : Context} {id : String} {spec : Spec}

theorem ordered_of_ofTest {c : TestCase} (h : c.Ordered) (hspec : ofTest ctx id c = .ok spec) :
    spec.Ordered := by
  rw [ofTest, inputsOfTest] at hspec
  cases hvalues : declareAll c.given .empty with
  | error e =>
    rw [hvalues] at hspec
    cases hspec
  | ok values =>
    have hinputs : values.Ordered := ordered_of_declareAll h.given Dict.ordered_empty hvalues
    rw [hvalues] at hspec
    simp only at hspec
    split at hspec
    · cases hspec
    · rename_i inputs hsome
      split at hsome
      · cases hsome
      · obtain rfl := Except.ok.inj hsome
        obtain rfl := Except.ok.inj hspec
        refine ⟨hinputs, fun a ha => ?_⟩
        obtain ⟨k, hk, rfl⟩ := List.mem_map.1 ha
        exact h.checks k hk

theorem present_of_ofTest {c : TestCase} (h : ∀ k ∈ c.checks, k.expected ≠ some .null)
    (hspec : ofTest ctx id c = .ok spec) : ∀ a ∈ spec.assertions, a.expected ≠ some .null := by
  rw [ofTest] at hspec
  split at hspec
  · cases hspec
  · obtain rfl := Except.ok.inj hspec
    intro a ha
    obtain ⟨k, hk, rfl⟩ := List.mem_map.1 ha
    exact h k hk

theorem ordered_of_ofSimple {c : SimpleCase} (h : c.Ordered) (hspec : ofSimple ctx id c = .ok spec) :
    spec.Ordered := by
  have hassertions : ∀ a ∈ c.checks.map ctx.assertion, ∀ v, a.expected = some v → v.Ordered := by
    intro a ha
    obtain ⟨k, hk, rfl⟩ := List.mem_map.1 ha
    exact h.checks k hk
  obtain ⟨args, _, _, hargs, hplaces, rfl⟩ := ofSimple_eq_ok_iff.1 hspec
  have hordered : ∀ a ∈ args, a.Ordered := by
    rcases argumentsOf_eq_ok_iff.1 hargs with ⟨-, rfl⟩ | ⟨action, haction, harguments⟩
    · simp
    · exact (h.action action haction).arguments harguments
  exact ⟨hplaces.ordered hordered h.setup, hassertions⟩

end Spec
end Conversion

/-! ## Documents -/

section Document

open Conversion

variable {ids : Nat → String} {target : Target} {o : Options} {text : String}

theorem Document.decoded_of_resolve {shape : DocumentShape} {s : Suite}
    (h : Document.resolve o text = .ok ⟨shape, .canonical s⟩) : ∀ c ∈ s.tests, c.Decoded := by
  obtain ⟨doc, -, hresolution⟩ := Document.resolve_eq_ok_iff.1 h
  cases hresolution with
  | suite _ hs => exact Suite.yields_decode doc s hs
  | testCase _ _ hc =>
    intro c hmem
    obtain rfl := List.mem_singleton.1 hmem
    exact TestCase.yields_decode doc c hc

/-- What is known of every decoded case is known of the cases of a document. -/
theorem SimplifiedReading.of_yields {P : SimpleCase → Prop}
    (hyields : Decoder.Yields SimpleCase.decode P) {doc : Json} {shape : DocumentShape}
    {cases : List SimpleCase} (h : SimplifiedReading doc shape cases) : ∀ c ∈ cases, P c := by
  have hlist {items : List Json} {cs : List SimpleCase} (hdecode : DecodeTo items cs) :
      ∀ c ∈ cs, P c :=
    Decoder.yields_list hyields (.array items) cs (Decoder.list_eq_ok_iff.2 ⟨items, rfl, hdecode⟩)
  cases h with
  | caseList _ hdecode => exact hlist hdecode
  | singleCase _ hc _ =>
    intro c hmem
    obtain rfl := List.mem_singleton.1 hmem
    exact hyields _ c hc
  | wrappedCases _ _ _ _ hdecode => exact hlist hdecode

/-- Every specification that is handed on is the conversion of a case of the document. -/
theorem exists_case_of_mem_ingest {out : Ingested} (h : ingest ids target o text = .ok out)
    {spec : Spec} (hmem : spec ∈ out.conversion.specs) :
    (∃ s, Document.resolve o text = .ok ⟨out.shape, .canonical s⟩ ∧
      ∃ ctx id, ∃ c ∈ s.tests, ofTest ctx id c = .ok spec) ∨
    ∃ cases, Document.resolve o text = .ok ⟨out.shape, .simplified cases⟩ ∧
      ∃ ctx id, ∃ c ∈ cases, ofSimple ctx id c = .ok spec := by
  cases hresolve : Document.resolve o text with
  | error r =>
    rw [ingest_of_refused hresolve] at h
    cases h
  | ok resolved =>
    obtain ⟨shape, content⟩ := resolved
    cases content with
    | canonical s =>
      rw [ingest_of_canonical hresolve, ingestSuite_eq_map] at h
      split at h
      · obtain ⟨-, rfl⟩ := accept_map_eq_ok h
        obtain ⟨id, c, hc, hspec⟩ := exists_of_mem_collect hmem
        rw [s.tests_named target] at hc
        exact Or.inl ⟨s, rfl, _, id, c, hc, hspec⟩
      · cases h
    | simplified cases =>
      rw [ingest_of_simplified hresolve, ingestCases_eq_map] at h
      obtain ⟨-, rfl⟩ := accept_map_eq_ok h
      obtain ⟨id, c, hc, hspec⟩ := exists_of_mem_collect hmem
      exact Or.inr ⟨cases, rfl, _, id, c, hc, hspec⟩

/-- A specification that is handed on and written as JSON is read back without the values `null`
that its assertions expect, and otherwise as it was. So it survives iff there are none, and there
are none in the specifications of a canonical document. -/
theorem ingest_reads_back {out : Ingested} (h : ingest ids target o text = .ok out) :
    ∀ spec ∈ out.conversion.specs,
      Spec.decode spec.toJson.sorted = .ok spec.withoutNulls ∧
      (Spec.decode spec.toJson.sorted = .ok spec ↔
        ∀ a ∈ spec.assertions, a.expected ≠ some .null) ∧
      (out.shape = .canonicalSuite ∨ out.shape = .canonicalCase →
        Spec.decode spec.toJson.sorted = .ok spec) := by
  intro spec hmem
  have hread (hordered : spec.Ordered) : Spec.decode spec.toJson.sorted = .ok spec.withoutNulls :=
    Spec.decode_sorted_toJson hordered
  have hsurvives (hordered : spec.Ordered) : Spec.decode spec.toJson.sorted = .ok spec ↔
      ∀ a ∈ spec.assertions, a.expected ≠ some .null := by
    rw [hread hordered, Except.ok.injEq]
    exact Spec.withoutNulls_eq_self_iff
  rcases exists_case_of_mem_ingest h hmem with ⟨s, hresolve, ctx, id, c, hc, hspec⟩ |
    ⟨cases, hresolve, ctx, id, c, hc, hspec⟩
  · have hdecoded := Document.decoded_of_resolve hresolve c hc
    have hordered := ordered_of_ofTest hdecoded.ordered hspec
    exact ⟨hread hordered, hsurvives hordered,
      fun _ => (hsurvives hordered).2 (present_of_ofTest hdecoded.present hspec)⟩
  · obtain ⟨doc, -, hresolution⟩ := Document.resolve_eq_ok_iff.1 hresolve
    have hreading := hresolution.reading_of_simplified.2
    have hordered := ordered_of_ofSimple (hreading.of_yields SimpleCase.yields_decode c hc) hspec
    refine ⟨hread hordered, hsurvives hordered, fun hshape => ?_⟩
    rcases hreading.shape_eq with heq | heq | heq <;> simp [heq] at hshape

/-- A case that passes `null`. -/
def nullInput : String :=
  "\x7b\"name\":\"n\",\"setup\":\x7b\"x\":null\x7d,\"action\":\"F($x)\",\"expect\":\"result == 3\"\x7d"

/-- Among the inputs `null` survives. -/
theorem ingest_reads_back_nullInput :
    let spec : Spec := {
      id := "id", level := .unit, targetKind := "function", targetId := "F"
      functionName := "F", filePath := none, description := "N"
      inputs := .ofList [("x", .null)], inputTypes := .ofList [("x", "null")], argOrder := ["x"]
      assertions := [⟨"equality", "result", some (.int 3), none⟩], tags := []
      priority := "normal" }
    ingest (fun _ => "id") (.function "F") .standard nullInput =
        .ok ⟨.singleCase, ⟨[spec], []⟩, []⟩ ∧
      Spec.decode spec.toJson.sorted = .ok spec := by
  intro spec
  have hok : ingest (fun _ => "id") (.function "F") .standard nullInput =
      .ok ⟨.singleCase, ⟨[spec], []⟩, []⟩ := by
    decide +kernel
  obtain ⟨-, hsurvives, -⟩ := ingest_reads_back hok spec (by simp)
  exact ⟨hok, hsurvives.2 (by simp [spec])⟩

/-- A case that expects `null`. -/
def nilExpected : String :=
  "\x7b\"name\":\"n\",\"action\":\"F()\",\"expect\":\"result == nil\"\x7d"

/-- As an expected value `null` is written, and still it is not read back. -/
theorem nilExpected_reads_back_without :
    let spec : Spec := {
      id := "id", level := .unit, targetKind := "function", targetId := "F"
      functionName := "F", filePath := none, description := "N"
      inputs := .empty, inputTypes := .empty, argOrder := []
      assertions := [⟨"equality", "result", some .null, none⟩], tags := []
      priority := "normal" }
    ingest (fun _ => "id") (.function "F") .standard nilExpected =
        .ok ⟨.singleCase, ⟨[spec], []⟩, []⟩ ∧
      Spec.decode spec.toJson.sorted =
        .ok { spec with assertions := [⟨"equality", "result", none, none⟩] } ∧
      Spec.decode spec.toJson.sorted ≠ .ok spec := by
  intro spec
  refine ⟨by decide +kernel, by decide +kernel, by decide +kernel⟩

end Document
end CaseIntake
