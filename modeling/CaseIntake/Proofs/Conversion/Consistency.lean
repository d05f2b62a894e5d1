import CaseIntake.Proofs.Conversion.Arguments
import CaseIntake.Proofs.Conversion.Payload
import CaseIntake.Proofs.Conversion.Totality
import CaseIntake.Proofs.Document.Resolution

/-!
# CaseIntake.Proofs.Conversion.Consistency

Every specification that is handed on agrees with itself: `ingest_consistent`.

* `Spec.IsConsistent`: what holds of all of them.
* `Spec.IsValidated`: what holds besides of those from a canonical document. It rests on validation,
  as conversion alone would let unnamed functions and unknown types through.
* `Spec.IsSelfTyped`: what holds besides of those from simplified cases. It rests on conversion
  alone, since nothing validates these cases.
-/

namespace CaseIntake

structure Spec.IsConsistent (s : Spec) : Prop where
  asserts : s.assertions ≠ []
  targets : s.targetId = s.functionName
  types_inputs : ∀ name, s.inputTypes.contains name = true → s.inputs.contains name = true

structure Spec.IsValidated (o : Options) (s : Spec) : Prop where
  named : s.functionName ≠ ""
  unbroken : ∀ c ∈ s.functionName.toList, Text.isBlank c = false
  refers_to_inputs : ∀ arg ∈ s.argOrder, s.inputs.contains (Reference.name arg) = true
  kinds_listed : ∀ a ∈ s.assertions, ∃ type, o.assertionKinds.find? type = some a.kind

structure Spec.IsSelfTyped (s : Spec) : Prop where
  passes_inputs : ∀ arg ∈ s.argOrder, s.inputs.contains arg = true
  types_kinds : ∀ name, s.inputTypes.find? name = (s.inputs.find? name).map (·.kind.hint)

/-- Inputs that have the kinds of their values as types have a type each, and no other has one. -/
theorem Spec.IsSelfTyped.contains_types {s : Spec} (h : s.IsSelfTyped) (name : String) :
    s.inputTypes.contains name = s.inputs.contains name := by
  rw [Dict.contains, Dict.contains, h.types_kinds, Option.isSome_map]

namespace Conversion

open Validation

/-! ## Canonical cases -/

theorem exists_of_contains_hints {given : List Variable} {name : String}
    (h : (hints given).contains name = true) : ∃ v ∈ given, v.name = name := by
  obtain ⟨hint, hmem⟩ := Dict.contains_ofList.1 h
  obtain ⟨v, hv, hentry⟩ := List.mem_filterMap.1 hmem
  refine ⟨v, hv, ?_⟩
  split at hentry
  · cases hentry
  · split at hentry
    · cases hentry
    · exact (Prod.mk.inj (Option.some.inj hentry)).1

section Test

variable {ctx : Context} {c : TestCase} {id : String} {spec : Spec}
  (h : ∀ place value, ¬CaseDefect ctx.options c place value)

include h

theorem checks_ne_nil_of_no_defect : c.checks ≠ [] :=
  fun hnil => h _ _ (.unchecked hnil)

theorem kind_listed_of_no_defect :
    ∀ a ∈ c.checks, ∃ kind, ctx.options.assertionKinds.find? a.type = some kind := by
  intro a ha
  obtain ⟨k, hk⟩ := List.mem_iff_getElem?.1 ha
  refine Dict.contains_iff.1 (Classical.byContradiction fun hunknown => ?_)
  have hne : a.type ≠ "" := fun hempty => h _ _ (.inCheck hk (.untyped hempty))
  exact h _ _ (.inCheck hk (.unknownType hne (Bool.eq_false_iff.2 hunknown)))

theorem ofTest_of_no_defect (id : String) :
    ofTest ctx id c = .ok (ctx.spec id (describe c.description c.name)
      ⟨Variable.table c.given, hints c.given, c.action.args⟩ c.checks c.tags) := by
  rw [ofTest, inputsOfTest_eq_ok (names_nodup_of_no_defect h) (args_declared_of_no_defect h)]

theorem isConsistent_of_ofTest (hspec : ofTest ctx id c = .ok spec) : spec.IsConsistent := by
  rw [ofTest_of_no_defect h] at hspec
  obtain rfl := Except.ok.inj hspec
  refine ⟨?_, rfl, fun name hname => ?_⟩
  · simpa [Context.spec] using checks_ne_nil_of_no_defect h
  · exact (Variable.contains_table (names_nodup_of_no_defect h)).2 (exists_of_contains_hints hname)

theorem isValidated_of_ofTest (hne : ctx.functionName ≠ "")
    (hblank : ∀ ch ∈ ctx.functionName.toList, Text.isBlank ch = false)
    (hspec : ofTest ctx id c = .ok spec) : spec.IsValidated ctx.options := by
  rw [ofTest_of_no_defect h] at hspec
  obtain rfl := Except.ok.inj hspec
  refine ⟨hne, hblank, fun arg harg => ?_, fun a ha => ?_⟩
  · exact (Variable.contains_table (names_nodup_of_no_defect h)).2
      (args_declared_of_no_defect h arg harg)
  · obtain ⟨check, hcheck, rfl⟩ := List.mem_map.1 ha
    obtain ⟨kind, hkind⟩ := kind_listed_of_no_defect h check hcheck
    refine ⟨check.type, ?_⟩
    simp only [Context.assertion, Options.kindOf, hkind, Option.getD_some]

end Test

/-! ## Simplified cases -/

section Simple

variable {ctx : Context} {c : SimpleCase} {id : String} {spec : Spec}

theorem isSelfTyped_of_ofSimple (hspec : ofSimple ctx id c = .ok spec) : spec.IsSelfTyped := by
  obtain ⟨_, _, _, -, hplaces, rfl⟩ := ofSimple_eq_ok_iff.1 hspec
  refine ⟨fun name hname => ?_, fun name => Dict.find?_map _ _ name⟩
  exact (hplaces.contains_iff fun n hn => hn).2 (Or.inr hname)

theorem isConsistent_of_ofSimple (hspec : ofSimple ctx id c = .ok spec) : spec.IsConsistent := by
  have htyped := isSelfTyped_of_ofSimple hspec
  obtain ⟨_, _, _, -, -, rfl⟩ := ofSimple_eq_ok_iff.1 hspec
  refine ⟨?_, rfl, fun name hname => ?_⟩
  · simpa [Context.spec] using SimpleCase.checks_ne_nil c
  · rwa [← htyped.contains_types]

end Simple
end Conversion

/-! ## Documents -/

section Ingestion

open Conversion Validation

variable {ids : Nat → String} {target : Target} {o : Options} {shape : DocumentShape}
  {out : Ingested}

/-- Every test of a valid suite has its specification, so none is skipped. -/
theorem collect_of_valid (ids : Nat → String) (target : Target) {s : Suite}
    (hvalid : (s.validate o).valid = true) :
    ∃ specs, ofSuite ids target o s = ⟨specs, []⟩ ∧ specs ≠ [] ∧
      specs.length = s.tests.length := by
  have hno := (valid_iff o s).1 hvalid
  have hname : s.functionName ≠ "" := fun hempty => hno _ _ (.unnamed hempty)
  have htests : s.tests ≠ [] := fun hnil => hno _ _ (.noTests hnil)
  have hconvert (i : Nat) (c : TestCase) (hc : s.tests[i]? = some c) :
      ∃ spec, ofTest ⟨target, s.functionName, o⟩ (ids (0 + i)) c = .ok spec :=
    ⟨_, ofTest_of_no_defect (fun place value hdefect => hno _ _ (.inCase hc hdefect)) _⟩
  obtain ⟨specs, hcollect, hlength, -⟩ := collect_of_converts TestCase.name s.tests 0 hconvert
  refine ⟨specs, ?_, ?_, hlength⟩
  · rw [ofSuite, if_neg hname, hcollect]
  · rintro rfl
    exact htests (List.length_eq_zero_iff.1 hlength.symm)

theorem ingestSuite_eq_ok {s : Suite} (h : ingestSuite ids target o shape s = .ok out) :
    out.shape = shape ∧ out.conversion.skipped = [] ∧ out.conversion.specs ≠ [] ∧
      out.conversion.specs.length = s.tests.length ∧
      ∀ spec ∈ out.conversion.specs, spec.IsConsistent ∧ spec.IsValidated o := by
  rw [ingestSuite_eq_map] at h
  split at h
  · rename_i hvalid
    have hno := (valid_iff o s).1 hvalid
    have hname : s.functionName ≠ "" := fun hempty => hno _ _ (.unnamed hempty)
    have hblank : ∀ ch ∈ s.functionName.toList, Text.isBlank ch = false := by
      intro ch hch
      refine Bool.eq_false_iff.2 fun hb => ?_
      exact hno _ _ (.blankInName ⟨ch, hch, hb⟩)
    have hcase : ∀ c ∈ s.tests, ∀ place value, ¬CaseDefect o c place value := by
      intro c hc place value hdefect
      obtain ⟨i, hi⟩ := List.mem_iff_getElem?.1 hc
      exact hno _ _ (.inCase hi hdefect)
    obtain ⟨specs, hcollect, -, hlength⟩ := collect_of_valid ids target hvalid
    rw [Suite.convert, hcollect] at h
    obtain ⟨hne, rfl⟩ := accept_map_eq_ok h
    refine ⟨rfl, rfl, hne, hlength, fun spec hmem => ?_⟩
    have hmem' : spec ∈ (ofSuite ids target o s).specs := by
      rw [hcollect]
      exact hmem
    rw [ofSuite, if_neg hname] at hmem'
    obtain ⟨id, c, hc, hspec⟩ := exists_of_mem_collect hmem'
    exact ⟨isConsistent_of_ofTest (hcase c hc) hspec,
      isValidated_of_ofTest (hcase c hc) hname hblank hspec⟩
  · cases h

theorem ingestCases_eq_ok {cases : List SimpleCase}
    (h : ingestCases ids target o shape cases = .ok out) :
    out.shape = shape ∧ out.warnings = [] ∧ out.conversion.specs ≠ [] ∧
      ∀ spec ∈ out.conversion.specs, spec.IsConsistent ∧ spec.IsSelfTyped := by
  rw [ingestCases_eq_map, SimpleCase.convertAll] at h
  obtain ⟨hne, rfl⟩ := accept_map_eq_ok h
  refine ⟨rfl, rfl, hne, fun spec hmem => ?_⟩
  obtain ⟨id, c, -, hspec⟩ := exists_of_mem_collect hmem
  exact ⟨isConsistent_of_ofSimple hspec, isSelfTyped_of_ofSimple hspec⟩

theorem Suite.tests_named (s : Suite) (target : Target) : (s.named target).tests = s.tests := by
  rw [Suite.named]
  split <;> rfl

/-- What ingestion hands on has a specification, and all of them agree with themselves. A canonical
document gives one for each test, each of them validated. Simplified cases give specifications that
pass only inputs and type all of them, and no warnings. -/
theorem ingest_consistent {text : String} (h : ingest ids target o text = .ok out) :
    out.conversion.specs ≠ [] ∧ (∀ spec ∈ out.conversion.specs, spec.IsConsistent) ∧
      ((∃ suite, Document.resolve o text = .ok ⟨out.shape, .canonical suite⟩ ∧
          (out.shape = .canonicalSuite ∨ out.shape = .canonicalCase) ∧
          out.conversion.specs.length = suite.tests.length ∧
          ∀ spec ∈ out.conversion.specs, spec.IsValidated o) ∨
        ∃ cases, Document.resolve o text = .ok ⟨out.shape, .simplified cases⟩ ∧
          (out.shape = .caseList ∨ out.shape = .singleCase ∨ out.shape = .wrappedCases) ∧
          out.warnings = [] ∧ ∀ spec ∈ out.conversion.specs, spec.IsSelfTyped) := by
  unfold ingest at h
  cases hresolve : Document.resolve o text with
  | error r =>
    rw [hresolve] at h
    cases h
  | ok resolved =>
    rw [hresolve] at h
    obtain ⟨shape, content⟩ := resolved
    obtain ⟨doc, -, hresolution⟩ := Document.resolve_eq_ok_iff.1 hresolve
    cases content with
    | canonical suite =>
      obtain ⟨rfl, -, hne, hlength, hspecs⟩ := ingestSuite_eq_ok h
      rw [Suite.tests_named] at hlength
      exact ⟨hne, fun spec hmem => (hspecs spec hmem).1, Or.inl ⟨suite, rfl,
        hresolution.shape_of_canonical, hlength, fun spec hmem => (hspecs spec hmem).2⟩⟩
    | simplified cases =>
      obtain ⟨rfl, hwarnings, hne, hspecs⟩ := ingestCases_eq_ok h
      exact ⟨hne, fun spec hmem => (hspecs spec hmem).1, Or.inr ⟨cases, rfl,
        hresolution.reading_of_simplified.2.shape_eq, hwarnings,
        fun spec hmem => (hspecs spec hmem).2⟩⟩

/-- A call that passes a variable of the set-up and a number. -/
def mixedCall : String :=
  "\x7b\"name\":\"adds\",\"setup\":\x7b\"x\":1\x7d,\"action\":\"Add($x, 2)\",\"expect\":\"result == 3\"\x7d"

/-- The number becomes an input of its own, with a type as the variable has. -/
theorem ingest_consistent_mixedCall :
    let spec : Spec := {
      id := "id", level := .unit, targetKind := "function", targetId := "Add"
      functionName := "Add", filePath := none, description := "Adds"
      inputs := .ofList [("x", .int 1), ("arg1", .int 2)]
      inputTypes := .ofList [("x", "int"), ("arg1", "int")], argOrder := ["x", "arg1"]
      assertions := [⟨"equality", "result", some (.int 3), none⟩], tags := []
      priority := "normal" }
    ingest (fun _ => "id") (.function "Add") .standard mixedCall =
        .ok ⟨.singleCase, ⟨[spec], []⟩, []⟩ ∧
      spec.IsConsistent ∧ spec.IsSelfTyped := by
  intro spec
  have hok : ingest (fun _ => "id") (.function "Add") .standard mixedCall =
      .ok ⟨.singleCase, ⟨[spec], []⟩, []⟩ := by
    decide +kernel
  obtain ⟨-, hconsistent, ⟨_, -, hcanonical, -⟩ | ⟨_, -, -, -, htyped⟩⟩ := ingest_consistent hok
  · simp at hcanonical
  · exact ⟨hok, hconsistent spec (by simp), htyped spec (by simp)⟩

end Ingestion
end CaseIntake
