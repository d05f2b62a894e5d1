import CaseIntake.Proofs.Conversion.Collect
import CaseIntake.Proofs.Conversion.Inputs
import CaseIntake.Proofs.Validation.Errors

/-!
# CaseIntake.Proofs.Conversion.Totality

A valid suite is converted without loss: `convert_of_valid`.

A case without defects has variables with different names, none of them empty, and arguments that
refer to its variables. So no reason to skip it applies, and the environment that validation looks
names up in holds the inputs of its specification.
-/

namespace CaseIntake
namespace Conversion

open Validation

section Case

variable {o : Options} {c : TestCase} (h : ∀ place value, ¬CaseDefect o c place value)

include h

theorem no_variableDefect :
    (∀ v ∈ c.given, v.name ≠ "" ∧
      ∀ hint, v.hint = some hint → hint ≠ "" → o.allowsHint hint = true) ∧
    (c.given.map Variable.name).Nodup :=
  no_variableDefect_iff.1 fun p w ⟨_, _, hj, hdefect⟩ => h p w (.inVariable hj hdefect)

theorem name_ne_of_no_defect : ∀ v ∈ c.given, v.name ≠ "" :=
  fun v hv => ((no_variableDefect h).1 v hv).1

theorem names_nodup_of_no_defect : (c.given.map Variable.name).Nodup :=
  (no_variableDefect h).2

theorem args_declared_of_no_defect :
    ∀ arg ∈ c.action.args, ∃ v ∈ c.given, v.name = Reference.name arg := by
  intro arg harg
  obtain ⟨k, hk⟩ := List.mem_iff_getElem?.1 harg
  refine Classical.byContradiction fun hno => h _ _ (.undefinedArg hk fun v hv _ hname => ?_)
  exact hno ⟨v, hv, hname⟩

/-- Validation looks names up in what becomes the inputs. -/
theorem environment_eq_table : Environment.ofGiven c.given = ⟨Variable.table c.given⟩ := by
  have hnd : ((c.given.map Variable.entry).map Prod.fst).Nodup := by
    rw [Variable.map_fst_entry]
    exact names_nodup_of_no_defect h
  have hentries (name : String) : findEntry name (c.given.map Variable.entry) =
      (c.given.find? (·.name = name)).map fun v => v.value.getD .null := by
    induction c.given with
    | nil => rfl
    | cons v rest ih => by_cases hv : v.name = name <;> simp [findEntry, Variable.entry, hv, ih]
  refine congrArg Environment.mk (Dict.ext_find? fun name => ?_)
  have hfind := Environment.find?_ofGiven c.given name
  rw [Environment.find?, Environment.ofGiven] at hfind
  rw [hfind, Variable.table, Dict.find?_ofList_of_nodup hnd, hentries]
  split
  · rename_i hempty
    subst hempty
    have hnone : c.given.find? (·.name = "") = none := by
      rw [List.find?_eq_none]
      intro v hv
      simpa using name_ne_of_no_defect h v hv
    rw [hnone]
    rfl
  · rfl

end Case

/-- Every test of a valid suite is converted: there is one specification for each, in the order of
the tests, and none is skipped. Its inputs are the values of the variables of the test, `null` for
one without a value, and they are what the environment of the test answers. -/
theorem convert_of_valid (s : Suite) (o : Options) (target : Target) (ids : Nat → String)
    (hvalid : (s.validate o).valid = true) :
    ∃ specs, s.convert ids target o = .ok ⟨specs, []⟩ ∧ specs.length = s.tests.length ∧
      ∀ i c spec, s.tests[i]? = some c → specs[i]? = some spec →
        ofTest ⟨target, s.functionName, o⟩ (ids i) c = .ok spec ∧
        (∀ name value, spec.inputs.find? name = some value ↔
          ∃ v ∈ c.given, v.name = name ∧ v.value.getD .null = value) ∧
        ∀ name, (Environment.ofGiven c.given).find? name = spec.inputs.find? name := by
  have hno := (valid_iff o s).1 hvalid
  have hname : s.functionName ≠ "" := fun h => hno _ _ (.unnamed h)
  have htests : s.tests ≠ [] := fun h => hno _ _ (.noTests h)
  have hcase (i : Nat) (c : TestCase) (hc : s.tests[i]? = some c) :
      ∀ place value, ¬CaseDefect o c place value :=
    fun place value h => hno _ _ (.inCase hc h)
  have hinputs (i : Nat) (c : TestCase) (hc : s.tests[i]? = some c) :
      inputsOfTest c = .ok ⟨Variable.table c.given, hints c.given, c.action.args⟩ :=
    inputsOfTest_eq_ok (names_nodup_of_no_defect (hcase i c hc))
      (args_declared_of_no_defect (hcase i c hc))
  have hconvert (i : Nat) (c : TestCase) (hc : s.tests[i]? = some c) :
      ∃ spec, ofTest ⟨target, s.functionName, o⟩ (ids (0 + i)) c = .ok spec := by
    rw [ofTest, hinputs i c hc]
    exact ⟨_, rfl⟩
  obtain ⟨specs, hcollect, hlen, hspecs⟩ := collect_of_converts TestCase.name s.tests 0 hconvert
  refine ⟨specs, ?_, hlen, ?_⟩
  · have hne : specs ≠ [] := by
      rintro rfl
      exact htests (List.length_eq_zero_iff.1 hlen.symm)
    rw [Suite.convert, ofSuite, if_neg hname, hcollect]
    exact accept_eq_ok hne
  · intro i c spec hc hs
    have hspec := hspecs i c spec hc hs
    rw [Nat.zero_add] at hspec
    have hvalues : spec.inputs = Variable.table c.given := by
      have := hspec
      rw [ofTest, hinputs i c hc] at this
      cases this
      rfl
    refine ⟨hspec, ?_, ?_⟩
    · intro name value
      rw [hvalues, Variable.find?_table (names_nodup_of_no_defect (hcase i c hc))]
    · intro name
      rw [environment_eq_table (hcase i c hc), hvalues]
      rfl

/-- Two tests; the first has an unset variable and refers to the other one in braces. -/
theorem convert_of_valid_two_tests :
    let s : Suite := ⟨"Add", none, [
      ⟨"sum", none, [⟨"x", some (.string "a"), some "string"⟩, ⟨"y", none, none⟩],
        ⟨"Add($x, y)", ["${ x }", "y"]⟩, [⟨"not_nil", "result", none, none⟩], []⟩,
      ⟨"bare", none, [], ⟨"Add()", []⟩, [⟨"equals", "result", some .null, none⟩], ["slow"]⟩]⟩
    (s.validate .standard).valid = true ∧
      ∃ specs, s.convert (fun _ => "id") (.function "F") .standard = .ok ⟨specs, []⟩ ∧
        specs.length = 2 := by
  intro s
  have hvalid : (s.validate .standard).valid = true := by decide +kernel
  obtain ⟨specs, hok, hlen, _⟩ :=
    convert_of_valid s .standard (.function "F") (fun _ => "id") hvalid
  exact ⟨hvalid, specs, hok, hlen⟩

end Conversion
end CaseIntake
