import CaseIntake.Proofs.Validation.Errors

/-!
# CaseIntake.Proofs.Validation.Fields

Which fields the findings on a suite are about, warnings as well as errors.

* `below_onCase`: what is said of a case is said of a field below the path of the case.
* `elsewhere_diagnostics`: without what is said of the name of the function there is left what is
  said of the tests, so the name has no part in any other finding.
-/

namespace CaseIntake
namespace Validation

theorem exists_of_mem_walk {α : Type} {check : Nat → List α → α → List Diagnostic}
    {d : Diagnostic} {xs : List α} {k : Nat} {before : List α} (h : d ∈ walk check k before xs) :
    ∃ j before x, d ∈ check j before x := by
  induction xs generalizing k before with
  | nil => cases h
  | cons x xs ih =>
    rcases List.mem_append.1 h with h | h
    · exact ⟨k, before, x, h⟩
    · exact ih h

/-- Every diagnostic is about a field further down the path. -/
def Below (path : String) (ds : List Diagnostic) : Prop :=
  ∀ d ∈ ds, path.toList ++ ['/'] <+: d.finding.field.toList

namespace Below

variable {path : String}

theorem nil : Below path [] := by
  intro d hd
  cases hd

theorem diagnostic {severity : Severity} {field message : String} {value : Option String}
    (h : path.toList ++ ['/'] <+: field.toList) :
    Below path [⟨severity, ⟨field, message, value⟩⟩] := by
  intro d hd
  obtain rfl := List.mem_singleton.1 hd
  exact h

theorem append {xs ys : List Diagnostic} (hx : Below path xs) (hy : Below path ys) :
    Below path (xs ++ ys) :=
  List.forall_mem_append.2 ⟨hx, hy⟩

theorem ite {c : Prop} [Decidable c] {xs ys : List Diagnostic} (hx : Below path xs)
    (hy : Below path ys) : Below path (if c then xs else ys) := by
  split
  · exact hx
  · exact hy

theorem flatMap {α : Type} {check : α → List Diagnostic} (h : ∀ x, Below path (check x))
    (xs : List α) : Below path (xs.flatMap check) := by
  intro d hd
  obtain ⟨x, _, hd⟩ := List.mem_flatMap.1 hd
  exact h x d hd

theorem walk {α : Type} {check : Nat → List α → α → List Diagnostic}
    (h : ∀ k before x, Below path (check k before x)) (xs : List α) (k : Nat) (before : List α) :
    Below path (Validation.walk check k before xs) := by
  intro d hd
  obtain ⟨j, before, x, hd⟩ := exists_of_mem_walk hd
  exact h j before x d hd

/-- What is below a part is below the whole. -/
theorem of_part {part : String} {ds : List Diagnostic} (h : Below part ds)
    (hpart : path.toList ++ ['/'] <+: part.toList) : Below path ds := by
  intro d hd
  exact hpart.trans ((List.prefix_append _ _).trans (h d hd))

end Below

/-! ## The checks of a case -/

section Case

variable (o : Options) (path : String)

theorem below_onHint (v : Variable) : Below path (onHint o path v) := by
  have hvalue (hint : String) : Below path (onValue (path ++ "/value") v.value hint) :=
    .ite (.ite .nil (.diagnostic (by simp)))
      (.ite (.diagnostic (by simp)) (.ite .nil (.ite (.diagnostic (by simp))
        (.diagnostic (by simp)))))
  exact .ite (.diagnostic (by simp)) (.ite (.diagnostic (by simp)) (hvalue _))

theorem below_onVariable (earlier : List String) (v : Variable) :
    Below path (onVariable o path earlier v) :=
  .ite (.diagnostic (by simp))
    (((Below.ite (.diagnostic (by simp)) .nil).append (.ite .nil (.diagnostic (by simp)))).append
      (below_onHint o path v))

theorem below_onGiven (given : List Variable) : Below path (onGiven o path given) := by
  rw [onGiven, onGivenFrom_eq_walk]
  refine .walk (fun j before v => ?_) given 0 []
  exact (below_onVariable o _ _ v).of_part (by simp [toList_element])

theorem below_onArg (env : Environment) (field arg : String)
    (h : path.toList ++ ['/'] <+: field.toList) : Below path (onArg env field arg) := by
  rw [onArg]
  split
  · exact .nil
  · exact .diagnostic h

theorem below_onAction (env : Environment) (a : Invocation) : Below path (onAction env path a) := by
  have hargs : Below path (onArgsFrom env (path ++ "/args") 0 a.args) := by
    rw [onArgsFrom_eq_walk]
    exact .walk (fun k _ arg => below_onArg path env _ arg (by simp [toList_element])) a.args 0 []
  have hmention (name : String) : Below path (onMention env (path ++ "/call") a.args name) :=
    .ite (.diagnostic (by simp)) (.ite (.diagnostic (by simp)) .nil)
  exact ((Below.ite (.diagnostic (by simp)) .nil).append hargs).append (.flatMap hmention _)

theorem below_onCheck (c : Check) : Below path (onCheck o path c) :=
  ((Below.ite (.diagnostic (by simp)) (.ite (.diagnostic (by simp)) .nil)).append
    (.ite (.diagnostic (by simp)) .nil)).append (.ite (.diagnostic (by simp)) .nil)

theorem below_onChecks (checks : List Check) : Below path (onChecks o (path ++ "/then") checks) := by
  rw [onChecks, onChecksFrom_eq_walk]
  refine .ite (.diagnostic (by simp)) (.walk (fun k _ c => ?_) checks 0 [])
  exact (below_onCheck o _ c).of_part (by simp [toList_element])

/-- Whatever is said of a case is said of a field below its path. -/
theorem below_onCase (earlier : List String) (c : TestCase) :
    Below path (onCase o path earlier c) := by
  have hname : Below path (onName path earlier c.name) :=
    .ite (.diagnostic (by simp)) (.ite (.diagnostic (by simp)) .nil)
  have haction : Below path (onAction (Environment.ofGiven c.given) (path ++ "/when") c.action) :=
    (below_onAction _ _ c.action).of_part (by simp)
  exact ((hname.append (below_onGiven o path c.given)).append haction).append
    (below_onChecks o path c.checks)

end Case

/-! ## The name of the function -/

/-- What is said of the tests of a suite. -/
def onTests (o : Options) (tests : List TestCase) : List Diagnostic :=
  (if tests.isEmpty then [.error "tests" "at least one test case is required" none] else []) ++
    onCasesFrom o 0 [] tests

theorem diagnostics_eq (o : Options) (s : Suite) :
    diagnostics o s = onFunctionName o s.functionName ++ onTests o s.tests := by
  rw [diagnostics, onTests, List.append_assoc]

theorem field_of_mem_onFunctionName {o : Options} {name : String} :
    ∀ d ∈ onFunctionName o name, d.finding.field = "function_name" := by
  intro d hd
  rw [onFunctionName] at hd
  split at hd
  · obtain rfl := List.mem_singleton.1 hd
    rfl
  · rcases List.mem_append.1 hd with hd | hd <;> split at hd
    · obtain rfl := List.mem_singleton.1 hd
      rfl
    · cases hd
    · obtain rfl := List.mem_singleton.1 hd
      rfl
    · cases hd

theorem field_ne_of_mem_onTests {o : Options} {tests : List TestCase} :
    ∀ d ∈ onTests o tests, d.finding.field ≠ "function_name" := by
  intro d hd heq
  rcases List.mem_append.1 hd with hd | hd
  · split at hd
    · obtain rfl := List.mem_singleton.1 hd
      exact absurd heq (by decide)
    · cases hd
  · rw [onCasesFrom_eq_walk] at hd
    obtain ⟨i, before, c, hd⟩ := exists_of_mem_walk hd
    have hbelow := below_onCase o (element "tests" i) _ c d hd
    rw [heq, toList_element] at hbelow
    simp at hbelow

/-- The findings that are not about the name of the function. -/
def elsewhere (findings : List Finding) : List Finding :=
  findings.filter fun f => f.field ≠ "function_name"

theorem exists_of_mem_only {severity : Severity} {ds : List Diagnostic} {f : Finding}
    (h : f ∈ Diagnostic.only severity ds) : ∃ d ∈ ds, d.finding = f := by
  obtain ⟨d, hd, hf⟩ := List.mem_map.1 h
  exact ⟨d, (List.mem_filter.1 hd).1, hf⟩

/-- Without the name of the function, a suite is as good or bad as its tests. -/
theorem elsewhere_diagnostics (severity : Severity) (o : Options) (s : Suite) :
    elsewhere (Diagnostic.only severity (diagnostics o s)) =
      Diagnostic.only severity (onTests o s.tests) := by
  have hname : elsewhere (Diagnostic.only severity (onFunctionName o s.functionName)) = [] := by
    refine List.filter_eq_nil_iff.2 fun f hf => ?_
    obtain ⟨d, hd, rfl⟩ := exists_of_mem_only hf
    simp [field_of_mem_onFunctionName d hd]
  have htests : elsewhere (Diagnostic.only severity (onTests o s.tests)) =
      Diagnostic.only severity (onTests o s.tests) := by
    refine List.filter_eq_self.2 fun f hf => ?_
    obtain ⟨d, hd, rfl⟩ := exists_of_mem_only hf
    simp [field_ne_of_mem_onTests d hd]
  rw [diagnostics_eq, Diagnostic.only_append, elsewhere, List.filter_append]
  change elsewhere _ ++ elsewhere _ = _
  rw [hname, htests, List.nil_append]

theorem elsewhere_eq_nil {findings : List Finding} :
    elsewhere findings = [] ↔ ∀ f ∈ findings, f.field = "function_name" := by
  simp [elsewhere]

theorem errors_onFunctionName_eq_nil {o : Options} {name : String} :
    Diagnostic.only .error (onFunctionName o name) = [] ↔
      name ≠ "" ∧ ∀ c ∈ name.toList, Text.isBlank c = false := by
  rw [onFunctionName]
  split
  · rename_i hempty
    simp [hempty, Diagnostic.only, Diagnostic.error]
  · rename_i hne
    rw [Diagnostic.only_append]
    split <;> split <;> simp_all [Diagnostic.only, Diagnostic.error, Diagnostic.warning]

/-- A suite is valid iff its function has a proper name and nothing else is wrong with it. -/
theorem valid_iff_named (o : Options) (s : Suite) :
    (s.validate o).valid = true ↔
      (s.functionName ≠ "" ∧ ∀ c ∈ s.functionName.toList, Text.isBlank c = false) ∧
        elsewhere (s.validate o).errors = [] := by
  have helsewhere : elsewhere (s.validate o).errors = Diagnostic.only .error (onTests o s.tests) :=
    elsewhere_diagnostics .error o s
  rw [helsewhere, ← errors_onFunctionName_eq_nil (o := o), Suite.validate, Report.ofDiagnostics,
    List.isEmpty_iff, diagnostics_eq, Diagnostic.only_append, List.append_eq_nil_iff]

end Validation
end CaseIntake
