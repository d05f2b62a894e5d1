import CaseIntake.Proofs.Validation.Defects

/-!
# CaseIntake.Proofs.Validation.Errors

The errors of a report and the defects of the suite.

* `errors_exactly_defects`: the errors are the defects, each at its own field, in document order.
* `valid_iff`: a report is valid iff the suite has no defect.
-/

namespace CaseIntake
namespace Validation

variable (o : Options)

theorem reports_onName (i : Nat) (earlier : List String) (name : String) :
    Reports (casePath i) CasePlace.rank (onName (element "tests" i) earlier name)
      fun p w => name = "" ∧ p = .name ∧ w = none := by
  rw [onName, show element "tests" i ++ "/name" = casePath i .name from rfl]
  split
  · rename_i h
    exact (Reports.error _ _ _).congr (by simp [h])
  · rename_i h
    exact .of_warnings (.ite (.warning _ _ _) .nil) (by simp [h])

theorem reports_onCase (i : Nat) (earlier : List String) (c : TestCase) :
    Reports (casePath i) CasePlace.rank (onCase o (element "tests" i) earlier c)
      (CaseDefect o c) := by
  rw [onCase]
  refine ((((reports_onName i earlier c.name).append (reports_onGiven o i c.given) ?_).append
    (reports_onAction i c.given c.action) ?_).append (reports_onChecks o i c.checks) ?_).congr ?_
  · rintro p v q w ⟨_, rfl, _⟩ ⟨j, x, _, hq⟩
    have hp : CasePlace.name.part = 0 := rfl
    have hq : q.part = 1 := hq.part_eq
    exact CasePlace.rank_lt_of_part (by omega)
  · rintro p v q w hp hq
    have hp : p.part ≤ 1 := by
      rcases hp with ⟨_, rfl, _⟩ | ⟨j, x, _, hp⟩
      · exact Nat.zero_le _
      · exact Nat.le_of_eq hp.part_eq
    have hq : 2 ≤ q.part := by
      rcases hq with ⟨_, rfl, _⟩ | ⟨_, _, _, _, rfl, _⟩ <;> simp [CasePlace.part]
    exact CasePlace.rank_lt_of_part (by omega)
  · rintro p v q w hp hq
    have hp : p.part ≤ 3 := by
      rcases hp with (⟨_, rfl, _⟩ | ⟨j, x, _, hp⟩) | ⟨_, rfl, _⟩ | ⟨_, _, _, _, rfl, _⟩
      · simp [CasePlace.part]
      · rw [hp.part_eq]
        decide
      · simp [CasePlace.part]
      · simp [CasePlace.part]
    have hq : q.part = 4 := by
      rcases hq with ⟨_, rfl, _⟩ | ⟨k, x, _, hq⟩
      · rfl
      · exact hq.part_eq
    exact CasePlace.rank_lt_of_part (by omega)
  · intro p w
    constructor
    · rintro (((⟨h, rfl, rfl⟩ | ⟨j, v, hv, h⟩) |
        (⟨h, rfl, rfl⟩ | ⟨k, arg, harg, h, rfl, rfl⟩)) | (⟨h, rfl, rfl⟩ | ⟨k, a, ha, h⟩))
      · exact .unnamed h
      · exact .inVariable hv h
      · exact .blankCall h
      · exact .undefinedArg harg h
      · exact .unchecked h
      · exact .inCheck ha h
    · intro h
      cases h with
      | unnamed h => exact Or.inl (Or.inl (Or.inl ⟨h, rfl, rfl⟩))
      | inVariable hv h => exact Or.inl (Or.inl (Or.inr ⟨_, _, hv, h⟩))
      | blankCall h => exact Or.inl (Or.inr (Or.inl ⟨h, rfl, rfl⟩))
      | undefinedArg harg h => exact Or.inl (Or.inr (Or.inr ⟨_, _, harg, h, rfl, rfl⟩))
      | unchecked h => exact Or.inr (Or.inl ⟨h, rfl, rfl⟩)
      | inCheck ha h => exact Or.inr (Or.inr ⟨_, _, ha, h⟩)

theorem onCasesFrom_eq_walk (tests : List TestCase) :
    onCasesFrom o 0 [] tests =
      walk (fun i before c =>
        onCase o (element "tests" i) (before.map TestCase.name).reverse c) 0 [] tests :=
  eq_walk (f := fun i before cs => onCasesFrom o i (before.map TestCase.name).reverse cs)
    (fun _ _ => rfl) (fun _ _ _ _ => by rw [onCasesFrom]; simp) tests 0 []

theorem reports_onCases (tests : List TestCase) :
    Reports Place.path Place.rank (onCasesFrom o 0 [] tests)
      fun p w => ∃ i c, tests[i]? = some c ∧ ∃ place, p = .inCase i place ∧
        CaseDefect o c place w := by
  rw [onCasesFrom_eq_walk]
  refine (Reports.walk (fun i before c => (reports_onCase o i _ c).embed (Place.inCase i)
    (fun _ => rfl) ?_) ?_ tests 0 []).congr (by simp)
  · intro p q hpq
    simpa [Place.rank, List.cons_lt_cons_iff] using hpq
  · rintro i j _ _ x y p v q w hij ⟨p, rfl, _⟩ ⟨q, rfl, _⟩
    exact Place.before_inCase.2 (Or.inl hij)

theorem reports_onFunctionName (name : String) :
    Reports Place.path Place.rank (onFunctionName o name)
      fun p w => p = .functionName ∧ ((name = "" ∧ w = none) ∨
        ((∃ ch ∈ name.toList, Text.isBlank ch = true) ∧ w = some name)) := by
  rw [onFunctionName, show "function_name" = Place.functionName.path from rfl]
  split
  · rename_i h
    exact (Reports.error _ _ _).congr (by simp [h])
  · rename_i h
    refine ((Reports.ite _ _ _ _).append_warnings (.ite (.warning _ _ _) .nil)).congr ?_
    simp [h, and_left_comm]

theorem reports_diagnostics (s : Suite) :
    Reports Place.path Place.rank (diagnostics o s) (Defect o s) := by
  rw [diagnostics]
  have htests : Reports Place.path Place.rank
      (if s.tests.isEmpty then [.error "tests" "at least one test case is required" none] else [])
      fun p w => s.tests.isEmpty = true ∧ p = .tests ∧ w = none :=
    Reports.ite _ Place.tests _ _
  refine (((reports_onFunctionName o s.functionName).append htests ?_).append
    (reports_onCases o s.tests) ?_).congr ?_
  · rintro p v q w ⟨rfl, _⟩ ⟨_, rfl, _⟩
    simp [Place.rank, List.cons_lt_cons_iff]
  · rintro p v q w (⟨rfl, _⟩ | ⟨_, rfl, _⟩) ⟨_, _, _, _, rfl, _⟩ <;>
      simp [Place.rank, List.cons_lt_cons_iff]
  · intro p w
    constructor
    · rintro ((⟨rfl, ⟨h, rfl⟩ | ⟨h, rfl⟩⟩ | ⟨h, rfl, rfl⟩) | ⟨i, c, hc, place, rfl, h⟩)
      · exact .unnamed h
      · exact .blankInName h
      · exact .noTests (List.isEmpty_iff.1 h)
      · exact .inCase hc h
    · intro h
      cases h with
      | unnamed h => exact Or.inl (Or.inl ⟨rfl, Or.inl ⟨h, rfl⟩⟩)
      | blankInName h => exact Or.inl (Or.inl ⟨rfl, Or.inr ⟨h, rfl⟩⟩)
      | noTests h => exact Or.inl (Or.inr ⟨List.isEmpty_iff.2 h, rfl, rfl⟩)
      | inCase hc h => exact Or.inr ⟨_, _, hc, _, rfl, h⟩

/-! ## The report -/

theorem valid_iff (s : Suite) :
    (s.validate o).valid = true ↔ ∀ place value, ¬Defect o s place value := by
  rw [Suite.validate, Report.ofDiagnostics, List.isEmpty_iff]
  exact (reports_diagnostics o s).errors_eq_nil_iff

/-- The errors of a report are exactly the defects of the suite, in the order of the document. No
field has two of them, and the suite is valid iff there are none. -/
theorem errors_exactly_defects (s : Suite) :
    ∃ found : List (Place × Option String),
      (s.validate o).errors.map (fun e => (e.field, e.value)) =
        found.map (fun d => (d.1.path, d.2)) ∧
      (∀ place value, (place, value) ∈ found ↔ Defect o s place value) ∧
      found.Pairwise (fun a b => a.1.Before b.1) ∧
      ((s.validate o).errors.map Finding.field).Nodup ∧
      ((s.validate o).valid = true ↔ (s.validate o).errors = []) := by
  obtain ⟨found, hmap, hmem, hord⟩ := reports_diagnostics o s
  have herrors : (s.validate o).errors.map (fun e => (e.field, e.value)) =
      found.map (fun d => (d.1.path, d.2)) := hmap
  refine ⟨found, herrors, hmem, hord, ?_, ?_⟩
  · have hfields : (s.validate o).errors.map Finding.field =
        found.map (fun d => d.1.path) := by
      have := congrArg (List.map Prod.fst) herrors
      simpa [List.map_map, Function.comp_def] using this
    rw [hfields]
    refine List.pairwise_map.2 (hord.imp ?_)
    intro a b hab hpath
    exact Place.Before.ne hab (Place.path_inj.1 hpath)
  · rw [Suite.validate, Report.ofDiagnostics, List.isEmpty_iff]

end Validation
end CaseIntake
