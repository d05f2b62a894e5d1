import CaseIntake.Proofs.Validation.Locality

/-!
# CaseIntake.Proofs.Validation.GivenOrder

What validation makes of the order in which a case declares its variables.

The call and its arguments are checked against the names that are known, and these do not depend on
the order (`onAction_of_perm`). Only the findings on the variables themselves do
(`exists_around_given`), and whether there is an error among them does not
(`errors_onGiven_of_perm`).
-/

namespace CaseIntake

/-- The suite with another test at a position. -/
def Suite.withTest (s : Suite) (i : Nat) (c : TestCase) : Suite :=
  { s with tests := s.tests.set i c }

/-- The errors and the warnings on fields whose paths begin so. -/
def Report.under (r : Report) (path : String) : List Finding × List Finding :=
  (Validation.under path r.errors, Validation.under path r.warnings)

namespace Validation

/-! ## Known names -/

theorem onArg_eq (env : Environment) (path arg : String) :
    onArg env path arg =
      if env.contains (Reference.name arg) then []
      else [.error path "references undefined variable" (some arg)] := by
  rw [onArg]
  rcases env.resolve_cases arg with ⟨value, hknown, hresolve⟩ | ⟨hunknown, hresolve⟩
  · rw [hresolve, if_pos hknown]
  · rw [hresolve, hunknown]
    rfl

theorem passedNames_eq (env : Environment) (args : List String) :
    passedNames env args = (args.map Reference.name).filter env.contains := by
  rw [passedNames, ← List.filterMap_eq_filter, List.filterMap_map]
  refine congrArg (fun pass => args.filterMap pass) (funext fun arg => ?_)
  rcases env.resolve_cases arg with ⟨value, hknown, hresolve⟩ | ⟨hunknown, hresolve⟩
  · simp [hresolve, Option.guard, hknown]
  · simp [hresolve, Option.guard, hunknown]

/-- Environments that know the same names are the same to the check of a call. -/
theorem onAction_of_contains {env env' : Environment} (h : env'.contains = env.contains)
    (path : String) (a : Invocation) : onAction env' path a = onAction env path a := by
  have harg (field arg : String) : onArg env' field arg = onArg env field arg := by
    rw [onArg_eq, onArg_eq, h]
  have hmention (name : String) : onMention env' (path ++ "/call") a.args name =
      onMention env (path ++ "/call") a.args name := by
    rw [onMention, onMention, passedNames_eq, passedNames_eq, h]
  have hargs : onArgsFrom env' (path ++ "/args") 0 a.args =
      onArgsFrom env (path ++ "/args") 0 a.args := by
    simp only [onArgsFrom_eq_walk, harg]
  rw [onAction, onAction, hargs, funext hmention]

/-! ## The variables of one case in another order -/

theorem namesBefore_set {tests : List TestCase} {i : Nat} {c d : TestCase}
    (hc : tests[i]? = some c) (hname : d.name = c.name) (k : Nat) :
    namesBefore (tests.set i d) k = namesBefore tests k := by
  have hnames : (tests.set i d).map TestCase.name = tests.map TestCase.name := by
    refine List.ext_getElem? fun j => ?_
    rw [List.getElem?_map, List.getElem?_map, List.getElem?_set]
    split
    · rename_i hij
      subst hij
      split
      · rw [hc, Option.map_some, Option.map_some, hname]
      · rename_i hlt
        rw [List.getElem?_eq_none (Nat.not_lt.1 hlt)]
    · rfl
  rw [namesBefore, namesBefore, List.map_take, List.map_take, hnames]

section Permuted

variable {s : Suite} {i : Nat} {c : TestCase} {given : List Variable}
  (hc : s.tests[i]? = some c) (hperm : given.Perm c.given) (o : Options)

include hc hperm

/-- All diagnostics but those on the variables stay as they are, and in their places. -/
theorem exists_around_given :
    ∃ front back,
      diagnostics o s = front ++ onGiven o (element "tests" i) c.given ++ back ∧
      diagnostics o (s.withTest i { c with given := given }) =
        front ++ onGiven o (element "tests" i) given ++ back := by
  let path := element "tests" i
  let d : TestCase := { c with given := given }
  have hd : (s.withTest i d).tests[i]? = some d := by
    obtain ⟨hlt, -⟩ := List.getElem?_eq_some_iff.1 hc
    rw [Suite.withTest, List.getElem?_set_self hlt]
  have hnames (k : Nat) : namesBefore (s.withTest i d).tests k = namesBefore s.tests k :=
    namesBefore_set (d := d) hc rfl k
  have hbefore : onBefore o (s.withTest i d) i = onBefore o s i := by
    rw [onBefore, onBefore, Suite.withTest, List.take_set_of_le (Nat.le_refl i)]
  have hafter : onAfter o (s.withTest i d) i = onAfter o s i := by
    rw [onAfter, onAfter, hnames, Suite.withTest, List.drop_set_of_lt (Nat.lt_succ_self i)]
  have haction : onAction (Environment.ofGiven given) (path ++ "/when") c.action =
      onAction (Environment.ofGiven c.given) (path ++ "/when") c.action :=
    onAction_of_contains (Environment.contains_of_perm hperm) _ _
  refine ⟨onBefore o s i ++ onName path (namesBefore s.tests i) c.name,
    onAction (Environment.ofGiven c.given) (path ++ "/when") c.action ++
      onChecks o (path ++ "/then") c.checks ++ onAfter o s i, ?_, ?_⟩
  · rw [diagnostics_at hc, onCase]
    simp only [path, List.append_assoc]
  · rw [diagnostics_at hd, hbefore, hafter, hnames, onCase, haction]
    simp only [path, d, List.append_assoc]

omit hc in
theorem errors_onGiven_of_perm :
    Diagnostic.only .error (onGiven o (element "tests" i) given) = [] ↔
      Diagnostic.only .error (onGiven o (element "tests" i) c.given) = [] := by
  rw [(reports_onGiven o i given).errors_eq_nil_iff, (reports_onGiven o i c.given).errors_eq_nil_iff,
    no_variableDefect_iff, no_variableDefect_iff, (hperm.map Variable.name).nodup_iff]
  simp only [hperm.mem_iff]

theorem valid_of_perm :
    ((s.withTest i { c with given := given }).validate o).valid = (s.validate o).valid := by
  obtain ⟨front, back, hs, ht⟩ := exists_around_given hc hperm o
  simp only [Suite.validate, Report.ofDiagnostics, hs, ht]
  rw [Bool.eq_iff_iff, List.isEmpty_iff, List.isEmpty_iff]
  simp only [Diagnostic.only_append, List.append_eq_nil_iff, errors_onGiven_of_perm hperm o]

/-- Under a path that leads to no variable of the case, the findings stay as they are. -/
theorem under_of_perm {path : String}
    (havoids : ∀ vs, Avoids path (onGiven o (element "tests" i) vs)) :
    ((s.withTest i { c with given := given }).validate o).under path =
      (s.validate o).under path := by
  obtain ⟨front, back, hs, ht⟩ := exists_around_given hc hperm o
  simp only [Report.under, Suite.validate, Report.ofDiagnostics, hs, ht, Diagnostic.only_append,
    under_append, (havoids _).under_eq]

end Permuted

theorem avoids_otherCase (o : Options) {i j : Nat} (hne : j ≠ i) (given : List Variable) :
    Avoids (element "tests" j ++ "/") (onGiven o (element "tests" i) given) :=
  (below_onGiven o _ given).begins.avoids_element hne

theorem avoids_otherPart (o : Options) (i : Nat) {part : String} (hpart : part ∈ ["/when", "/then"])
    (given : List Variable) :
    Avoids (element "tests" i ++ part) (onGiven o (element "tests" i) given) := by
  have hapart : ¬"/given".toList <+: part.toList ∧ ¬part.toList <+: "/given".toList := by
    rw [List.mem_cons, List.mem_singleton] at hpart
    rcases hpart with rfl | rfl <;> decide +kernel
  exact (begins_onGiven o _ given).avoids hapart.1 hapart.2

end Validation
end CaseIntake
