import CaseIntake.Proofs.Environment
import CaseIntake.Proofs.Validation.Reports

/-!
# CaseIntake.Proofs.Validation.Defects

What counts as a defect of a suite, said without the validator, and that the validator reports
exactly these. Each function that checks a part of a case has one lemma, which says which defects
it reports.
-/

namespace CaseIntake
namespace Validation

/-! ## Defects -/

/-- A defect of the variable at position `j`, where `before` are the variables before it. -/
inductive VariableDefect (o : Options) (j : Nat) (before : List Variable) (v : Variable) :
    CasePlace → Option String → Prop where
  | unnamed : v.name = "" → VariableDefect o j before v (.variableName j) none
  | repeated : v.name ≠ "" → (∃ u ∈ before, u.name = v.name) →
      VariableDefect o j before v (.variableName j) (some v.name)
  | unknownHint {hint : String} : v.name ≠ "" → v.hint = some hint → hint ≠ "" →
      o.allowsHint hint = false → VariableDefect o j before v (.variableHint j) (some hint)

/-- A defect of the check at position `k`. -/
inductive CheckDefect (o : Options) (k : Nat) (c : Check) : CasePlace → Option String → Prop where
  | untyped : c.type = "" → CheckDefect o k c (.checkType k) none
  | unknownType : c.type ≠ "" → o.knowsAssertion c.type = false →
      CheckDefect o k c (.checkType k) (some c.type)
  | blankActual : (∀ ch ∈ c.actual.toList, Text.isBlank ch = true) →
      CheckDefect o k c (.checkActual k) none
  | missingExpected : o.requiresExpected c.type = true → c.expected = none →
      CheckDefect o k c (.checkExpected k) none

inductive CaseDefect (o : Options) (c : TestCase) : CasePlace → Option String → Prop where
  | unnamed : c.name = "" → CaseDefect o c .name none
  | inVariable {j : Nat} {v : Variable} {place : CasePlace} {value : Option String} :
      c.given[j]? = some v → VariableDefect o j (c.given.take j) v place value →
      CaseDefect o c place value
  | blankCall : (∀ ch ∈ c.action.call.toList, Text.isBlank ch = true) →
      CaseDefect o c .call none
  | undefinedArg {k : Nat} {arg : String} : c.action.args[k]? = some arg →
      (∀ v ∈ c.given, v.name ≠ "" → v.name ≠ Reference.name arg) →
      CaseDefect o c (.arg k) (some arg)
  | unchecked : c.checks = [] → CaseDefect o c .checks none
  | inCheck {k : Nat} {a : Check} {place : CasePlace} {value : Option String} :
      c.checks[k]? = some a → CheckDefect o k a place value → CaseDefect o c place value

inductive Defect (o : Options) (s : Suite) : Place → Option String → Prop where
  | unnamed : s.functionName = "" → Defect o s .functionName none
  | blankInName : (∃ ch ∈ s.functionName.toList, Text.isBlank ch = true) →
      Defect o s .functionName (some s.functionName)
  | noTests : s.tests = [] → Defect o s .tests none
  | inCase {i : Nat} {c : TestCase} {place : CasePlace} {value : Option String} :
      s.tests[i]? = some c → CaseDefect o c place value → Defect o s (.inCase i place) value

/-! ## The checks of a case

The places of a case are those at a position `i` of the suite; `casePath i` is the path of each. -/

def casePath (i : Nat) (place : CasePlace) : String :=
  (Place.inCase i place).path

section Case

variable (o : Options) (i : Nat)

theorem onValue_warnings (path : String) (value : Option Value) (hint : String) :
    Warnings (onValue path value hint) := by
  rw [onValue]
  split
  · exact .ite .nil (.warning _ _ _)
  · exact .ite (.warning _ _ _) (.ite .nil (.ite (.warning _ _ _) (.warning _ _ _)))

theorem casePath_variableName (j : Nat) :
    casePath i (.variableName j) = element (element "tests" i ++ "/given") j ++ "/name" := by
  rw [element_append, String.append_assoc]; rfl

theorem casePath_variableHint (j : Nat) :
    casePath i (.variableHint j) = element (element "tests" i ++ "/given") j ++ "/type" := by
  rw [element_append, String.append_assoc]; rfl

theorem reports_onHint (j : Nat) (v : Variable) :
    Reports (casePath i) CasePlace.rank
      (onHint o (element (element "tests" i ++ "/given") j) v)
      fun p w => ∃ hint, v.hint = some hint ∧ hint ≠ "" ∧ o.allowsHint hint = false ∧
        p = .variableHint j ∧ w = some hint := by
  rw [onHint, ← casePath_variableHint]
  cases hh : v.hint with
  | none => exact .of_warnings (.warning _ _ _) (by simp)
  | some hint =>
    simp only [Option.getD_some, Option.some.injEq]
    split
    · rename_i hempty
      refine .of_warnings (.warning _ _ _) ?_
      rintro p w ⟨_, rfl, hne, _⟩
      exact hne hempty
    · rename_i hne
      split
      · rename_i hunknown
        simp only [Bool.not_eq_true'] at hunknown
        exact (Reports.error _ _ _).congr (by simp [hne, hunknown])
      · rename_i hknown
        simp only [Bool.not_eq_true', Bool.not_eq_false] at hknown
        refine .of_warnings (onValue_warnings _ _ _) ?_
        rintro p w ⟨_, rfl, _, hunknown, _⟩
        rw [hknown] at hunknown
        cases hunknown

theorem reports_onVariable (j : Nat) (before : List Variable) (v : Variable) :
    Reports (casePath i) CasePlace.rank
      (onVariable o (element (element "tests" i ++ "/given") j)
        (before.map Variable.name).reverse v)
      (VariableDefect o j before v) := by
  rw [onVariable, ← casePath_variableName]
  split
  · rename_i hempty
    refine (Reports.error _ _ _).congr fun p w => ⟨?_, ?_⟩
    · rintro ⟨rfl, rfl⟩
      exact .unnamed hempty
    · intro h
      cases h with
      | unnamed _ => exact ⟨rfl, rfl⟩
      | repeated hne _ => exact absurd hempty hne
      | unknownHint hne _ _ _ => exact absurd hempty hne
  · rename_i hne
    refine ((((Reports.ite _ _ _ _).append_warnings (.ite .nil (.warning _ _ _))).append
      (reports_onHint o i j v) ?_).congr ?_)
    · rintro p w q w' ⟨_, rfl, _⟩ ⟨_, _, _, _, rfl, _⟩
      simp [CasePlace.rank, List.cons_lt_cons_iff]
    · intro p w
      constructor
      · rintro (⟨hmem, rfl, rfl⟩ | ⟨hint, hh, hhne, hunknown, rfl, rfl⟩)
        · exact .repeated hne (by simpa using hmem)
        · exact .unknownHint hne hh hhne hunknown
      · intro h
        cases h with
        | unnamed h => exact absurd h hne
        | repeated _ hmem => exact Or.inl ⟨by simpa using hmem, rfl, rfl⟩
        | unknownHint _ hh hhne hunknown =>
          exact Or.inr ⟨_, hh, hhne, hunknown, rfl, rfl⟩

theorem onGivenFrom_eq_walk (path : String) (given : List Variable) :
    onGivenFrom o path 0 [] given =
      walk (fun j before v => onVariable o (element path j) (before.map Variable.name).reverse v)
        0 [] given :=
  eq_walk (f := fun j before vs => onGivenFrom o path j (before.map Variable.name).reverse vs)
    (fun _ _ => rfl) (fun _ _ _ _ => by rw [onGivenFrom]; simp) given 0 []

theorem VariableDefect.place {o : Options} {j : Nat} {before : List Variable} {v : Variable}
    {p : CasePlace} {w : Option String} (h : VariableDefect o j before v p w) :
    p = .variableName j ∨ p = .variableHint j := by
  cases h with
  | unnamed _ => exact Or.inl rfl
  | repeated _ _ => exact Or.inl rfl
  | unknownHint _ _ _ _ => exact Or.inr rfl

theorem VariableDefect.part_eq {o : Options} {j : Nat} {before : List Variable} {v : Variable}
    {p : CasePlace} {w : Option String} (h : VariableDefect o j before v p w) : p.part = 1 := by
  rcases h.place with rfl | rfl <;> rfl

/-- Variables are without a defect iff each has a name and no unknown hint, and no two share a
name. In this form the order of the variables does not count. -/
theorem no_variableDefect_iff {o : Options} {given : List Variable} :
    (∀ p w, ¬∃ j v, given[j]? = some v ∧ VariableDefect o j (given.take j) v p w) ↔
      (∀ v ∈ given, v.name ≠ "" ∧
        ∀ hint, v.hint = some hint → hint ≠ "" → o.allowsHint hint = true) ∧
      (given.map Variable.name).Nodup := by
  constructor
  · intro h
    have hname : ∀ v ∈ given, v.name ≠ "" := by
      intro v hv hempty
      obtain ⟨j, hj⟩ := List.mem_iff_getElem?.1 hv
      exact h _ _ ⟨j, v, hj, .unnamed hempty⟩
    refine ⟨fun v hv => ⟨hname v hv, fun hint hh hne => ?_⟩, ?_⟩
    · obtain ⟨j, hj⟩ := List.mem_iff_getElem?.1 hv
      cases hallows : o.allowsHint hint with
      | true => rfl
      | false => exact absurd ⟨j, v, hj, .unknownHint (hname v hv) hh hne hallows⟩ (h _ _)
    · refine List.pairwise_map.2 (List.pairwise_iff_getElem.2 fun i j hi hj hij heq => ?_)
      have hmem : given[i] ∈ given.take j := List.mem_take_iff_getElem.2 ⟨i, by omega, rfl⟩
      exact h _ _ ⟨j, _, List.getElem?_eq_getElem hj,
        .repeated (hname _ (List.getElem_mem hj)) ⟨_, hmem, heq⟩⟩
  · rintro ⟨hsound, hnodup⟩ p w ⟨j, v, hj, hdefect⟩
    obtain ⟨hlt, rfl⟩ := List.getElem?_eq_some_iff.1 hj
    obtain ⟨hname, hhint⟩ := hsound _ (List.getElem_mem hlt)
    cases hdefect with
    | unnamed hempty => exact hname hempty
    | repeated _ hearlier =>
      obtain ⟨u, hu, heq⟩ := hearlier
      obtain ⟨i, hi, rfl⟩ := List.mem_take_iff_getElem.1 hu
      rw [Nat.lt_min] at hi
      exact List.pairwise_iff_getElem.1 (List.pairwise_map.1 hnodup) i j hi.2 hlt hi.1 heq
    | unknownHint _ hh hne hunknown =>
      rw [hhint _ hh hne] at hunknown
      cases hunknown

theorem reports_onGiven (given : List Variable) :
    Reports (casePath i) CasePlace.rank (onGiven o (element "tests" i) given)
      fun p w => ∃ j v, given[j]? = some v ∧ VariableDefect o j (given.take j) v p w := by
  rw [onGiven, onGivenFrom_eq_walk]
  refine (Reports.walk (reports_onVariable o i) ?_ given 0 []).congr (by simp)
  intro j k _ _ x y p v q w hjk hp hq
  rcases hp.place with rfl | rfl <;> rcases hq.place with rfl | rfl <;>
    simp [CasePlace.rank, List.cons_lt_cons_iff, hjk]

theorem reports_onArg (given : List Variable) (k : Nat) (arg : String) :
    Reports (casePath i) CasePlace.rank
      (onArg (Environment.ofGiven given) (element (element "tests" i ++ "/when" ++ "/args") k) arg)
      fun p w => (∀ v ∈ given, v.name ≠ "" → v.name ≠ Reference.name arg) ∧
        p = .arg k ∧ w = some arg := by
  have hpath : element (element "tests" i ++ "/when" ++ "/args") k = casePath i (.arg k) := by
    rw [String.append_assoc, element_append]; rfl
  rw [hpath, onArg]
  cases hc : (Environment.ofGiven given).contains (Reference.name arg) with
  | true =>
    obtain ⟨value, hv⟩ := Dict.contains_iff.1 hc
    have hfind : (Environment.ofGiven given).find? (Reference.name arg) = some value := hv
    obtain ⟨hne, v, hmem, hname⟩ := Environment.contains_ofGiven.1 hc
    rw [Environment.resolve, hfind]
    refine .of_warnings .nil ?_
    rintro p w ⟨hall, _⟩
    exact hall v hmem (hname ▸ hne) hname
  | false =>
    rw [Environment.resolve_of_contains_eq_false hc]
    refine (Reports.error _ _ _).congr ?_
    have hall : ∀ v ∈ given, v.name ≠ "" → v.name ≠ Reference.name arg := by
      intro v hmem hne hname
      rw [Environment.contains_ofGiven.2 ⟨hname ▸ hne, v, hmem, hname⟩] at hc
      cases hc
    intro p w
    exact ⟨fun h => ⟨hall, h⟩, fun h => h.2⟩

theorem onArgsFrom_eq_walk (env : Environment) (path : String) (args : List String) :
    onArgsFrom env path 0 args = walk (fun k _ arg => onArg env (element path k) arg) 0 [] args :=
  eq_walk (f := fun k _ args => onArgsFrom env path k args) (fun _ _ => rfl)
    (fun _ _ _ _ => rfl) args 0 []

theorem onMention_warnings (env : Environment) (path : String) (args : List String)
    (name : String) : Warnings (onMention env path args name) :=
  .ite (.warning _ _ _) (.ite (.warning _ _ _) .nil)

theorem reports_onAction (given : List Variable) (a : Invocation) :
    Reports (casePath i) CasePlace.rank
      (onAction (Environment.ofGiven given) (element "tests" i ++ "/when") a)
      fun p w =>
        ((∀ ch ∈ a.call.toList, Text.isBlank ch = true) ∧ p = .call ∧ w = none) ∨
        ∃ k arg, a.args[k]? = some arg ∧
          (∀ v ∈ given, v.name ≠ "" → v.name ≠ Reference.name arg) ∧
          p = .arg k ∧ w = some arg := by
  have hpath : element "tests" i ++ "/when" ++ "/call" = casePath i .call := by
    rw [String.append_assoc]; rfl
  have hargs := Reports.walk (fun k _ arg => reports_onArg i given k arg) (by
    rintro j k _ _ x y p v q w hjk ⟨_, rfl, _⟩ ⟨_, rfl, _⟩
    simp [CasePlace.rank, List.cons_lt_cons_iff, hjk]) a.args 0 []
  rw [onAction, onArgsFrom_eq_walk, hpath]
  refine ((((Reports.ite _ _ _ _).append hargs ?_).append_warnings
    (.flatMap (onMention_warnings _ _ _) _)).congr ?_)
  · rintro p v q w ⟨_, rfl, _⟩ ⟨_, _, _, _, rfl, _⟩
    simp [CasePlace.rank, List.cons_lt_cons_iff]
  · simp [Text.isBlankText]

theorem casePath_checkType (k : Nat) :
    casePath i (.checkType k) = element (element "tests" i ++ "/then") k ++ "/type" := by
  rw [element_append, String.append_assoc]; rfl

theorem casePath_checkActual (k : Nat) :
    casePath i (.checkActual k) = element (element "tests" i ++ "/then") k ++ "/actual" := by
  rw [element_append, String.append_assoc]; rfl

theorem casePath_checkExpected (k : Nat) :
    casePath i (.checkExpected k) = element (element "tests" i ++ "/then") k ++ "/expected" := by
  rw [element_append, String.append_assoc]; rfl

theorem reports_type (k : Nat) (type : String) :
    Reports (casePath i) CasePlace.rank
      (if type = "" then [.error (casePath i (.checkType k)) "assertion type is required" none]
      else if !o.knowsAssertion type then
        [.error (casePath i (.checkType k)) "invalid assertion type" (some type)]
      else [])
      fun p w => p = .checkType k ∧ ((type = "" ∧ w = none) ∨
        (type ≠ "" ∧ o.knowsAssertion type = false ∧ w = some type)) := by
  split
  · rename_i h
    exact (Reports.error _ _ _).congr (by simp [h])
  · rename_i h
    exact (Reports.ite _ _ _ _).congr (by simp [h, and_left_comm])

theorem reports_onCheck (k : Nat) (c : Check) :
    Reports (casePath i) CasePlace.rank
      (onCheck o (element (element "tests" i ++ "/then") k) c) (CheckDefect o k c) := by
  have hactual : Reports (casePath i) CasePlace.rank
      (if Text.isBlankText c.actual then
        [.error (casePath i (.checkActual k)) "actual value reference is required" none]
      else [])
      fun p w => Text.isBlankText c.actual = true ∧ p = .checkActual k ∧ w = none :=
    .ite _ _ _ _
  have hexpected : Reports (casePath i) CasePlace.rank
      (if o.requiresExpected c.type && c.expected.isNone then
        [.error (casePath i (.checkExpected k)) ("expected value is required for " ++ c.type) none]
      else [])
      fun p w => (o.requiresExpected c.type && c.expected.isNone) = true ∧
        p = .checkExpected k ∧ w = none :=
    .ite _ _ _ _
  rw [onCheck, ← casePath_checkType, ← casePath_checkActual, ← casePath_checkExpected]
  refine (((reports_type o i k c.type).append hactual ?_).append hexpected ?_).congr ?_
  · rintro p v q w ⟨rfl, _⟩ ⟨_, rfl, _⟩
    simp [CasePlace.rank, List.cons_lt_cons_iff]
  · rintro p v q w (⟨rfl, _⟩ | ⟨_, rfl, _⟩) ⟨_, rfl, _⟩ <;>
      simp [CasePlace.rank, List.cons_lt_cons_iff]
  · intro p w
    constructor
    · rintro ((⟨rfl, ⟨h, rfl⟩ | ⟨hne, h, rfl⟩⟩ | ⟨h, rfl, rfl⟩) | ⟨h, rfl, rfl⟩)
      · exact .untyped h
      · exact .unknownType hne h
      · exact .blankActual (by simpa [Text.isBlankText] using h)
      · simp only [Bool.and_eq_true, Option.isNone_iff_eq_none] at h
        exact .missingExpected h.1 h.2
    · intro h
      cases h with
      | untyped h => exact Or.inl (Or.inl ⟨rfl, Or.inl ⟨h, rfl⟩⟩)
      | unknownType hne h => exact Or.inl (Or.inl ⟨rfl, Or.inr ⟨hne, h, rfl⟩⟩)
      | blankActual h => exact Or.inl (Or.inr ⟨by simpa [Text.isBlankText] using h, rfl, rfl⟩)
      | missingExpected h hnone => exact Or.inr ⟨by simp [h, hnone], rfl, rfl⟩

theorem CheckDefect.place {o : Options} {k : Nat} {c : Check} {p : CasePlace}
    {w : Option String} (h : CheckDefect o k c p w) : ∃ part, p.rank = [5, k, part] := by
  cases h <;> exact ⟨_, rfl⟩

theorem CheckDefect.part_eq {o : Options} {k : Nat} {c : Check} {p : CasePlace}
    {w : Option String} (h : CheckDefect o k c p w) : p.part = 4 := by
  cases h <;> rfl

theorem onChecksFrom_eq_walk (path : String) (checks : List Check) :
    onChecksFrom o path 0 checks = walk (fun k _ c => onCheck o (element path k) c) 0 [] checks :=
  eq_walk (f := fun k _ cs => onChecksFrom o path k cs) (fun _ _ => rfl) (fun _ _ _ _ => rfl)
    checks 0 []

theorem reports_onChecks (checks : List Check) :
    Reports (casePath i) CasePlace.rank (onChecks o (element "tests" i ++ "/then") checks)
      fun p w => (checks = [] ∧ p = .checks ∧ w = none) ∨
        ∃ k c, checks[k]? = some c ∧ CheckDefect o k c p w := by
  rw [onChecks]
  split
  · rename_i h
    have hnil : checks = [] := List.isEmpty_iff.1 h
    subst hnil
    exact (Reports.error CasePlace.checks _ _).congr (by simp)
  · rename_i h
    have hnil : checks ≠ [] := fun hnil => h (List.isEmpty_iff.2 hnil)
    rw [onChecksFrom_eq_walk]
    refine (Reports.walk (fun k _ c => reports_onCheck o i k c) ?_ checks 0 []).congr
      (by simp [hnil])
    intro j k _ _ x y p v q w hjk hp hq
    obtain ⟨part, hp⟩ := hp.place
    obtain ⟨part', hq⟩ := hq.place
    simp [hp, hq, List.cons_lt_cons_iff, hjk]

end Case
end Validation
end CaseIntake
