import CaseIntake.Proofs.Validation.Errors

/-!
# CaseIntake.Proofs.Validation.Loosening

Looser options only take errors away: `errors_of_loosens`.

`Fewer ds ds'`: the errors among the diagnostics `ds` are some of those among `ds'`, in the same
order. Each check of a suite has fewer errors under looser options, and a walk over a list has fewer
if each of its steps has (`Fewer.walk`). A hint that becomes known starts the check of a value,
which only warns.
-/

namespace CaseIntake

namespace Options

/-- What `o` allows is allowed by the other options too, and they require nothing that `o` does not
require. -/
structure Loosens (o o' : Options) : Prop where
  hints : ∀ hint, o.allowsHint hint = true → o'.allowsHint hint = true
  types : ∀ type, o.knowsAssertion type = true → o'.knowsAssertion type = true
  expected : ∀ type, o'.requiresExpected type = true → o.requiresExpected type = true

/-- The same hints, the same assertion types, and the same types that need an expected value. What
kind an assertion type becomes is left open, and so are the limits. -/
structure SameTables (o o' : Options) : Prop where
  hints : o'.typeHints = o.typeHints
  types : o'.assertionKinds.names = o.assertionKinds.names
  expected : o'.expectedRequired = o.expectedRequired

variable {o o' : Options}

theorem SameTables.symm (h : SameTables o o') : SameTables o' o :=
  ⟨h.hints.symm, h.types.symm, h.expected.symm⟩

theorem SameTables.loosens (h : SameTables o o') : Loosens o o' where
  hints hint hallows := by
    rw [allowsHint] at hallows ⊢
    rwa [h.hints]
  types type hknows := by
    rw [knowsAssertion, ← Dict.mem_names] at hknows ⊢
    rwa [h.types]
  expected type hrequires := by
    rw [requiresExpected] at hrequires ⊢
    rwa [← h.expected]

end Options

namespace Validation

/-! ## Fewer errors -/

def Fewer (ds ds' : List Diagnostic) : Prop :=
  (Diagnostic.only .error ds).Sublist (Diagnostic.only .error ds')

namespace Fewer

theorem refl (ds : List Diagnostic) : Fewer ds ds :=
  List.Sublist.refl _

theorem of_warnings {ds : List Diagnostic} (h : Warnings ds) (ds' : List Diagnostic) :
    Fewer ds ds' := by
  rw [Fewer, Diagnostic.only_eq_nil fun d hd => by simp [h d hd]]
  exact List.nil_sublist _

theorem append {xs xs' ys ys' : List Diagnostic} (hx : Fewer xs xs') (hy : Fewer ys ys') :
    Fewer (xs ++ ys) (xs' ++ ys') := by
  rw [Fewer, Diagnostic.only_append, Diagnostic.only_append]
  exact List.Sublist.append hx hy

/-- A finding that is made on a weaker condition is made whenever the other one is. -/
theorem ite {c c' : Prop} [Decidable c] [Decidable c'] (h : c → c') (ds : List Diagnostic) :
    Fewer (if c then ds else []) (if c' then ds else []) := by
  by_cases hc : c
  · rw [if_pos hc, if_pos (h hc)]
    exact refl ds
  · rw [if_neg hc]
    exact of_warnings .nil _

theorem walk {α : Type} {check check' : Nat → List α → α → List Diagnostic}
    (h : ∀ k before x, Fewer (check k before x) (check' k before x)) (xs : List α) (k : Nat)
    (before : List α) :
    Fewer (Validation.walk check k before xs) (Validation.walk check' k before xs) := by
  induction xs generalizing k before with
  | nil => exact refl []
  | cons x xs ih => exact (h k before x).append (ih _ _)

end Fewer

/-! ## The checks of a suite -/

section Loosened

variable {o o' : Options} (h : Options.Loosens o o')

/-- Of the options only the limit of a warning counts for the name of the function. -/
theorem fewer_onFunctionName (o o' : Options) (name : String) :
    Fewer (onFunctionName o' name) (onFunctionName o name) := by
  rw [onFunctionName, onFunctionName]
  split
  · exact .refl _
  · exact .append (.refl _) (.of_warnings (.ite (.warning _ _ _) .nil) _)

include h

theorem fewer_onHint (path : String) (v : Variable) :
    Fewer (onHint o' path v) (onHint o path v) := by
  rw [onHint, onHint]
  by_cases hempty : v.hint.getD "" = ""
  · simp only [hempty, if_true]
    exact .refl _
  · simp only [hempty, if_false]
    cases hallows : o.allowsHint (v.hint.getD "") with
    | true =>
      rw [h.hints _ hallows]
      exact .refl _
    | false =>
      cases o'.allowsHint (v.hint.getD "") with
      | true => exact .of_warnings (onValue_warnings _ _ _) _
      | false => exact .refl _

theorem fewer_onVariable (path : String) (earlier : List String) (v : Variable) :
    Fewer (onVariable o' path earlier v) (onVariable o path earlier v) := by
  rw [onVariable, onVariable]
  split
  · exact .refl _
  · exact .append (.refl _) (fewer_onHint h path v)

theorem fewer_onGiven (path : String) (given : List Variable) :
    Fewer (onGiven o' path given) (onGiven o path given) := by
  rw [onGiven, onGiven, onGivenFrom_eq_walk, onGivenFrom_eq_walk]
  exact .walk (fun j before v => fewer_onVariable h _ _ v) given 0 []

theorem fewer_onCheck (path : String) (c : Check) :
    Fewer (onCheck o' path c) (onCheck o path c) := by
  rw [onCheck, onCheck]
  refine (Fewer.append ?type (.refl _)).append (.ite ?expected _)
  case type =>
    split
    · exact .refl _
    · refine .ite (fun hunknown => ?_) _
      cases hknown : o.knowsAssertion c.type with
      | false => rfl
      | true =>
        rw [h.types _ hknown] at hunknown
        cases hunknown
  case expected =>
    intro hmissing
    rw [Bool.and_eq_true] at hmissing ⊢
    exact ⟨h.expected _ hmissing.1, hmissing.2⟩

theorem fewer_onChecks (path : String) (checks : List Check) :
    Fewer (onChecks o' path checks) (onChecks o path checks) := by
  rw [onChecks, onChecks]
  split
  · exact .refl _
  · rw [onChecksFrom_eq_walk, onChecksFrom_eq_walk]
    exact .walk (fun k _ c => fewer_onCheck h _ c) checks 0 []

theorem fewer_onCase (path : String) (earlier : List String) (c : TestCase) :
    Fewer (onCase o' path earlier c) (onCase o path earlier c) :=
  (((Fewer.refl _).append (fewer_onGiven h path c.given)).append (.refl _)).append
    (fewer_onChecks h _ c.checks)

theorem fewer_diagnostics (s : Suite) : Fewer (diagnostics o' s) (diagnostics o s) := by
  rw [diagnostics, diagnostics, onCasesFrom_eq_walk, onCasesFrom_eq_walk]
  exact ((fewer_onFunctionName o o' s.functionName).append (.refl _)).append
    (.walk (fun i before c => fewer_onCase h _ _ c) s.tests 0 [])

end Loosened

/-- Under looser options a suite has some of its errors, in the same order, and no others; a valid
suite stays valid. The kinds of assertion types and the limits do not count for the errors at
all. -/
theorem errors_of_loosens (s : Suite) (o : Options) :
    (∀ o', o.Loosens o' → (s.validate o').errors.Sublist (s.validate o).errors ∧
      ((s.validate o).valid = true → (s.validate o').valid = true)) ∧
    ∀ o', o.SameTables o' → (s.validate o').errors = (s.validate o).errors := by
  have hsublist {o o' : Options} (h : o.Loosens o') :
      (s.validate o').errors.Sublist (s.validate o).errors :=
    fewer_diagnostics h s
  have hvalid (o : Options) : (s.validate o).valid = true ↔ (s.validate o).errors = [] := by
    rw [Suite.validate, Report.ofDiagnostics, List.isEmpty_iff]
  refine ⟨fun o' h => ⟨hsublist h, fun hv => ?_⟩, fun o' h => ?_⟩
  · rw [hvalid] at hv ⊢
    exact List.sublist_nil.1 (hv ▸ hsublist h)
  · exact (hsublist h.loosens).eq_of_length_le (hsublist h.symm.loosens).length_le

/-- One more hint, one more assertion type, and no type that needs an expected value. -/
def lenient : Options where
  typeHints := NameSet.ofNames ("decimal" :: Options.standard.typeHints.names)
  assertionKinds := Options.standard.assertionKinds.insert "close_to" "approximately"
  expectedRequired := NameSet.ofNames []
  maxFunctionNameLength := 0
  excerptLength := 0

/-- Of five errors one is left, and a known hint starts the check of a value. With other limits and
another kind for `equals` all five stay. -/
theorem errors_of_loosens_lenient :
    let s : Suite := ⟨"Scale", none, [⟨"halves", none,
      [⟨"x", some (.string "1"), some "decimal"⟩, ⟨"x", none, some "null"⟩], ⟨"Scale($x)", ["x"]⟩,
      [⟨"close_to", "result", none, none⟩, ⟨"equals", "result", none, none⟩,
        ⟨"length", "result", none, none⟩], []⟩]⟩
    let o' := { Options.standard with
      assertionKinds := Options.standard.assertionKinds.insert "equals" "same"
      maxFunctionNameLength := 1 }
    Options.standard.Loosens lenient ∧ Options.standard.SameTables o' ∧
      (s.validate lenient).errors.Sublist (s.validate .standard).errors ∧
      (s.validate lenient).errors.length = 1 ∧ (s.validate .standard).errors.length = 5 ∧
      (s.validate o').errors = (s.validate .standard).errors := by
  intro s o'
  have hloosens : Options.standard.Loosens lenient := by
    have hhints : ∀ hint ∈ Options.standard.typeHints.names, lenient.allowsHint hint = true := by
      decide +kernel
    have htypes : ∀ type ∈ Options.standard.assertionKinds.names,
        lenient.knowsAssertion type = true := by
      decide +kernel
    exact ⟨fun hint h => hhints hint (Dict.mem_names.2 h),
      fun type h => htypes type (Dict.mem_names.2 h), fun type h => by cases h⟩
  have hsame : Options.standard.SameTables o' := ⟨rfl, by decide +kernel, rfl⟩
  obtain ⟨hlooser, hequal⟩ := errors_of_loosens s .standard
  exact ⟨hloosens, hsame, (hlooser lenient hloosens).1, by decide +kernel, by decide +kernel,
    hequal o' hsame⟩

end Validation
end CaseIntake
