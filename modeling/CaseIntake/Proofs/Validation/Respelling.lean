import CaseIntake.Validation
import CaseIntake.Proofs.Environment
import CaseIntake.Proofs.Reference.Spelling
import Mathlib.Data.List.Forall2

/-!
# CaseIntake.Proofs.Validation.Respelling

Validation does not see how references among the arguments are spelled: `validate_of_respelled`.

It sees arguments through the environment of their case only, which resolves all spellings of a
declared name to the same variable (`onAction_of_identifies`).
-/

namespace CaseIntake

/-- The same case with other spellings of declared names among its arguments. -/
structure TestCase.Respelled (c d : TestCase) : Prop where
  args : List.Forall₂ (Reference.Respelled fun n => ∃ v ∈ c.given, v.name = n)
    c.action.args d.action.args
  rest : d = { c with action := ⟨c.action.call, d.action.args⟩ }

structure Suite.Respelled (s t : Suite) : Prop where
  tests : List.Forall₂ TestCase.Respelled s.tests t.tests
  rest : t = { s with tests := t.tests }

namespace Validation

theorem isEmpty_eq_of_forall₂ {α β : Type} {R : α → β → Prop} {xs : List α} {ys : List β}
    (h : List.Forall₂ R xs ys) : xs.isEmpty = ys.isEmpty := by
  cases h <;> rfl

/-! ## Arguments -/

section Arguments

variable {env : Environment} {args args' : List String}
  (h : List.Forall₂ env.Identifies args args')

theorem onArg_of_identifies {a b : String} (h : env.Identifies a b) (path : String) :
    onArg env path a = onArg env path b := by
  rcases Environment.resolve_of_identifies h with rfl | ⟨name, value, ha, hb⟩
  · rfl
  · rw [onArg, onArg, ha, hb]

include h

theorem onArgsFrom_of_identifies (path : String) (index : Nat) :
    onArgsFrom env path index args = onArgsFrom env path index args' := by
  induction h generalizing index with
  | nil => rfl
  | cons hab _ ih => rw [onArgsFrom, onArgsFrom, onArg_of_identifies hab, ih]

theorem passedNames_of_identifies : passedNames env args = passedNames env args' := by
  induction h with
  | nil => rfl
  | cons hab _ ih =>
    rw [passedNames, passedNames] at ih ⊢
    rcases Environment.resolve_of_identifies hab with rfl | ⟨name, value, ha, hb⟩
    · simp only [List.filterMap_cons, ih]
    · simp only [List.filterMap_cons, ha, hb, ih]

theorem onMention_of_identifies (path name : String) :
    onMention env path args name = onMention env path args' name := by
  rw [onMention, onMention, passedNames_of_identifies h, isEmpty_eq_of_forall₂ h]

theorem onAction_of_identifies (path call : String) :
    onAction env path ⟨call, args⟩ = onAction env path ⟨call, args'⟩ := by
  have hmention : onMention env (path ++ "/call") args = onMention env (path ++ "/call") args' :=
    funext (onMention_of_identifies h _)
  rw [onAction, onAction, onArgsFrom_of_identifies h, hmention]

end Arguments

/-! ## Suites -/

/-- A name that is declared and not empty is known. -/
theorem identifies_of_respelled {given : List Variable} {a b : String}
    (h : Reference.Respelled (fun n => ∃ v ∈ given, v.name = n) a b) :
    (Environment.ofGiven given).Identifies a b := by
  cases h with
  | same => exact Or.inl rfl
  | spelled hplain hknown ha hb =>
    rw [Environment.Identifies, Reference.name_of_spells hplain ha,
      Reference.name_of_spells hplain hb]
    exact Or.inr ⟨rfl, Environment.contains_ofGiven.2 ⟨hplain.ne_empty, hknown⟩⟩

theorem onCase_of_respelled {c d : TestCase} (h : c.Respelled d) (o : Options) (path : String)
    (earlier : List String) : onCase o path earlier c = onCase o path earlier d := by
  have hargs := h.args.imp fun a b => identifies_of_respelled
  rw [h.rest, onCase, onCase, ← onAction_of_identifies hargs]

theorem onCasesFrom_of_respelled {cs ds : List TestCase}
    (h : List.Forall₂ TestCase.Respelled cs ds) (o : Options) (index : Nat)
    (earlier : List String) : onCasesFrom o index earlier cs = onCasesFrom o index earlier ds := by
  induction h generalizing index earlier with
  | nil => rfl
  | @cons c d _ _ hcd _ ih =>
    have hname : d.name = c.name := by rw [hcd.rest]
    rw [onCasesFrom, onCasesFrom, onCase_of_respelled hcd, ih, hname]

theorem validate_of_respelled {s t : Suite} (h : s.Respelled t) (o : Options) :
    t.validate o = s.validate o := by
  have hname : t.functionName = s.functionName := by rw [h.rest]
  rw [Suite.validate, Suite.validate, diagnostics, diagnostics, hname,
    isEmpty_eq_of_forall₂ h.tests, onCasesFrom_of_respelled h.tests]

end Validation
end CaseIntake
