import CaseIntake.Conversion
import CaseIntake.Proofs.Environment

/-!
# CaseIntake.Proofs.Conversion.Arguments

What passing arguments does to the inputs of a simplified case.

* `Places`: all that one argument can do (`placeArgument_eq_ok_iff`).
* `PlacesAll`: all that a list of arguments can do (`placeAll_eq_ok_iff`).
* `PlacesAll.contains_iff`: the inputs in the end are those of the start and those that arguments are
  passed under.
* `ofSimple_eq_ok_iff`: what has to be passed for a simplified case to be converted, and to what.
-/

namespace CaseIntake
namespace Conversion

/-- One argument is passed under a name and leaves inputs behind. A named argument gives way to
nothing, a variable of the set-up leaves the inputs alone, and a literal needs a name that is free. -/
inductive Places (env : Environment) (index : Nat) (inputs : Dict Value) :
    Argument → String → Dict Value → Prop where
  | named {name : String} {value : Value} :
      Places env index inputs (.named name value) name (inputs.insert name value)
  | bound {text : String} : env.contains (Reference.name text) = true →
      Places env index inputs (.positional (.string text)) (Reference.name text) inputs
  | textLiteral {text : String} : env.contains (Reference.name text) = false →
      inputs.contains (literalName index) = false →
      Places env index inputs (.positional (.string text)) (literalName index)
        (inputs.insert (literalName index) (Literal.coerce text))
  | valueLiteral {value : Value} : (∀ text, value ≠ .string text) →
      inputs.contains (literalName index) = false →
      Places env index inputs (.positional value) (literalName index)
        (inputs.insert (literalName index) value)

section Step

variable {env : Environment} {index : Nat} {a : Argument} {inputs inputs' : Dict Value}
  {name : String}

theorem placeLiteral_eq_ok_iff {value : Value} :
    placeLiteral index value inputs = .ok (name, inputs') ↔
      inputs.contains (literalName index) = false ∧ name = literalName index ∧
        inputs' = inputs.insert (literalName index) value := by
  rw [placeLiteral]
  cases inputs.contains (literalName index) with
  | true => simp
  | false => simp [eq_comm]

theorem placeLiteral_eq_error_iff {value : Value} {reason : SkipReason} :
    placeLiteral index value inputs = .error reason ↔
      inputs.contains (literalName index) = true ∧
        reason = .literalCollides index (literalName index) := by
  rw [placeLiteral]
  cases inputs.contains (literalName index) with
  | true => simp [eq_comm]
  | false => simp

theorem places_of_placeArgument (h : placeArgument env index a inputs = .ok (name, inputs')) :
    Places env index inputs a name inputs' := by
  unfold placeArgument at h
  split at h
  · simp only [Except.ok.injEq, Prod.mk.injEq] at h
    obtain ⟨rfl, rfl⟩ := h
    exact .named
  · rename_i text
    split at h
    · rename_i found value hbound
      obtain ⟨rfl, hfind⟩ := Environment.resolve_eq_bound_iff.1 hbound
      simp only [Except.ok.injEq, Prod.mk.injEq] at h
      obtain ⟨rfl, rfl⟩ := h
      exact .bound (Dict.contains_iff.2 ⟨value, hfind⟩)
    · rename_i token hunbound
      obtain ⟨rfl, hfree⟩ := Environment.resolve_eq_unbound_iff.1 hunbound
      obtain ⟨hname, rfl, rfl⟩ := placeLiteral_eq_ok_iff.1 h
      exact .textLiteral hfree hname
  · rename_i value htext
    obtain ⟨hname, rfl, rfl⟩ := placeLiteral_eq_ok_iff.1 h
    exact .valueLiteral htext hname

theorem placeArgument_of_places (h : Places env index inputs a name inputs') :
    placeArgument env index a inputs = .ok (name, inputs') := by
  cases h with
  | named => rfl
  | @bound text hbound =>
    obtain ⟨value, hfind⟩ := Dict.contains_iff.1 hbound
    have hresolve : env.resolve text = .bound (Reference.name text) value :=
      Environment.resolve_eq_bound_iff.2 ⟨rfl, hfind⟩
    simp only [placeArgument, hresolve]
  | @textLiteral text hfree hname =>
    have hresolve : env.resolve text = .unbound text :=
      Environment.resolve_eq_unbound_iff.2 ⟨rfl, hfree⟩
    simp only [placeArgument, hresolve]
    exact placeLiteral_eq_ok_iff.2 ⟨hname, rfl, rfl⟩
  | @valueLiteral value htext hname =>
    have hliteral : placeLiteral index value inputs =
        .ok (literalName index, inputs.insert (literalName index) value) :=
      placeLiteral_eq_ok_iff.2 ⟨hname, rfl, rfl⟩
    cases value with
    | string text => exact absurd rfl (htext text)
    | null | bool _ | int _ | float _ | list _ | map _ => exact hliteral

theorem placeArgument_eq_ok_iff :
    placeArgument env index a inputs = .ok (name, inputs') ↔ Places env index inputs a name inputs' :=
  ⟨places_of_placeArgument, placeArgument_of_places⟩

/-- One argument takes no name away and adds the one that it is passed under. -/
theorem Places.contains_iff (h : Places env index inputs a name inputs')
    (henv : ∀ n, env.contains n = true → inputs.contains n = true) {n : String} :
    inputs'.contains n = true ↔ inputs.contains n = true ∨ n = name := by
  cases h with
  | bound hbound =>
    refine (or_iff_left_of_imp ?_).symm
    rintro rfl
    exact henv _ hbound
  | named | textLiteral _ _ | valueLiteral _ _ =>
    rw [Dict.contains_insert, Bool.or_eq_true, decide_eq_true_eq, or_comm, eq_comm (a := n)]

end Step

/-! ## One argument after the other -/

/-- Arguments are passed in turn, each under the name at its place in the list. -/
inductive PlacesAll (env : Environment) :
    Nat → Dict Value → List Argument → List String → Dict Value → Prop where
  | nil {index : Nat} {inputs : Dict Value} : PlacesAll env index inputs [] [] inputs
  | cons {index : Nat} {inputs next inputs' : Dict Value} {a : Argument} {rest : List Argument}
      {name : String} {names : List String} :
      Places env index inputs a name next → PlacesAll env (index + 1) next rest names inputs' →
      PlacesAll env index inputs (a :: rest) (name :: names) inputs'

section Run

variable {env : Environment} {index : Nat} {args : List Argument} {inputs inputs' : Dict Value}
  {names : List String}

theorem placesAll_of_placeAll (h : placeAll env index args inputs = .ok (names, inputs')) :
    PlacesAll env index inputs args names inputs' := by
  induction args generalizing index inputs names with
  | nil =>
    simp only [placeAll, Except.ok.injEq, Prod.mk.injEq] at h
    obtain ⟨rfl, rfl⟩ := h
    exact .nil
  | cons a rest ih =>
    rw [placeAll] at h
    split at h
    · cases h
    · rename_i name next hplace
      split at h
      · cases h
      · rename_i later last hrest
        simp only [Except.ok.injEq, Prod.mk.injEq] at h
        obtain ⟨rfl, rfl⟩ := h
        exact .cons (placeArgument_eq_ok_iff.1 hplace) (ih hrest)

theorem placeAll_of_placesAll (h : PlacesAll env index inputs args names inputs') :
    placeAll env index args inputs = .ok (names, inputs') := by
  induction h with
  | nil => rfl
  | cons hplace _ ih =>
    rw [placeAll, placeArgument_eq_ok_iff.2 hplace]
    simp only [ih]

theorem placeAll_eq_ok_iff :
    placeAll env index args inputs = .ok (names, inputs') ↔
      PlacesAll env index inputs args names inputs' :=
  ⟨placesAll_of_placeAll, placeAll_of_placesAll⟩

/-- A list of arguments cannot be passed if the first of them cannot, or the others cannot after it. -/
theorem placeAll_cons_eq_error {a : Argument} {reason : SkipReason}
    (h : placeAll env index (a :: args) inputs = .error reason) :
    placeArgument env index a inputs = .error reason ∨
      ∃ name next, Places env index inputs a name next ∧
        placeAll env (index + 1) args next = .error reason := by
  rw [placeAll] at h
  split at h
  · rename_i e hplace
    obtain rfl := Except.error.inj h
    exact Or.inl hplace
  · rename_i name next hplace
    split at h
    · rename_i e hrest
      obtain rfl := Except.error.inj h
      exact Or.inr ⟨name, next, placeArgument_eq_ok_iff.1 hplace, hrest⟩
    · cases h

theorem PlacesAll.contains_iff (h : PlacesAll env index inputs args names inputs')
    (henv : ∀ n, env.contains n = true → inputs.contains n = true) {n : String} :
    inputs'.contains n = true ↔ inputs.contains n = true ∨ n ∈ names := by
  -- Inputs are only ever added, so the names of the environment stay inputs along the way.
  induction h with
  | nil => simp
  | cons hplace _ ih =>
    have hstep {n : String} := hplace.contains_iff henv (n := n)
    rw [ih fun m hm => hstep.2 (Or.inl (henv m hm)), hstep, List.mem_cons, or_assoc]

end Run

/-! ## A simplified case -/

section Case

variable {ctx : Context} {id : String} {c : SimpleCase}

theorem argumentsOf_eq_ok_iff {args : List Argument} :
    argumentsOf c = .ok args ↔
      (c.action = none ∧ args = []) ∨
        ∃ action, c.action = some action ∧ action.arguments = some args := by
  rw [argumentsOf]
  cases c.action with
  | none => simp [eq_comm]
  | some action =>
    cases harguments : action.arguments with
    | none => simp [harguments]
    | some arguments => simp [harguments]

/-- A simplified case is converted iff its arguments can be passed, starting with its set-up. -/
theorem ofSimple_eq_ok_iff {spec : Spec} :
    ofSimple ctx id c = .ok spec ↔
      ∃ args names inputs, argumentsOf c = .ok args ∧
        PlacesAll (Environment.ofSetup c.setup) 0 c.setup args names inputs ∧
        spec = ctx.spec id (describe c.description c.name)
          ⟨inputs, inputs.map (·.kind.hint), names⟩ c.checks c.tags := by
  simp only [← placeAll_eq_ok_iff]
  rw [ofSimple, inputsOfSimple]
  cases argumentsOf c with
  | error e => simp
  | ok args =>
    constructor
    · intro h
      cases hplace : placeAll (Environment.ofSetup c.setup) 0 args c.setup with
      | error e =>
        simp only [hplace] at h
        cases h
      | ok placed =>
        simp only [hplace] at h
        exact ⟨args, placed.1, placed.2, rfl, hplace, (Except.ok.inj h).symm⟩
    · rintro ⟨_, names, inputs, hargs, hplace, rfl⟩
      obtain rfl := Except.ok.inj hargs
      simp only [hplace]

/-- A case that can be called is skipped for the first argument that cannot be passed. -/
theorem ofSimple_eq_error_iff {args : List Argument} {reason : SkipReason}
    (hargs : argumentsOf c = .ok args) :
    ofSimple ctx id c = .error reason ↔
      placeAll (Environment.ofSetup c.setup) 0 args c.setup = .error reason := by
  rw [ofSimple, inputsOfSimple, hargs]
  cases hplace : placeAll (Environment.ofSetup c.setup) 0 args c.setup with
  | error e => simp [hplace]
  | ok placed => simp [hplace]

end Case

end Conversion
end CaseIntake
