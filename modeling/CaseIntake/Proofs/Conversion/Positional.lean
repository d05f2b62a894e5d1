import CaseIntake.Proofs.Action
import CaseIntake.Proofs.Conversion.Arguments
import CaseIntake.Proofs.Validation.Place

/-!
# CaseIntake.Proofs.Conversion.Positional

Arguments that are passed by position: `ofSimple_of_passes`.

* `Passed`: what an argument passes is decided by the set-up alone, a variable of the set-up or a
  literal.
* `Stored`: the literals, each under a name of its own that tells its position.
* `placesAll_positional`: what is passed leaves the inputs there were and the literals.
* `placeAll_positional_eq_error`: only a literal whose name is taken cannot be passed. Literals
  never take the names of each other, as their names differ (`literalName_inj`).
-/

namespace CaseIntake

/-- What an argument passes. -/
inductive Passed where
  | variable (name : String)
  | literal (value : Value)
deriving DecidableEq

/-- A text that refers to a variable of the set-up passes that variable, and any other text is read
as a literal. Other values are literals themselves. -/
def Passed.of (setup : Dict Value) : Value → Passed
  | .string text =>
    if setup.contains (Reference.name text) then .variable (Reference.name text)
    else .literal (Literal.coerce text)
  | value => .literal value

section Text

variable {setup : Dict Value} {text : String}

theorem Passed.of_bound (h : setup.contains (Reference.name text) = true) :
    Passed.of setup (.string text) = .variable (Reference.name text) := by
  rw [Passed.of, if_pos h]

theorem Passed.of_unbound (h : setup.contains (Reference.name text) = false) :
    Passed.of setup (.string text) = .literal (Literal.coerce text) := by
  rw [Passed.of, h]
  rfl

end Text

/-- The name under which it is passed at a position. -/
def Passed.name (index : Nat) : Passed → String
  | .variable name => name
  | .literal _ => Conversion.literalName index

/-- An action that passes these values by position: a call, a structured call with the text of its
arguments, or one with a list. -/
inductive Action.Passes : Action → List Value → Prop where
  | call {text : String} : Passes (.call text) ((callArguments text).map .string)
  | text {function : Option String} {order : List String} {text : String} :
      Passes (.structured ⟨function, some (.text text), order⟩)
        ((Text.commaPieces text.toList).map .string)
  | list {function : Option String} {order : List String} {values : List Value} :
      Passes (.structured ⟨function, some (.positional values), order⟩) values

theorem Action.Passes.arguments_eq {action : Action} {values : List Value}
    (h : action.Passes values) : action.arguments = some (values.map .positional) := by
  cases h with
  | call => exact congrArg some (textArguments_eq_map _)
  | text => exact congrArg some (textArguments_eq_map _)
  | list => rfl

namespace Conversion

theorem literalName_inj {i j : Nat} : literalName i = literalName j ↔ i = j := by
  rw [literalName, literalName, String.append_right_inj, ← String.toList_inj, Nat.toString_eq_repr,
    Nat.toString_eq_repr, Nat.toList_repr, Nat.toList_repr, Validation.toDigits_inj]

/-- At this place of the values stands a literal. -/
def LiteralAt (setup : Dict Value) (values : List Value) (i : Nat) (x : Value) : Prop :=
  ∃ v, values[i]? = some v ∧ Passed.of setup v = .literal x

/-- Counted from `index`, a literal of the values has this name. -/
def Stored (setup : Dict Value) (index : Nat) (values : List Value) (name : String) (x : Value) :
    Prop :=
  ∃ i, LiteralAt setup values i x ∧ name = literalName (index + i)

/-- Counted from `index`, the literal at this place of the values has a name that is taken. -/
def Collides (setup : Dict Value) (index : Nat) (values : List Value) (taken : Dict Value)
    (i : Nat) : Prop :=
  (∃ x, LiteralAt setup values i x) ∧ taken.contains (literalName (index + i)) = true

section Step

variable {setup inputs next : Dict Value} {index : Nat} {v x : Value} {values : List Value}
  {name : String}

theorem literalAt_zero : LiteralAt setup (v :: values) 0 x ↔ Passed.of setup v = .literal x := by
  simp [LiteralAt]

theorem literalAt_succ {i : Nat} :
    LiteralAt setup (v :: values) (i + 1) x ↔ LiteralAt setup values i x := by
  simp [LiteralAt]

theorem stored_cons {n : String} :
    Stored setup index (v :: values) n x ↔
      (Passed.of setup v = .literal x ∧ n = literalName index) ∨
        Stored setup (index + 1) values n x := by
  constructor
  · rintro ⟨i, hliteral, hname⟩
    cases i with
    | zero => exact Or.inl ⟨literalAt_zero.1 hliteral, hname⟩
    | succ i =>
      rw [← Nat.add_assoc, Nat.add_right_comm] at hname
      exact Or.inr ⟨i, literalAt_succ.1 hliteral, hname⟩
  · rintro (⟨hliteral, hname⟩ | ⟨i, hliteral, hname⟩)
    · exact ⟨0, literalAt_zero.2 hliteral, hname⟩
    · rw [Nat.add_right_comm, Nat.add_assoc] at hname
      exact ⟨i + 1, literalAt_succ.2 hliteral, hname⟩

/-- An argument is passed as the set-up decides, and a literal needs its name to be free. -/
theorem Places.positional
    (h : Places (Environment.ofSetup setup) index inputs (.positional v) name next) :
    (Passed.of setup v = .variable name ∧ next = inputs) ∨
      ∃ x, Passed.of setup v = .literal x ∧ name = literalName index ∧
        inputs.contains (literalName index) = false ∧
        next = inputs.insert (literalName index) x := by
  cases h with
  | bound hbound => exact Or.inl ⟨Passed.of_bound hbound, rfl⟩
  | textLiteral hunbound hfree => exact Or.inr ⟨_, Passed.of_unbound hunbound, rfl, hfree, rfl⟩
  | valueLiteral htext hfree => exact Or.inr ⟨v, by rw [Passed.of]; exact htext, rfl, hfree, rfl⟩

theorem Places.name_eq
    (h : Places (Environment.ofSetup setup) index inputs (.positional v) name next) :
    name = (Passed.of setup v).name index := by
  rcases h.positional with ⟨hvariable, -⟩ | ⟨x, hliteral, hname, -, -⟩
  · rw [hvariable, Passed.name]
  · rw [hliteral, Passed.name, hname]

/-- The inputs stay as they were, with the argument besides if it is a literal. -/
theorem Places.find?_iff
    (h : Places (Environment.ofSetup setup) index inputs (.positional v) name next) {n : String} :
    next.find? n = some x ↔
      inputs.find? n = some x ∨ Passed.of setup v = .literal x ∧ n = literalName index := by
  rcases h.positional with ⟨hvariable, rfl⟩ | ⟨y, hliteral, -, hfree, rfl⟩
  · simp [hvariable]
  · rw [Dict.find?_insert, hliteral, Passed.literal.injEq]
    by_cases hn : literalName index = n
    · subst hn
      simp [Dict.contains_eq_false.1 hfree]
    · simp [hn, Ne.symm hn]

/-- Only a literal whose name is taken is refused. -/
theorem placeArgument_positional_eq_error {reason : SkipReason}
    (h : placeArgument (Environment.ofSetup setup) index (.positional v) inputs = .error reason) :
    Collides setup index (v :: values) inputs 0 ∧
      reason = .literalCollides index (literalName index) := by
  have hliteral : ∃ x, Passed.of setup v = .literal x ∧
      placeLiteral index x inputs = .error reason := by
    cases v with
    | string text =>
      rw [placeArgument] at h
      split at h
      · cases h
      · rename_i token hunbound
        obtain ⟨rfl, hfree⟩ := Environment.resolve_eq_unbound_iff.1 hunbound
        exact ⟨_, Passed.of_unbound hfree, h⟩
    | null | bool _ | int _ | float _ | list _ | map _ => exact ⟨_, rfl, h⟩
  obtain ⟨x, hx, hplace⟩ := hliteral
  obtain ⟨htaken, hreason⟩ := placeLiteral_eq_error_iff.1 hplace
  exact ⟨⟨⟨x, literalAt_zero.2 hx⟩, htaken⟩, hreason⟩

/-- What is passed first does not collide, and it takes no name of a later literal. -/
theorem Places.collides_iff
    (h : Places (Environment.ofSetup setup) index inputs (.positional v) name next) {i : Nat} :
    Collides setup index (v :: values) inputs i ↔
      ∃ j, i = j + 1 ∧ Collides setup (index + 1) values next j := by
  have hlater (j : Nat) : next.contains (literalName (index + 1 + j)) =
      inputs.contains (literalName (index + 1 + j)) := by
    rcases h.positional with ⟨-, rfl⟩ | ⟨x, -, -, -, rfl⟩
    · rfl
    · have hne : literalName index ≠ literalName (index + 1 + j) := by
        rw [Ne, literalName_inj]
        omega
      rw [Dict.contains_insert, decide_eq_false hne, Bool.false_or]
  constructor
  · rintro ⟨⟨x, hx⟩, htaken⟩
    cases i with
    | zero =>
      rw [literalAt_zero] at hx
      rcases h.positional with ⟨hvariable, -⟩ | ⟨y, -, -, hfree, -⟩
      · rw [hvariable] at hx
        cases hx
      · rw [Nat.add_zero, hfree] at htaken
        cases htaken
    | succ j =>
      refine ⟨j, rfl, ⟨x, literalAt_succ.1 hx⟩, ?_⟩
      rwa [hlater, Nat.add_right_comm, Nat.add_assoc]
  · rintro ⟨j, rfl, ⟨x, hx⟩, htaken⟩
    refine ⟨⟨x, literalAt_succ.2 hx⟩, ?_⟩
    rwa [hlater, Nat.add_right_comm, Nat.add_assoc] at htaken

end Step

/-! ## All arguments -/

section Run

variable {setup inputs : Dict Value} {index : Nat} {values : List Value}

/-- Passing values by position leaves the inputs as they were, with the literals besides. -/
theorem placesAll_positional {names : List String} {inputs' : Dict Value}
    (h : PlacesAll (Environment.ofSetup setup) index inputs (values.map .positional) names inputs') :
    names = values.mapIdx (fun i v => (Passed.of setup v).name (index + i)) ∧
      (∀ i, ¬Collides setup index values inputs i) ∧
      ∀ name x, inputs'.find? name = some x ↔
        inputs.find? name = some x ∨ Stored setup index values name x := by
  induction values generalizing index inputs names with
  | nil =>
    cases h
    simp [Collides, Stored, LiteralAt]
  | cons v values ih =>
    obtain _ | ⟨hplace, hrest⟩ := h
    obtain ⟨rfl, hfree, hfind⟩ := ih hrest
    refine ⟨?names, ?free, fun n x => ?find⟩
    case names =>
      rw [hplace.name_eq]
      simp only [List.mapIdx_cons, Nat.add_zero, Nat.add_assoc, Nat.add_comm 1]
    case free =>
      intro i hcollides
      obtain ⟨j, -, hlater⟩ := hplace.collides_iff.1 hcollides
      exact hfree j hlater
    case find =>
      rw [hfind, stored_cons, hplace.find?_iff, or_assoc]

/-- The first literal whose name is taken is the reason if values cannot be passed. -/
theorem placeAll_positional_eq_error {reason : SkipReason}
    (h : placeAll (Environment.ofSetup setup) index (values.map .positional) inputs =
      .error reason) :
    ∃ i, Collides setup index values inputs i ∧ (∀ j < i, ¬Collides setup index values inputs j) ∧
      reason = .literalCollides (index + i) (literalName (index + i)) := by
  induction values generalizing index inputs with
  | nil => cases h
  | cons v values ih =>
    rcases placeAll_cons_eq_error h with hfirst | ⟨name, next, hplace, hrest⟩
    · obtain ⟨hcollides, hreason⟩ := placeArgument_positional_eq_error hfirst
      exact ⟨0, hcollides, fun j hj => absurd hj (Nat.not_lt_zero j), hreason⟩
    · obtain ⟨i, hcollides, hbefore, hreason⟩ := ih hrest
      refine ⟨i + 1, hplace.collides_iff.2 ⟨i, rfl, hcollides⟩, fun j hj hearlier => ?_, ?_⟩
      · obtain ⟨k, rfl, hk⟩ := hplace.collides_iff.1 hearlier
        exact hbefore k (by omega) hk
      · rw [hreason, Nat.add_assoc, Nat.add_comm 1]

end Run

/-! ## A case -/

/-- A case whose action passes values by position is skipped iff one of them is a literal whose
name is that of a variable of the set-up, and the first such literal is the reason. Otherwise each
value is passed under the variable that it refers to or under its own name as a literal, and the
inputs are the set-up together with the literals under their names. What counts as a variable is the
set-up alone, whatever literals came before. -/
theorem ofSimple_of_passes {c : SimpleCase} {action : Action} {values : List Value}
    (haction : c.action = some action) (hpasses : action.Passes values) (ctx : Context)
    (id : String) :
    ((∃ reason, ofSimple ctx id c = .error reason) ↔
        ∃ i x, LiteralAt c.setup values i x ∧ c.setup.contains (literalName i) = true) ∧
      (∀ reason, ofSimple ctx id c = .error reason →
        ∃ i, reason = .literalCollides i (literalName i) ∧
          (∃ x, LiteralAt c.setup values i x) ∧ c.setup.contains (literalName i) = true ∧
          ∀ j < i, ∀ x, LiteralAt c.setup values j x → c.setup.contains (literalName j) = false) ∧
      ∀ spec, ofSimple ctx id c = .ok spec →
        spec.argOrder = values.mapIdx (fun i v => (Passed.of c.setup v).name i) ∧
        ∀ name x, spec.inputs.find? name = some x ↔
          c.setup.find? name = some x ∨ ∃ i, LiteralAt c.setup values i x ∧ name = literalName i := by
  have hargs : argumentsOf c = .ok (values.map .positional) :=
    argumentsOf_eq_ok_iff.2 (Or.inr ⟨action, haction, hpasses.arguments_eq⟩)
  have hskipped (reason : SkipReason) (h : ofSimple ctx id c = .error reason) :=
    placeAll_positional_eq_error ((ofSimple_eq_error_iff hargs).1 h)
  have hconverted (spec : Spec) (h : ofSimple ctx id c = .ok spec) :
      spec.argOrder = values.mapIdx (fun i v => (Passed.of c.setup v).name i) ∧
        (∀ i, ¬Collides c.setup 0 values c.setup i) ∧
        ∀ name x, spec.inputs.find? name = some x ↔
          c.setup.find? name = some x ∨ Stored c.setup 0 values name x := by
    obtain ⟨args, names, inputs, hok, hplaces, rfl⟩ := ofSimple_eq_ok_iff.1 h
    obtain rfl : values.map .positional = args := Except.ok.inj (hargs.symm.trans hok)
    have hplaced := placesAll_positional hplaces
    simp only [Nat.zero_add] at hplaced
    exact hplaced
  simp only [Stored, Collides, Nat.zero_add] at hskipped hconverted
  refine ⟨⟨?skipped, ?collides⟩, fun reason h => ?reason, fun spec h => ?spec⟩
  case skipped =>
    rintro ⟨reason, h⟩
    obtain ⟨i, ⟨⟨x, hx⟩, htaken⟩, -⟩ := hskipped reason h
    exact ⟨i, x, hx, htaken⟩
  case collides =>
    rintro ⟨i, x, hx, htaken⟩
    cases h : ofSimple ctx id c with
    | error reason => exact ⟨reason, rfl⟩
    | ok spec => exact absurd ⟨⟨x, hx⟩, htaken⟩ ((hconverted spec h).2.1 i)
  case reason =>
    obtain ⟨i, ⟨hx, htaken⟩, hbefore, hreason⟩ := hskipped reason h
    refine ⟨i, hreason, hx, htaken, fun j hj x hliteral => ?_⟩
    exact Bool.eq_false_iff.2 fun hearlier => hbefore j hj ⟨⟨x, hliteral⟩, hearlier⟩
  case spec =>
    obtain ⟨horder, -, hfind⟩ := hconverted spec h
    exact ⟨horder, hfind⟩

/-- The second argument is the name under which the first one is stored; it is a text all the same. -/
theorem ofSimple_of_passes_earlierName :
    let ctx : Context := ⟨.function "F", "F", .standard⟩
    let action := Action.call "F(7, arg0, $\x7b x \x7d, '2')"
    let c : SimpleCase := ⟨"n", none, .ofList [("x", .int 1), ("arg2", .null)], some action,
      none, none, none, none, none, []⟩
    let values : List Value := [.string "7", .string "arg0", .string "$\x7b x \x7d", .string "'2'"]
    action.Passes values ∧
      ∃ spec, ofSimple ctx "id" c = .ok spec ∧ spec.argOrder = ["arg0", "arg1", "x", "arg3"] ∧
        spec.inputs.find? "arg1" = some (.string "arg0") ∧
        ∀ name x, spec.inputs.find? name = some x ↔
          c.setup.find? name = some x ∨ ∃ i, LiteralAt c.setup values i x ∧ name = literalName i := by
  intro ctx action c values
  have hpasses : action.Passes values := by
    have hvalues : (callArguments "F(7, arg0, $\x7b x \x7d, '2')").map .string = values := by
      decide +kernel
    exact hvalues ▸ .call
  obtain ⟨hskipped, -, hspec⟩ := ofSimple_of_passes (c := c) rfl hpasses ctx "id"
  cases hok : ofSimple ctx "id" c with
  | error reason =>
    have hconverts : (ofSimple ctx "id" c).isOk = true := by decide +kernel
    rw [hok] at hconverts
    cases hconverts
  | ok spec =>
    obtain ⟨horder, hfind⟩ := hspec spec hok
    refine ⟨hpasses, spec, rfl, horder.trans (by decide +kernel), ?_, hfind⟩
    exact (hfind "arg1" (.string "arg0")).2 (Or.inr ⟨1, ⟨_, rfl, by decide +kernel⟩, rfl⟩)

end Conversion
end CaseIntake
