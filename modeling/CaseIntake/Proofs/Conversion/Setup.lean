import CaseIntake.Proofs.Action
import CaseIntake.Proofs.Conversion.Arguments

/-!
# CaseIntake.Proofs.Conversion.Setup

What becomes of the set-up of a simplified case: `setup_of_ofSimple`.

The last named argument of a name decides its value (`Argument.settle`, `PlacesAll.find?_eq`), and
all other arguments leave what is there. So a variable of the set-up keeps its value, unless the
action has a map of named arguments with an entry of that name.
-/

namespace CaseIntake

/-- The named arguments of an action; most actions have none. -/
def Action.named : Action → Dict Value
  | .structured ⟨_, some (.named values), _⟩ => values
  | _ => .empty

def SimpleCase.named (c : SimpleCase) : Dict Value :=
  (c.action.map Action.named).getD .empty

/-- The value of a name after an argument, if it had one before. -/
def Argument.settle (name : String) (value : Value) : Argument → Value
  | .named other v => if other = name then v else value
  | .positional _ => value

section Settle

variable {name : String} {value : Value}

theorem foldl_settle_positional (values : List Value) :
    (values.map Argument.positional).foldl (Argument.settle name) value = value := by
  induction values with
  | nil => rfl
  | cons v rest ih => exact ih

theorem foldl_settle_names (named : Dict Value) (names : List String) :
    (names.filterMap fun n => (named.find? n).map fun v => Argument.named n v).foldl
        (Argument.settle name) value =
      if name ∈ names then (named.find? name).getD value else value := by
  induction names generalizing value with
  | nil => rfl
  | cons n rest ih =>
    cases hfind : named.find? n with
    | none =>
      rw [List.filterMap_cons_none (by rw [hfind]; rfl), ih]
      by_cases hn : name = n
      · simp [hn, hfind]
      · simp [hn]
    | some v =>
      rw [List.filterMap_cons_some (by rw [hfind]; rfl), List.foldl_cons, Argument.settle, ih]
      by_cases hn : n = name
      · subst hn
        simp [hfind]
      · simp [hn, Ne.symm hn]

theorem foldl_settle_named (named : Dict Value) (order : List String) :
    (namedArguments named order).foldl (Argument.settle name) value =
      (named.find? name).getD value := by
  rw [namedArguments, foldl_settle_names]
  split
  · rfl
  · rename_i hname
    rw [mem_orderedNames, Bool.not_eq_true, Dict.contains_eq_false] at hname
    rw [hname, Option.getD_none]

theorem Action.foldl_settle {action : Action} {args : List Argument}
    (h : action.arguments = some args) :
    args.foldl (Argument.settle name) value = (action.named.find? name).getD value := by
  cases action with
  | call text =>
    obtain rfl := Option.some.inj h
    rw [textArguments_eq_map]
    exact foldl_settle_positional _
  | structured action =>
    obtain rfl := Option.some.inj h
    obtain ⟨function, source, order⟩ := action
    rcases source with _ | (values | named | text)
    · rfl
    · exact foldl_settle_positional values
    · exact foldl_settle_named named order
    · simp only [StructuredAction.arguments, textArguments_eq_map]
      exact foldl_settle_positional _
  | other v => cases h

theorem SimpleCase.foldl_settle {c : SimpleCase} {args : List Argument}
    (h : Conversion.argumentsOf c = .ok args) :
    args.foldl (Argument.settle name) value = (c.named.find? name).getD value := by
  rw [SimpleCase.named]
  rcases Conversion.argumentsOf_eq_ok_iff.1 h with ⟨hnone, rfl⟩ | ⟨action, haction, harguments⟩
  · rw [hnone]
    rfl
  · rw [haction]
    exact Action.foldl_settle harguments

end Settle

namespace Conversion

theorem Places.find?_eq {env : Environment} {index : Nat} {a : Argument} {inputs inputs' : Dict Value}
    {passed name : String} {value : Value} (h : Places env index inputs a passed inputs')
    (hfind : inputs.find? name = some value) :
    inputs'.find? name = some (a.settle name value) := by
  cases h with
  | @named other v =>
    rw [Dict.find?_insert, Argument.settle, hfind]
    split <;> rfl
  | bound _ => exact hfind
  | textLiteral _ hfree | valueLiteral _ hfree =>
    have hne : literalName index ≠ name := by
      rintro rfl
      rw [Dict.contains_eq_false.1 hfree] at hfind
      cases hfind
    rw [Dict.find?_insert, if_neg hne, hfind, Argument.settle]

theorem PlacesAll.find?_eq {env : Environment} {index : Nat} {args : List Argument}
    {inputs inputs' : Dict Value} {names : List String} {name : String} {value : Value}
    (h : PlacesAll env index inputs args names inputs') (hfind : inputs.find? name = some value) :
    inputs'.find? name = some (args.foldl (Argument.settle name) value) := by
  induction h generalizing value with
  | nil => exact hfind
  | cons hplace _ ih => exact ih (hplace.find?_eq hfind)

/-- A variable of the set-up has its value in the inputs, unless a named argument has its name and
brings another value. Whatever an argument is passed under is added. -/
theorem setup_of_ofSimple {ctx : Context} {id : String} {c : SimpleCase} {spec : Spec}
    (h : ofSimple ctx id c = .ok spec) :
    (∀ name value, c.setup.find? name = some value →
      spec.inputs.find? name = some ((c.named.find? name).getD value)) ∧
    ∀ name, spec.inputs.contains name = true ↔
      c.setup.contains name = true ∨ name ∈ spec.argOrder := by
  obtain ⟨args, names, inputs, hargs, hplaces, rfl⟩ := ofSimple_eq_ok_iff.1 h
  refine ⟨fun name value hvalue => ?_, fun name => hplaces.contains_iff fun n hn => hn⟩
  rw [← SimpleCase.foldl_settle hargs]
  exact hplaces.find?_eq hvalue

/-- Named arguments, one of them with the name of a variable of the set-up. -/
def namedCase : SimpleCase :=
  ⟨"adds", none, .ofList [("a", .int 5), ("b", .int 7)],
    some (.structured ⟨some "F", some (.named (.ofList [("a", .string "$a"), ("z", .null)])), ["z"]⟩),
    none, none, none, none, none, []⟩

/-- The other variable keeps its value, and the other argument is added. -/
theorem setup_of_ofSimple_namedCase :
    let spec : Spec := {
      id := "id", level := .unit, targetKind := "function", targetId := "F"
      functionName := "F", filePath := none, description := "Adds"
      inputs := .ofList [("a", .string "$a"), ("b", .int 7), ("z", .null)]
      inputTypes := .ofList [("a", "string"), ("b", "int"), ("z", "null")]
      argOrder := ["z", "a"], assertions := [⟨"not_nil", "result", none, none⟩], tags := []
      priority := "normal" }
    ofSimple ⟨.function "F", "F", .standard⟩ "id" namedCase = .ok spec ∧
      spec.inputs.find? "b" = some (.int 7) ∧ spec.inputs.contains "z" = true := by
  intro spec
  have hspec : ofSimple ⟨.function "F", "F", .standard⟩ "id" namedCase = .ok spec := by
    decide +kernel
  obtain ⟨hvalues, hnames⟩ := setup_of_ofSimple hspec
  exact ⟨hspec, hvalues "b" (.int 7) (by decide +kernel),
    (hnames "z").2 (Or.inr List.mem_cons_self)⟩

/-- The variable with the name of an argument loses its value, although the argument only refers to
it. -/
theorem setup_replaced_namedCase :
    namedCase.setup.find? "a" = some (.int 5) ∧
      (ofSimple ⟨.function "F", "F", .standard⟩ "id" namedCase).map (·.inputs.find? "a") =
        .ok (some (.string "$a")) := by
  decide +kernel

end Conversion
end CaseIntake
