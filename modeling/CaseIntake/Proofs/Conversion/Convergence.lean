import CaseIntake.Proofs.Action
import CaseIntake.Proofs.Conversion.Arguments
import CaseIntake.Proofs.Conversion.Collect
import CaseIntake.Proofs.Conversion.Inputs
import CaseIntake.Proofs.Conversion.Payload
import CaseIntake.Proofs.Reference

/-!
# CaseIntake.Proofs.Conversion.Convergence

The canonical and the simplified form of a case lead to the same specification:
`convertAll_of_simplifies`.

* `IsPlain`: a canonical case that says nothing the simplified form cannot say.
* `Simplifies`: the simplified case that says the same.

The inputs are the table of the variables on both sides (`inputsOfTest_eq_ok`,
`inputsOfSimple_of_simplifies`). Their types are the hints of the one form and the kinds of the
values in the other (`hints_of_typed`).
-/

namespace CaseIntake

/-- The name of the variable is an identifier, it has a value, and its hint is the kind of the
value. -/
structure Variable.IsTyped (v : Variable) : Prop where
  identifier : Reference.isIdentifier v.name = true
  hint : ∃ value, v.value = some value ∧ v.hint = some value.kind.hint

/-- A canonical case with typed variables, bare names as arguments, and checks that a map with one
entry can ask for. -/
structure TestCase.IsPlain (c : TestCase) (es : List Expectation) : Prop where
  names_nodup : (c.given.map Variable.name).Nodup
  typed : ∀ v ∈ c.given, v.IsTyped
  args : ∀ arg ∈ c.action.args, ∃ v ∈ c.given, v.name = arg
  checks : c.checks = es.map Expectation.check
  checks_ne_nil : es ≠ []

/-- The simplified case says what the canonical one says. It may have other payloads besides. -/
structure SimpleCase.Simplifies (s : SimpleCase) (function : String) (c : TestCase)
    (es : List Expectation) : Prop where
  name : s.name = c.name
  description : s.description = c.description
  tags : s.tags = c.tags
  setup : s.setup = Variable.table c.given
  action : s.action = some (.call (callText function c.action.args))
  assertions : s.assertions = some (.list (es.map fun e => .map [e.entry]))

namespace Conversion

/-- The inputs that both forms of a plain case have. -/
def plainInputs (c : TestCase) : Inputs :=
  ⟨Variable.table c.given, (Variable.table c.given).map (·.kind.hint), c.action.args⟩

theorem hint_ne_empty (k : ValueKind) : k.hint ≠ "" := by
  cases k <;> decide

theorem hints_of_typed {given : List Variable} (h : ∀ v ∈ given, v.IsTyped) :
    hints given = (Variable.table given).map (·.kind.hint) := by
  rw [hints, Variable.table, Dict.ofList_map]
  congr 1
  induction given with
  | nil => rfl
  | cons v rest ih =>
    obtain ⟨value, hvalue, hhint⟩ := (h v List.mem_cons_self).hint
    rw [List.filterMap_cons, ih fun u hu => h u (List.mem_cons_of_mem _ hu), hhint]
    simp [hint_ne_empty, Variable.entry, hvalue]

/-- Arguments that are bound are passed under their names, and the inputs stay as they are. -/
theorem placeAll_of_bound {env : Environment} {inputs : Dict Value} :
    ∀ {args : List String} {index : Nat},
      (∀ arg ∈ args, ∃ value, env.resolve arg = .bound arg value) →
      placeAll env index (textArguments args) inputs = .ok (args, inputs) := by
  intro args
  induction args with
  | nil => intro index _; rfl
  | cons arg args ih =>
    intro index h
    obtain ⟨value, hbound⟩ := h arg List.mem_cons_self
    have hplace : placeArgument env index (.positional (.string arg)) inputs = .ok (arg, inputs) := by
      simp only [placeArgument, hbound]
    have hrest : placeAll env (index + 1) (textArguments args) inputs = .ok (args, inputs) :=
      ih fun a ha => h a (List.mem_cons_of_mem _ ha)
    rw [textArguments] at hrest ⊢
    rw [List.map_cons, placeAll, hplace]
    simp only [hrest]

section Plain

variable {c : TestCase} {s : SimpleCase} {es : List Expectation} {function : String}

theorem isIdentifier_of_isPlain (h : c.IsPlain es) :
    ∀ arg ∈ c.action.args, Reference.isIdentifier arg = true := by
  intro arg harg
  obtain ⟨v, hv, rfl⟩ := h.args arg harg
  exact (h.typed v hv).identifier

theorem inputsOfTest_of_isPlain (h : c.IsPlain es) :
    inputsOfTest c = .ok (plainInputs c) := by
  rw [plainInputs, ← hints_of_typed h.typed]
  refine inputsOfTest_eq_ok h.names_nodup fun arg harg => ?_
  rw [Reference.name_of_isIdentifier (isIdentifier_of_isPlain h arg harg)]
  exact h.args arg harg

theorem inputsOfSimple_of_simplifies (h : c.IsPlain es) (hs : s.Simplifies function c es)
    (hfunction : '(' ∉ function.toList) :
    inputsOfSimple s = .ok (plainInputs c) := by
  have hargs : argumentsOf s = .ok (textArguments c.action.args) := by
    have hpieces : ∀ arg ∈ c.action.args, Text.IsPiece arg.toList :=
      fun arg harg => Reference.isPiece_of_isIdentifier (isIdentifier_of_isPlain h arg harg)
    have harguments := (Action.Spells.call hfunction).arguments_eq hpieces
    exact argumentsOf_eq_ok_iff.2 (Or.inr ⟨_, hs.action, harguments⟩)
  have hbound : ∀ arg ∈ c.action.args,
      ∃ value, (Environment.ofSetup (Variable.table c.given)).resolve arg = .bound arg value := by
    intro arg harg
    have hname := Reference.name_of_isIdentifier (isIdentifier_of_isPlain h arg harg)
    obtain ⟨value, hvalue⟩ :=
      Dict.contains_iff.1 ((Variable.contains_table h.names_nodup).2 (h.args arg harg))
    have hfind : (Environment.ofSetup (Variable.table c.given)).find? arg = some value := hvalue
    refine ⟨value, ?_⟩
    rw [Environment.resolve, hname, hfind]
  rw [inputsOfSimple, hargs, hs.setup]
  simp only [placeAll_of_bound hbound, plainInputs]

theorem checks_of_simplifies (h : c.IsPlain es) (hs : s.Simplifies function c es) :
    s.checks = c.checks := by
  have hpayload : s.payload = some (.list (es.map fun e => .map [e.entry])) := by
    simp [SimpleCase.payload, hs.assertions]
  rw [SimpleCase.checks, hpayload, h.checks]
  simp only [Payload.checks_of_entries]
  split
  · rename_i hnil
    exact absurd (List.map_eq_nil_iff.1 hnil) h.checks_ne_nil
  · rfl

theorem ofTest_of_isPlain (ctx : Context) (id : String) (h : c.IsPlain es) :
    ofTest ctx id c =
      .ok (ctx.spec id (describe c.description c.name) (plainInputs c) c.checks c.tags) := by
  rw [ofTest, inputsOfTest_of_isPlain h]

theorem ofSimple_of_simplifies (ctx : Context) (id : String) (h : c.IsPlain es)
    (hs : s.Simplifies function c es) (hfunction : '(' ∉ function.toList) :
    ofSimple ctx id s =
      .ok (ctx.spec id (describe c.description c.name) (plainInputs c) c.checks c.tags) := by
  rw [ofSimple, inputsOfSimple_of_simplifies h hs hfunction, hs.name, hs.description, hs.tags,
    checks_of_simplifies h hs]

end Plain

theorem spec_with_id (ctx : Context) (id id' description : String) (inputs : Inputs)
    (checks : List Check) (tags : List String) :
    { ctx.spec id description inputs checks tags with id := id' } =
      ctx.spec id' description inputs checks tags := rfl

/-- A plain case and its simplified form become one specification, up to its identifier. -/
theorem convertAll_of_simplifies (function : String) (c : TestCase) (s : SimpleCase)
    (es : List Expectation) (description : Option String) (o : Options) (target : Target)
    (ids ids' : Nat → String) (hplain : c.IsPlain es) (hs : s.Simplifies function c es)
    (hfunction : '(' ∉ function.toList) (htarget : target.functionName = function) :
    ∃ spec, Suite.convert ⟨function, description, [c]⟩ ids target o = .ok ⟨[spec], []⟩ ∧
      spec.id = ids 0 ∧
      SimpleCase.convertAll [s] ids' target o = .ok ⟨[{ spec with id := ids' 0 }], []⟩ := by
  subst htarget
  let ctx : Context := ⟨target, target.functionName, o⟩
  have hname : (if target.functionName = "" then target.functionName
      else target.functionName) = target.functionName := ite_self _
  have htest := ofTest_of_isPlain ctx (ids 0) hplain
  have hsimple := ofSimple_of_simplifies ctx (ids' 0) hplain hs hfunction
  refine ⟨ctx.spec (ids 0) (describe c.description c.name) (plainInputs c) c.checks c.tags,
    ?_, rfl, ?_⟩
  · rw [Suite.convert, ofSuite, hname, collect_singleton htest]
    exact accept_eq_ok (List.cons_ne_nil _ _)
  · rw [spec_with_id, SimpleCase.convertAll, ofCases, collect_singleton hsimple]
    exact accept_eq_ok (List.cons_ne_nil _ _)

/-- Two variables, one of them passed twice, and a check of every form. -/
theorem convertAll_of_simplifies_two_variables :
    let given : List Variable := [.new "b_1" (.string "x, y)") "string", .new "a" (.int 2) "int"]
    let c : TestCase := ⟨"add_two", some " Sums ", given, ⟨"Add of all", ["a", "b_1", "a"]⟩,
      [.new "equals" "result" (some (.int 4)), .new "contains" "result" (some .null),
        .new "type_is" "result" (some (.string "int")), .new "not_nil" "error" none,
        .new "contains" "error" (some (.string "late")), .new "equals" "size" (some (.bool true))],
      ["math"]⟩
    let s : SimpleCase := ⟨"add_two", some " Sums ",
      Dict.ofList [("a", .int 2), ("b_1", .string "x, y)")], some (.call "Add(a, b_1, a)"),
      some (.list [.map [("result", .int 4)], .map [("contains", .null)],
        .map [("type", .string "int")], .map [("error", .bool true)],
        .map [("error", .string "late")], .map [("size", .bool true)]]),
      none, none, none, some (.text "result == 5"), ["math"]⟩
    let es : List Expectation := [.result (.int 4), .contains .null, .type (.string "int"), .error,
      .errorText "late", .property "size" (.bool true) (by decide)]
    c.IsPlain es ∧ s.Simplifies "Add" c es ∧
      ∃ spec, Suite.convert ⟨"Add", none, [c]⟩ (fun _ => "1") (.function "Add") .standard =
          .ok ⟨[spec], []⟩ ∧ spec.id = "1" ∧
        SimpleCase.convertAll [s] (fun _ => "2") (.function "Add") .standard =
          .ok ⟨[{ spec with id := "2" }], []⟩ := by
  intro given c s es
  have hplain : c.IsPlain es := by
    refine ⟨by decide, ?_, ?_, rfl, List.cons_ne_nil _ _⟩
    · intro v hv
      rcases List.mem_cons.1 hv with rfl | hv
      · exact ⟨by decide +kernel, _, rfl, rfl⟩
      · obtain rfl := List.mem_singleton.1 hv
        exact ⟨by decide +kernel, _, rfl, rfl⟩
    · decide
  have hsimplifies : s.Simplifies "Add" c es :=
    ⟨rfl, rfl, rfl, by decide +kernel, by decide +kernel, rfl⟩
  have hcall : '(' ∉ "Add".toList := by decide +kernel
  exact ⟨hplain, hsimplifies, convertAll_of_simplifies "Add" c s es none .standard
    (.function "Add") (fun _ => "1") (fun _ => "2") hplain hsimplifies hcall rfl⟩

end Conversion
end CaseIntake
