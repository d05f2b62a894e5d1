import CaseIntake.Proofs.Action.Order
import CaseIntake.Proofs.Conversion.Arguments
import CaseIntake.Proofs.Conversion.Spellings
import Mathlib.Data.List.Forall2

/-!
# CaseIntake.Proofs.Conversion.NamedOrder

Named arguments are passed once each, in the order that was asked for, and another order changes
nothing but the order in which a specification passes them: `namedArguments_inOrder`.

* `exists_placesAll_of_passes`: named arguments can always be passed, and what the inputs are in the
  end does not depend on their order.
* `sameButOrder_of_named`, `alike_withOrder`: what that means for one case.
-/

namespace CaseIntake

/-- The same action, with other names asked for first. -/
def Action.withOrder (order : List String) : Action → Action
  | .structured a => .structured { a with order := order }
  | a => a

def SimpleCase.withOrder (c : SimpleCase) (order : List String) : SimpleCase :=
  { c with action := c.action.map (Action.withOrder order) }

/-- The same case but for the order that is asked for. -/
def SimpleCase.SameButOrder (c d : SimpleCase) : Prop :=
  ∃ e order order', c = SimpleCase.withOrder e order ∧ d = SimpleCase.withOrder e order'

/-- Only named arguments look at the order that is asked for. -/
theorem Action.named_or_arguments_withOrder (a : Action) :
    (∃ function named order, a = .structured ⟨function, some (.named named), order⟩) ∨
      ∀ order, (a.withOrder order).arguments = a.arguments := by
  match a with
  | .structured ⟨function, some (.named named), order⟩ =>
    exact Or.inl ⟨function, named, order, rfl⟩
  | .structured ⟨_, none, _⟩ | .structured ⟨_, some (.positional _), _⟩
  | .structured ⟨_, some (.text _), _⟩ | .call _ | .other _ =>
    exact Or.inr fun _ => rfl

/-- The same specification up to its identifier and the order of its arguments. -/
structure SameButOrder (s t : Spec) : Prop where
  order : s.argOrder.Perm t.argOrder
  rest : { s.anonymous with argOrder := t.argOrder } = t.anonymous

theorem SameButOrder.of_anonymous_eq {s t : Spec} (h : s.anonymous = t.anonymous) :
    SameButOrder s t := by
  have horder : s.argOrder = t.argOrder := congrArg (fun spec => spec.argOrder) h
  exact ⟨horder ▸ .refl _, by rw [h]; rfl⟩

namespace Conversion

theorem exists_placesAll_of_passes {named : Dict Value} {names : List String} {args : List Argument}
    (h : List.Forall₂ (Argument.Passes named) names args) (env : Environment) (index : Nat)
    (inputs : Dict Value) :
    ∃ inputs', PlacesAll env index inputs args names inputs' ∧
      ∀ n, inputs'.find? n = if n ∈ names then named.find? n else inputs.find? n := by
  induction h generalizing index inputs with
  | nil => exact ⟨inputs, .nil, fun n => by rw [if_neg List.not_mem_nil]⟩
  | @cons name _ names _ hpass _ ih =>
    obtain ⟨v, hv, rfl⟩ := hpass
    obtain ⟨inputs', hplaces, hfind⟩ := ih (index + 1) (inputs.insert name v)
    refine ⟨inputs', .cons .named hplaces, fun n => ?_⟩
    rw [hfind, Dict.find?_insert]
    by_cases hn : name = n
    · subst hn
      rw [if_pos rfl, hv, if_pos List.mem_cons_self, ite_self]
    · rw [if_neg hn]
      simp only [List.mem_cons, Ne.symm hn, false_or]

theorem ofSimple_of_named {function : Option String} {named : Dict Value} (ctx : Context)
    (id : String) {c : SimpleCase} {order : List String}
    (haction : c.action = some (.structured ⟨function, some (.named named), order⟩)) :
    ∃ inputs, ofSimple ctx id c = .ok (ctx.spec id (describe c.description c.name)
        ⟨inputs, inputs.map (·.kind.hint), orderedNames named order⟩ c.checks c.tags) ∧
      ∀ n, inputs.find? n = if named.contains n = true then named.find? n else c.setup.find? n := by
  obtain ⟨inputs, hplaces, hfind⟩ := exists_placesAll_of_passes
    (passes_namedArguments named order) (Environment.ofSetup c.setup) 0 c.setup
  have hargs : argumentsOf c = .ok (namedArguments named order) :=
    argumentsOf_eq_ok_iff.2 (Or.inr ⟨_, haction, rfl⟩)
  refine ⟨inputs, ofSimple_eq_ok_iff.2 ⟨_, _, _, hargs, hplaces, rfl⟩, fun n => ?_⟩
  simp only [hfind, mem_orderedNames]

theorem sameButOrder_spec (ctx : Context) (id id' description : String) (values : Dict Value)
    (types : Dict String) {order order' : List String} (h : order.Perm order')
    (checks : List Check) (tags : List String) :
    SameButOrder (ctx.spec id description ⟨values, types, order⟩ checks tags)
      (ctx.spec id' description ⟨values, types, order'⟩ checks tags) :=
  ⟨h, rfl⟩

/-- Whatever orders are asked for, a case with named arguments is converted, and to the same but for
the order. -/
theorem sameButOrder_of_named (function : Option String) (named : Dict Value) (ctx : Context)
    (id id' : String) (c : SimpleCase) (order order' : List String) :
    ∃ s t, ofSimple ctx id
        { c with action := some (.structured ⟨function, some (.named named), order⟩) } = .ok s ∧
      ofSimple ctx id'
        { c with action := some (.structured ⟨function, some (.named named), order'⟩) } = .ok t ∧
      SameButOrder s t := by
  obtain ⟨inputs, hs, hfind⟩ := ofSimple_of_named ctx id (c :=
    { c with action := some (.structured ⟨function, some (.named named), order⟩) }) rfl
  obtain ⟨inputs', ht, hfind'⟩ := ofSimple_of_named ctx id' (c :=
    { c with action := some (.structured ⟨function, some (.named named), order'⟩) }) rfl
  have hinputs : inputs = inputs' := Dict.ext_find? fun n => (hfind n).trans (hfind' n).symm
  subst hinputs
  have hperm : (orderedNames named order).Perm (orderedNames named order') :=
    (orderedNames_perm named order).trans (orderedNames_perm named order').symm
  exact ⟨_, _, hs, ht, sameButOrder_spec ctx id id' _ inputs _ hperm _ _⟩

theorem alike_ofSimple (ctx : Context) (id id' : String) (c : SimpleCase) :
    Alike SameButOrder (ofSimple ctx id c) (ofSimple ctx id' c) :=
  (alike_of_map_anonymous_eq (ofSimple_anonymous ctx id id' c)).imp fun _ _ h =>
    .of_anonymous_eq h.symm

theorem alike_withOrder (ctx : Context) (id id' : String) (c : SimpleCase)
    (order order' : List String) :
    Alike SameButOrder (ofSimple ctx id (c.withOrder order))
      (ofSimple ctx id' (c.withOrder order')) := by
  cases hc : c.action with
  | none =>
    have hsame (order : List String) : c.withOrder order = c := by
      rw [SimpleCase.withOrder, hc, Option.map_none, ← hc]
    rw [hsame, hsame]
    exact alike_ofSimple ctx id id' c
  | some a =>
    have hwith (order : List String) :
        c.withOrder order = { c with action := some (a.withOrder order) } := by
      rw [SimpleCase.withOrder, hc, Option.map_some]
    rw [hwith, hwith]
    rcases a.named_or_arguments_withOrder with ⟨function, named, _, rfl⟩ | hfixed
    · obtain ⟨s, t, hs, ht, hsame⟩ := sameButOrder_of_named function named ctx id id' c order order'
      rw [Action.withOrder, Action.withOrder, hs, ht]
      exact .ok hsame
    · rw [ofSimple_of_arguments_eq (hfixed order) id c,
        ofSimple_of_arguments_eq (hfixed order') id' c]
      exact alike_ofSimple ctx id id' _

/-- Cases whose orders are changed, each in its own way, are converted to the same but for the order,
and the same ones are skipped. -/
theorem alike_convertAll_withOrder (cases : List SimpleCase)
    (orders orders' : SimpleCase → List String) (ids ids' : Nat → String) (target : Target)
    (o : Options) :
    Alike (Pairs SameButOrder)
      (SimpleCase.convertAll (cases.map fun c => c.withOrder (orders c)) ids target o)
      (SimpleCase.convertAll (cases.map fun c => c.withOrder (orders' c)) ids' target o) := by
  have hpairs : List.Forall₂ SimpleCase.SameButOrder (cases.map fun c => c.withOrder (orders c))
      (cases.map fun c => c.withOrder (orders' c)) := by
    rw [List.forall₂_map_left_iff, List.forall₂_map_right_iff, List.forall₂_same]
    exact fun c _ => ⟨c, _, _, rfl, rfl⟩
  refine alike_accept (pairs_collect ?_ ?_ hpairs ids ids' 0)
  · rintro _ _ ⟨_, _, _, rfl, rfl⟩
    rfl
  · rintro _ _ ⟨c, order, order', rfl, rfl⟩ id id'
    exact alike_withOrder _ id id' c order order'

/-- Every entry of a map of named arguments is passed once: first those that the order mentions, as
it mentions them first, and then the others by their bytes. A case with such an action is always
converted, and under another order it becomes the same specification up to its identifier and a
permutation of its arguments. So do cases of any kind, one after the other. -/
theorem namedArguments_inOrder (function : Option String) (named : Dict Value) :
    (∀ order, ∃ args first rest,
      Action.arguments (.structured ⟨function, some (.named named), order⟩) = some args ∧
      args.Perm (named.entries.map fun e => .named e.1 e.2) ∧
      List.Forall₂ (Argument.Passes named) (first ++ rest) args ∧
      InOrder order named first rest) ∧
    (∀ ctx id id' (c : SimpleCase) order order', ∃ s t,
      ofSimple ctx id
        { c with action := some (.structured ⟨function, some (.named named), order⟩) } = .ok s ∧
      ofSimple ctx id'
        { c with action := some (.structured ⟨function, some (.named named), order'⟩) } = .ok t ∧
      SameButOrder s t) ∧
    ∀ (cases : List SimpleCase) (orders orders' : SimpleCase → List String) ids ids' target o,
      Alike (Pairs SameButOrder)
        (SimpleCase.convertAll (cases.map fun c => c.withOrder (orders c)) ids target o)
        (SimpleCase.convertAll (cases.map fun c => c.withOrder (orders' c)) ids' target o) := by
  refine ⟨fun order => ?_, sameButOrder_of_named function named, alike_convertAll_withOrder⟩
  obtain ⟨first, rest, hnames, horder⟩ := inOrder_orderedNames named order
  exact ⟨namedArguments named order, first, rest, rfl, namedArguments_perm named order,
    hnames ▸ passes_namedArguments named order, horder⟩

end Conversion
end CaseIntake
