import CaseIntake.Conversion.Payload
import CaseIntake.Proofs.Comparison.Grammar
import CaseIntake.Proofs.Value.Ordered
import CaseIntake.SimpleCase.Json

/-!
# CaseIntake.Proofs.SimpleCase.Decoded

What is known of simplified cases that come out of a document: the values of the set-up, of the
arguments (`Action.Ordered.arguments`) and of the checks (`SimpleCase.Ordered.checks`) have
ascending keys.
-/

namespace CaseIntake

open Shape

/-! ## Actions -/

def ArgumentSource.Ordered : ArgumentSource → Prop
  | .positional values => ∀ v ∈ values, v.Ordered
  | .named values => values.Ordered
  | .text _ => True

def Action.Ordered : Action → Prop
  | .call _ => True
  | .structured a => ∀ args, a.args = some args → args.Ordered
  | .other v => v.Ordered

def Argument.Ordered : Argument → Prop
  | .positional v => v.Ordered
  | .named _ v => v.Ordered

theorem ArgumentSource.yields_decode :
    Decoder.Yields ArgumentSource.decode ArgumentSource.Ordered := by
  intro j args h
  have hmem := Decoder.mem_of_firstOf h
  simp only [List.mem_cons, List.not_mem_nil, or_false] at hmem
  rcases hmem with hlist | hdict | htext
  · obtain ⟨values, hvalues, rfl⟩ := Decoder.exists_of_map_eq_ok hlist
    exact Decoder.yields_list Value.yields_decode j values hvalues
  · obtain ⟨values, hvalues, rfl⟩ := Decoder.exists_of_map_eq_ok hdict
    exact Dict.yields_valueDict j values hvalues
  · obtain ⟨text, -, rfl⟩ := Decoder.exists_of_map_eq_ok htext
    trivial

theorem StructuredAction.yields_decode :
    Decoder.Yields StructuredAction.decode fun a => ∀ args, a.args = some args → args.Ordered := by
  intro j a h
  cases j with
  | object members =>
    obtain ⟨_, order, htoArgs, -, rfl⟩ := Outcome.exists_of_apply (Outcome.eq_ok_of_toExcept h)
    obtain ⟨_, args, htoFunction, hargs, rfl⟩ := Outcome.exists_of_apply htoArgs
    obtain ⟨_, function, hmk, -, rfl⟩ := Outcome.exists_of_apply htoFunction
    obtain rfl := Outcome.ok.inj hmk
    have hmakes : (Shape.optional "args" ArgumentSource.decode).Makes args := Or.inl ⟨members, hargs⟩
    exact of_makes_optional hmakes fun j x _ hx => ArgumentSource.yields_decode j x hx
  | null | bool _ | int _ | float _ | string _ | array _ => cases h

theorem Action.yields_decode : Decoder.Yields Action.decode Action.Ordered := by
  intro j action h
  have hmem := Decoder.mem_of_firstOf h
  simp only [List.mem_cons, List.not_mem_nil, or_false] at hmem
  rcases hmem with hcall | hstructured | hother
  · obtain ⟨text, -, rfl⟩ := Decoder.exists_of_map_eq_ok hcall
    trivial
  · obtain ⟨a, ha, rfl⟩ := Decoder.exists_of_map_eq_ok hstructured
    exact StructuredAction.yields_decode j a ha
  · obtain ⟨v, hv, rfl⟩ := Decoder.exists_of_map_eq_ok hother
    exact Value.yields_decode j v hv

theorem ordered_textArguments (texts : List String) : ∀ a ∈ textArguments texts, a.Ordered := by
  intro a ha
  obtain ⟨text, -, rfl⟩ := List.mem_map.1 ha
  trivial

theorem Action.Ordered.arguments {action : Action} (h : action.Ordered) {args : List Argument}
    (hargs : action.arguments = some args) : ∀ a ∈ args, a.Ordered := by
  cases action with
  | call text =>
    obtain rfl := Option.some.inj hargs
    exact ordered_textArguments _
  | structured action =>
    obtain rfl := Option.some.inj hargs
    rw [StructuredAction.arguments]
    split
    · simp
    · rename_i values hsource
      intro a ha
      obtain ⟨v, hv, rfl⟩ := List.mem_map.1 ha
      exact h _ hsource v hv
    · rename_i named hsource
      intro a ha
      obtain ⟨name, -, hentry⟩ := List.mem_filterMap.1 ha
      obtain ⟨v, hv, rfl⟩ := Option.map_eq_some_iff.1 hentry
      exact Dict.Ordered.of_find? (h _ hsource) hv
    · exact ordered_textArguments _
  | other v => cases hargs

/-! ## Payloads -/

def Payload.Ordered : Payload → Prop
  | .text _ => True
  | .list items => ∀ v ∈ items, v.Ordered
  | .map entries => entries.Ordered
  | .scalar v => v.Ordered

/-- The value that the check expects, if any, has ascending keys. -/
def Check.Ordered (k : Check) : Prop :=
  ∀ v, k.expected = some v → v.Ordered

theorem Check.ordered_new {type actual : String} {v : Value} (h : v.Ordered) :
    (Check.new type actual (some v)).Ordered := by
  intro w hw
  obtain rfl := Option.some.inj hw
  exact h

theorem Check.ordered_new_none {type actual : String} : (Check.new type actual none).Ordered := by
  intro w hw
  cases hw

namespace Payload

theorem yields_decode : Decoder.Yields Payload.decode Payload.Ordered := by
  intro j p h
  have hmem := Decoder.mem_of_firstOf h
  simp only [List.mem_cons, List.not_mem_nil, or_false] at hmem
  rcases hmem with htext | hlist | hmap | hscalar
  · obtain ⟨text, -, rfl⟩ := Decoder.exists_of_map_eq_ok htext
    trivial
  · obtain ⟨items, hitems, rfl⟩ := Decoder.exists_of_map_eq_ok hlist
    exact Decoder.yields_list Value.yields_decode j items hitems
  · obtain ⟨entries, hentries, rfl⟩ := Decoder.exists_of_map_eq_ok hmap
    exact Dict.yields_valueDict j entries hentries
  · obtain ⟨v, hv, rfl⟩ := Decoder.exists_of_map_eq_ok hscalar
    exact Value.yields_decode j v hv

theorem ordered_checkOfText (text : String) : (checkOfText text).Ordered := by
  rw [checkOfText]
  split
  · rename_i c hread
    intro v hv
    obtain ⟨_, op, _, _, ⟨left, right, -, rfl⟩, -⟩ :=
      (Comparison.firstFitting_eq_some Operator.byPriority).1 hread
    simp only [Check.new, Comparison.between] at hv
    split at hv
    · cases hv
    · obtain rfl := Option.some.inj hv
      exact Literal.ordered_coerce _
  · exact Check.ordered_new trivial

theorem ordered_checksOfError (value : Option Value) : ∀ k ∈ checksOfError value, k.Ordered := by
  intro k hk
  unfold checksOfError at hk
  split at hk
  · obtain rfl := List.mem_singleton.1 hk
    exact Check.ordered_new_none
  · obtain rfl := List.mem_singleton.1 hk
    exact Check.ordered_new trivial
  · cases hk

theorem ordered_checksOfMap {entries : List (String × Value)} (h : ∀ e ∈ entries, e.2.Ordered) :
    ∀ k ∈ checksOfMap entries, k.Ordered := by
  have hfound {name : String} {v : Value} (hfind : findEntry name entries = some v) : v.Ordered :=
    h (name, v) (mem_of_findEntry hfind)
  simp only [checksOfMap, List.forall_mem_append]
  refine ⟨⟨⟨⟨⟨?result, ?expect⟩, ordered_checksOfError _⟩, ?contains⟩, ?type⟩, ?other⟩
  case expect =>
    split
    · exact List.forall_mem_singleton.2 (ordered_checkOfText _)
    · exact List.forall_mem_nil _
  case other =>
    intro k hk
    obtain ⟨e, he, rfl⟩ := List.mem_map.1 hk
    exact Check.ordered_new (h e (List.mem_filter.1 he).1)
  all_goals
    split
    · rename_i v hfind
      exact List.forall_mem_singleton.2 (Check.ordered_new (hfound hfind))
    · exact List.forall_mem_nil _

theorem ordered_checksOfItem {v : Value} (h : v.Ordered) : ∀ k ∈ checksOfItem v, k.Ordered := by
  cases v with
  | string text =>
    intro k hk
    obtain rfl := List.mem_singleton.1 hk
    exact ordered_checkOfText text
  | map entries => exact ordered_checksOfMap (Value.orderedEntries_iff.1 h.2)
  | null | bool _ | int _ | float _ | list _ =>
    intro k hk
    obtain rfl := List.mem_singleton.1 hk
    exact Check.ordered_new h

theorem Ordered.checks {p : Payload} (h : p.Ordered) : ∀ k ∈ p.checks, k.Ordered := by
  cases p with
  | text text =>
    intro k hk
    obtain rfl := List.mem_singleton.1 hk
    exact ordered_checkOfText text
  | list items =>
    intro k hk
    obtain ⟨v, hv, hk⟩ := List.mem_flatMap.1 hk
    exact ordered_checksOfItem (h v hv) k hk
  | map entries => exact ordered_checksOfMap h
  | scalar v =>
    intro k hk
    obtain rfl := List.mem_singleton.1 hk
    exact Check.ordered_new h

end Payload

/-! ## Cases -/

structure SimpleCase.Ordered (c : SimpleCase) : Prop where
  setup : c.setup.Ordered
  action : ∀ a, c.action = some a → a.Ordered
  payload : ∀ p, c.payload = some p → p.Ordered

theorem SimpleCase.Ordered.checks {c : SimpleCase} (h : c.Ordered) :
    ∀ k ∈ c.checks, k.Ordered := by
  have hfallback : ∀ k ∈ [Payload.fallback], k.Ordered := by
    intro k hk
    obtain rfl := List.mem_singleton.1 hk
    exact Check.ordered_new_none
  rw [SimpleCase.checks]
  split
  · exact hfallback
  · rename_i p hp
    split
    · exact hfallback
    · exact (h.payload p hp).checks

/-- The five fields that may say what is expected. -/
def SimpleCase.payloads (c : SimpleCase) : List (Option Payload) :=
  [c.assertions, c.assertion, c.assert, c.expected, c.expect]

/-- Where the fields of a case come from. A field that may be missing does not come from `null`. -/
structure SimpleCase.Decoded (c : SimpleCase) : Prop where
  setup : c.setup.Ordered
  action : ∀ a, c.action = some a → ∃ j, j ≠ .null ∧ Action.decode j = .ok a
  payload : ∀ field ∈ c.payloads, ∀ p, field = some p → ∃ j, j ≠ .null ∧ Payload.decode j = .ok p

theorem SimpleCase.decoded_of_decode {j : Json} {c : SimpleCase} (h : SimpleCase.decode j = .ok c) :
    c.Decoded := by
  -- The fields are taken off from the last one on; what is left is named for its last field.
  obtain ⟨_, tags, htoExpect, -, rfl⟩ := exists_of_makes_seq (makes_of_decoder h)
  obtain ⟨_, expect, htoExpected, hexpect, rfl⟩ := exists_of_makes_seq htoExpect
  obtain ⟨_, expected, htoAssert, hexpected, rfl⟩ := exists_of_makes_seq htoExpected
  obtain ⟨_, assert, htoAssertion, hassert, rfl⟩ := exists_of_makes_seq htoAssert
  obtain ⟨_, assertion, htoAssertions, hassertion, rfl⟩ := exists_of_makes_seq htoAssertion
  obtain ⟨_, assertions, htoAction, hassertions, rfl⟩ := exists_of_makes_seq htoAssertions
  obtain ⟨_, action, htoSetup, haction, rfl⟩ := exists_of_makes_seq htoAction
  obtain ⟨_, setup, htoDescription, hsetup, rfl⟩ := exists_of_makes_seq htoSetup
  obtain ⟨_, description, htoName, -, rfl⟩ := exists_of_makes_seq htoDescription
  obtain ⟨name, -, rfl⟩ := exists_of_makes_map htoName
  have hpayload {key : String} {field : Option Payload}
      (hfield : (Shape.optional key Payload.decode).Makes field) :
      ∀ p, field = some p → ∃ j, j ≠ .null ∧ Payload.decode j = .ok p :=
    of_makes_optional hfield fun j p hj hp => ⟨j, hj, hp⟩
  refine ⟨?_, ?_, ?_⟩
  · exact of_makes_withDefault hsetup
      (Decoder.yields_orDefault Dict.yields_valueDict Dict.ordered_empty) Dict.ordered_empty
  · exact of_makes_optional haction fun j a hj ha => ⟨j, hj, ha⟩
  · simp only [SimpleCase.payloads, List.forall_mem_cons, List.not_mem_nil, false_implies,
      implies_true, and_true]
    exact ⟨hpayload hassertions, hpayload hassertion, hpayload hassert, hpayload hexpected,
      hpayload hexpect⟩

theorem SimpleCase.yields_decode : Decoder.Yields SimpleCase.decode SimpleCase.Ordered := by
  intro j c h
  obtain ⟨hsetup, haction, hpayload⟩ := SimpleCase.decoded_of_decode h
  refine ⟨hsetup, fun a ha => ?_, fun p hp => ?_⟩
  · obtain ⟨i, -, hi⟩ := haction a ha
    exact Action.yields_decode i a hi
  · -- The payload that counts stands in one of the five fields.
    obtain ⟨field, hfield, hsome⟩ := List.exists_of_findSome?_eq_some hp
    obtain ⟨i, -, hi⟩ := hpayload field hfield p hsome
    exact Payload.yields_decode i p hi

end CaseIntake
