import CaseIntake.Proofs.Conversion.Parts
import CaseIntake.Validation

/-!
# CaseIntake.Proofs.Conversion.Rules

The checks of simplified cases keep the rules by which the checks of canonical cases are validated,
although they are never validated: `checks_followRules`.

* `Check.FollowsRules`: what the standard options ask of a check, apart from what it is about.
* `followsRules_checkOfText`: the operators and the two tables of the options agree.
* `exists_part_of_mem_checks`: every check comes from a part of the payload, and only that of an
  entry can be about something blank, namely about its key.
-/

namespace CaseIntake

open Payload

/-- The type of the check is known, it expects a value iff its type needs one, and it has no
message. -/
structure Check.FollowsRules (k : Check) : Prop where
  known : Options.standard.knowsAssertion k.type = true
  expected : k.expected.isSome = true ↔ Options.standard.requiresExpected k.type = true
  message : k.message = none

/-- Of a check that follows the rules, validation can only say that what it is about is blank. -/
theorem Check.FollowsRules.onCheck_eq {k : Check} (h : k.FollowsRules) (path : String) :
    Validation.onCheck .standard path k =
      if Text.isBlankText k.actual then
        [.error (path ++ "/actual") "actual value reference is required" none]
      else [] := by
  have htype : k.type ≠ "" := by
    intro hempty
    have hknown := h.known
    rw [hempty] at hknown
    exact absurd hknown (by decide +kernel)
  have hexpected :
      (Options.standard.requiresExpected k.type && k.expected.isNone) = false := by
    rw [Bool.and_eq_false_imp, ← h.expected]
    intro hsome
    rw [Option.isNone_eq_false_iff]
    exact hsome
  rw [Validation.onCheck, if_neg htype, h.known, hexpected]
  simp

namespace Payload

/-! ## Checks by their form -/

theorem followsRules_new_some {type : String} (hknown : Options.standard.knowsAssertion type = true)
    (hneeds : Options.standard.requiresExpected type = true) (actual : String) (v : Value) :
    (Check.new type actual (some v)).FollowsRules :=
  ⟨hknown, by simp [Check.new, hneeds], rfl⟩

theorem followsRules_new_none {type : String} (hknown : Options.standard.knowsAssertion type = true)
    (hneeds : Options.standard.requiresExpected type = false) (actual : String) :
    (Check.new type actual none).FollowsRules :=
  ⟨hknown, by simp [Check.new, hneeds], rfl⟩

theorem followsRules_equals (actual : String) (v : Value) :
    (Check.new "equals" actual (some v)).FollowsRules :=
  followsRules_new_some (by decide +kernel) (by decide +kernel) actual v

theorem followsRules_contains (actual : String) (v : Value) :
    (Check.new "contains" actual (some v)).FollowsRules :=
  followsRules_new_some (by decide +kernel) (by decide +kernel) actual v

theorem followsRules_typeIs (actual : String) (v : Value) :
    (Check.new "type_is" actual (some v)).FollowsRules :=
  followsRules_new_some (by decide +kernel) (by decide +kernel) actual v

theorem followsRules_notNil (actual : String) :
    (Check.new "not_nil" actual none).FollowsRules :=
  followsRules_new_none (by decide +kernel) (by decide +kernel) actual

/-- The tables know every operator, and an expected value is needed iff one is written. -/
theorem standard_assertionType (op : Operator) :
    Options.standard.knowsAssertion op.assertionType = true ∧
      Options.standard.requiresExpected op.assertionType = !op.endsText := by
  cases op <;> decide +kernel

theorem followsRules_between (op : Operator) (left right : List Char) :
    let c := Comparison.between op left right
    (Check.new c.operator.assertionType c.actual c.expected).FollowsRules := by
  obtain ⟨hknown, hneeds⟩ := standard_assertionType op
  simp only [Comparison.between]
  cases hends : op.endsText with
  | true => exact followsRules_new_none hknown (by simp [hneeds, hends]) _
  | false => exact followsRules_new_some hknown (by simp [hneeds, hends]) _ _

theorem isBlankText_result : Text.isBlankText "result" = false := by decide

theorem isBlankText_error : Text.isBlankText "error" = false := by decide

/-- A text is read as a comparison, whose left side is not blank, or is about the result. -/
theorem followsRules_checkOfText (text : String) :
    (checkOfText text).FollowsRules ∧ Text.isBlankText (checkOfText text).actual = false := by
  rw [checkOfText]
  split
  · rename_i c hread
    obtain ⟨_, op, _, _, ⟨left, right, hdecides, rfl⟩, -⟩ :=
      (Comparison.firstFitting_eq_some Operator.byPriority).1 hread
    exact ⟨followsRules_between op left right, Text.isBlankText_trimChars hdecides.left⟩
  · exact ⟨followsRules_equals _ _, isBlankText_result⟩

/-! ## Checks by their part -/

/-- The check that a part asks for follows the rules. If it is about something blank, the part is an
entry under that key. -/
theorem Part.followsRules_of_check? {part : Part} {k : Check} (h : part.check? = some k) :
    k.FollowsRules ∧ (Text.isBlankText k.actual = true → ∃ v, part = .entry k.actual v) := by
  have hfixed {k : Check} (hrules : k.FollowsRules) (hactual : Text.isBlankText k.actual = false) :
      k.FollowsRules ∧ (Text.isBlankText k.actual = true → ∃ v, part = .entry k.actual v) :=
    ⟨hrules, by simp [hactual]⟩
  unfold Part.check? at h
  split at h
  case h_1 text =>
    obtain rfl := Option.some.inj h
    obtain ⟨hrules, hactual⟩ := followsRules_checkOfText text
    exact hfixed hrules hactual
  case h_4 v =>
    obtain ⟨text, -, rfl⟩ := Option.map_eq_some_iff.1 h
    obtain ⟨hrules, hactual⟩ := followsRules_checkOfText text
    exact hfixed hrules hactual
  case h_2 | h_3 =>
    obtain rfl := Option.some.inj h
    exact hfixed (followsRules_equals _ _) isBlankText_result
  case h_5 =>
    obtain rfl := Option.some.inj h
    exact hfixed (followsRules_notNil _) isBlankText_error
  case h_6 =>
    obtain rfl := Option.some.inj h
    exact hfixed (followsRules_contains _ _) isBlankText_error
  case h_7 => cases h
  case h_8 =>
    obtain rfl := Option.some.inj h
    exact hfixed (followsRules_contains _ _) isBlankText_result
  case h_9 =>
    obtain rfl := Option.some.inj h
    exact hfixed (followsRules_typeIs _ _) isBlankText_result
  case h_10 key v _ _ _ _ _ _ _ =>
    -- a key without a meaning of its own is what the check is about
    obtain rfl := Option.some.inj h
    exact ⟨followsRules_equals key v, fun _ => ⟨v, rfl⟩⟩

theorem exists_part_of_mem_checksOfMap {entries : List (String × Value)} {k : Check}
    (h : k ∈ checksOfMap entries) : ∃ part ∈ partsOfMap entries, part.check? = some k := by
  rw [checksOfMap_eq] at h
  obtain ⟨part, hpart, hk⟩ := List.mem_filterMap.1 h
  obtain ⟨entry, hentry, rfl⟩ := List.mem_map.1 hpart
  refine ⟨_, List.mem_map.2 ⟨entry, ?_, rfl⟩, hk⟩
  rcases List.mem_append.1 hentry with hreserved | hfree
  · obtain ⟨key, -, hfound⟩ := List.mem_filterMap.1 hreserved
    obtain ⟨v, hv, rfl⟩ := Option.map_eq_some_iff.1 hfound
    exact mem_of_findEntry hv
  · exact (List.mem_filter.1 hfree).1

theorem exists_part_of_mem_checks {p : Payload} {k : Check} (h : k ∈ p.checks) :
    ∃ part ∈ p.parts, part.check? = some k := by
  have halone {part : Part} {check : Check} (hcheck : part.check? = some check)
      (hk : k ∈ [check]) : ∃ part' ∈ [part], part'.check? = some k := by
    obtain rfl := List.mem_singleton.1 hk
    exact ⟨part, List.mem_singleton_self part, hcheck⟩
  cases p with
  | text s => exact halone rfl h
  | scalar v => exact halone rfl h
  | map entries => exact exists_part_of_mem_checksOfMap h
  | list items =>
    obtain ⟨item, hitem, hk⟩ := List.mem_flatMap.1 h
    have hpart : ∃ part ∈ partsOfItem item, part.check? = some k := by
      cases item with
      | map entries => exact exists_part_of_mem_checksOfMap hk
      | null | bool _ | int _ | float _ | string _ | list _ => exact halone rfl hk
    obtain ⟨part, hmem, hcheck⟩ := hpart
    exact ⟨part, List.mem_flatMap.2 ⟨item, hitem, hmem⟩, hcheck⟩

theorem checks_list_append (xs ys : List Value) :
    (list (xs ++ ys)).checks = (list xs).checks ++ (list ys).checks :=
  List.flatMap_append

/-- Every check of a payload, and the fallback, follows the rules of canonical checks, so that
validation by the standard options has nothing to say of it unless it is about something blank. It
is about something blank only where that is the key of an entry. A text asks for one check, alone as
in a list, and the checks of a list are those of its beginning and then those of the rest. -/
theorem checks_followRules (p : Payload) :
    (∀ k ∈ fallback :: p.checks,
      k.FollowsRules ∧
      (∀ path, Validation.onCheck .standard path k =
        if Text.isBlankText k.actual then
          [.error (path ++ "/actual") "actual value reference is required" none]
        else []) ∧
      (Text.isBlankText k.actual = true → ∃ v, Part.entry k.actual v ∈ p.parts)) ∧
    (∀ s, ∃ k, (text s).checks = [k] ∧
      ∀ xs ys, (list (xs ++ .string s :: ys)).checks =
        (list xs).checks ++ k :: (list ys).checks) ∧
    ∀ xs ys, (list (xs ++ ys)).checks = (list xs).checks ++ (list ys).checks := by
  refine ⟨fun k hk => ?_, fun s => ⟨checkOfText s, rfl, fun xs ys => ?_⟩, checks_list_append⟩
  · have hrules : k.FollowsRules ∧
        (Text.isBlankText k.actual = true → ∃ v, Part.entry k.actual v ∈ p.parts) := by
      rcases List.mem_cons.1 hk with rfl | hk
      · exact ⟨followsRules_notNil _, by simp [fallback, Check.new, isBlankText_result]⟩
      · obtain ⟨part, hpart, hcheck⟩ := exists_part_of_mem_checks hk
        obtain ⟨hrules, hblank⟩ := Part.followsRules_of_check? hcheck
        refine ⟨hrules, fun h => ?_⟩
        obtain ⟨v, rfl⟩ := hblank h
        exact ⟨v, hpart⟩
    exact ⟨hrules.1, hrules.1.onCheck_eq, hrules.2⟩
  · exact checks_list_append xs (.string s :: ys)

end Payload
end CaseIntake
