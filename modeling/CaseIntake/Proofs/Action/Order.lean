import CaseIntake.Proofs.Action
import CaseIntake.Proofs.Text.Utf8
import Mathlib.Data.List.Forall2
import Mathlib.Data.List.Perm.Basic

/-!
# CaseIntake.Proofs.Action.Order

The order of named arguments. `InOrder` says what an order that was asked for comes to: the names
that it mentions first, and then the others by their bytes. `inOrder_orderedNames` says that the
names are put so, and `namedArguments_perm` that every entry of the map is passed once.
-/

namespace CaseIntake

/-- The names of a map in an order that was asked for: those that are mentioned, as they are
mentioned first, and then the others, ascending by their bytes. -/
structure InOrder (order : List String) (named : Dict Value) (first rest : List String) : Prop where
  mentioned : ∀ name, name ∈ first ↔ name ∈ order ∧ named.contains name = true
  others : ∀ name, name ∈ rest ↔ name ∉ order ∧ named.contains name = true
  byMention : first.Pairwise fun a b => order.idxOf a < order.idxOf b
  byBytes : rest.Pairwise fun a b => Text.utf8 a.toList < Text.utf8 b.toList

theorem idxOf_cons_lt {x a b : String} {xs : List String} (ha : a ≠ x) (hb : b ≠ x)
    (h : xs.idxOf a < xs.idxOf b) : (x :: xs).idxOf a < (x :: xs).idxOf b := by
  rw [List.idxOf_cons_ne xs ha.symm, List.idxOf_cons_ne xs hb.symm]
  exact Nat.succ_lt_succ h

/-- Without repetitions the kept elements stand as they come first. -/
theorem pairwise_eraseDups (keep : String → Bool) (xs : List String) :
    (xs.filter keep).eraseDups.Pairwise fun a b => xs.idxOf a < xs.idxOf b := by
  -- Behind an element that is kept, all elements but that one are kept.
  induction xs generalizing keep with
  | nil => exact List.Pairwise.nil
  | cons x xs ih =>
    by_cases hx : keep x = true
    · rw [List.filter_cons_of_pos hx, List.eraseDups_cons, List.filter_filter]
      have hne {a : String} (ha : a ∈ (xs.filter fun y => !y == x && keep y).eraseDups) : a ≠ x := by
        have hkept := (List.mem_filter.1 (List.mem_eraseDups.1 ha)).2
        simp only [Bool.and_eq_true, Bool.not_eq_true', beq_eq_false_iff_ne] at hkept
        exact hkept.1
      refine List.Pairwise.cons (fun b hb => ?_) ?_
      · rw [List.idxOf_cons_self, List.idxOf_cons_ne xs (hne hb).symm]
        exact Nat.succ_pos _
      · exact (ih _).imp_of_mem fun ha hb h => idxOf_cons_lt (hne ha) (hne hb) h
    · rw [List.filter_cons_of_neg hx]
      have hne {a : String} (ha : a ∈ (xs.filter keep).eraseDups) : a ≠ x := by
        rintro rfl
        exact hx (List.mem_filter.1 (List.mem_eraseDups.1 ha)).2
      exact (ih keep).imp_of_mem fun ha hb h => idxOf_cons_lt (hne ha) (hne hb) h

section Names

variable {named : Dict Value} {order first rest : List String}

theorem InOrder.nodup (h : InOrder order named first rest) : (first ++ rest).Nodup := by
  have hfirst : first.Nodup := h.byMention.imp fun hlt heq => by simp [heq] at hlt
  have hrest : rest.Nodup := h.byBytes.imp fun hlt heq => by
    rw [heq] at hlt
    exact List.lt_irrefl _ hlt
  refine List.nodup_append.2 ⟨hfirst, hrest, fun a ha b hb heq => ?_⟩
  exact ((h.others b).1 hb).1 ((h.mentioned b).1 (heq ▸ ha)).1

theorem ascending_names (d : Dict Value) :
    d.names.Pairwise fun a b => Text.utf8 a.toList < Text.utf8 b.toList :=
  List.pairwise_map.2 (d.ascending.imp fun h => Text.utf8_lt_iff.2 h)

theorem inOrder_orderedNames (named : Dict Value) (order : List String) :
    ∃ first rest, orderedNames named order = first ++ rest ∧ InOrder order named first rest := by
  have hmentioned (name : String) :
      name ∈ (order.filter named.contains).eraseDups ↔
        name ∈ order ∧ named.contains name = true := by
    rw [List.mem_eraseDups, List.mem_filter]
  refine ⟨_, _, rfl, hmentioned, fun name => ?_, pairwise_eraseDups _ order,
    (ascending_names named).sublist List.filter_sublist⟩
  rw [List.mem_filter, Dict.mem_names, Bool.not_eq_true', ← Bool.not_eq_true,
    List.contains_iff_mem, hmentioned]
  tauto

example : orderedNames (.ofList [("a", .int 1), ("b", .int 2), ("c", .int 3)])
    ["c", "missing", "a", "c"] = ["c", "a", "b"] := by
  decide +kernel

theorem nodup_orderedNames (named : Dict Value) (order : List String) :
    (orderedNames named order).Nodup := by
  obtain ⟨first, rest, heq, h⟩ := inOrder_orderedNames named order
  exact heq ▸ h.nodup

theorem orderedNames_perm (named : Dict Value) (order : List String) :
    (orderedNames named order).Perm named.names := by
  have hnames : named.names.Nodup := nodup_of_ascending named.ascending
  refine (List.perm_ext_iff_of_nodup (nodup_orderedNames named order) hnames).2 fun name => ?_
  rw [mem_orderedNames, Dict.mem_names]

end Names

/-! ## Arguments -/

/-- The named argument is the entry of that name. -/
def Argument.Passes (named : Dict Value) (name : String) (a : Argument) : Prop :=
  ∃ v, named.find? name = some v ∧ a = .named name v

section Arguments

variable (named : Dict Value)

theorem forall₂_passes {names : List String} (h : ∀ name ∈ names, named.contains name = true) :
    List.Forall₂ (Argument.Passes named) names
      (names.filterMap fun name => (named.find? name).map fun v => .named name v) := by
  induction names with
  | nil => exact .nil
  | cons name names ih =>
    obtain ⟨hname, hnames⟩ := List.forall_mem_cons.1 h
    obtain ⟨v, hv⟩ := Dict.contains_iff.1 hname
    rw [List.filterMap_cons_some (by rw [hv]; rfl)]
    exact .cons ⟨v, hv, rfl⟩ (ih hnames)

theorem passes_namedArguments (order : List String) :
    List.Forall₂ (Argument.Passes named) (orderedNames named order) (namedArguments named order) :=
  forall₂_passes named fun _ => mem_orderedNames.1

theorem filterMap_names :
    (named.names.filterMap fun name => (named.find? name).map fun v => Argument.named name v) =
      named.entries.map fun e => .named e.1 e.2 := by
  rw [Dict.names, List.filterMap_map, ← List.filterMap_eq_map]
  refine List.filterMap_congr fun e he => ?_
  have hfind : named.find? e.1 = some e.2 :=
    (findEntry_eq_some (nodup_of_ascending named.ascending)).2 he
  simp only [Function.comp_apply, hfind, Option.map_some]

/-- Every entry of the map is passed once. -/
theorem namedArguments_perm (order : List String) :
    (namedArguments named order).Perm (named.entries.map fun e => .named e.1 e.2) := by
  rw [← filterMap_names]
  exact (orderedNames_perm named order).filterMap _

end Arguments
end CaseIntake
