import CaseIntake.Json.Decoder
import CaseIntake.Json.Encode
import CaseIntake.Proofs.Dict
import Mathlib.Data.List.Forall2

/-!
# CaseIntake.Proofs.Json.Decoder

Looking up members and decoding lists.

* `lookupLast_sortEntries`: the order in which members stand does not count for a lookup, only
  which of several with one key comes last.
* `all_eq_ok_iff`, `list_eq_ok_iff`: a list is decoded iff every element is, and element by element.
* `list_array_map`, `dict_map`: what is decoded one by one is decoded as a list, or as a dictionary.
-/

namespace CaseIntake

/-- A map leaves a list as it is iff it does so with every element. -/
theorem map_eq_self_iff {α : Type} {f : α → α} {xs : List α} :
    xs.map f = xs ↔ ∀ x ∈ xs, f x = x := by
  have hself : xs.map f = xs ↔ xs.map f = xs.map fun x => x := by rw [List.map_id']
  exact hself.trans List.map_inj_left

namespace Json

theorem lookupLast_eq_findEntry (name : String) (members : List (String × Json)) :
    lookupLast name members = findEntry name members.reverse := by
  induction members with
  | nil => rfl
  | cons m rest ih =>
    rw [lookupLast, ih, List.reverse_cons, findEntry_append]
    cases findEntry name rest.reverse with
    | none => simp [findEntry]
    | some found => rfl

theorem lookupLast_sortEntries (name : String) (members : List (String × Json)) :
    lookupLast name (sortEntries members) = lookupLast name members := by
  have hnd := nodup_of_ascending (ascending_sortEntries members)
  rw [lookupLast_eq_findEntry, lookupLast_eq_findEntry, findEntry_reverse hnd,
    findEntry_sortEntries]

end Json

namespace Decoder

variable {α : Type} {d : Decoder α}

/-- A relation that has an outcome for every tree, and only the one that is decoded, is the decoder. -/
theorem eq_ok_iff_of_total {R : Json → α → Prop} (hexists : ∀ j, ∃ x, R j x)
    (hdecode : ∀ j x, R j x → d j = .ok x) {j : Json} {x : α} : d j = .ok x ↔ R j x := by
  refine ⟨fun h => ?_, hdecode j x⟩
  obtain ⟨y, hy⟩ := hexists j
  obtain rfl := Except.ok.inj (h.symm.trans (hdecode j y hy))
  exact hy

theorem all_eq_ok_iff {items : List Json} {xs : List α} :
    all d items = .ok xs ↔ List.Forall₂ (fun j x => d j = .ok x) items xs := by
  induction items generalizing xs with
  | nil => cases xs <;> simp [all]
  | cons j rest ih =>
    cases hj : d j with
    | error e =>
      cases xs <;> simp [all, hj]
    | ok x =>
      cases hrest : all d rest with
      | error e =>
        have hnone (ys : List α) : ¬List.Forall₂ (fun j x => d j = .ok x) rest ys := by
          rw [← ih, hrest]
          simp
        cases xs <;> simp [all, hj, hrest, hnone]
      | ok ys =>
        cases xs with
        | nil => simp [all, hj, hrest]
        | cons z zs => simp [all, hj, hrest, ← ih]

theorem list_eq_ok_iff {j : Json} {xs : List α} :
    list d j = .ok xs ↔
      ∃ items, j = .array items ∧ List.Forall₂ (fun j x => d j = .ok x) items xs := by
  cases j with
  | array items => simp [list, all_eq_ok_iff]
  | null | bool _ | int _ | float _ | string _ | object _ => simp [list, refuse]

/-- A list is decoded to something iff every element is. -/
theorem exists_list_iff {j : Json} :
    (∃ xs, list d j = .ok xs) ↔ ∃ items, j = .array items ∧ ∀ item ∈ items, ∃ x, d item = .ok x := by
  have hall (items : List Json) :
      (∃ xs, List.Forall₂ (fun j x => d j = .ok x) items xs) ↔
        ∀ item ∈ items, ∃ x, d item = .ok x := by
    induction items with
    | nil => simp
    | cons item rest ih =>
      rw [List.forall_mem_cons, ← ih]
      constructor
      · rintro ⟨_, _ | ⟨hitem, hrest⟩⟩
        exact ⟨⟨_, hitem⟩, _, hrest⟩
      · rintro ⟨⟨x, hitem⟩, xs, hrest⟩
        exact ⟨x :: xs, .cons hitem hrest⟩
  simp only [list_eq_ok_iff, ← hall]
  exact exists_comm.trans (exists_congr fun _ => exists_and_left)

theorem list_array_map {β : Type} {f : β → Json} {g : β → α} {xs : List β}
    (h : ∀ x ∈ xs, d (f x) = .ok (g x)) :
    list d (.array (xs.map f)) = .ok (xs.map g) := by
  refine Decoder.list_eq_ok_iff.2 ⟨_, rfl, ?_⟩
  rw [List.forall₂_map_left_iff, List.forall₂_map_right_iff]
  exact List.forall₂_same.2 h

theorem list_strings (texts : List String) : list string (Json.strings texts) = .ok texts := by
  have htexts : list string (.array (texts.map .string)) = .ok (texts.map fun text => text) :=
    list_array_map fun _ _ => rfl
  rwa [List.map_id'] at htexts

/-- Where a value may be absent, everything but `null` is decoded as ever. -/
theorem optional_eq_ok {j : Json} {x : α} (h : d j = .ok x) (hj : j ≠ .null) :
    optional d j = .ok (some x) := by
  rw [optional, h]
  · rfl
  · exact hj

theorem orDefault_eq_ok {default x : α} {j : Json} (h : d j = .ok x) (hj : j ≠ .null) :
    orDefault default d j = .ok x := by
  rw [orDefault, optional_eq_ok h hj]
  rfl

theorem entries_map {f : α → Json} {xs : List (String × α)} (h : ∀ x ∈ xs, d (f x.2) = .ok x.2) :
    entries d (xs.map fun x => (x.1, f x.2)) = .ok xs := by
  induction xs with
  | nil => rfl
  | cons x rest ih =>
    obtain ⟨hx, hrest⟩ := List.forall_mem_cons.1 h
    rw [List.map_cons, entries, hx, ih hrest]

/-- What is decoded entry by entry is decoded as a dictionary. -/
theorem dict_map {f : α → Json} {m : Dict α} (h : ∀ e ∈ m.entries, d (f e.2) = .ok e.2) :
    dict d (.object (m.map f).entries) = .ok m := by
  have hentries : entries d (m.map f).entries = .ok m.entries := entries_map h
  rw [dict, sortEntries_of_ascending (m.map f).ascending, hentries]
  exact congrArg Except.ok (Dict.ext_entries (sortEntries_of_ascending m.ascending))

end Decoder
end CaseIntake
