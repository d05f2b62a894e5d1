import CaseIntake.Json.Encode
import CaseIntake.Json.Reader
import CaseIntake.Proofs.Json.Decoder

/-!
# CaseIntake.Proofs.Json.Sorted

Trees with sorted members. `sorted` is the form in which a tree comes back from the reader.

* `member?_sorted_record`: a record keeps its fields when it is sorted.
* `sorted_of_read?`: the reader hands out no other trees.
-/

namespace CaseIntake
namespace Json

mutual

/-- The tree with the members of every object in ascending order, each key once. -/
def sorted : Json → Json
  | .array items => .array (sortedItems items)
  | .object members => .object (sortEntries (sortedMembers members))
  | j => j

def sortedItems : List Json → List Json
  | [] => []
  | j :: rest => sorted j :: sortedItems rest

def sortedMembers : List (String × Json) → List (String × Json)
  | [] => []
  | (key, j) :: rest => (key, sorted j) :: sortedMembers rest

end

theorem sortedItems_eq_map (items : List Json) : sortedItems items = items.map sorted := by
  induction items with
  | nil => rfl
  | cons j rest ih => rw [sortedItems, ih, List.map_cons]

theorem sorted_array_map {α : Type} (f : α → Json) (xs : List α) :
    (Json.array (xs.map f)).sorted = .array (xs.map fun x => (f x).sorted) := by
  rw [sorted, sortedItems_eq_map, List.map_map]
  rfl

theorem sorted_strings (texts : List String) : (strings texts).sorted = strings texts := by
  rw [strings, sorted_array_map]
  rfl

theorem sorted_unlessEmpty (texts : List String) :
    (unlessEmpty texts).map sorted = unlessEmpty texts := by
  cases texts with
  | nil => rfl
  | cons text rest =>
    simp only [unlessEmpty, List.isEmpty_cons, Bool.false_eq_true, if_false, Option.map_some,
      sorted_strings]

/-! ## Members -/

theorem lookupLast_sortedMembers (key : String) (members : List (String × Json)) :
    lookupLast key (sortedMembers members) = (lookupLast key members).map sorted := by
  induction members with
  | nil => rfl
  | cons m rest ih =>
    obtain ⟨other, j⟩ := m
    rw [sortedMembers, lookupLast, lookupLast, ih]
    cases lookupLast key rest with
    | some found => rfl
    | none => by_cases hother : other = key <;> simp [hother]

theorem member?_sorted_object (key : String) (members : List (String × Json)) :
    (Json.object members).sorted.member? key = (lookupLast key members).map sorted := by
  rw [sorted, member?, lookupLast_sortEntries, lookupLast_sortedMembers]

/-- A field is found if it has a value. -/
theorem lookupLast_fields {fields : List (String × Option Json)}
    (hnd : (fields.map Prod.fst).Nodup) (key : String) :
    lookupLast key (fields.filterMap fun (name, value) => value.map fun j => (name, j)) =
      (findEntry key fields).join := by
  induction fields with
  | nil => rfl
  | cons f rest ih =>
    obtain ⟨name, value⟩ := f
    obtain ⟨hname, hrest⟩ := List.nodup_cons.1 hnd
    rw [findEntry]
    by_cases hkey : name = key
    · subst hkey
      have hlater : (findEntry name rest).join = none := by
        cases hfind : findEntry name rest with
        | none => rfl
        | some found => exact absurd (List.mem_map_of_mem (mem_of_findEntry hfind)) hname
      cases value with
      | none => simpa [hlater] using ih hrest
      | some j => simp [lookupLast, ih hrest, hlater]
    · cases value with
      | none => simpa [hkey] using ih hrest
      | some j =>
        simp only [List.filterMap_cons, Option.map_some, lookupLast, ih hrest, if_neg hkey]
        cases (findEntry key rest).join <;> rfl

theorem member?_sorted_record {fields : List (String × Option Json)}
    (hnd : (fields.map Prod.fst).Nodup) (key : String) :
    (record fields).sorted.member? key = (findEntry key fields).join.map sorted := by
  rw [record, member?_sorted_object, lookupLast_fields hnd]

/-- What holds of all members with the fields of a record holds of its members when it is sorted. -/
theorem exists_sorted_record {fields : List (String × Option Json)}
    {P : List (String × Json) → Prop} (hnd : (fields.map Prod.fst).Nodup)
    (h : ∀ members,
      (∀ key, lookupLast key members = (findEntry key fields).join.map sorted) → P members) :
    ∃ members, (record fields).sorted = .object members ∧ P members :=
  ⟨_, rfl, h _ (member?_sorted_record hnd)⟩

/-! ## The reader -/

theorem sorted_array {items : List Json} (h : ∀ j ∈ items, j.sorted = j) :
    (Json.array items).sorted = .array items := by
  rw [sorted, sortedItems_eq_map, map_eq_self_iff.2 h]

theorem sortedMembers_eq_self {members : List (String × Json)}
    (h : ∀ m ∈ members, m.2.sorted = m.2) : sortedMembers members = members := by
  induction members with
  | nil => rfl
  | cons m rest ih =>
    rw [sortedMembers, h m List.mem_cons_self, ih fun m hm => h m (List.mem_cons_of_mem _ hm)]

theorem sorted_object {members : List (String × Json)} (h : ∀ m ∈ members, m.2.sorted = m.2)
    (hascending : Ascending members) : (Json.object members).sorted = .object members := by
  rw [sorted, sortedMembers_eq_self h, sortEntries_of_ascending hascending]

theorem sorted_stringDict (d : Dict String) : (stringDict d).sorted = stringDict d := by
  refine sorted_object (fun m hm => ?_) (d.map Json.string).ascending
  obtain ⟨e, -, rfl⟩ := List.mem_map.1 hm
  rfl

section Reader

variable {α : Type} {item : List Char → Option (α × List Char)} {close : Char}
  {cs rest : List Char} {xs : List α}

theorem exists_of_mem_scanItems (h : scanItems item close cs = some (xs, rest)) :
    ∀ x ∈ xs, ∃ cs rest, item cs = some (x, rest) := by
  fun_induction scanItems item close cs generalizing xs rest with
  | case1 cs hitem => cases h
  | case2 cs x after hitem hspace => cases h
  | case3 cs x after hitem final hspace =>
    cases h
    intro y hy
    obtain rfl := List.mem_singleton.1 hy
    exact ⟨cs, after, hitem⟩
  | case4 cs x after hitem next hshorter hspace hclose ih =>
    obtain ⟨⟨ys, rest'⟩, hlater, heq⟩ := Option.map_eq_some_iff.1 h
    cases heq
    intro y hy
    rcases List.mem_cons.1 hy with rfl | hy
    · exact ⟨cs, after, hitem⟩
    · exact ih hlater y hy
  | case5 cs x after hitem next hshorter hspace hclose => cases h
  | case6 cs x after hitem c next hspace hclose hcomma => cases h

theorem exists_of_mem_scanCollection (h : scanCollection item close cs = some (xs, rest)) :
    ∀ x ∈ xs, ∃ cs rest, item cs = some (x, rest) := by
  rw [scanCollection] at h
  split at h
  · cases h
  · split at h
    · cases h
      simp
    · exact exists_of_mem_scanItems h

end Reader

theorem sorted_of_scanMember {value : List Char → Option (Json × List Char)}
    (hvalue : ∀ cs j rest, value cs = some (j, rest) → j.sorted = j) {cs rest : List Char}
    {m : String × Json} (h : scanMember value cs = some (m, rest)) : m.2.sorted = m.2 := by
  rw [scanMember] at h
  split at h
  · split at h
    · cases h
    · split at h
      · obtain ⟨⟨j, after⟩, hj, heq⟩ := Option.map_eq_some_iff.1 h
        cases heq
        exact hvalue _ _ _ hj
      · cases h
  · cases h

theorem sorted_of_scanWord {word : String} {value j : Json} {cs rest : List Char}
    (hvalue : value.sorted = value) (h : scanWord word value cs = some (j, rest)) :
    j.sorted = j := by
  rw [scanWord] at h
  split at h
  · cases h
    exact hvalue
  · cases h

theorem sorted_of_value? {t : NumberText} {j : Json} (h : t.value? = some j) : j.sorted = j := by
  have hfloat {x : Option Binary64} {negative : Bool}
      (h : (x.map fun x => Json.float (x.withSign negative)) = some j) : j.sorted = j := by
    obtain ⟨y, -, rfl⟩ := Option.map_eq_some_iff.1 h
    rfl
  rw [NumberText.value?] at h
  simp only at h
  split at h
  · split at h
    · exact hfloat h
    · split at h
      · cases h
        rfl
      · split at h
        · exact hfloat h
        · cases h
          rfl
  · exact hfloat h

theorem sorted_of_scanValue {depth : Nat} {cs rest : List Char} {j : Json} :
    scanValue depth cs = some (j, rest) → j.sorted = j := by
  -- What a collection holds was read one level further down.
  induction depth using Nat.strongRecOn generalizing cs rest j with
  | ind depth ih =>
    fun_cases scanValue depth cs with
    | case1 | case3 | case5 | case11 =>
      intro h
      cases h
    | case2 =>
      intro h
      obtain ⟨⟨s, after⟩, -, heq⟩ := Option.map_eq_some_iff.1 h
      cases heq
      rfl
    | case4 hbracket tail depth hspace =>
      intro h
      obtain ⟨⟨items, after⟩, hitems, heq⟩ := Option.map_eq_some_iff.1 h
      cases heq
      refine sorted_array fun j hj => ?_
      obtain ⟨cs, rest, hscan⟩ := exists_of_mem_scanCollection hitems j hj
      exact ih depth (Nat.lt_succ_self depth) hscan
    | case6 hbrace tail depth hspace =>
      intro h
      obtain ⟨⟨members, after⟩, hmembers, heq⟩ := Option.map_eq_some_iff.1 h
      cases heq
      refine sorted_object (fun m hm => ?_) (ascending_sortEntries members)
      obtain ⟨cs, rest, hscan⟩ := exists_of_mem_scanCollection hmembers m (mem_sortEntries hm)
      exact sorted_of_scanMember (fun _ _ _ => ih depth (Nat.lt_succ_self depth)) hscan
    | case7 | case8 | case9 => exact sorted_of_scanWord rfl
    | case10 c rest hspace hquote hbracket hbrace ht hf hn number after hnumber =>
      intro h
      obtain ⟨v, hv, heq⟩ := Option.map_eq_some_iff.1 h
      cases heq
      exact sorted_of_value? hv

/-- Whatever the reader hands out is sorted, so a tree can come back in no other form. -/
theorem sorted_of_read? {s : String} {j : Json} (h : read? s = some j) : j.sorted = j := by
  rw [read?] at h
  split at h
  · rename_i value rest hscan
    split at h
    · cases h
      exact sorted_of_scanValue hscan
    · cases h
  · cases h

end Json
end CaseIntake
