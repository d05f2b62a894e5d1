import CaseIntake.Proofs.Json.Shape

/-!
# CaseIntake.Proofs.Json.Positional

Records that are written as arrays. `Shape.Positional s keys`: the fields of the shape have these
keys, in this order, so that reading elements by position is reading an object with the elements
under the keys. The relation is built up as the shape is, field by field, and for a decoder it says
that an array is an object without its keys (`decoder_array_eq_ok_iff`).
-/

namespace CaseIntake

theorem Json.lookupLast_zip {keys : List String} {items : List Json} (hnd : keys.Nodup) {i : Nat}
    {key : String} (hkey : keys[i]? = some key) : lookupLast key (keys.zip items) = items[i]? := by
  induction keys generalizing items i with
  | nil => cases hkey
  | cons first rest ih =>
    obtain ⟨hfirst, hrest⟩ := List.nodup_cons.1 hnd
    cases items with
    | nil => rfl
    | cons j items =>
      rw [List.zip_cons_cons, lookupLast]
      cases i with
      | zero =>
        obtain rfl := Option.some.inj hkey
        have hlater : lookupLast first (rest.zip items) = none := by
          rw [lookupLast_eq_findEntry]
          cases hfind : findEntry first (rest.zip items).reverse with
          | none => rfl
          | some found =>
            have hmem := List.mem_reverse.1 (mem_of_findEntry hfind)
            exact absurd (List.of_mem_zip hmem).1 hfirst
        rw [hlater, if_pos rfl]
        rfl
      | succ i =>
        have hne : first ≠ key := by
          rintro rfl
          exact hfirst (List.mem_of_getElem? hkey)
        rw [ih hrest hkey, List.getElem?_cons_succ]
        cases items[i]? with
        | none => exact if_neg hne
        | some found => rfl

namespace Shape

variable {α β : Type}

/-- Elements are taken in the order of the keys, as many as there are keys, or all of them. -/
def Positional (s : Shape α) (keys : List String) : Prop :=
  ∀ (elements : Elements) (members : List (String × Json)),
    (∀ (i : Nat) key, keys[i]? = some key → Json.lookupLast key members = elements.rest[i]?) →
    ∀ x after, s.ofElements elements = .ok (x, after) ↔
      s.Reads members x ∧
        after = ⟨elements.taken + min elements.rest.length keys.length,
          elements.rest.drop keys.length⟩

theorem positional_const (x : α) : (const x).Positional [] := by
  intro elements members _ y after
  simp only [const, Reads, Except.ok.injEq, Prod.mk.injEq, Outcome.ok.injEq, List.length_nil,
    Nat.min_zero, Nat.add_zero, List.drop_zero]
  exact and_congr_right fun _ => eq_comm

theorem Positional.apply {f : Shape (α → β)} {s : Shape α} {keys keys' : List String}
    (hf : f.Positional keys) (hs : s.Positional keys') :
    (Shape.apply f s).Positional (keys ++ keys') := by
  intro elements members hkeys y after
  -- the second shape goes on where the first one stops, also when nothing is left for it
  let middle : Elements :=
    ⟨elements.taken + min elements.rest.length keys.length, elements.rest.drop keys.length⟩
  have hfirst := hf elements members fun i key hkey => hkeys i key (by
    rw [List.getElem?_append_left (List.getElem?_eq_some_iff.1 hkey).1, hkey])
  have hsecond := hs middle members fun i key hkey => by
    have hlater : (keys ++ keys')[keys.length + i]? = some key := by
      rw [List.getElem?_append_right (Nat.le_add_right _ _), Nat.add_sub_cancel_left, hkey]
    rw [hkeys _ key hlater, List.getElem?_drop]
  have hend : (⟨middle.taken + min middle.rest.length keys'.length,
      middle.rest.drop keys'.length⟩ : Elements) =
      ⟨elements.taken + min elements.rest.length (keys ++ keys').length,
        elements.rest.drop (keys ++ keys').length⟩ := by
    simp only [middle, List.length_drop, List.length_append, List.drop_drop, Elements.mk.injEq,
      and_true]
    omega
  rw [hend] at hsecond
  rw [apply_ofElements_eq_ok_iff]
  constructor
  · rintro ⟨g, stop, x, hfo, hso, rfl⟩
    obtain ⟨hg, rfl⟩ := (hfirst g stop).1 hfo
    obtain ⟨hx, hafter⟩ := (hsecond x after).1 hso
    exact ⟨Reads.seq hg hx, hafter⟩
  · rintro ⟨hreads, rfl⟩
    obtain ⟨g, x, hg, hx, rfl⟩ := exists_of_reads_seq hreads
    exact ⟨g, middle, x, (hfirst g middle).2 ⟨hg, rfl⟩, (hsecond x _).2 ⟨hx, rfl⟩, rfl⟩

theorem Positional.seq {f : Shape (α → β)} {s : Shape α} {keys keys' : List String}
    (hf : f.Positional keys) (hs : s.Positional keys') : (f <*> s).Positional (keys ++ keys') :=
  hf.apply hs

theorem Positional.map {s : Shape α} {keys : List String} (f : α → β) (hs : s.Positional keys) :
    (f <$> s).Positional keys :=
  (positional_const f).apply hs

theorem positional_field (key : String) (d : Decoder α) (default : Option α) :
    (field key d default).Positional [key] := by
  intro elements members hkeys x after
  obtain ⟨taken, rest⟩ := elements
  have hlookup : Json.lookupLast key members = rest[0]? := hkeys 0 key rfl
  cases rest with
  | nil =>
    simp only [field, Reads, hlookup]
    cases default <;> simp [eq_comm]
  | cons j rest =>
    simp only [field, Reads, hlookup, List.getElem?_cons_zero]
    cases d j <;> simp [eq_comm]

/-- An array is an object without its keys: with no more elements than there are keys, it makes the
record that the object with the elements under the keys makes. -/
theorem decoder_array_eq_ok_iff {s : Shape α} {keys : List String} (hs : s.Positional keys)
    (hnd : keys.Nodup) {name : String} {items : List Json} {x : α} :
    s.decoder name (.array items) = .ok x ↔
      items.length ≤ keys.length ∧ s.decoder name (.object (keys.zip items)) = .ok x := by
  have hread := hs ⟨0, items⟩ (keys.zip items) fun i key hkey => Json.lookupLast_zip hnd hkey
  have hobject : s.decoder name (.object (keys.zip items)) = .ok x ↔
      s.Reads (keys.zip items) x := by
    refine ⟨reads_of_decoder, fun h => ?_⟩
    rw [decoder, decodeMembers, h]
    rfl
  rw [hobject, decoder, decodeElements_eq_ok_iff]
  constructor
  · rintro ⟨after, hread', hrest⟩
    obtain ⟨hreads, rfl⟩ := (hread x after).1 hread'
    exact ⟨List.drop_eq_nil_iff.1 hrest, hreads⟩
  · rintro ⟨hlength, hreads⟩
    exact ⟨_, (hread x _).2 ⟨hreads, rfl⟩, List.drop_eq_nil_iff.2 hlength⟩

end Shape
end CaseIntake
