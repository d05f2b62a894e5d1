import CaseIntake.Proofs.Json.Shape

/-!
# CaseIntake.Proofs.Json.Yields

What is known of whatever is decoded.

* `Decoder.Yields d P`: what the decoder makes of a tree has `P`, whatever the tree. A law for each
  combinator lifts this from elements to collections.
* `Shape.Makes s x`: the shape makes the record from some object or array. `exists_of_makes_seq`
  takes a record apart into its fields, each of which was decoded or has its default.
-/

namespace CaseIntake

variable {α β : Type}

namespace Decoder

def Yields (d : Decoder α) (P : α → Prop) : Prop :=
  ∀ j x, d j = .ok x → P x

theorem exists_of_map_eq_ok {f : α → β} {r : Except DecodeError α} {y : β} (h : .ok y = r.map f) :
    ∃ x, r = .ok x ∧ y = f x := by
  cases r with
  | error e => cases h
  | ok x => exact ⟨x, rfl, Except.ok.inj h⟩

section Combinators

variable {d : Decoder α} {P : α → Prop}

theorem yields_list (h : Yields d P) : Yields (list d) fun xs => ∀ x ∈ xs, P x := by
  intro j xs hj x hx
  obtain ⟨items, -, hitems⟩ := list_eq_ok_iff.1 hj
  obtain ⟨k, hk, rfl⟩ := List.mem_iff_getElem.1 hx
  have hitem := hitems.get (hitems.length_eq ▸ hk) hk
  exact h _ _ hitem

theorem yields_entries (h : Yields d P) {members : List (String × Json)} {xs : List (String × α)}
    (hxs : entries d members = .ok xs) : ∀ x ∈ xs, P x.2 := by
  induction members generalizing xs with
  | nil =>
    obtain rfl := Except.ok.inj hxs
    simp
  | cons m rest ih =>
    rw [entries] at hxs
    cases hd : d m.2 with
    | error e =>
      rw [hd] at hxs
      cases hxs
    | ok y =>
      rw [hd] at hxs
      cases hrest : entries d rest with
      | error e =>
        rw [hrest] at hxs
        cases hxs
      | ok ys =>
        rw [hrest] at hxs
        obtain rfl := Except.ok.inj hxs
        intro x hx
        rcases List.mem_cons.1 hx with rfl | hx
        · exact h _ _ hd
        · exact ih hrest x hx

theorem yields_dict (h : Yields d P) : Yields (dict d) fun m => ∀ e ∈ m.entries, P e.2 := by
  intro j m hj e he
  cases j with
  | object members =>
    obtain ⟨xs, hxs, rfl⟩ := exists_of_map_eq_ok hj.symm
    exact yields_entries h hxs e (mem_sortEntries he)
  | null | bool _ | int _ | float _ | string _ | array _ => cases hj

/-- Where a value may be absent, one that is there was decoded, and not from `null`. -/
theorem optional_eq_ok_some {j : Json} {x : α} (h : optional d j = .ok (some x)) :
    j ≠ .null ∧ d j = .ok x := by
  cases j with
  | null => cases h
  | bool _ | int _ | float _ | string _ | array _ | object _ =>
    obtain ⟨y, hy, heq⟩ := exists_of_map_eq_ok h.symm
    obtain rfl := Option.some.inj heq
    exact ⟨by simp, hy⟩

theorem yields_optional (h : ∀ j x, j ≠ .null → d j = .ok x → P x) :
    Yields (optional d) fun o => ∀ x, o = some x → P x := by
  rintro j o hj x rfl
  obtain ⟨hne, hd⟩ := optional_eq_ok_some hj
  exact h j x hne hd

theorem yields_orDefault (h : Yields d P) {default : α} (hdefault : P default) :
    Yields (orDefault default d) P := by
  intro j x hj
  obtain ⟨o, ho, rfl⟩ := exists_of_map_eq_ok hj.symm
  cases o with
  | none => exact hdefault
  | some x => exact h j x (optional_eq_ok_some ho).2

/-- What the first of several alternatives hands out is handed out by one of them. -/
theorem mem_of_firstOf {name : String} {alternatives : List (Except DecodeError α)} {x : α}
    (h : firstOf name alternatives = .ok x) : .ok x ∈ alternatives := by
  induction alternatives with
  | nil => cases h
  | cons first rest ih =>
    cases first with
    | ok y =>
      obtain rfl := Except.ok.inj h
      exact List.mem_cons_self
    | error e => exact List.mem_cons_of_mem _ (ih h)

end Combinators
end Decoder

namespace Shape

def Makes (s : Shape α) (x : α) : Prop :=
  (∃ members, s.Reads members x) ∨
    ∃ elements rest, s.ofElements elements = .ok (x, rest)

theorem exists_of_makes_seq {f : Shape (α → β)} {s : Shape α} {y : β} (h : (f <*> s).Makes y) :
    ∃ g x, f.Makes g ∧ s.Makes x ∧ y = g x := by
  rcases h with ⟨members, hreads⟩ | ⟨elements, rest, h⟩
  · obtain ⟨g, x, hg, hx, rfl⟩ := exists_of_reads_seq hreads
    exact ⟨g, x, Or.inl ⟨members, hg⟩, Or.inl ⟨members, hx⟩, rfl⟩
  · obtain ⟨g, middle, x, hf, hs, rfl⟩ := apply_ofElements_eq_ok_iff.1 h
    exact ⟨g, x, Or.inr ⟨elements, middle, hf⟩, Or.inr ⟨middle, rest, hs⟩, rfl⟩

theorem exists_of_makes_map {s : Shape α} {f : α → β} {y : β} (h : (f <$> s).Makes y) :
    ∃ x, s.Makes x ∧ y = f x := by
  rcases h with ⟨members, hreads⟩ | ⟨elements, rest, h⟩
  · obtain ⟨x, hx, rfl⟩ := exists_of_reads_map hreads
    exact ⟨x, Or.inl ⟨members, hx⟩, rfl⟩
  · obtain ⟨g, middle, x, hf, hs, rfl⟩ := apply_ofElements_eq_ok_iff.1 h
    obtain ⟨rfl, -⟩ := Prod.mk.inj (Except.ok.inj hf)
    exact ⟨x, Or.inr ⟨middle, rest, hs⟩, rfl⟩

section Field

variable {key : String} {d : Decoder α} {P : α → Prop}

theorem decoded_of_makes_field {default : Option α} {x : α} (h : (field key d default).Makes x) :
    (∃ j, d j = .ok x) ∨ default = some x := by
  rcases h with ⟨members, h⟩ | ⟨elements, rest, h⟩
  · simp only [Reads, field] at h
    split at h
    · rename_i j _
      split at h
      · rename_i y hy
        obtain rfl := Outcome.ok.inj h
        exact Or.inl ⟨j, hy⟩
      · cases h
    · split at h
      · obtain rfl := Outcome.ok.inj h
        exact Or.inr rfl
      · cases h
  · simp only [field] at h
    split at h
    · rename_i j _ _
      split at h
      · rename_i y hy
        obtain ⟨rfl, -⟩ := Prod.mk.inj (Except.ok.inj h)
        exact Or.inl ⟨j, hy⟩
      · cases h
    · split at h
      · obtain ⟨rfl, -⟩ := Prod.mk.inj (Except.ok.inj h)
        exact Or.inr rfl
      · cases h

theorem of_makes_withDefault {default x : α} (h : (withDefault key default d).Makes x)
    (hd : Decoder.Yields d P) (hdefault : P default) : P x := by
  rcases decoded_of_makes_field h with ⟨j, hj⟩ | heq
  · exact hd j x hj
  · obtain rfl := Option.some.inj heq
    exact hdefault

theorem of_makes_optional {o : Option α} (h : (optional key d).Makes o)
    (hd : ∀ j x, j ≠ .null → d j = .ok x → P x) : ∀ x, o = some x → P x :=
  of_makes_withDefault h (Decoder.yields_optional hd) (by simp)

end Field

theorem makes_of_decoder {s : Shape α} {name : String} {j : Json} {x : α}
    (h : s.decoder name j = .ok x) : s.Makes x := by
  cases j with
  | object members => exact Or.inl ⟨members, reads_of_decoder h⟩
  | array items =>
    obtain ⟨after, hs, -⟩ := decodeElements_eq_ok_iff.1 h
    exact Or.inr ⟨_, after, hs⟩
  | null | bool _ | int _ | float _ | string _ => cases h

end Shape
end CaseIntake
