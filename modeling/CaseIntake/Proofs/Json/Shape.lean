import CaseIntake.Json.Shape
import CaseIntake.Proofs.Json.Sorted

/-!
# CaseIntake.Proofs.Json.Shape

Reading records field by field. `Shape.Reads` says that the members of an object make a record; it
is built up as the shape is, from one fact for each field. `decoder_sorted_record` hands these facts
out for a record that was written and comes back sorted. `exists_of_reads_seq` takes such a fact
apart again, field by field.
-/

namespace CaseIntake

variable {α β : Type}

namespace Outcome

/-- Two joined outcomes are good iff both are. -/
theorem exists_of_apply {f : Outcome (α → β)} {o : Outcome α} {y : β} (h : f.apply o = .ok y) :
    ∃ g x, f = .ok g ∧ o = .ok x ∧ y = g x := by
  cases f <;> cases o
  case ok.ok g x => exact ⟨g, x, rfl, rfl, (Outcome.ok.inj h).symm⟩
  case refused.refused =>
    rw [apply] at h
    split at h <;> cases h
  all_goals cases h

theorem eq_ok_of_toExcept {o : Outcome α} {x : α} (h : o.toExcept = .ok x) : o = .ok x := by
  cases o with
  | ok y => rw [Except.ok.inj h]
  | refused _ _ | missing _ => cases h

end Outcome

namespace Shape

def Reads (s : Shape α) (members : List (String × Json)) (x : α) : Prop :=
  s.ofMembers members = .ok x

section Fields

variable {members : List (String × Json)} {key : String}

theorem Reads.map {s : Shape α} {x : α} (f : α → β) (hs : s.Reads members x) :
    (f <$> s).Reads members (f x) := by
  change Outcome.apply (.ok f) (s.ofMembers members) = .ok (f x)
  rw [hs]
  rfl

theorem Reads.seq {f : Shape (α → β)} {g : α → β} {s : Shape α} {x : α}
    (hf : f.Reads members g) (hs : s.Reads members x) : (f <*> s).Reads members (g x) := by
  change Outcome.apply (f.ofMembers members) (s.ofMembers members) = .ok (g x)
  rw [hf, hs]
  rfl

theorem reads_withDefault {default x : α} {d : Decoder α} {j : Json}
    (hj : Json.lookupLast key members = some j) (hd : d j = .ok x) :
    (withDefault key default d).Reads members x := by
  simp only [Reads, withDefault, field, hj, hd]

theorem reads_required {x : α} {d : Decoder α} {j : Json}
    (hj : Json.lookupLast key members = some j) (hd : d j = .ok x) :
    (required key d).Reads members x := by
  simp only [Reads, required, field, hj, hd]

theorem reads_default {default : α} {d : Decoder α} (hnone : Json.lookupLast key members = none) :
    (withDefault key default d).Reads members default := by
  simp only [Reads, withDefault, field, hnone]

/-- A field that is left out when there is nothing. -/
theorem reads_optional {x : Option α} {d : Decoder α} {f : α → Json}
    (h : Json.lookupLast key members = x.map f)
    (hd : ∀ y, x = some y → Decoder.optional d (f y) = .ok (some y)) :
    (optional key d).Reads members x := by
  cases x with
  | none => exact reads_default h
  | some y => exact reads_withDefault h (hd y rfl)

theorem reads_optional_string {text : Option String}
    (h : Json.lookupLast key members = text.map .string) :
    (optional key Decoder.string).Reads members text :=
  reads_optional h fun _ _ => rfl

/-- A list of texts that is left out when it is empty. -/
theorem reads_strings {texts : List String}
    (h : Json.lookupLast key members = Json.unlessEmpty texts) :
    (withDefault key [] (Decoder.list Decoder.string)).Reads members texts := by
  cases texts with
  | nil => exact reads_default h
  | cons text rest =>
    refine reads_withDefault h (Decoder.list_eq_ok_iff.2 ⟨_, rfl, ?_⟩)
    rw [List.forall₂_map_left_iff]
    exact List.forall₂_same.2 fun _ _ => rfl

/-! ### What was read -/

theorem exists_of_reads_map {s : Shape α} {f : α → β} {y : β} (h : (f <$> s).Reads members y) :
    ∃ x, s.Reads members x ∧ y = f x := by
  obtain ⟨g, x, hg, hx, rfl⟩ := Outcome.exists_of_apply h
  obtain rfl := Outcome.ok.inj hg
  exact ⟨x, hx, rfl⟩

theorem exists_of_reads_seq {f : Shape (α → β)} {s : Shape α} {y : β}
    (h : (f <*> s).Reads members y) : ∃ g x, f.Reads members g ∧ s.Reads members x ∧ y = g x :=
  Outcome.exists_of_apply h

theorem decode_of_reads_field {default : Option α} {d : Decoder α} {x : α} {j : Json}
    (h : (field key d default).Reads members x) (hj : Json.lookupLast key members = some j) :
    d j = .ok x := by
  simp only [Reads, field, hj] at h
  cases hd : d j with
  | ok y =>
    rw [hd] at h
    rw [Outcome.ok.inj h]
  | error e =>
    rw [hd] at h
    cases h

/-- A field with a default is read unless it is there and cannot be decoded. -/
theorem exists_reads_withDefault_iff {default : α} {d : Decoder α} :
    (∃ x, (withDefault key default d).Reads members x) ↔
      ∀ j, Json.lookupLast key members = some j → ∃ x, d j = .ok x := by
  constructor
  · rintro ⟨x, hx⟩ j hj
    exact ⟨x, decode_of_reads_field hx hj⟩
  · intro h
    cases hj : Json.lookupLast key members with
    | none => exact ⟨default, reads_default hj⟩
    | some j =>
      obtain ⟨x, hd⟩ := h j hj
      exact ⟨x, reads_withDefault hj hd⟩

theorem reads_of_decoder {s : Shape α} {name : String} {x : α}
    (h : s.decoder name (.object members) = .ok x) : s.Reads members x := by
  exact Outcome.eq_ok_of_toExcept h

end Fields

/-! ### Reading by position -/

/-- Of two joined shapes the second one reads on where the first one stops. -/
theorem apply_ofElements_eq_ok_iff {f : Shape (α → β)} {s : Shape α} {elements after : Elements}
    {y : β} :
    (apply f s).ofElements elements = .ok (y, after) ↔
      ∃ g middle x, f.ofElements elements = .ok (g, middle) ∧
        s.ofElements middle = .ok (x, after) ∧ y = g x := by
  simp only [apply]
  cases f.ofElements elements with
  | error e => simp
  | ok first =>
    obtain ⟨g, middle⟩ := first
    cases hs : s.ofElements middle with
    | error e => simp [hs]
    | ok second => simp [hs, Prod.ext_iff, eq_comm, and_comm]

/-- An array is a record if it is used up. -/
theorem decodeElements_eq_ok_iff {s : Shape α} {name : String} {items : List Json} {x : α} :
    s.decodeElements name items = .ok x ↔
      ∃ after, s.ofElements ⟨0, items⟩ = .ok (x, after) ∧ after.rest = [] := by
  rw [decodeElements]
  cases s.ofElements ⟨0, items⟩ with
  | error e => cases e <;> simp
  | ok read =>
    obtain ⟨y, after⟩ := read
    by_cases hrest : after.rest = [] <;> simp [hrest]

section Record

variable {fields : List (String × Option Json)} {s : Shape α} {x : α}

theorem decoder_sorted_record {name : String} (hnd : (fields.map Prod.fst).Nodup)
    (h : ∀ members,
      (∀ key, Json.lookupLast key members = (findEntry key fields).join.map Json.sorted) →
      s.Reads members x) :
    s.decoder name (Json.record fields).sorted = .ok x := by
  obtain ⟨members, hobject, hreads⟩ := Json.exists_sorted_record hnd h
  rw [hobject, decoder, decodeMembers, hreads]
  rfl

end Record
end Shape

end CaseIntake
