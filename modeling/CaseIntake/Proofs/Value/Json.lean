import CaseIntake.Proofs.Json.Sorted
import CaseIntake.Proofs.Number.Word
import CaseIntake.Value.Json

/-!
# CaseIntake.Proofs.Value.Json

Values come back from JSON as they were.

* `decode_eq_ok`: trying the kinds one after the other ends at the kind of the tree, and it never
  fails.
* `ofJson_toJson`, `sorted_toJson`: a value whose maps are ascending is read back as itself, and its
  tree is sorted as it is.
-/

namespace CaseIntake

namespace Value

mutual

theorem decode_eq_ok : ∀ j : Json, decode j = .ok (ofJson j)
  | .null | .bool _ | .float _ | .string _ => rfl
  | .int n => by
    rw [ofJson, ofInt]
    cases hn : Word.int64? n <;>
      simp [decode, Alternative.null, Alternative.bool, Alternative.int, Alternative.float, hn,
        Decoder.refuse, Decoder.firstOf]
  | .array items => by
    rw [decode, ofJson]
    simp only [decodeItems_eq_ok items]
    rfl
  | .object members => by
    rw [decode, ofJson]
    simp only [decodeMembers_eq_ok members]
    rfl

theorem decodeItems_eq_ok : ∀ items : List Json, decodeItems items = .ok (ofJsonItems items)
  | [] => rfl
  | j :: rest => by
    rw [decodeItems, decode_eq_ok j, decodeItems_eq_ok rest]
    rfl

theorem decodeMembers_eq_ok :
    ∀ members : List (String × Json), decodeMembers members = .ok (ofJsonMembers members)
  | [] => rfl
  | (key, j) :: rest => by
    rw [decodeMembers, decode_eq_ok j, decodeMembers_eq_ok rest]
    rfl

end

mutual

theorem ofJson_toJson : ∀ v : Value, v.Ordered → ofJson v.toJson = v
  | .null, _ | .bool _, _ | .float _, _ | .string _, _ => by rw [toJson, ofJson]
  | .int n, _ => by rw [toJson, ofJson, ofInt, Word.int64?_toInt]
  | .list items, h => by rw [toJson, ofJson, ofJsonItems_toJsonItems items h]
  | .map entries, h => by
    obtain ⟨hascending, hentries⟩ := h
    rw [toJson, ofJson, ofJsonMembers_toJsonEntries entries hentries,
      sortEntries_of_ascending hascending]

theorem ofJsonItems_toJsonItems :
    ∀ items : List Value, OrderedItems items → ofJsonItems (toJsonItems items) = items
  | [], _ => rfl
  | v :: rest, h => by
    rw [toJsonItems, ofJsonItems, ofJson_toJson v h.1, ofJsonItems_toJsonItems rest h.2]

theorem ofJsonMembers_toJsonEntries :
    ∀ entries : List (String × Value), OrderedEntries entries →
      ofJsonMembers (toJsonEntries entries) = entries
  | [], _ => rfl
  | (key, v) :: rest, h => by
    rw [toJsonEntries, ofJsonMembers, ofJson_toJson v h.1, ofJsonMembers_toJsonEntries rest h.2]

end

theorem toJsonEntries_eq_map (entries : List (String × Value)) :
    toJsonEntries entries = entries.map fun entry => (entry.1, entry.2.toJson) := by
  induction entries with
  | nil => rfl
  | cons e rest ih => rw [toJsonEntries, ih, List.map_cons]

theorem ascending_toJsonEntries {entries : List (String × Value)} (h : Ascending entries) :
    Ascending (toJsonEntries entries) := by
  rw [toJsonEntries_eq_map]
  exact List.pairwise_map.2 h

mutual

theorem sorted_toJson : ∀ v : Value, v.Ordered → v.toJson.sorted = v.toJson
  | .null, _ | .bool _, _ | .int _, _ | .float _, _ | .string _, _ => rfl
  | .list items, h => by rw [toJson, Json.sorted, sortedItems_toJsonItems items h]
  | .map entries, h => by
    obtain ⟨hascending, hentries⟩ := h
    rw [toJson, Json.sorted, sortedMembers_toJsonEntries entries hentries,
      sortEntries_of_ascending (ascending_toJsonEntries hascending)]

theorem sortedItems_toJsonItems :
    ∀ items : List Value, OrderedItems items →
      Json.sortedItems (toJsonItems items) = toJsonItems items
  | [], _ => rfl
  | v :: rest, h => by
    rw [toJsonItems, Json.sortedItems, sorted_toJson v h.1, sortedItems_toJsonItems rest h.2]

theorem sortedMembers_toJsonEntries :
    ∀ entries : List (String × Value), OrderedEntries entries →
      Json.sortedMembers (toJsonEntries entries) = toJsonEntries entries
  | [], _ => rfl
  | (key, v) :: rest, h => by
    rw [toJsonEntries, Json.sortedMembers, sorted_toJson v h.1,
      sortedMembers_toJsonEntries rest h.2]

end

/-- A value is read back as it was written. -/
theorem decode_sorted_toJson {v : Value} (h : v.Ordered) : decode v.toJson.sorted = .ok v := by
  rw [sorted_toJson v h, decode_eq_ok, ofJson_toJson v h]

/-- Where a value may be missing, `null` is read back as none. -/
theorem optional_decode_sorted_toJson {v : Value} (h : v.Ordered) :
    Decoder.optional decode v.toJson.sorted = .ok (if v.isNull then none else some v) := by
  have hdecode := decode_sorted_toJson h
  rw [sorted_toJson v h] at hdecode ⊢
  cases v with
  | null => rfl
  | bool _ | int _ | float _ | string _ | list _ | map _ =>
    rw [toJson] at hdecode ⊢
    rw [Decoder.optional, hdecode]
    · rfl
    · simp

theorem filter_isNull (v : Value) :
    (some v).filter (!·.isNull) = if v.isNull then none else some v := by
  cases h : v.isNull <;> simp [Option.filter, h]

theorem filter_isNull_eq_self_iff {o : Option Value} :
    o.filter (!·.isNull) = o ↔ o ≠ some .null := by
  cases o with
  | none => simp
  | some v => cases v <;> simp [Option.filter, isNull, kind]

end Value
end CaseIntake
