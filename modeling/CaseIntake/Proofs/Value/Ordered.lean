import CaseIntake.Proofs.Json.Yields
import CaseIntake.Proofs.Value.Json
import CaseIntake.Value.Literal

/-!
# CaseIntake.Proofs.Value.Ordered

Values whose maps have ascending keys: those that are decoded (`ordered_ofJson`), those that are
taken from dictionaries with such values, and all literals (`Literal.ordered_coerce`).
-/

namespace CaseIntake

namespace Value

theorem orderedItems_iff {items : List Value} :
    OrderedItems items ↔ ∀ v ∈ items, v.Ordered := by
  induction items with
  | nil => simp [OrderedItems]
  | cons v rest ih => simp [OrderedItems, ih]

theorem orderedEntries_iff {entries : List (String × Value)} :
    OrderedEntries entries ↔ ∀ e ∈ entries, e.2.Ordered := by
  induction entries with
  | nil => simp [OrderedEntries]
  | cons e rest ih =>
    rw [OrderedEntries, ih]
    simp

theorem ordered_ofInt (n : Int) : (ofInt n).Ordered := by
  rw [ofInt]
  split <;> trivial

mutual

theorem ordered_ofJson : ∀ j : Json, (ofJson j).Ordered
  | .null | .bool _ | .float _ | .string _ => trivial
  | .int n => ordered_ofInt n
  | .array items => by
    rw [ofJson, Ordered, orderedItems_iff]
    exact ordered_ofJsonItems items
  | .object members => by
    rw [ofJson, Ordered, orderedEntries_iff]
    refine ⟨ascending_sortEntries _, fun e he => ?_⟩
    exact ordered_ofJsonMembers members e (mem_sortEntries he)

theorem ordered_ofJsonItems : ∀ items : List Json, ∀ v ∈ ofJsonItems items, v.Ordered
  | [] => by simp [ofJsonItems]
  | j :: rest => by
    rw [ofJsonItems, List.forall_mem_cons]
    exact ⟨ordered_ofJson j, ordered_ofJsonItems rest⟩

theorem ordered_ofJsonMembers :
    ∀ members : List (String × Json), ∀ e ∈ ofJsonMembers members, e.2.Ordered
  | [] => by simp [ofJsonMembers]
  | (_, j) :: rest => by
    rw [ofJsonMembers, List.forall_mem_cons]
    exact ⟨ordered_ofJson j, ordered_ofJsonMembers rest⟩

end

theorem ofJson_ne_null {j : Json} (h : j ≠ .null) : ofJson j ≠ .null := by
  cases j with
  | null => exact absurd rfl h
  | int n =>
    rw [ofJson, ofInt]
    split <;> simp
  | bool _ | float _ | string _ | array _ | object _ => simp [ofJson]

theorem yields_decode : Decoder.Yields decode Ordered := by
  intro j v h
  rw [decode_eq_ok] at h
  obtain rfl := Except.ok.inj h
  exact ordered_ofJson j

/-- Only `null` is decoded to the value `null`. -/
theorem ordered_of_decode {j : Json} {v : Value} (hj : j ≠ .null) (h : decode j = .ok v) :
    v.Ordered ∧ v ≠ .null := by
  rw [decode_eq_ok] at h
  obtain rfl := Except.ok.inj h
  exact ⟨ordered_ofJson j, ofJson_ne_null hj⟩

end Value

/-- A value that is left out when there is none; it is lost when it is `null`. -/
theorem Shape.reads_optional_value {members : List (String × Json)} {key : String}
    {value : Option Value}
    (h : Json.lookupLast key members = value.map fun v => v.toJson.sorted)
    (hordered : ∀ v, value = some v → v.Ordered) :
    (optional key Value.decode).Reads members (value.filter (!·.isNull)) := by
  cases value with
  | none => exact reads_default h
  | some v =>
    rw [Value.filter_isNull]
    exact reads_withDefault h (Value.optional_decode_sorted_toJson (hordered v rfl))

/-- The values of the dictionary have ascending keys. -/
def Dict.Ordered (d : Dict Value) : Prop :=
  ∀ e ∈ d.entries, e.2.Ordered

namespace Dict

variable {d : Dict Value}

theorem ordered_empty : (empty : Dict Value).Ordered := by
  intro e he
  cases he

theorem Ordered.insert (h : d.Ordered) (name : String) {value : Value} (hvalue : value.Ordered) :
    (d.insert name value).Ordered := by
  intro e he
  rcases mem_insertEntry he with rfl | he
  · exact hvalue
  · exact h e he

theorem Ordered.ofDict (h : d.Ordered) : (Value.ofDict d).Ordered :=
  ⟨d.ascending, Value.orderedEntries_iff.2 h⟩

theorem Ordered.of_find? (h : d.Ordered) {name : String} {value : Value}
    (hfind : d.find? name = some value) : value.Ordered :=
  h (name, value) (mem_of_findEntry hfind)

theorem toJson_eq (d : Dict Value) : d.toJson = .object (d.map Value.toJson).entries := by
  rw [toJson, Value.toJsonEntries_eq_map]
  rfl

/-- A dictionary of values is read back as it was written. -/
theorem Ordered.decode_sorted_toJson (h : d.Ordered) :
    Decoder.valueDict d.toJson.sorted = .ok d := by
  have hsorted : d.toJson.sorted = d.toJson := Value.sorted_toJson (Value.ofDict d) h.ofDict
  rw [hsorted, toJson_eq]
  refine Decoder.dict_map fun e he => ?_
  rw [Value.decode_eq_ok, Value.ofJson_toJson e.2 (h e he)]

theorem yields_valueDict : Decoder.Yields Decoder.valueDict Ordered :=
  Decoder.yields_dict Value.yields_decode

end Dict

/-! ## Lists and dictionaries of values -/

namespace Decoder

theorem list_value_array (items : List Json) :
    list Value.decode (.array items) = .ok (Value.ofJsonItems items) := by
  rw [list]
  induction items with
  | nil => rfl
  | cons j rest ih => rw [all, Value.decode_eq_ok, ih, Value.ofJsonItems]

theorem list_value_sorted_toJson {values : List Value} (h : ∀ v ∈ values, v.Ordered) :
    list Value.decode (Value.list values).toJson.sorted = .ok values := by
  have hitems : Value.OrderedItems values := Value.orderedItems_iff.2 h
  rw [Value.sorted_toJson (.list values) hitems, Value.toJson, list_value_array,
    Value.ofJsonItems_toJsonItems values hitems]

theorem entries_value (members : List (String × Json)) :
    entries Value.decode members = .ok (members.map fun m => (m.1, Value.ofJson m.2)) := by
  induction members with
  | nil => rfl
  | cons m rest ih => rw [entries, Value.decode_eq_ok, ih, List.map_cons]

theorem exists_valueDict_object (members : List (String × Json)) :
    ∃ d, valueDict (.object members) = .ok d :=
  ⟨_, by rw [valueDict, dict, entries_value]; rfl⟩

end Decoder

namespace Literal

theorem ordered_ofTrimmed (cs : List Char) : (ofTrimmed cs).Ordered := by
  have hword : ((word? (String.ofList cs)).getD (.string (String.ofList cs))).Ordered := by
    rw [word?]
    split
    · trivial
    · split
      · trivial
      · split <;> trivial
  rw [ofTrimmed]
  split
  · trivial
  · split
    · trivial
    · split
      · trivial
      · exact hword

theorem ordered_coerce (s : String) : (coerce s).Ordered :=
  ordered_ofTrimmed _

end Literal
end CaseIntake
