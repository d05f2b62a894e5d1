import CaseIntake.Proofs.Value.Ordered

/-!
# CaseIntake.Proofs.Value.Normal

Trees that were read as values and written again. `Json.normal j` has its keys in ascending order,
each once, and the whole numbers beyond 64 bits are floating-point numbers. Otherwise it is `j`:

* `kind_normal`: it is of the same kind.
* `normal_array`, `exists_normal_object`: it has the same items or members, and they are normal.
-/

namespace CaseIntake
namespace Json

inductive Kind where
  | null
  | boolean
  | number
  | string
  | array
  | object
deriving DecidableEq

def kind : Json → Kind
  | .null => .null
  | .bool _ => .boolean
  | .int _ | .float _ => .number
  | .string _ => .string
  | .array _ => .array
  | .object _ => .object

theorem kind_eq_null_iff {j : Json} : j.kind = .null ↔ j = .null := by
  cases j <;> simp [kind]

theorem kind_eq_array_iff {j : Json} : j.kind = .array ↔ ∃ items, j = .array items := by
  cases j <;> simp [kind]

theorem kind_eq_object_iff {j : Json} : j.kind = .object ↔ ∃ members, j = .object members := by
  cases j <;> simp [kind]

/-- The tree that is written for the value that was read. -/
def normal (j : Json) : Json :=
  (Value.ofJson j).toJson

theorem ofJson_normal (j : Json) : Value.ofJson j.normal = Value.ofJson j :=
  Value.ofJson_toJson _ (Value.ordered_ofJson j)

theorem sorted_normal (j : Json) : j.normal.sorted = j.normal :=
  Value.sorted_toJson _ (Value.ordered_ofJson j)

theorem normal_int (n : Int) :
    (∃ m, (Json.int n).normal = .int m) ∨ ∃ x, (Json.int n).normal = .float x := by
  rw [normal, Value.ofJson, Value.ofInt]
  split
  · exact Or.inl ⟨_, rfl⟩
  · exact Or.inr ⟨_, rfl⟩

theorem normal_array (items : List Json) :
    (Json.array items).normal = .array (items.map normal) := by
  rw [normal, Value.ofJson, Value.toJson]
  congr 1
  induction items with
  | nil => rfl
  | cons j rest ih => rw [Value.ofJsonItems, Value.toJsonItems, ih, List.map_cons, normal]

theorem ofJsonMembers_eq_map (members : List (String × Json)) :
    Value.ofJsonMembers members = members.map fun m => (m.1, Value.ofJson m.2) := by
  induction members with
  | nil => rfl
  | cons m rest ih => rw [Value.ofJsonMembers, ih, List.map_cons]

theorem lookupLast_entries (d : Dict Json) (key : String) :
    lookupLast key d.entries = d.find? key := by
  rw [lookupLast_eq_findEntry, findEntry_reverse (nodup_of_ascending d.ascending)]
  rfl

theorem exists_normal_object (members : List (String × Json)) :
    ∃ normals, (Json.object members).normal = .object normals ∧
      ∀ key, lookupLast key normals = (lookupLast key members).map normal := by
  let d := Dict.ofList (Value.ofJsonMembers members)
  refine ⟨(d.map Value.toJson).entries, d.toJson_eq, fun key => ?_⟩
  rw [lookupLast_entries, Dict.find?_map, Dict.find?_ofList, ofJsonMembers_eq_map,
    ← List.map_reverse, findEntry_map, ← lookupLast_eq_findEntry, Option.map_map]
  rfl

/-- What was read as a value and written again is of the same kind. -/
theorem kind_normal (j : Json) : j.normal.kind = j.kind := by
  cases j with
  | int n => rcases normal_int n with ⟨_, h⟩ | ⟨_, h⟩ <;> rw [h] <;> rfl
  | array items => rw [normal_array, kind, kind]
  | object members =>
    obtain ⟨_, h, -⟩ := exists_normal_object members
    rw [h, kind, kind]
  | null | bool _ | float _ | string _ => rfl

end Json
end CaseIntake
