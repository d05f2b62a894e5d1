import CaseIntake.Json.Basic

/-!
# CaseIntake.Proofs.Json.Equality

Trees can be compared, so what the reader makes of a given text can be checked.
-/

namespace CaseIntake
namespace Json

mutual

def same : Json → Json → Bool
  | .null, .null => true
  | .bool a, .bool b => a = b
  | .int a, .int b => a = b
  | .float a, .float b => a = b
  | .string a, .string b => a = b
  | .array a, .array b => sameItems a b
  | .object a, .object b => sameMembers a b
  | _, _ => false

def sameItems : List Json → List Json → Bool
  | [], [] => true
  | j :: js, k :: ks => same j k && sameItems js ks
  | _, _ => false

def sameMembers : List (String × Json) → List (String × Json) → Bool
  | [], [] => true
  | (name, j) :: js, (other, k) :: ks => name = other && same j k && sameMembers js ks
  | _, _ => false

end

mutual

theorem same_iff : ∀ j k : Json, same j k = true ↔ j = k
  | .null, k | .bool _, k | .int _, k | .float _, k | .string _, k => by
    cases k <;> simp [same]
  | .array a, k => by
    cases k <;> simp [same, sameItems_iff a]
  | .object a, k => by
    cases k <;> simp [same, sameMembers_iff a]

theorem sameItems_iff : ∀ js ks : List Json, sameItems js ks = true ↔ js = ks
  | [], ks => by cases ks <;> simp [sameItems]
  | j :: js, ks => by cases ks <;> simp [sameItems, same_iff j, sameItems_iff js]

theorem sameMembers_iff :
    ∀ js ks : List (String × Json), sameMembers js ks = true ↔ js = ks
  | [], ks => by cases ks <;> simp [sameMembers]
  | (name, j) :: js, ks => by
    rcases ks with _ | ⟨⟨other, k⟩, ks⟩ <;>
      simp [sameMembers, same_iff j, sameMembers_iff js]

end

instance : DecidableEq Json := fun j k =>
  decidable_of_iff (same j k = true) (same_iff j k)

end Json
end CaseIntake
