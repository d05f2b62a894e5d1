import CaseIntake.Proofs.Number.Ratio
import CaseIntake.Proofs.Value.Normal

/-!
# CaseIntake.Proofs.Value.Reading

What a JSON tree is as a value, said without a reader (`IsReadAs`), at every depth: whole numbers
stay whole as far as 64 bits with a sign go, and are rounded beyond.

`decode_exactly` is the main statement. Trying the kinds of value one after the other and going by
the kind of the tree both give that value, and a value that is written is read back as itself.
-/

namespace CaseIntake

namespace Binary64

/-- The number for a whole number: the nearest one, as long as the whole number is not beyond all of
them. -/
structure IsOfInt (n : Int) (x : Binary64) : Prop where
  sign : x.negative = decide (n < 0)
  rounds : (n.natAbs : ℚ) < overflowLimit → Rounds (n < 0) n.natAbs x

theorem isOfInt (n : Int) : IsOfInt n (ofInt n) := by
  refine ⟨rfl, fun hlimit => ?_⟩
  have hround := isRounding_ofRatio false n.natAbs one_pos
  rw [Nat.cast_one, div_one] at hround
  obtain ⟨x, hx⟩ := hround.exists_rounds hlimit
  rw [ofInt, ofNat, hround.eq_some_iff.2 hx]
  exact ⟨⟨hx.nearest, hx.even⟩, rfl, hx.finite⟩

end Binary64

namespace Value

/-- What a tree is as a value. Of several members with one key the last counts. -/
inductive IsReadAs : Json → Value → Prop where
  | null : IsReadAs .null .null
  | bool {b : Bool} : IsReadAs (.bool b) (.bool b)
  | whole {i : Int64} : IsReadAs (.int i.toInt) (.int i)
  | beyond {n : Int} {x : Binary64} : n < Int64.minValue.toInt ∨ Int64.maxValue.toInt < n →
      Binary64.IsOfInt n x → IsReadAs (.int n) (.float x)
  | float {x : Binary64} : IsReadAs (.float x) (.float x)
  | string {s : String} : IsReadAs (.string s) (.string s)
  | list {items : List Json} {values : List Value} : List.Forall₂ IsReadAs items values →
      IsReadAs (.array items) (.list values)
  | map {members : List (String × Json)} {entries : List (String × Value)} : Ascending entries →
      (∀ key, Option.Rel IsReadAs (Json.lookupLast key members) (findEntry key entries)) →
      IsReadAs (.object members) (.map entries)

theorem isReadAs_ofInt (n : Int) : IsReadAs (.int n) (ofInt n) := by
  rw [ofInt]
  split
  · rename_i i hi
    rw [Word.int64?_eq_some_iff.1 hi]
    exact .whole
  · rename_i hnone
    exact .beyond (Word.int64?_eq_none_iff.1 hnone) (Binary64.isOfInt n)

mutual

/-- Going by the kind of the tree gives the value that the tree is. -/
theorem isReadAs_ofJson : ∀ j : Json, IsReadAs j (ofJson j)
  | .null => .null
  | .bool _ => .bool
  | .int n => isReadAs_ofInt n
  | .float _ => .float
  | .string _ => .string
  | .array items => by
    rw [ofJson]
    exact .list (isReadAs_ofJsonItems items)
  | .object members => by
    rw [ofJson]
    refine .map (ascending_sortEntries _) fun key => ?_
    have hmembers := isReadAs_ofJsonMembers members
    rw [findEntry_sortEntries, Json.ofJsonMembers_eq_map, ← List.map_reverse, findEntry_map,
      ← Json.lookupLast_eq_findEntry]
    cases hfound : Json.lookupLast key members with
    | none => exact .none
    | some j =>
      rw [Json.lookupLast_eq_findEntry] at hfound
      have hmem := List.mem_reverse.1 (mem_of_findEntry hfound)
      exact .some (hmembers (key, j) hmem)

theorem isReadAs_ofJsonItems :
    ∀ items : List Json, List.Forall₂ IsReadAs items (ofJsonItems items)
  | [] => .nil
  | j :: rest => .cons (isReadAs_ofJson j) (isReadAs_ofJsonItems rest)

theorem isReadAs_ofJsonMembers :
    ∀ members : List (String × Json), ∀ m ∈ members, IsReadAs m.2 (ofJson m.2)
  | [] => by simp
  | (_, j) :: rest => List.forall_mem_cons.2 ⟨isReadAs_ofJson j, isReadAs_ofJsonMembers rest⟩

end

/-- Every tree is read as one value, whether the kinds are tried one after the other or the kind of
the tree decides, and a value that is written is read back as itself in both ways. -/
theorem decode_exactly :
    (∀ j, ∃ v, decode j = .ok v ∧ ofJson j = v ∧ IsReadAs j v) ∧
      ∀ v, v.Ordered → decode v.toJson = .ok v ∧ ofJson v.toJson = v := by
  refine ⟨fun j => ⟨ofJson j, decode_eq_ok j, rfl, isReadAs_ofJson j⟩, fun v hv => ?_⟩
  have hback := ofJson_toJson v hv
  exact ⟨by rw [decode_eq_ok, hback], hback⟩

/-- A whole floating-point number, the largest word, and nothing in a list and in a map. -/
def wholeNumbers : Value :=
  .map [("n", .list [.float (Binary64.ofInt 5), .int Int64.maxValue, .list [], .map []])]

theorem decode_exactly_wholeNumbers :
    wholeNumbers.Ordered ∧ decode wholeNumbers.toJson = .ok wholeNumbers ∧
      ofJson wholeNumbers.toJson = wholeNumbers := by
  have hordered : wholeNumbers.Ordered := by
    simp [wholeNumbers, Ordered, OrderedItems, OrderedEntries, Ascending]
  exact ⟨hordered, decode_exactly.2 wholeNumbers hordered⟩

example : decode (.array [.int 9223372036854775807, .int 9223372036854775808]) =
    .ok (.list [.int Int64.maxValue, .float ⟨false, 4503599627370496, 11, by decide⟩]) := by
  decide +kernel

end Value
end CaseIntake
