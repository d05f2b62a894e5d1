import CaseIntake.Validation

/-!
# CaseIntake.Proofs.Validation.Place

The places of a suite that an error can be about, their order in the document, and their paths.
Different places have different paths (`Place.path_inj`).
-/

namespace CaseIntake
namespace Validation

/-- A place in one case. Variables, arguments and checks are counted from zero. -/
inductive CasePlace where
  | name
  | variableName (j : Nat)
  | variableHint (j : Nat)
  | call
  | arg (k : Nat)
  | checks
  | checkType (k : Nat)
  | checkActual (k : Nat)
  | checkExpected (k : Nat)
deriving DecidableEq

inductive Place where
  | functionName
  | tests
  | inCase (i : Nat) (place : CasePlace)
deriving DecidableEq

/-- The path from the case on. -/
def CasePlace.path : CasePlace → String
  | .name => "/name"
  | .variableName j => element "/given" j ++ "/name"
  | .variableHint j => element "/given" j ++ "/type"
  | .call => "/when/call"
  | .arg k => element "/when/args" k
  | .checks => "/then"
  | .checkType k => element "/then" k ++ "/type"
  | .checkActual k => element "/then" k ++ "/actual"
  | .checkExpected k => element "/then" k ++ "/expected"

def Place.path : Place → String
  | .functionName => "function_name"
  | .tests => "tests"
  | .inCase i place => element "tests" i ++ place.path

/-- Ranks in lexicographic order put the places in the order of the document. -/
def CasePlace.rank : CasePlace → List Nat
  | .name => [0]
  | .variableName j => [1, j, 0]
  | .variableHint j => [1, j, 1]
  | .call => [2]
  | .arg k => [3, k]
  | .checks => [4]
  | .checkType k => [5, k, 0]
  | .checkActual k => [5, k, 1]
  | .checkExpected k => [5, k, 2]

/-- The part of the case: its name, the variables, the call, the arguments, or the checks. -/
def CasePlace.part : CasePlace → Nat
  | .name => 0
  | .variableName _ | .variableHint _ => 1
  | .call => 2
  | .arg _ => 3
  | .checks | .checkType _ | .checkActual _ | .checkExpected _ => 4

theorem CasePlace.rank_lt_of_part {p q : CasePlace} (h : p.part < q.part) : p.rank < q.rank := by
  cases p <;> cases q <;> simp [part, rank, List.cons_lt_cons_iff] at h ⊢

def Place.rank : Place → List Nat
  | .functionName => [0]
  | .tests => [1]
  | .inCase i place => 2 :: i :: place.rank

def Place.Before (p q : Place) : Prop :=
  p.rank < q.rank

theorem Place.Before.ne {p q : Place} (h : p.Before q) : p ≠ q := by
  rintro rfl
  exact List.lt_irrefl _ h

theorem Place.before_inCase {i j : Nat} {p q : CasePlace} :
    (Place.inCase i p).Before (.inCase j q) ↔ i < j ∨ i = j ∧ p.rank < q.rank := by
  simp [Place.Before, Place.rank, List.cons_lt_cons_iff]

/-! ## Paths -/

theorem element_append (a b : String) (k : Nat) : element (a ++ b) k = a ++ element b k := by
  simp only [element, String.append_assoc]

theorem toDigits_inj {i j : Nat} : Nat.toDigits 10 i = Nat.toDigits 10 j ↔ i = j := by
  refine ⟨fun h => ?_, fun h => h ▸ rfl⟩
  rw [← Nat.ofDigitChars_ten_toDigits (n := i), h, Nat.ofDigitChars_ten_toDigits]

/-- The digits of a number do not run into what follows the bracket. -/
theorem digits_bracket_inj {i j : Nat} {as bs : List Char} :
    Nat.toDigits 10 i ++ ']' :: as = Nat.toDigits 10 j ++ ']' :: bs ↔ i = j ∧ as = bs := by
  have hdigits (n : Nat) : ∀ c ∈ Nat.toDigits 10 n, (c != ']') = true := by
    intro c hc
    have hd : c.isDigit = true := Nat.isDigit_of_mem_toDigits (by decide) (by decide) hc
    rw [bne_iff_ne]
    rintro rfl
    exact absurd hd (by decide)
  have hspan (n : Nat) (cs : List Char) :
      (Nat.toDigits 10 n ++ ']' :: cs).takeWhile (· != ']') = Nat.toDigits 10 n := by
    rw [List.takeWhile_append_of_pos (hdigits n)]
    simp
  constructor
  · intro h
    have hij : Nat.toDigits 10 i = Nat.toDigits 10 j := by rw [← hspan i as, h, hspan]
    rw [hij, List.append_cancel_left_eq, List.cons.injEq] at h
    exact ⟨toDigits_inj.1 hij, h.2⟩
  · rintro ⟨rfl, rfl⟩
    rfl

theorem toList_element (path : String) (k : Nat) :
    (element path k).toList = path.toList ++ '[' :: (Nat.toDigits 10 k ++ [']']) := by
  simp [element, Nat.toString_eq_repr, Nat.toList_repr]

theorem element_append_inj {path a b : String} {i j : Nat} :
    element path i ++ a = element path j ++ b ↔ i = j ∧ a = b := by
  simp only [← String.toList_inj, String.toList_append, toList_element, List.append_assoc,
    List.append_cancel_left_eq, List.cons_append, List.cons.injEq, true_and, List.nil_append,
    digits_bracket_inj]

/-- Fixed text tells places of different kinds apart, and the index those of one kind. -/
theorem CasePlace.path_inj {p q : CasePlace} : p.path = q.path ↔ p = q := by
  rw [← String.toList_inj]
  cases p <;> cases q <;>
    simp [CasePlace.path, toList_element, toDigits_inj, digits_bracket_inj]

theorem Place.path_inj {p q : Place} : p.path = q.path ↔ p = q := by
  cases p with
  | functionName => cases q <;> simp [← String.toList_inj, Place.path, toList_element]
  | tests => cases q <;> simp [← String.toList_inj, Place.path, toList_element]
  | inCase i p =>
    cases q with
    | functionName => simp [← String.toList_inj, Place.path, toList_element]
    | tests => simp [← String.toList_inj, Place.path, toList_element]
    | inCase j q =>
      rw [Place.path, Place.path, element_append_inj, CasePlace.path_inj, Place.inCase.injEq]

end Validation
end CaseIntake
