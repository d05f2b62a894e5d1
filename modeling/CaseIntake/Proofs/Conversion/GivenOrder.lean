import CaseIntake.Proofs.Conversion.CaseByCase
import CaseIntake.Proofs.Conversion.Collect
import CaseIntake.Proofs.Validation.GivenOrder
import Mathlib.Data.List.Forall2

/-!
# CaseIntake.Proofs.Conversion.GivenOrder

The order in which a case declares its variables does not matter: `given_order_irrelevant`.

Variables with different names become the same inputs in any order (`inputsOfTest_of_perm`). If two
share a name, the case is skipped in any order; which of several repeated names the reason tells
depends on it (`SkipReason.Alike`).
-/

namespace CaseIntake

/-- The same reason, up to the variable that is declared twice. -/
inductive SkipReason.Alike : SkipReason → SkipReason → Prop where
  | same {reason : SkipReason} : Alike reason reason
  | declaredTwice {a b : String} : Alike (.declaredTwice a) (.declaredTwice b)

/-- The same case, with its variables in some order. -/
inductive TestCase.GivenReordered (c : TestCase) : TestCase → Prop where
  | given {given : List Variable} : given.Perm c.given → GivenReordered c { c with given := given }

theorem TestCase.GivenReordered.refl (c : TestCase) : c.GivenReordered c :=
  .given (.refl c.given)

namespace Conversion

open Validation

/-- Both conversions succeed or both fail, with the same specifications up to their identifiers and
the same cases skipped. -/
inductive SameOutcome : Except IngestError Conversion → Except IngestError Conversion → Prop where
  | ok {c d : Conversion} : c.anonymous.specs = d.anonymous.specs →
      List.Forall₂ (SkippedFor SkipReason.Alike) c.skipped d.skipped → SameOutcome (.ok c) (.ok d)
  | error {xs ys : List Skip} : List.Forall₂ (SkippedFor SkipReason.Alike) xs ys →
      SameOutcome (.error (.noCasesConverted xs)) (.error (.noCasesConverted ys))

/-! ## The inputs of a case -/

theorem exists_of_declareAll_eq_error {given : List Variable} {d : Dict Value}
    {reason : SkipReason} (h : declareAll given d = .error reason) :
    ∃ name, reason = .declaredTwice name := by
  induction given generalizing d with
  | nil => cases h
  | cons v rest ih =>
    rw [declareAll] at h
    split at h
    · exact ⟨v.name, (Except.error.inj h).symm⟩
    · exact ih h

/-- Entries that keep the names of what they are made from keep them in order. -/
theorem map_fst_filterMap_sublist {α β : Type} {f : α → Option (String × β)} {nameOf : α → String}
    (h : ∀ x e, f x = some e → e.1 = nameOf x) (xs : List α) :
    ((xs.filterMap f).map Prod.fst).Sublist (xs.map nameOf) := by
  induction xs with
  | nil => exact .slnil
  | cons x rest ih =>
    rw [List.map_cons]
    cases hx : f x with
    | none =>
      rw [List.filterMap_cons_none hx]
      exact ih.cons _
    | some e =>
      rw [List.filterMap_cons_some hx, List.map_cons, h x e hx]
      exact ih.cons_cons _

section Permuted

variable {given given' : List Variable} (hperm : given'.Perm given)
  (hnd : (given.map Variable.name).Nodup)

include hperm hnd

theorem table_of_perm : Variable.table given' = Variable.table given :=
  Dict.ofList_perm (hperm.map Variable.entry) (by rwa [Variable.map_fst_entry])

theorem hints_of_perm : hints given' = hints given := by
  refine Dict.ofList_perm (hperm.filterMap _) (hnd.sublist (map_fst_filterMap_sublist ?_ given))
  intro v e he
  split at he
  · cases he
  · split at he
    · cases he
    · rw [← Option.some.inj he]

end Permuted

theorem inputsOfTest_of_repeated {c : TestCase} (h : ¬(c.given.map Variable.name).Nodup) :
    ∃ name, inputsOfTest c = .error (.declaredTwice name) := by
  rw [inputsOfTest]
  cases hvalues : declareAll c.given .empty with
  | ok values => exact absurd (nodup_of_declareAll hvalues).1 h
  | error reason =>
    obtain ⟨name, rfl⟩ := exists_of_declareAll_eq_error hvalues
    exact ⟨name, rfl⟩

theorem inputsOfTest_of_perm {c d : TestCase} (hperm : d.given.Perm c.given)
    (haction : d.action = c.action) :
    Related Eq SkipReason.Alike (inputsOfTest c) (inputsOfTest d) := by
  have hnames : (d.given.map Variable.name).Nodup ↔ (c.given.map Variable.name).Nodup :=
    (hperm.map Variable.name).nodup_iff
  by_cases hnd : (c.given.map Variable.name).Nodup
  · have hsame : inputsOfTest d = inputsOfTest c := by
      rw [inputsOfTest, inputsOfTest, declareAll_eq_ok hnd, declareAll_eq_ok (hnames.2 hnd),
        table_of_perm hperm hnd, hints_of_perm hperm hnd, haction]
    rw [hsame]
    cases inputsOfTest c with
    | ok _ => exact .ok rfl
    | error _ => exact .error .same
  · obtain ⟨a, ha⟩ := inputsOfTest_of_repeated hnd
    obtain ⟨b, hb⟩ := inputsOfTest_of_repeated (hnames.not.2 hnd)
    rw [ha, hb]
    exact .error .declaredTwice

theorem ofTest_of_givenReordered (ctx : Context) {c d : TestCase} (h : c.GivenReordered d)
    (id id' : String) :
    Related (fun a b => a.anonymous = b.anonymous) SkipReason.Alike (ofTest ctx id c)
      (ofTest ctx id' d) := by
  obtain ⟨hperm⟩ := h
  have hinputs := inputsOfTest_of_perm (d := { c with given := _ }) hperm rfl
  rw [ofTest, ofTest]
  generalize inputsOfTest c = x at hinputs ⊢
  generalize inputsOfTest _ = y at hinputs ⊢
  cases hinputs with
  | ok hsame =>
    obtain rfl := hsame
    exact .ok rfl
  | error halike => exact .error halike

/-! ## The conversion of a suite -/

theorem sameOutcome_accept {c d : Conversion}
    (hspecs : List.Forall₂ (fun a b => a.anonymous = b.anonymous) c.specs d.specs)
    (hskipped : List.Forall₂ (SkippedFor SkipReason.Alike) c.skipped d.skipped) :
    SameOutcome c.accept d.accept := by
  have hsame : c.anonymous.specs = d.anonymous.specs := by
    rw [anonymous, anonymous, ← List.forall₂_eq_eq_eq]
    exact List.forall₂_map_left_iff.2 (List.forall₂_map_right_iff.2 hspecs)
  obtain ⟨specs, skipped⟩ := c
  obtain ⟨specs', skipped'⟩ := d
  cases hspecs with
  | nil => exact .error hskipped
  | cons _ _ => exact .ok hsame hskipped

theorem forall₂_set {α : Type} {R : α → α → Prop} (hrefl : ∀ x, R x x) {xs : List α} {i : Nat}
    {x y : α} (hx : xs[i]? = some x) (hxy : R x y) : List.Forall₂ R xs (xs.set i y) := by
  induction xs generalizing i with
  | nil => cases hx
  | cons first rest ih =>
    cases i with
    | zero =>
      obtain rfl := Option.some.inj hx
      exact .cons hxy (List.forall₂_same.2 fun z _ => hrefl z)
    | succ i => exact .cons (hrefl first) (ih hx)

theorem convert_of_perm {s : Suite} {i : Nat} {c : TestCase} {given : List Variable}
    (hc : s.tests[i]? = some c) (hperm : given.Perm c.given) (o : Options) (target : Target)
    (ids ids' : Nat → String) :
    SameOutcome (s.convert ids target o)
      ((s.withTest i { c with given := given }).convert ids' target o) := by
  have hname (x y : TestCase) (h : x.GivenReordered y) : x.name = y.name := by
    obtain ⟨_⟩ := h
    rfl
  obtain ⟨hspecs, hskipped⟩ := related_collect hname (fun _ _ h => ofTest_of_givenReordered _ h)
    (forall₂_set .refl hc (.given hperm)) ids ids' 0
  exact sameOutcome_accept hspecs hskipped

/-- With the variables of a case in another order a suite is as valid as before, and nothing changes
in what is said of other cases, of the call and of the checks. The same cases are skipped, and the
others become the same specifications up to their identifiers. -/
theorem given_order_irrelevant {s : Suite} {i : Nat} {c : TestCase} {given : List Variable}
    (hc : s.tests[i]? = some c) (hperm : given.Perm c.given) (o : Options) (target : Target)
    (ids ids' : Nat → String) :
    let t := s.withTest i { c with given := given }
    (t.validate o).valid = (s.validate o).valid ∧
      (∀ j ≠ i, (t.validate o).under (element "tests" j ++ "/") =
        (s.validate o).under (element "tests" j ++ "/")) ∧
      (∀ part ∈ ["/when", "/then"], (t.validate o).under (element "tests" i ++ part) =
        (s.validate o).under (element "tests" i ++ part)) ∧
      SameOutcome (s.convert ids target o) (t.convert ids' target o) :=
  ⟨valid_of_perm hc hperm o,
    fun _ hne => under_of_perm hc hperm o (avoids_otherCase o hne),
    fun _ hpart => under_of_perm hc hperm o (avoids_otherPart o i hpart),
    convert_of_perm hc hperm o target ids ids'⟩

/-- Two names are declared twice. Backwards the other one of them is found first. -/
theorem given_order_irrelevant_backwards :
    let a := Variable.new "a" (.int 1) "int"
    let b := Variable.new "b" .null "string"
    let c : TestCase := ⟨"n", none, [a, ⟨"a", none, none⟩, b, b], ⟨"F($b, $d)", ["a", "d"]⟩,
      [.new "nil" "result" none], []⟩
    let s : Suite := ⟨"F", none, [{ c with given := [a, ⟨"d", none, none⟩] }, c]⟩
    let t := s.withTest 1 { c with given := c.given.reverse }
    (t.validate .standard).valid = (s.validate .standard).valid ∧
      (t.validate .standard).under (element "tests" 1 ++ "/when") =
        (s.validate .standard).under (element "tests" 1 ++ "/when") ∧
      SameOutcome (s.convert (fun _ => "1") (.function "F") .standard)
        (t.convert (fun _ => "2") (.function "F") .standard) ∧
      skipsOf (s.convert (fun _ => "1") (.function "F") .standard) =
        [⟨1, "n", .declaredTwice "a"⟩] ∧
      skipsOf (t.convert (fun _ => "2") (.function "F") .standard) =
        [⟨1, "n", .declaredTwice "b"⟩] := by
  intro a b c s t
  have hc : s.tests[1]? = some c := rfl
  obtain ⟨hvalid, -, hparts, hconvert⟩ := given_order_irrelevant hc (List.reverse_perm c.given)
    .standard (.function "F") (fun _ => "1") (fun _ => "2")
  exact ⟨hvalid, hparts "/when" (.head _), hconvert, by decide +kernel, by decide +kernel⟩

end Conversion
end CaseIntake
