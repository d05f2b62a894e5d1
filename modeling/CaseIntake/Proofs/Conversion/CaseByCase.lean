import CaseIntake.Proofs.Conversion.Identifiers
import CaseIntake.Proofs.Conversion.Inputs
import Mathlib.Data.List.Basic

/-!
# CaseIntake.Proofs.Conversion.CaseByCase

No case spoils another: `convert_caseByCase`.

* `CaseByCase`: a conversion of lists of cases that does to each case what it does to that case
  alone.
* `caseByCase_collect`: whatever collects the outcomes of single cases is one, provided that an
  outcome does not depend on the identifier, apart from the identifier itself.
* `exists_ofTest_eq_error_iff`: which canonical cases are skipped.
-/

namespace CaseIntake
namespace Conversion

/-- The specifications of a conversion without their identifiers. One that fails has none. -/
def specsOf : Except IngestError Conversion → List Spec
  | .ok c => c.anonymous.specs
  | .error _ => []

def skipsOf : Except IngestError Conversion → List Skip
  | .ok c => c.skipped
  | .error e => e.skipped

/-- Each case of a list is converted, or skipped, as if it were alone. Where identifiers come from
makes no difference. -/
structure CaseByCase {α : Type} (nameOf : α → String)
    (convert : String → α → Except SkipReason Spec)
    (run : (Nat → String) → List α → Except IngestError Conversion) : Prop where
  converts : ∀ ids c spec, convert (ids 0) c = .ok spec → run ids [c] = .ok ⟨[spec], []⟩
  refuses : ∀ ids c reason, convert (ids 0) c = .error reason →
    run ids [c] = .error (.noCasesConverted [⟨0, nameOf c, reason⟩])
  specs : ∀ ids ids' cs, specsOf (run ids cs) = cs.flatMap fun c => specsOf (run ids' [c])
  append : ∀ ids ids' xs ys,
    specsOf (run ids (xs ++ ys)) = specsOf (run ids' xs) ++ specsOf (run ids' ys)
  skips : ∀ ids ids' cs k name reason, ⟨k, name, reason⟩ ∈ skipsOf (run ids cs) ↔
    ∃ c, cs[k]? = some c ∧ ⟨0, name, reason⟩ ∈ skipsOf (run ids' [c])
  ascending : ∀ ids cs, (skipsOf (run ids cs)).Pairwise fun s t => s.index < t.index
  lengths : ∀ ids cs, (specsOf (run ids cs)).length + (skipsOf (run ids cs)).length = cs.length
  fails : ∀ ids ids' cs,
    (∃ e, run ids cs = .error e) ↔ ∀ c ∈ cs, ∃ e, run ids' [c] = .error e
  counts : ∀ ids cs e, run ids cs = .error e →
    ∃ skipped, e = .noCasesConverted skipped ∧ skipped.length = cs.length

/-! ## Collecting outcomes -/

section Outcomes

variable {α : Type} (nameOf : α → String) (outcome : α → Except SkipReason Spec)
  (ids : Nat → String)

theorem specs_collect (k : Nat) (cs : List α) :
    (collect nameOf (fun _ => outcome) ids k cs).specs =
      cs.filterMap fun c => (outcome c).toOption := by
  induction cs generalizing k with
  | nil => rfl
  | cons c cs ih =>
    rw [collect]
    cases hc : outcome c with
    | error reason => rw [List.filterMap_cons_none (by rw [hc]; rfl), ← ih (k + 1), add]
    | ok spec => rw [List.filterMap_cons_some (by rw [hc]; rfl), ← ih (k + 1), add]

theorem mem_skipped_collect {i k : Nat} {name : String} {reason : SkipReason} {cs : List α} :
    ⟨i, name, reason⟩ ∈ (collect nameOf (fun _ => outcome) ids k cs).skipped ↔
      ∃ j c, cs[j]? = some c ∧ i = k + j ∧ name = nameOf c ∧ outcome c = .error reason := by
  induction cs generalizing k with
  | nil => simp [collect]
  | cons c cs ih =>
    have hsplit : (∃ j d, (c :: cs)[j]? = some d ∧ i = k + j ∧ name = nameOf d ∧
          outcome d = .error reason) ↔
        (i = k ∧ name = nameOf c ∧ outcome c = .error reason) ∨
          ∃ j d, cs[j]? = some d ∧ i = k + 1 + j ∧ name = nameOf d ∧ outcome d = .error reason := by
      constructor
      · rintro ⟨j, d, hd, hi, hrest⟩
        cases j with
        | zero =>
          obtain rfl := Option.some.inj hd
          exact Or.inl ⟨hi, hrest⟩
        | succ j => exact Or.inr ⟨j, d, hd, by omega, hrest⟩
      · rintro (⟨hi, hrest⟩ | ⟨j, d, hd, hi, hrest⟩)
        · exact ⟨0, c, rfl, hi, hrest⟩
        · exact ⟨j + 1, d, hd, by omega, hrest⟩
    rw [hsplit, ← ih, collect]
    cases hc : outcome c with
    | error first => simp [add, eq_comm]
    | ok spec => simp [add]

theorem pairwise_skipped_collect (k : Nat) (cs : List α) :
    (collect nameOf (fun _ => outcome) ids k cs).skipped.Pairwise fun s t => s.index < t.index := by
  induction cs generalizing k with
  | nil => exact List.Pairwise.nil
  | cons c cs ih =>
    rw [collect]
    cases outcome c with
    | ok spec => exact ih (k + 1)
    | error reason =>
      refine List.Pairwise.cons (fun later hlater => ?_) (ih (k + 1))
      obtain ⟨j, _, _, hindex, _⟩ := (mem_skipped_collect nameOf outcome ids).1 hlater
      change k < later.index
      omega

theorem length_collect (k : Nat) (cs : List α) :
    (collect nameOf (fun _ => outcome) ids k cs).specs.length +
      (collect nameOf (fun _ => outcome) ids k cs).skipped.length = cs.length := by
  induction cs generalizing k with
  | nil => rfl
  | cons c cs ih =>
    have hlater := ih (k + 1)
    rw [collect, List.length_cons]
    cases outcome c <;> simp only [add, List.length_cons] <;> omega

end Outcomes

/-! ## The conversion that is handed on -/

theorem specsOf_accept (c : Conversion) : specsOf c.accept = c.anonymous.specs := by
  rw [accept]
  split
  · rename_i hempty
    rw [List.isEmpty_iff] at hempty
    rw [specsOf, anonymous, hempty, List.map_nil]
  · rfl

theorem skipsOf_accept (c : Conversion) : skipsOf c.accept = c.skipped := by
  rw [accept]
  split <;> rfl

theorem accept_eq_error_iff {c : Conversion} {e : IngestError} :
    c.accept = .error e ↔ c.anonymous.specs = [] ∧ e = .noCasesConverted c.skipped := by
  rw [accept, anonymous, List.map_eq_nil_iff, ← List.isEmpty_iff]
  cases c.specs.isEmpty with
  | true => simp [eq_comm]
  | false => simp

section Accept

variable {α : Type} (nameOf : α → String) {convert : String → α → Except SkipReason Spec}
  (h : ∀ id id' c, (convert id c).map Spec.anonymous = (convert id' c).map Spec.anonymous)

include h

/-- Without identifiers, what is collected are the outcomes without identifiers. -/
theorem anonymous_collect (ids : Nat → String) (k : Nat) (cs : List α) :
    (collect nameOf convert ids k cs).anonymous =
      collect nameOf (fun _ c => (convert "" c).map Spec.anonymous) ids k cs := by
  induction cs generalizing k with
  | nil => rfl
  | cons c cs ih => rw [collect, collect, add_anonymous, ih, h _ ""]

theorem specsOf_collect (ids : Nat → String) (cs : List α) :
    specsOf (collect nameOf convert ids 0 cs).accept =
      cs.filterMap fun c => ((convert "" c).map Spec.anonymous).toOption := by
  rw [specsOf_accept, anonymous_collect nameOf h, specs_collect]

theorem skipsOf_collect (ids : Nat → String) (cs : List α) :
    skipsOf (collect nameOf convert ids 0 cs).accept =
      (collect nameOf (fun _ c => (convert "" c).map Spec.anonymous) ids 0 cs).skipped := by
  rw [skipsOf_accept, ← anonymous_collect nameOf h, anonymous]

theorem lengths_collect (ids : Nat → String) (cs : List α) :
    (specsOf (collect nameOf convert ids 0 cs).accept).length +
      (skipsOf (collect nameOf convert ids 0 cs).accept).length = cs.length := by
  rw [specsOf_accept, anonymous_collect nameOf h, skipsOf_collect nameOf h]
  exact length_collect nameOf _ ids 0 cs

theorem exists_collect_eq_error_iff (ids : Nat → String) (cs : List α) :
    (∃ e, (collect nameOf convert ids 0 cs).accept = .error e) ↔
      ∀ c ∈ cs, ((convert "" c).map Spec.anonymous).toOption = none := by
  simp only [accept_eq_error_iff, exists_and_left, exists_eq, and_true, anonymous_collect nameOf h,
    specs_collect, List.filterMap_eq_nil_iff]

theorem mem_skipsOf_collect {ids : Nat → String} {cs : List α} {k : Nat} {name : String}
    {reason : SkipReason} :
    ⟨k, name, reason⟩ ∈ skipsOf (collect nameOf convert ids 0 cs).accept ↔
      ∃ c, cs[k]? = some c ∧ name = nameOf c ∧ convert "" c = .error reason := by
  have herror (c : α) :
      (convert "" c).map Spec.anonymous = .error reason ↔ convert "" c = .error reason := by
    cases convert "" c <;> simp [Except.map]
  rw [skipsOf_collect nameOf h, mem_skipped_collect]
  simp only [Nat.zero_add, herror]
  constructor
  · rintro ⟨j, c, hc, rfl, hrest⟩
    exact ⟨c, hc, hrest⟩
  · rintro ⟨c, hc, hrest⟩
    exact ⟨k, c, hc, rfl, hrest⟩

theorem caseByCase_collect :
    CaseByCase nameOf convert fun ids cs => (collect nameOf convert ids 0 cs).accept := by
  refine ⟨?converts, ?refuses, ?specs, ?append, ?skips, ?ascending, lengths_collect nameOf h,
    ?fails, ?counts⟩
  case converts =>
    intro ids c spec hspec
    rw [collect_singleton hspec]
    exact accept_eq_ok (List.cons_ne_nil _ _)
  case refuses =>
    intro ids c reason hreason
    rw [collect, hreason]
    rfl
  case specs =>
    intro ids ids' cs
    have halone (c : α) : specsOf (collect nameOf convert ids' 0 [c]).accept =
        ((convert "" c).map Spec.anonymous).toOption.toList := by
      rw [specsOf_collect nameOf h]
      cases hc : convert "" c <;> simp [hc, Except.map, Except.toOption]
    simp only [specsOf_collect nameOf h ids, halone]
    exact List.filterMap_eq_flatMap_toList _ _
  case append =>
    intro ids ids' xs ys
    rw [specsOf_collect nameOf h, specsOf_collect nameOf h, specsOf_collect nameOf h,
      List.filterMap_append]
  case skips =>
    intro ids ids' cs k name reason
    simp only [mem_skipsOf_collect nameOf h]
    constructor
    · rintro ⟨c, hc, hrest⟩
      exact ⟨c, hc, c, rfl, hrest⟩
    · rintro ⟨c, hc, d, hd, hrest⟩
      obtain rfl : c = d := Option.some.inj hd
      exact ⟨c, hc, hrest⟩
  case ascending =>
    intro ids cs
    rw [skipsOf_collect nameOf h]
    exact pairwise_skipped_collect nameOf _ ids 0 cs
  case fails =>
    intro ids ids' cs
    simp only [exists_collect_eq_error_iff nameOf h, List.mem_singleton, forall_eq]
  case counts =>
    intro ids cs e he
    have hlength := lengths_collect nameOf h ids cs
    rw [he, specsOf, List.length_nil, Nat.zero_add] at hlength
    obtain ⟨-, rfl⟩ := accept_eq_error_iff.1 he
    exact ⟨_, rfl, hlength⟩

end Accept

/-! ## Canonical cases -/

/-- A canonical case is skipped iff two of its variables share a name, or an argument refers to none
of them. -/
theorem exists_ofTest_eq_error_iff (ctx : Context) (id : String) (c : TestCase) :
    (∃ reason, ofTest ctx id c = .error reason) ↔
      ¬(c.given.map Variable.name).Nodup ∨
        ∃ arg ∈ c.action.args, ∀ v ∈ c.given, v.name ≠ Reference.name arg := by
  have hskipped : (∃ reason, ofTest ctx id c = .error reason) ↔
      ¬∃ inputs, inputsOfTest c = .ok inputs := by
    rw [ofTest]
    cases inputsOfTest c <;> simp
  rw [hskipped, exists_inputsOfTest_iff, not_and_or]
  simp only [not_forall, not_exists, not_and, exists_prop, ne_eq]

/-- Canonical and simplified cases are converted case by case. A canonical case is skipped iff two
of its variables share a name, also an empty one, or an argument refers to none of them. -/
theorem convert_caseByCase (functionName : String) (description : Option String)
    (target : Target) (o : Options) :
    CaseByCase TestCase.name
        (ofTest ⟨target, if functionName = "" then target.functionName else functionName, o⟩)
        (fun ids tests => Suite.convert ⟨functionName, description, tests⟩ ids target o) ∧
      CaseByCase SimpleCase.name (ofSimple ⟨target, target.functionName, o⟩)
        (fun ids cases => SimpleCase.convertAll cases ids target o) ∧
      ∀ ids tests k,
        (∃ skip ∈ skipsOf (Suite.convert ⟨functionName, description, tests⟩ ids target o),
          skip.index = k) ↔
        ∃ c, tests[k]? = some c ∧
          (¬(c.given.map Variable.name).Nodup ∨
            ∃ arg ∈ c.action.args, ∀ v ∈ c.given, v.name ≠ Reference.name arg) := by
  let ctx : Context :=
    ⟨target, if functionName = "" then target.functionName else functionName, o⟩
  have hsuite : CaseByCase TestCase.name (ofTest ctx) fun ids tests =>
      Suite.convert ⟨functionName, description, tests⟩ ids target o :=
    caseByCase_collect TestCase.name (ofTest_anonymous ctx)
  refine ⟨hsuite, caseByCase_collect SimpleCase.name (ofSimple_anonymous _), fun ids tests k => ?_⟩
  have hskipped (name : String) (reason : SkipReason) :
      ⟨k, name, reason⟩ ∈
          skipsOf (Suite.convert ⟨functionName, description, tests⟩ ids target o) ↔
        ∃ c, tests[k]? = some c ∧ name = c.name ∧ ofTest ctx "" c = .error reason :=
    mem_skipsOf_collect TestCase.name (ofTest_anonymous ctx)
  simp only [← exists_ofTest_eq_error_iff ctx ""]
  constructor
  · rintro ⟨⟨_, name, reason⟩, hmem, rfl⟩
    obtain ⟨c, hc, -, hreason⟩ := (hskipped name reason).1 hmem
    exact ⟨c, hc, reason, hreason⟩
  · rintro ⟨c, hc, reason, hreason⟩
    exact ⟨_, (hskipped c.name reason).2 ⟨c, hc, rfl, hreason⟩, rfl⟩

end Conversion
end CaseIntake
