import CaseIntake.Ingest
import Mathlib.Data.List.Forall2

/-!
# CaseIntake.Proofs.Conversion.Collect

What collecting the conversions of a list of cases gives.

* `collect_of_converts`: if every case converts, nothing is lost.
* `exists_of_mem_collect`: every specification is the conversion of one of the cases.
* `collect_replace`: a case may be replaced by one of the same name with the same outcome.
* `related_collect`: two lists of cases that belong together in pairs give specifications and skipped
  cases that do; in `pairs_collect` the skipped cases are the same.
* `ingestSuite_eq_map`, `ingestCases_eq_map`: ingestion hands on what is collected.
* `ingest_of_refused`, `ingest_of_canonical`, `ingest_of_simplified`: the three ways a text can take.
-/

namespace CaseIntake
namespace Conversion

/-- If every case converts, none is skipped, and there is one specification for each case, in the
order of the cases. -/
theorem collect_of_converts {α : Type} (nameOf : α → String)
    {convert : String → α → Except SkipReason Spec} {ids : Nat → String} :
    ∀ (cs : List α) (k : Nat),
      (∀ i c, cs[i]? = some c → ∃ spec, convert (ids (k + i)) c = .ok spec) →
      ∃ specs, collect nameOf convert ids k cs = ⟨specs, []⟩ ∧ specs.length = cs.length ∧
        ∀ i c spec, cs[i]? = some c → specs[i]? = some spec → convert (ids (k + i)) c = .ok spec
  | [], _, _ => ⟨[], rfl, rfl, by simp⟩
  | c :: cs, k, h => by
    obtain ⟨spec, hspec⟩ := h 0 c rfl
    have hlater : ∀ i d, cs[i]? = some d → ∃ spec, convert (ids (k + 1 + i)) d = .ok spec := by
      intro i d hd
      simpa [Nat.add_comm, Nat.add_left_comm] using h (i + 1) d (by simpa using hd)
    obtain ⟨specs, hcollect, hlen, hspecs⟩ := collect_of_converts nameOf cs (k + 1) hlater
    refine ⟨spec :: specs, ?_, by simp [hlen], ?_⟩
    · rw [collect, hcollect]
      simp only [Nat.add_zero] at hspec
      rw [hspec, add]
    · intro i d s hd hs
      cases i with
      | zero =>
        simp only [List.getElem?_cons_zero, Option.some.injEq] at hd hs
        subst hd hs
        exact hspec
      | succ i =>
        have := hspecs i d s (by simpa using hd) (by simpa using hs)
        simpa [Nat.add_comm, Nat.add_left_comm] using this

/-- Whatever is skipped, a specification comes from a case. -/
theorem exists_of_mem_collect {α : Type} {nameOf : α → String}
    {convert : String → α → Except SkipReason Spec} {ids : Nat → String} {cs : List α} {k : Nat}
    {spec : Spec} (h : spec ∈ (collect nameOf convert ids k cs).specs) :
    ∃ id, ∃ c ∈ cs, convert id c = .ok spec := by
  induction cs generalizing k with
  | nil => cases h
  | cons c cs ih =>
    have hlater : spec ∈ (collect nameOf convert ids (k + 1) cs).specs →
        ∃ id, ∃ d ∈ c :: cs, convert id d = .ok spec := by
      intro hmem
      obtain ⟨id, d, hd, hspec⟩ := ih hmem
      exact ⟨id, d, List.mem_cons_of_mem c hd, hspec⟩
    rw [collect] at h
    cases hc : convert (ids k) c with
    | error reason =>
      rw [hc] at h
      exact hlater h
    | ok first =>
      rw [hc] at h
      rcases List.mem_cons.1 h with rfl | h
      · exact ⟨_, c, List.mem_cons_self, hc⟩
      · exact hlater h

theorem collect_singleton {α : Type} {nameOf : α → String}
    {convert : String → α → Except SkipReason Spec} {ids : Nat → String} {k : Nat} {c : α}
    {spec : Spec} (h : convert (ids k) c = .ok spec) :
    collect nameOf convert ids k [c] = ⟨[spec], []⟩ := by
  rw [collect, h]
  rfl

/-- A case counts only by its name and its outcome. -/
theorem collect_replace {α : Type} {nameOf : α → String}
    {convert : String → α → Except SkipReason Spec} {ids : Nat → String} {k : Nat} {c d : α}
    (hname : nameOf c = nameOf d) (hconvert : ∀ id, convert id c = convert id d)
    (before after : List α) :
    collect nameOf convert ids k (before ++ c :: after) =
      collect nameOf convert ids k (before ++ d :: after) := by
  induction before generalizing k with
  | nil => rw [List.nil_append, List.nil_append, collect, collect, hname, hconvert]
  | cons b before ih => rw [List.cons_append, List.cons_append, collect, collect, ih]

/-- Both succeed with results that belong together, or both fail for reasons that do. -/
inductive Related {ε α : Type} (Q : α → α → Prop) (S : ε → ε → Prop) :
    Except ε α → Except ε α → Prop where
  | ok {x y : α} : Q x y → Related Q S (.ok x) (.ok y)
  | error {e e' : ε} : S e e' → Related Q S (.error e) (.error e')

/-- Both succeed with results that belong together, or both fail for the same reason. -/
inductive Alike {ε α : Type} (Q : α → α → Prop) : Except ε α → Except ε α → Prop where
  | ok {x y : α} : Q x y → Alike Q (.ok x) (.ok y)
  | error {e : ε} : Alike Q (.error e) (.error e)

theorem Alike.imp {ε α : Type} {P Q : α → α → Prop} {x y : Except ε α} (h : Alike P x y)
    (hPQ : ∀ a b, P a b → Q a b) : Alike Q x y := by
  cases h with
  | ok hab => exact .ok (hPQ _ _ hab)
  | error => exact .error

theorem Alike.related {ε α : Type} {Q : α → α → Prop} {x y : Except ε α} (h : Alike Q x y) :
    Related Q Eq x y := by
  cases h with
  | ok hab => exact .ok hab
  | error => exact .error rfl

/-- The same case is skipped, for reasons that belong together. -/
structure SkippedFor (S : SkipReason → SkipReason → Prop) (s t : Skip) : Prop where
  index : s.index = t.index
  name : s.name = t.name
  reason : S s.reason t.reason

theorem SkippedFor.eq {s t : Skip} (h : SkippedFor Eq s t) : s = t := by
  obtain ⟨index, name, reason⟩ := s
  obtain ⟨rfl, rfl, rfl⟩ := h
  rfl

/-- Specifications that belong together in pairs, and the same cases skipped. -/
structure Pairs (Q : Spec → Spec → Prop) (c d : Conversion) : Prop where
  specs : List.Forall₂ Q c.specs d.specs
  skipped : c.skipped = d.skipped

/-- Cases that belong together, with outcomes that do, are collected to conversions that do. -/
theorem related_collect {α : Type} {nameOf : α → String}
    {convert : String → α → Except SkipReason Spec} {R : α → α → Prop} {Q : Spec → Spec → Prop}
    {S : SkipReason → SkipReason → Prop} (hname : ∀ c d, R c d → nameOf c = nameOf d)
    (hconvert : ∀ c d, R c d → ∀ id id', Related Q S (convert id c) (convert id' d))
    {cs ds : List α} (h : List.Forall₂ R cs ds) (ids ids' : Nat → String) (k : Nat) :
    List.Forall₂ Q (collect nameOf convert ids k cs).specs (collect nameOf convert ids' k ds).specs ∧
      List.Forall₂ (SkippedFor S) (collect nameOf convert ids k cs).skipped
        (collect nameOf convert ids' k ds).skipped := by
  induction h generalizing k with
  | nil => exact ⟨.nil, .nil⟩
  | @cons c d _ _ hcd _ ih =>
    obtain ⟨hspecs, hskipped⟩ := ih (k + 1)
    have houtcome := hconvert c d hcd (ids k) (ids' k)
    rw [collect, collect, hname c d hcd]
    generalize convert (ids k) c = x at houtcome
    generalize convert (ids' k) d = y at houtcome
    cases houtcome with
    | ok hspec => exact ⟨.cons hspec hspecs, hskipped⟩
    | error hreason => exact ⟨hspecs, .cons ⟨rfl, rfl, hreason⟩ hskipped⟩

/-- Cases that belong together in pairs, with outcomes that do, are collected to pairs. -/
theorem pairs_collect {α : Type} {nameOf : α → String}
    {convert : String → α → Except SkipReason Spec} {R : α → α → Prop} {Q : Spec → Spec → Prop}
    (hname : ∀ c d, R c d → nameOf c = nameOf d)
    (hconvert : ∀ c d, R c d → ∀ id id', Alike Q (convert id c) (convert id' d)) {cs ds : List α}
    (h : List.Forall₂ R cs ds) (ids ids' : Nat → String) (k : Nat) :
    Pairs Q (collect nameOf convert ids k cs) (collect nameOf convert ids' k ds) := by
  obtain ⟨hspecs, hskipped⟩ := related_collect hname
    (fun c d hcd id id' => (hconvert c d hcd id id').related) h ids ids' k
  exact ⟨hspecs, List.forall₂_eq_eq_eq ▸ hskipped.imp fun _ _ hsame => hsame.eq⟩

theorem alike_accept {Q : Spec → Spec → Prop} {c d : Conversion} (h : Pairs Q c d) :
    Alike (Pairs Q) c.accept d.accept := by
  obtain ⟨specs, skipped⟩ := c
  obtain ⟨specs', skipped'⟩ := d
  obtain ⟨hspecs, rfl⟩ := h
  cases hspecs with
  | nil => exact .error
  | cons hspec hrest => exact .ok ⟨.cons hspec hrest, rfl⟩

theorem accept_eq_ok {c : Conversion} (h : c.specs ≠ []) : c.accept = .ok c := by
  rw [accept, if_neg (by simpa using h)]

/-- Only a conversion with a specification is handed on, and it is handed on as it is. -/
theorem accept_map_eq_ok {c : Conversion} {f : Conversion → Ingested} {out : Ingested}
    (h : c.accept.map f = .ok out) : c.specs ≠ [] ∧ f c = out := by
  rw [accept] at h
  split at h
  · cases h
  · rename_i hne
    exact ⟨by simpa using hne, Except.ok.inj h⟩

end Conversion

section Ingestion

variable (ids : Nat → String) (target : Target) (o : Options) (shape : DocumentShape)

theorem ingestSuite_eq_map (s : Suite) :
    ingestSuite ids target o shape s =
      if (s.validate o).valid then
        (s.convert ids target o).map fun c => ⟨shape, c, (s.validate o).warnings⟩
      else .error (.invalid (s.validate o)) := by
  rw [ingestSuite]
  cases (s.validate o).valid with
  | false => rfl
  | true => cases s.convert ids target o <;> rfl

theorem ingestCases_eq_map (cases : List SimpleCase) :
    ingestCases ids target o shape cases =
      (SimpleCase.convertAll cases ids target o).map fun c => ⟨shape, c, []⟩ := by
  rw [ingestCases]
  cases SimpleCase.convertAll cases ids target o <;> rfl

end Ingestion

/-! ## From a text -/

section Document

variable {ids : Nat → String} {target : Target} {o : Options} {text : String}

theorem ingest_of_refused {r : Document.Refusal} (h : Document.resolve o text = .error r) :
    ingest ids target o text = .error (.malformed r) := by
  unfold ingest
  rw [h]

theorem ingest_of_canonical {shape : DocumentShape} {s : Suite}
    (h : Document.resolve o text = .ok ⟨shape, .canonical s⟩) :
    ingest ids target o text = ingestSuite ids target o shape (s.named target) := by
  unfold ingest
  rw [h]

theorem ingest_of_simplified {shape : DocumentShape} {cases : List SimpleCase}
    (h : Document.resolve o text = .ok ⟨shape, .simplified cases⟩) :
    ingest ids target o text = ingestCases ids target o shape cases := by
  unfold ingest
  rw [h]

end Document
end CaseIntake
