import CaseIntake.Proofs.Validation.Place

/-!
# CaseIntake.Proofs.Validation.Reports

`Reports path rank ds D`: the errors among the diagnostics `ds` are exactly the defects `D`, in the
order of their places.

A check reports its defects, two checks one after the other report the defects of both
(`Reports.append`), and a walk over a list reports the defects of every element (`Reports.walk`).
-/

namespace CaseIntake

namespace Diagnostic

@[simp] theorem only_append (severity : Severity) (xs ys : List Diagnostic) :
    only severity (xs ++ ys) = only severity xs ++ only severity ys := by
  simp [only]

theorem only_eq_nil {severity : Severity} {ds : List Diagnostic}
    (h : ∀ d ∈ ds, d.severity ≠ severity) : only severity ds = [] := by
  simpa [only] using h

end Diagnostic

namespace Validation

/-- Diagnostics that are no errors. -/
def Warnings (ds : List Diagnostic) : Prop :=
  ∀ d ∈ ds, d.severity = .warning

namespace Warnings

theorem nil : Warnings [] := by
  intro d hd
  cases hd

theorem warning (path message : String) (value : Option String) :
    Warnings [.warning path message value] := by
  intro d hd
  obtain rfl := List.mem_singleton.1 hd
  rfl

theorem ite {c : Prop} [Decidable c] {xs ys : List Diagnostic} (hx : Warnings xs)
    (hy : Warnings ys) : Warnings (if c then xs else ys) := by
  split
  · exact hx
  · exact hy

theorem flatMap {α : Type} {check : α → List Diagnostic} (h : ∀ x, Warnings (check x))
    (xs : List α) : Warnings (xs.flatMap check) := by
  intro d hd
  obtain ⟨x, _, hd⟩ := List.mem_flatMap.1 hd
  exact h x d hd

end Warnings

/-- What a reader of a report sees of an error, apart from its message. -/
def shown (e : Finding) : String × Option String :=
  (e.field, e.value)

/-- The errors among the diagnostics are exactly the defects, in the order of their places. -/
def Reports {P : Type} (path : P → String) (rank : P → List Nat) (ds : List Diagnostic)
    (D : P → Option String → Prop) : Prop :=
  ∃ found : List (P × Option String),
    (Diagnostic.only .error ds).map shown = found.map (fun d => (path d.1, d.2)) ∧
    (∀ place value, (place, value) ∈ found ↔ D place value) ∧
    found.Pairwise fun a b => rank a.1 < rank b.1

namespace Reports

variable {P : Type} {path : P → String} {rank : P → List Nat}

theorem congr {ds : List Diagnostic} {D D' : P → Option String → Prop}
    (h : Reports path rank ds D) (hD : ∀ place value, D place value ↔ D' place value) :
    Reports path rank ds D' := by
  obtain ⟨found, hmap, hmem, hord⟩ := h
  exact ⟨found, hmap, fun place value => (hmem place value).trans (hD place value), hord⟩

/-- No error is reported iff there is no defect. -/
theorem errors_eq_nil_iff {ds : List Diagnostic} {D : P → Option String → Prop}
    (h : Reports path rank ds D) :
    Diagnostic.only .error ds = [] ↔ ∀ place value, ¬D place value := by
  obtain ⟨found, hmap, hmem, _⟩ := h
  rw [← List.map_eq_nil_iff (f := shown), hmap, List.map_eq_nil_iff, List.eq_nil_iff_forall_not_mem]
  constructor
  · intro hnone place value hd
    exact hnone _ ((hmem place value).2 hd)
  · rintro hnone ⟨place, value⟩ hd
    exact hnone place value ((hmem place value).1 hd)

theorem of_warnings {ds : List Diagnostic} {D : P → Option String → Prop}
    (hds : Warnings ds) (hD : ∀ place value, ¬D place value) :
    Reports path rank ds D := by
  refine ⟨[], ?_, by simpa using hD, List.Pairwise.nil⟩
  rw [Diagnostic.only_eq_nil fun d hd => by simp [hds d hd]]
  rfl

theorem error (place : P) (message : String) (value : Option String) :
    Reports path rank [.error (path place) message value] fun p v => p = place ∧ v = value := by
  refine ⟨[(place, value)], ?_, by simp, List.pairwise_singleton _ _⟩
  simp [Diagnostic.only, Diagnostic.error, shown]

/-- A check that has one error to report, or none. -/
theorem ite (c : Prop) [Decidable c] (place : P) (message : String) (value : Option String) :
    Reports path rank (if c then [.error (path place) message value] else [])
      fun p v => c ∧ p = place ∧ v = value := by
  split
  · rename_i h
    exact (error place message value).congr (by simp [h])
  · rename_i h
    exact of_warnings .nil (by simp [h])

theorem append {xs ys : List Diagnostic} {D E : P → Option String → Prop}
    (hx : Reports path rank xs D) (hy : Reports path rank ys E)
    (hlt : ∀ p v q w, D p v → E q w → rank p < rank q) :
    Reports path rank (xs ++ ys) fun p v => D p v ∨ E p v := by
  obtain ⟨found, hmap, hmem, hord⟩ := hx
  obtain ⟨found', hmap', hmem', hord'⟩ := hy
  refine ⟨found ++ found', ?_, ?_, ?_⟩
  · simp [hmap, hmap']
  · intro place value
    rw [List.mem_append, hmem, hmem']
  · refine List.pairwise_append.2 ⟨hord, hord', ?_⟩
    rintro ⟨p, v⟩ hp ⟨q, w⟩ hq
    exact hlt p v q w ((hmem p v).1 hp) ((hmem' q w).1 hq)

/-- Warnings between two checks do not show among the errors. -/
theorem append_warnings {xs ys : List Diagnostic} {D : P → Option String → Prop}
    (hx : Reports path rank xs D) (hys : Warnings ys) :
    Reports path rank (xs ++ ys) D := by
  refine (hx.append (of_warnings (D := fun _ _ => False) hys (by simp)) (by simp)).congr ?_
  simp

/-- The places of one part of a document as places of the whole. -/
theorem embed {Q : Type} {path' : Q → String} {rank' : Q → List Nat} {ds : List Diagnostic}
    {D : P → Option String → Prop} (h : Reports path rank ds D) (place : P → Q)
    (hpath : ∀ p, path' (place p) = path p)
    (hrank : ∀ p q, rank p < rank q → rank' (place p) < rank' (place q)) :
    Reports path' rank' ds fun q v => ∃ p, q = place p ∧ D p v := by
  obtain ⟨found, hmap, hmem, hord⟩ := h
  refine ⟨found.map fun d => (place d.1, d.2), ?_, ?_, ?_⟩
  · simp [hmap, hpath]
  · intro q v
    constructor
    · intro hq
      obtain ⟨⟨p, w⟩, hp, heq⟩ := List.mem_map.1 hq
      simp only [Prod.mk.injEq] at heq
      obtain ⟨rfl, rfl⟩ := heq
      exact ⟨p, rfl, (hmem p w).1 hp⟩
    · rintro ⟨p, rfl, hp⟩
      exact List.mem_map.2 ⟨(p, v), (hmem p v).2 hp, rfl⟩
  · exact List.pairwise_map.2 (hord.imp (hrank _ _))

end Reports

/-- Checks every element of a list, each with its position and the elements before it. -/
def walk {α : Type} (check : Nat → List α → α → List Diagnostic) (k : Nat) (before : List α) :
    List α → List Diagnostic
  | [] => []
  | x :: xs => check k before x ++ walk check (k + 1) (before ++ [x]) xs

/-- A check that goes through a list element by element is a walk. -/
theorem eq_walk {α : Type} {f : Nat → List α → List α → List Diagnostic}
    {check : Nat → List α → α → List Diagnostic} (hnil : ∀ k before, f k before [] = [])
    (hcons : ∀ k before x xs,
      f k before (x :: xs) = check k before x ++ f (k + 1) (before ++ [x]) xs) :
    ∀ xs k before, f k before xs = walk check k before xs := by
  intro xs
  induction xs with
  | nil => exact hnil
  | cons x xs ih =>
    intro k before
    rw [hcons, walk, ih]

theorem Reports.walk {P α : Type} {path : P → String} {rank : P → List Nat}
    {check : Nat → List α → α → List Diagnostic}
    {D : Nat → List α → α → P → Option String → Prop}
    (hcheck : ∀ k before x, Reports path rank (check k before x) (D k before x))
    (hlt : ∀ {j k before before' x y p v q w}, j < k → D j before x p v → D k before' y q w →
      rank p < rank q) :
    ∀ (xs : List α) (k : Nat) (before : List α),
      Reports path rank (Validation.walk check k before xs)
        fun p v => ∃ j x, xs[j]? = some x ∧ D (k + j) (before ++ xs.take j) x p v
  | [], k, before => of_warnings .nil (by simp)
  | x :: xs, k, before => by
    have ih := Reports.walk hcheck hlt xs (k + 1) (before ++ [x])
    refine ((hcheck k before x).append ih ?_).congr ?_
    · rintro p v q w hp ⟨j, y, _, hq⟩
      exact hlt (by omega) hp hq
    · intro p v
      constructor
      · rintro (hp | ⟨j, y, hy, hp⟩)
        · exact ⟨0, x, by simp, by simpa using hp⟩
        · refine ⟨j + 1, y, by simpa using hy, ?_⟩
          simpa [Nat.add_comm, Nat.add_left_comm] using hp
      · rintro ⟨j, y, hy, hp⟩
        cases j with
        | zero =>
          simp only [List.getElem?_cons_zero, Option.some.injEq] at hy
          subst hy
          exact Or.inl (by simpa using hp)
        | succ j =>
          refine Or.inr ⟨j, y, by simpa using hy, ?_⟩
          simpa [Nat.add_comm, Nat.add_left_comm] using hp

end Validation
end CaseIntake
