import CaseIntake.Proofs.Comparison.Grammar

/-!
# CaseIntake.Proofs.Comparison.Priority

The operators that are tried before another one. `read?_decided_iff` is the main statement: the
operator of a comparison decides its text, and nothing that is tried before it decides the text or
is repeated in it. `read?_of_decides` is the case in which nothing occurs that is tried before. An
operator that is tried before and occurs all the same misses one of its sides
(`blank_of_not_decides`).
-/

namespace CaseIntake

def Operator.TriedBefore (e op : Operator) : Prop :=
  Operator.byPriority.idxOf e < Operator.byPriority.idxOf op

instance (e op : Operator) : Decidable (e.TriedBefore op) :=
  inferInstanceAs (Decidable (_ < _))

theorem Operator.sides_of_triedBefore {e op : Operator} (h : e.TriedBefore op)
    (hop : op.endsText = false) : e.endsText = false := by
  cases op <;> cases hop <;> cases e <;> first | rfl | exact absurd h (by decide)

namespace Comparison

theorem mem_before_iff {before after : List Operator} {op e : Operator}
    (h : Operator.byPriority = before ++ op :: after) : e ∈ before ↔ e.TriedBefore op := by
  have hmem : e ∈ Operator.byPriority := by cases e <;> decide
  have horder : Operator.byPriority.Pairwise Operator.TriedBefore := by decide
  rw [h] at hmem horder
  obtain ⟨-, hlater, hearlier⟩ := List.pairwise_append.1 horder
  constructor
  · intro he
    exact hearlier e he op List.mem_cons_self
  · intro he
    rcases List.mem_append.1 hmem with hbefore | hrest
    · exact hbefore
    · rcases List.mem_cons.1 hrest with rfl | hafter
      · exact absurd he (Nat.lt_irrefl _)
      · have hop : op.TriedBefore e := (List.pairwise_cons.1 hlater).1 e hafter
        exact absurd (Nat.lt_trans hop he) (Nat.lt_irrefl _)

theorem exists_byPriority (op : Operator) :
    ∃ before after, Operator.byPriority = before ++ op :: after := by
  have hmem : op ∈ Operator.byPriority := by cases op <;> decide
  exact List.append_of_mem hmem

theorem read?_decided_iff {text : String} {c : Comparison} :
    read? text = some c ↔
      (∃ left right, Decides c.operator (Text.trimChars text.toList) left right ∧
        c = between c.operator left right) ∧
      ∀ e : Operator, e.TriedBefore c.operator → ¬Repeated e (Text.trimChars text.toList) ∧
        ∀ left right, ¬Decides e (Text.trimChars text.toList) left right := by
  rw [read?, firstFitting_eq_some]
  constructor
  · rintro ⟨before, op, after, hops, ⟨left, right, hdecides, rfl⟩, hbefore⟩
    refine ⟨⟨left, right, hdecides, rfl⟩, fun e he => ?_⟩
    exact hbefore e ((mem_before_iff hops).2 he)
  · rintro ⟨⟨left, right, hdecides, hc⟩, hbefore⟩
    obtain ⟨before, after, hops⟩ := exists_byPriority c.operator
    refine ⟨before, c.operator, after, hops, ⟨left, right, hdecides, hc⟩, fun e he => ?_⟩
    exact hbefore e ((mem_before_iff hops).1 he)

/-- An operator decides a text in which nothing occurs that is tried before it. -/
theorem read?_of_decides {text : String} {op : Operator} {left right : List Char}
    (h : Decides op (Text.trimChars text.toList) left right)
    (hbefore : ∀ e : Operator, e.TriedBefore op →
      ∀ l r, ¬Occurs e (Text.trimChars text.toList) l r) :
    read? text = some (between op left right) := by
  refine read?_decided_iff.2 ⟨⟨left, right, h, rfl⟩, fun e he => ⟨?_, fun l r hdecides => ?_⟩⟩
  · rintro ⟨l, r, _, _, hoccurs, _⟩
    exact hbefore e he l r hoccurs
  · exact hbefore e he l r hdecides.occurs

/-- An operator of two sides that occurs without deciding or being repeated misses a side. -/
theorem blank_of_not_decides {e : Operator} {cs left right : List Char}
    (he : e.endsText = false) (hoccurs : Occurs e cs left right) (hrepeated : ¬Repeated e cs)
    (hdecides : ¬Decides e cs left right) :
    (∀ c ∈ left, Text.isBlank c = true) ∨ ∀ c ∈ right, Text.isBlank c = true := by
  have honce : ∀ l r, Occurs e cs l r → l = left := by
    intro l r hlr
    exact Classical.byContradiction fun hne => hrepeated ⟨_, _, _, _, hlr, hoccurs, hne⟩
  refine Classical.byContradiction fun hno => ?_
  simp only [not_or, not_forall, Bool.not_eq_true] at hno
  obtain ⟨⟨c, hc, hcblank⟩, d, hd, hdblank⟩ := hno
  exact hdecides ⟨hoccurs, honce, ⟨c, hc, hcblank⟩, fun _ => he, fun _ => ⟨d, hd, hdblank⟩⟩

end Comparison
end CaseIntake
