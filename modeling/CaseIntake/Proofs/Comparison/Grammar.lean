import CaseIntake.Proofs.Comparison.Offsets
import CaseIntake.Proofs.Text.Blank

/-!
# CaseIntake.Proofs.Comparison.Grammar

Which comparison a text is read as, said without the scanner.

`Occurs op cs left right`: the operator stands between `left` and `right` at the top level of `cs`.
`read?_eq_some_iff` is the main statement: the first operator that occurs once with two fitting
sides decides, unless an operator before it occurs twice. Looking for the operators in the bytes of
the text leads to the same places.
-/

namespace CaseIntake
namespace Comparison

/-- The operator stands at the top level of `cs`, between `left` and `right`. -/
structure Occurs (op : Operator) (cs left right : List Char) : Prop where
  text : cs = left ++ op.token ++ right
  topLevel : Opens (quotesBalanced cs) left 0
  /-- The signs `>=` and `<=` are no operators. -/
  sign : op = .greaterThan ∨ op = .lessThan → right.head? ≠ some '='
  /-- The `nil` operators begin the text or a word. -/
  word : op = .notNil ∨ op = .nil → ∀ c, left.getLast? = some c → Text.isAsciiBlank c = true

/-- The operator occurs once, and its two sides fit: there is something on the left, and on the
right iff the operator does not end the text. -/
structure Decides (op : Operator) (cs left right : List Char) : Prop where
  occurs : Occurs op cs left right
  once : ∀ left' right', Occurs op cs left' right' → left' = left
  left : ∃ c ∈ left, Text.isBlank c = false
  right : (∃ c ∈ right, Text.isBlank c = false) ↔ op.endsText = false

/-- The operator occurs at two places. -/
def Repeated (op : Operator) (cs : List Char) : Prop :=
  ∃ left right left' right', Occurs op cs left right ∧ Occurs op cs left' right' ∧ left ≠ left'

/-- The comparison of the trimmed left side with the literal on the right. -/
def between (op : Operator) (left right : List Char) : Comparison :=
  ⟨op, String.ofList (Text.trimChars left),
    if op.endsText then none else some (Literal.coerce (String.ofList right))⟩

/-! ## Occurrences -/

/-- A split of the rest of a text: the scanner stands at `n`, after the character `previous`. -/
theorem mem_splits {quotes : Bool} {op : Operator} {left right : List Char} :
    ∀ {cs : List Char} {n : Nesting} {previous : Option Char},
      (left, right) ∈ splits quotes op n previous cs ↔
        cs = left ++ op.token ++ right ∧ (left.foldl (Nesting.step quotes) n).isOutside = true ∧
        op.startsAt (left.getLast?.or previous) (op.token ++ right) = true := by
  intro cs
  induction cs generalizing left with
  | nil =>
    intro n previous
    simp [splits, token_ne_nil]
  | cons c cs ih =>
    intro n previous
    have hlater : (left, right) ∈ (splits quotes op (n.step quotes c) (some c) cs).map
          (fun s => (c :: s.1, s.2)) ↔
        ∃ left', left = c :: left' ∧
          (left', right) ∈ splits quotes op (n.step quotes c) (some c) cs := by
      simp only [List.mem_map, Prod.exists, Prod.mk.injEq]
      constructor
      · rintro ⟨left', right', hmem, hleft, rfl⟩
        exact ⟨left', hleft.symm, hmem⟩
      · rintro ⟨left', rfl, hmem⟩
        exact ⟨left', right, hmem, rfl, rfl⟩
    have hsplits : (left, right) ∈ splits quotes op n previous (c :: cs) ↔
        ((n.isOutside && op.startsAt previous (c :: cs)) = true ∧
          (left, right) = ([], (c :: cs).drop op.token.length)) ∨
        ∃ left', left = c :: left' ∧
          (left', right) ∈ splits quotes op (n.step quotes c) (some c) cs := by
      rw [splits_cons, ← hlater]
      split
      · rename_i h
        simp [h]
      · rename_i h
        simp [h]
    rw [hsplits]
    cases left with
    | nil =>
      simp only [Bool.and_eq_true, Prod.mk.injEq, true_and, List.nil_append, List.foldl_nil,
        List.getLast?_nil, Option.none_or, reduceCtorEq, false_and, exists_false, or_false]
      constructor
      · rintro ⟨⟨hout, hstart⟩, hright⟩
        have heq := startsAt_eq_token_append hstart
        rw [← hright] at heq
        exact ⟨heq, hout, heq ▸ hstart⟩
      · rintro ⟨heq, hout, hstart⟩
        rw [heq]
        exact ⟨⟨hout, hstart⟩, by simp⟩
    | cons d left =>
      simp only [Prod.mk.injEq, reduceCtorEq, false_and, and_false, false_or, List.cons.injEq]
      constructor
      · rintro ⟨left', ⟨rfl, rfl⟩, hmem⟩
        obtain ⟨heq, hout, hstart⟩ := ih.1 hmem
        refine ⟨by simp [heq], hout, ?_⟩
        rw [List.getLast?_cons]
        cases hl : left.getLast? <;> simpa [hl] using hstart
      · rintro ⟨heq, hout, hstart⟩
        simp only [List.cons_append, List.cons.injEq] at heq
        obtain ⟨rfl, heq⟩ := heq
        refine ⟨left, ⟨rfl, rfl⟩, ih.2 ⟨heq, hout, ?_⟩⟩
        rw [List.getLast?_cons] at hstart
        cases hl : left.getLast? <;> simpa [hl] using hstart

theorem pairwise_splits {quotes : Bool} {op : Operator} :
    ∀ {cs : List Char} {n : Nesting} {previous : Option Char},
      (splits quotes op n previous cs).Pairwise fun a b => a.1.length < b.1.length := by
  intro cs
  induction cs with
  | nil => intro n previous; exact List.Pairwise.nil
  | cons c cs ih =>
    intro n previous
    have hlater : ((splits quotes op (n.step quotes c) (some c) cs).map
        fun s => (c :: s.1, s.2)).Pairwise fun a b => a.1.length < b.1.length :=
      List.pairwise_map.2 (ih.imp fun h => by simpa using h)
    rw [splits_cons]
    split
    · refine List.Pairwise.cons ?_ hlater
      intro x hx
      obtain ⟨y, _, rfl⟩ := List.mem_map.1 hx
      simp
    · exact hlater

theorem mem_splits_iff_occurs {op : Operator} {cs left right : List Char} :
    (left, right) ∈ splits (quotesBalanced cs) op .outside none cs ↔ Occurs op cs left right := by
  rw [mem_splits, isOutside_read, startsAt_token, Option.or_none]
  constructor
  · rintro ⟨htext, htop, hsign, hword⟩
    exact ⟨htext, htop, hsign, hword⟩
  · rintro ⟨htext, htop, hsign, hword⟩
    exact ⟨htext, htop, hsign, hword⟩

theorem occurs_right_unique {op : Operator} {cs left right right' : List Char}
    (h : Occurs op cs left right) (h' : Occurs op cs left right') : right = right' := by
  have heq := h.text.symm.trans h'.text
  rwa [List.append_cancel_left_eq] at heq

theorem splits_eq_nil {op : Operator} {cs : List Char} :
    splits (quotesBalanced cs) op .outside none cs = [] ↔
      ∀ left right, ¬Occurs op cs left right := by
  rw [List.eq_nil_iff_forall_not_mem]
  constructor
  · intro h left right hocc
    exact h _ (mem_splits_iff_occurs.2 hocc)
  · rintro h ⟨left, right⟩ hmem
    exact h left right (mem_splits_iff_occurs.1 hmem)

theorem splits_eq_singleton {op : Operator} {cs left right : List Char} :
    splits (quotesBalanced cs) op .outside none cs = [(left, right)] ↔
      Occurs op cs left right ∧ ∀ left' right', Occurs op cs left' right' → left' = left := by
  constructor
  · intro h
    refine ⟨mem_splits_iff_occurs.1 (by simp [h]), fun left' right' hocc => ?_⟩
    have hmem := mem_splits_iff_occurs.2 hocc
    rw [h, List.mem_singleton, Prod.mk.injEq] at hmem
    exact hmem.1
  · rintro ⟨hocc, honce⟩
    have hmem := mem_splits_iff_occurs.2 hocc
    have hpair : (splits (quotesBalanced cs) op .outside none cs).Pairwise
        fun a b => a.1.length < b.1.length := pairwise_splits
    have hall : ∀ x ∈ splits (quotesBalanced cs) op .outside none cs, x = (left, right) := by
      rintro ⟨left', right'⟩ hx
      have hocc' := mem_splits_iff_occurs.1 hx
      obtain rfl := honce _ _ hocc'
      rw [occurs_right_unique hocc' hocc]
    match hs : splits (quotesBalanced cs) op .outside none cs with
    | [] => rw [hs] at hmem; cases hmem
    | [x] => rw [hall x (by simp [hs])]
    | x :: y :: rest =>
      -- two places would both be the one place, but the second lies further on
      rw [hs] at hpair
      have hlt := (List.pairwise_cons.1 hpair).1 y List.mem_cons_self
      rw [hall x (by simp [hs]), hall y (by simp [hs])] at hlt
      exact absurd hlt (Nat.lt_irrefl _)

theorem repeated_iff {op : Operator} {cs : List Char} :
    Repeated op cs ↔ splits (quotesBalanced cs) op .outside none cs ≠ [] ∧
      ∀ x, splits (quotesBalanced cs) op .outside none cs ≠ [x] := by
  constructor
  · rintro ⟨left, right, left', right', hocc, hocc', hne⟩
    constructor
    · intro hnil
      exact splits_eq_nil.1 hnil _ _ hocc
    · rintro ⟨l, r⟩ hone
      obtain ⟨_, honce⟩ := splits_eq_singleton.1 hone
      exact hne ((honce _ _ hocc).trans (honce _ _ hocc').symm)
  · rintro ⟨hnil, hone⟩
    obtain ⟨⟨left, right⟩, hmem⟩ := List.exists_mem_of_ne_nil _ hnil
    have hocc := mem_splits_iff_occurs.1 hmem
    refine Classical.byContradiction fun hno => hone (left, right) (splits_eq_singleton.2 ⟨hocc, ?_⟩)
    intro left' right' hocc'
    exact Classical.byContradiction fun hne => hno ⟨left', right', left, right, hocc', hocc, hne⟩

/-! ## Places in the bytes of a text -/

theorem mem_offsets {op : Operator} {cs : List Char} {k : Nat} :
    k ∈ offsets op cs ↔ ∃ left right, Occurs op cs left right ∧ k = (Text.utf8 left).length := by
  rw [offsets_eq, List.mem_map]
  constructor
  · rintro ⟨⟨left, right⟩, hmem, rfl⟩
    exact ⟨left, right, mem_splits_iff_occurs.1 hmem, rfl⟩
  · rintro ⟨left, right, hocc, rfl⟩
    exact ⟨(left, right), mem_splits_iff_occurs.2 hocc, rfl⟩

/-- Of two left sides, the shorter one is a part of the other, also in bytes. -/
theorem length_utf8_lt {op : Operator} {cs left right left' right' : List Char}
    (h : Occurs op cs left right) (h' : Occurs op cs left' right')
    (hlt : left.length < left'.length) : (Text.utf8 left).length < (Text.utf8 left').length := by
  have hleft : left <+: cs := ⟨op.token ++ right, by rw [h.text, List.append_assoc]⟩
  have hleft' : left' <+: cs := ⟨op.token ++ right', by rw [h'.text, List.append_assoc]⟩
  obtain ⟨rest, rfl⟩ := List.prefix_of_prefix_length_le hleft hleft' (Nat.le_of_lt hlt)
  have hrest : rest ≠ [] := by
    rintro rfl
    simp at hlt
  have hpos : 0 < (Text.utf8 rest).length :=
    List.length_pos_iff.2 fun hnil => hrest (Text.utf8_eq_nil.1 hnil)
  rw [Text.utf8_append, List.length_append]
  omega

theorem pairwise_offsets {op : Operator} {cs : List Char} :
    (offsets op cs).Pairwise (· < ·) := by
  rw [offsets_eq, List.pairwise_map]
  refine List.Pairwise.imp_of_mem (fun ha hb hlt => ?_) pairwise_splits
  exact length_utf8_lt (mem_splits_iff_occurs.1 ha) (mem_splits_iff_occurs.1 hb) hlt

/-! ## The first operator that decides -/

theorem ofSides?_eq_some {op : Operator} {left right : List Char} {c : Comparison} :
    ofSides? op left right = some c ↔
      (∃ c ∈ left, Text.isBlank c = false) ∧
        ((∃ c ∈ right, Text.isBlank c = false) ↔ op.endsText = false) ∧ c = between op left right := by
  have hblank (cs : List Char) :
      (∃ c ∈ cs, Text.isBlank c = false) ↔ (Text.trimChars cs).isEmpty = false := by
    rw [← Bool.not_eq_true, List.isEmpty_iff, Text.trimChars_eq_nil]
    simp
  rw [hblank left, hblank right, ofSides?, between, Literal.coerce, String.toList_ofList]
  cases (Text.trimChars left).isEmpty <;> cases (Text.trimChars right).isEmpty <;>
    cases op.endsText <;> simp [eq_comm]

section FirstFitting

variable {cs left right : List Char} {op : Operator} (ops : List Operator)

theorem firstFitting_of_decides (h : Decides op cs left right) :
    firstFitting (quotesBalanced cs) cs (op :: ops) = some (between op left right) := by
  have hone := splits_eq_singleton.2 ⟨h.occurs, h.once⟩
  rw [firstFitting, hone]
  simp only [ofSides?_eq_some.2 ⟨h.left, h.right, rfl⟩]

theorem firstFitting_of_repeated (h : Repeated op cs) :
    firstFitting (quotesBalanced cs) cs (op :: ops) = none := by
  obtain ⟨hnil, hone⟩ := repeated_iff.1 h
  rw [firstFitting]
  split
  · rename_i hs
    exact absurd hs hnil
  · rename_i l r hs
    exact absurd hs (hone (l, r))
  · rfl

theorem firstFitting_of_passes (hrep : ¬Repeated op cs)
    (hdec : ∀ left right, ¬Decides op cs left right) :
    firstFitting (quotesBalanced cs) cs (op :: ops) = firstFitting (quotesBalanced cs) cs ops := by
  rw [firstFitting]
  split
  · rfl
  · rename_i l r hs
    obtain ⟨hocc, honce⟩ := splits_eq_singleton.1 hs
    split
    · rename_i c hc
      obtain ⟨hleft, hright, _⟩ := ofSides?_eq_some.1 hc
      exact absurd ⟨hocc, honce, hleft, hright⟩ (hdec l r)
    · rfl
  · rename_i hnil hone
    exact absurd (repeated_iff.2 ⟨hnil, fun x hx => hone x.1 x.2 hx⟩) hrep

end FirstFitting

theorem Decides.unique {op : Operator} {cs left right left' right' : List Char}
    (h : Decides op cs left right) (h' : Decides op cs left' right') :
    left = left' ∧ right = right' := by
  obtain rfl := h'.once _ _ h.occurs
  exact ⟨rfl, occurs_right_unique h.occurs h'.occurs⟩

/-- The first element with `P`, where those before it have `Q`. -/
theorem exists_first_cons {α : Type} {P Q : α → Prop} {x : α} {xs : List α} :
    (∃ before y after, x :: xs = before ++ y :: after ∧ P y ∧ ∀ e ∈ before, Q e) ↔
      P x ∨ Q x ∧ ∃ before y after, xs = before ++ y :: after ∧ P y ∧ ∀ e ∈ before, Q e := by
  constructor
  · rintro ⟨before, y, after, heq, hy, hbefore⟩
    cases before with
    | nil =>
      obtain ⟨rfl, rfl⟩ := List.cons.inj heq
      exact Or.inl hy
    | cons e before =>
      obtain ⟨rfl, rfl⟩ := List.cons.inj heq
      obtain ⟨hx, hrest⟩ := List.forall_mem_cons.1 hbefore
      exact Or.inr ⟨hx, before, y, after, rfl, hy, hrest⟩
  · rintro (hx | ⟨hx, before, y, after, rfl, hy, hbefore⟩)
    · exact ⟨[], x, xs, rfl, hx, by simp⟩
    · exact ⟨x :: before, y, after, rfl, hy, List.forall_mem_cons.2 ⟨hx, hbefore⟩⟩

theorem firstFitting_eq_some {cs : List Char} {c : Comparison} (ops : List Operator) :
    firstFitting (quotesBalanced cs) cs ops = some c ↔
      ∃ before op after, ops = before ++ op :: after ∧
        (∃ left right, Decides op cs left right ∧ c = between op left right) ∧
        ∀ e ∈ before, ¬Repeated e cs ∧ ∀ l r, ¬Decides e cs l r := by
  induction ops with
  | nil => simp [firstFitting]
  | cons o ops ih =>
    rw [exists_first_cons, ← ih]
    by_cases hdec : ∃ l r, Decides o cs l r
    · obtain ⟨l, r, hdec⟩ := hdec
      rw [firstFitting_of_decides ops hdec, Option.some.injEq]
      constructor
      · rintro rfl
        exact Or.inl ⟨l, r, hdec, rfl⟩
      · rintro (⟨l', r', hdec', rfl⟩ | ⟨⟨_, hno⟩, _⟩)
        · obtain ⟨rfl, rfl⟩ := hdec.unique hdec'
          rfl
        · exact absurd hdec (hno l r)
    · have hno : ∀ l r, ¬Decides o cs l r := fun l r h => hdec ⟨l, r, h⟩
      by_cases hrep : Repeated o cs
      · rw [firstFitting_of_repeated ops hrep]
        constructor
        · intro h
          cases h
        · rintro (⟨l, r, hdec, _⟩ | ⟨⟨hnot, _⟩, _⟩)
          · exact absurd hdec (hno l r)
          · exact absurd hrep hnot
      · rw [firstFitting_of_passes ops hrep hno]
        constructor
        · intro h
          exact Or.inr ⟨⟨hrep, hno⟩, h⟩
        · rintro (⟨l, r, hdec, _⟩ | ⟨_, h⟩)
          · exact absurd hdec (hno l r)
          · exact h

/-- A text is read as a comparison iff some operator decides, none before it does, and none before
it is repeated. The places of an operator in the bytes of the text are those of its occurrences. -/
theorem read?_eq_some_iff (text : String) :
    (∀ c, read? text = some c ↔
      ∃ before op after left right, Operator.byPriority = before ++ op :: after ∧
        Decides op (Text.trimChars text.toList) left right ∧
        (∀ e ∈ before, ¬Repeated e (Text.trimChars text.toList) ∧
          ∀ l r, ¬Decides e (Text.trimChars text.toList) l r) ∧
        c = between op left right) ∧
    ∀ op, (offsets op (Text.trimChars text.toList)).Pairwise (· < ·) ∧
      ∀ k, k ∈ offsets op (Text.trimChars text.toList) ↔
        ∃ left right, Occurs op (Text.trimChars text.toList) left right ∧
          k = (Text.utf8 left).length := by
  refine ⟨fun c => ?_, fun op => ⟨pairwise_offsets, fun k => mem_offsets⟩⟩
  rw [read?, firstFitting_eq_some]
  constructor
  · rintro ⟨before, op, after, hops, ⟨left, right, hdec, hc⟩, hbefore⟩
    exact ⟨before, op, after, left, right, hops, hdec, hbefore, hc⟩
  · rintro ⟨before, op, after, left, right, hops, hdec, hbefore, hc⟩
    exact ⟨before, op, after, hops, ⟨left, right, hdec, hc⟩, hbefore⟩

end Comparison
end CaseIntake
