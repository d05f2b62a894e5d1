import CaseIntake.Proofs.Comparison.Quoted

/-!
# CaseIntake.Proofs.Comparison.Operands

Comparisons of operands with brackets in them are always read: `read?_of_operands`.

Within the brackets of an operand anything may stand but quotes, operators and blanks included. A
reader is inside brackets there (`Grouped.foldl_left`), so whatever it finds outside them that no
operand can have stands between the operands (`exists_of_topLevel`). Every operator of two sides
begins and ends with such a character, and the `nil` operators have a blank in them.
-/

namespace CaseIntake
namespace Comparison

/-- The two brackets of one kind. -/
inductive Brackets : Char → Char → Prop where
  | round : Brackets '(' ')'
  | square : Brackets '[' ']'
  | curly : Brackets '\x7b' '\x7d'

/-- Characters with `p`, and groups in brackets among them. A group holds no quotes, and within it
every bracket is closed by one of its kind. -/
inductive Grouped : (Char → Prop) → List Char → Prop where
  | nil {p : Char → Prop} : Grouped p []
  | char {p : Char → Prop} {c : Char} {rest : List Char} : p c → Grouped p rest →
      Grouped p (c :: rest)
  | group {p : Char → Prop} {opening closing : Char} {inner rest : List Char} :
      Brackets opening closing → Grouped IsPlain inner → Grouped p rest →
      Grouped p (opening :: (inner ++ closing :: rest))

/-- A grouped text that begins outside of its groups. -/
structure Operand (p : Char → Prop) (text : List Char) : Prop where
  grouped : Grouped p text
  first : ∃ c rest, text = c :: rest ∧ p c

/-- A character of a path: of a name or a number, or a dot. -/
def IsPathChar (c : Char) : Prop :=
  Reference.isWordChar c = true ∨ c = '.'

/-- On the right, signs may stand among the characters of a path. -/
def IsTermChar (c : Char) : Prop :=
  IsPathChar c ∨ c = '+' ∨ c = '-'

instance (c : Char) : Decidable (IsPathChar c) :=
  inferInstanceAs (Decidable (_ ∨ _))

instance (c : Char) : Decidable (IsTermChar c) :=
  inferInstanceAs (Decidable (_ ∨ _))

/-! ## Characters -/

theorem IsTermChar.isPlain {c : Char} (h : IsTermChar c) : IsPlain c := by
  rcases h with (hword | rfl) | rfl | rfl
  · exact isPlain_of_isWordChar hword
  all_goals decide

theorem IsTermChar.not_isBlank {c : Char} (h : IsTermChar c) : Text.isBlank c = false := by
  rcases h with (hword | rfl) | rfl | rfl
  · exact Reference.not_isBlank_of_isWordChar hword
  all_goals decide

/-- A character that no operand has outside its groups, and that begins no group. -/
def IsApart (c : Char) : Prop :=
  ¬IsTermChar c ∧ isOpening c = false

instance (c : Char) : Decidable (IsApart c) :=
  inferInstanceAs (Decidable (_ ∧ _))

namespace Brackets

variable {opening closing : Char} (h : Brackets opening closing)

include h

theorem isOpening_left : isOpening opening = true := by
  cases h <;> rfl

theorem isClosing_right : isClosing closing = true := by
  cases h <;> rfl

theorem not_isBlank_right : Text.isBlank closing = false := by
  cases h <;> decide

end Brackets

/-! ## Reading an operand -/

namespace Grouped

variable {p q : Char → Prop} {cs left right : List Char} {c : Char}

theorem mono (h : Grouped p cs) (hpq : ∀ c, p c → q c) : Grouped q cs := by
  induction h with
  | nil => exact .nil
  | char hc _ ih => exact .char (hpq _ hc) (ih hpq)
  | group hbrackets hinner _ _ ih => exact .group hbrackets hinner (ih hpq)

theorem append_left (h : Grouped p right) (hleft : ∀ c ∈ left, p c) :
    Grouped p (left ++ right) := by
  induction left with
  | nil => exact h
  | cons c left ih =>
    obtain ⟨hc, hrest⟩ := List.forall_mem_cons.1 hleft
    exact .char hc (ih hrest)

theorem of_forall (h : ∀ c ∈ cs, p c) : Grouped p cs := by
  have hgrouped : Grouped p (cs ++ []) := append_left .nil h
  rwa [List.append_nil] at hgrouped

/-- As many brackets are open after a grouped text as before it. -/
theorem foldl (h : Grouped p cs) (hp : ∀ c, p c → IsPlain c) (quotes : Bool) (depth : Nat) :
    cs.foldl (Nesting.step quotes) ⟨depth, none, false⟩ = ⟨depth, none, false⟩ := by
  induction h generalizing depth with
  | nil => rfl
  | char hc _ ih =>
    obtain ⟨hquote, hopening, hclosing⟩ := hp _ hc
    rw [List.foldl_cons, step_plain (fun _ => hquote) hopening hclosing, ih hp]
  | group hbrackets _ _ ihinner ih =>
    rw [List.foldl_cons, step_opening hbrackets.isOpening_left, List.foldl_append,
      ihinner (fun _ hc => hc), List.foldl_cons, step_closing hbrackets.isClosing_right, ih hp]
    rfl

/-- A place within a grouped text: if no more brackets are open there than before the text, what
follows is one of its own characters or a group. -/
theorem foldl_left (h : Grouped p cs) (hp : ∀ c, p c → IsPlain c) (quotes : Bool) (depth : Nat)
    (hcs : cs = left ++ c :: right) :
    ∃ deeper, left.foldl (Nesting.step quotes) ⟨depth, none, false⟩ =
        ⟨depth + deeper, none, false⟩ ∧
      (deeper = 0 → p c ∨ isOpening c = true) := by
  induction h generalizing left right depth with
  | nil => simp at hcs
  | char hd _ ih =>
    rcases List.cons_eq_append_iff.1 hcs with ⟨rfl, hfirst⟩ | ⟨left, rfl, hrest⟩
    · obtain ⟨rfl, -⟩ := List.cons.inj hfirst
      exact ⟨0, rfl, fun _ => Or.inl hd⟩
    · obtain ⟨hquote, hopening, hclosing⟩ := hp _ hd
      rw [List.foldl_cons, step_plain (fun _ => hquote) hopening hclosing]
      exact ih hp depth hrest
  | @group _ opening closing inner rest hbrackets hinner _ ihinner ih =>
    rcases List.cons_eq_append_iff.1 hcs with ⟨rfl, hfirst⟩ | ⟨left, rfl, hinside⟩
    · obtain ⟨rfl, -⟩ := List.cons.inj hfirst
      exact ⟨0, rfl, fun _ => Or.inr hbrackets.isOpening_left⟩
    · -- the place is behind the closing bracket or right before it, or else further inside
      rw [List.foldl_cons, step_opening hbrackets.isOpening_left]
      rcases List.append_eq_append_iff.1 hinside with ⟨beyond, rfl, hbeyond⟩ | ⟨within, hin, hrest⟩
      · rw [List.foldl_append, hinner.foldl (fun _ hc => hc)]
        rcases List.cons_eq_append_iff.1 hbeyond with ⟨rfl, -⟩ | ⟨later, rfl, hlater⟩
        · exact ⟨1, rfl, fun h => absurd h (by decide)⟩
        · rw [List.foldl_cons, step_closing hbrackets.isClosing_right]
          exact ih hp depth hlater
      · cases within with
        | nil =>
          rw [List.append_nil] at hin
          rw [← hin, hinner.foldl (fun _ hc => hc)]
          exact ⟨1, rfl, fun h => absurd h (by decide)⟩
        | cons d within =>
          obtain ⟨rfl, -⟩ := List.cons.inj hrest
          obtain ⟨deeper, hdeeper, -⟩ := ihinner (fun _ hc => hc) (depth + 1) hin
          exact ⟨deeper + 1, by rw [hdeeper]; congr 1; omega, fun h => absurd h (by omega)⟩

theorem opens (h : Grouped p cs) (hp : ∀ c, p c → IsPlain c) (quotes : Bool) :
    Opens quotes cs 0 := by
  refine isOutside_read.1 ?_
  rw [Nesting.outside, h.foldl hp]
  rfl

/-- Outside its groups a text has its own characters only. -/
theorem of_topLevel (h : Grouped p cs) (hp : ∀ c, p c → IsPlain c) {quotes : Bool}
    (hcs : cs = left ++ c :: right) (htop : Opens quotes left 0) : p c ∨ isOpening c = true := by
  obtain ⟨deeper, hfoldl, hplace⟩ := h.foldl_left hp quotes 0 hcs
  have hdeeper : (⟨0 + deeper, none, false⟩ : Nesting) = ⟨0, none, false⟩ :=
    hfoldl.symm.trans htop.foldl
  exact hplace (by simpa using congrArg Nesting.depth hdeeper)

theorem not_isApart_of_topLevel (h : Grouped IsTermChar cs) {quotes : Bool}
    (hcs : cs = left ++ c :: right) (htop : Opens quotes left 0) : ¬IsApart c := by
  rintro ⟨hterm, hopening⟩
  rcases h.of_topLevel (fun _ => IsTermChar.isPlain) hcs htop with hown | hgroup
  · exact hterm hown
  · rw [hopening] at hgroup
    cases hgroup

theorem not_isBlank_of_getLast? (h : Grouped p cs) (hp : ∀ c, p c → Text.isBlank c = false)
    (hc : cs.getLast? = some c) : Text.isBlank c = false := by
  induction h with
  | nil => cases hc
  | @char _ d rest hd hrest ih =>
    cases rest with
    | nil =>
      obtain rfl := Option.some.inj hc
      exact hp d hd
    | cons e rest => exact ih hp (by simpa using hc)
  | @group _ opening closing inner rest hbrackets hinner hrest _ ih =>
    have hlast : (closing :: rest).getLast? = some c := by
      rw [← List.cons_append, List.getLast?_append, List.getLast?_cons] at hc
      rwa [List.getLast?_cons]
    cases rest with
    | nil =>
      obtain rfl := Option.some.inj hlast
      exact hbrackets.not_isBlank_right
    | cons e rest => exact ih hp (by simpa using hlast)

end Grouped

/-! ## Places between operands -/

section Between

variable {a middle r left right : List Char} {quotes : Bool} {c : Char}

/-- What a reader finds outside brackets stands between the operands, if no operand can have it. -/
theorem exists_of_topLevel (ha : Grouped IsTermChar a) (hmiddle : ∀ c ∈ middle, IsPlain c)
    (hr : Grouped IsTermChar r) (htext : a ++ (middle ++ r) = left ++ c :: right)
    (htop : Opens quotes left 0) (hc : IsApart c) :
    ∃ before after, middle = before ++ c :: after ∧ left = a ++ before ∧ right = after ++ r := by
  have hopens : Opens quotes a 0 := ha.opens (fun _ => IsTermChar.isPlain) quotes
  obtain ⟨before, rfl, hrest⟩ :
      ∃ before, left = a ++ before ∧ middle ++ r = before ++ c :: right := by
    rcases List.append_eq_append_iff.1 htext with hlater | ⟨rest, hleft, hrest⟩
    · exact hlater
    · cases rest with
      | nil => exact ⟨[], by simpa using hleft.symm, hrest.symm⟩
      | cons d rest =>
        obtain ⟨rfl, -⟩ := List.cons.inj hrest
        exact absurd hc (ha.not_isApart_of_topLevel hleft htop)
  have hbehind {beyond : List Char} (hbefore : before = middle ++ beyond) :
      r ≠ beyond ++ c :: right := by
    intro hr'
    rw [hbefore, ← List.append_assoc, opens_append_iff (opens_append_plain hopens hmiddle)] at htop
    exact hr.not_isApart_of_topLevel hr' htop hc
  rcases List.append_eq_append_iff.1 hrest with ⟨beyond, hbefore, hbeyond⟩ | ⟨rest, hmid, hright⟩
  · exact absurd hbeyond (hbehind hbefore)
  · cases rest with
    | nil =>
      have hbefore : before = middle ++ [] := by simpa using hmid.symm
      exact absurd hright.symm (hbehind hbefore)
    | cons d after =>
      obtain ⟨rfl, rfl⟩ := List.cons.inj hright
      exact ⟨before, after, hmid, rfl, rfl⟩

theorem plain_of_mem_token {e : Operator} : ∀ c ∈ e.token, IsPlain c := by
  intro c hc
  have hmem : c ∈ e.gap ++ e.token ++ e.gap := List.mem_append_left _ (List.mem_append_right _ hc)
  exact plain_of_mem_spaced c hmem

theorem plain_of_mem_ending {e : Operator} : ∀ c ∈ ' ' :: e.token, IsPlain c :=
  List.forall_mem_cons.2 ⟨by decide, plain_of_mem_token⟩

theorem isApart_ends {e : Operator} (he : e.endsText = false) :
    (∃ t ts, e.token = t :: ts ∧ IsApart t) ∧ ∃ ts t, e.token = ts ++ [t] ∧ IsApart t := by
  have hends : ∀ c, e.token.head? = some c ∨ e.token.getLast? = some c → IsApart c := by
    intro c hc
    cases e <;> cases he <;> rcases hc with hc | hc <;> obtain rfl := Option.some.inj hc <;> decide
  obtain ⟨t, ts, hfirst⟩ := List.exists_cons_of_ne_nil (token_ne_nil e)
  obtain ⟨us, u, hlast⟩ := List.eq_nil_or_concat e.token |>.resolve_left (token_ne_nil e)
  refine ⟨⟨t, ts, hfirst, hends t (Or.inl (by simp [hfirst]))⟩, us, u, by simpa using hlast, ?_⟩
  exact hends u (Or.inr (by simp [hlast]))

/-- An operator of two sides stands between the operands with all its characters. -/
theorem exists_of_occurs {e : Operator} (he : e.endsText = false) (ha : Grouped IsTermChar a)
    (hmiddle : ∀ c ∈ middle, IsPlain c) (hr : Grouped IsTermChar r)
    (h : Occurs e (a ++ (middle ++ r)) left right) :
    ∃ before after, middle = before ++ (e.token ++ after) ∧ left = a ++ before := by
  obtain ⟨⟨t, ts, hfirst, ht⟩, us, u, hlast, hu⟩ := isApart_ends he
  have htop := h.topLevel
  have htext := h.text
  have hbegins : a ++ (middle ++ r) = left ++ t :: (ts ++ right) := by simp [htext, hfirst]
  have hends : a ++ (middle ++ r) = (left ++ us) ++ u :: right := by simp [htext, hlast]
  have hplain : ∀ c ∈ us, IsPlain c := fun c hc =>
    plain_of_mem_token (e := e) c (by simp [hlast, hc])
  obtain ⟨before, _, hbefore, rfl, -⟩ := exists_of_topLevel ha hmiddle hr hbegins htop ht
  obtain ⟨start, after, hafter, hstart, -⟩ :=
    exists_of_topLevel ha hmiddle hr hends (opens_append_plain htop hplain) hu
  rw [List.append_assoc, List.append_cancel_left_eq] at hstart
  exact ⟨before, after, by simp [hafter, ← hstart, hlast], rfl⟩

/-- A `nil` operator reaches with its first blank into what is between the operands. -/
theorem exists_of_occurs_nil {e : Operator} (he : e.endsText = true) (ha : Grouped IsTermChar a)
    (hmiddle : ∀ c ∈ middle, IsPlain c) (h : Occurs e (a ++ middle) left right) :
    ∃ before, middle = before ++ (e.token.drop 2 ++ right) ∧ left ++ ['i', 's'] = a ++ before := by
  obtain ⟨rest, htoken⟩ : ∃ rest, e.token = 'i' :: 's' :: ' ' :: rest := by
    cases e <;> cases he <;> exact ⟨_, rfl⟩
  have htext : a ++ (middle ++ []) = (left ++ ['i', 's']) ++ ' ' :: (rest ++ right) := by
    rw [List.append_nil, h.text, htoken]
    simp
  have htop : Opens (quotesBalanced (a ++ middle)) (left ++ ['i', 's']) 0 :=
    opens_append_plain h.topLevel
      (List.forall_mem_cons.2 ⟨by decide, List.forall_mem_singleton.2 (by decide)⟩)
  obtain ⟨before, after, hbefore, hleft, hright⟩ :=
    exists_of_topLevel ha hmiddle .nil htext htop (by decide)
  rw [List.append_nil] at hright
  exact ⟨before, by simp [hbefore, ← hright, htoken], hleft⟩

end Between

/-- With a blank before it, a `nil` operator holds no other one, of those that are tried first. -/
theorem eq_of_mem_ending {op e : Operator} (hop : op.endsText = true) (he : e.endsText = true)
    (hle : e = op ∨ e.TriedBefore op) {before after : List Char}
    (h : ' ' :: op.token = before ++ (e.token.drop 2 ++ after)) :
    e = op ∧ before = [' ', 'i', 's'] := by
  have hplaces : ∀ n < (' ' :: op.token).length,
      (e.token.drop 2).isPrefixOf ((' ' :: op.token).drop n) = true →
      e = op ∧ n = 3 ∧ (' ' :: op.token).take 3 = [' ', 'i', 's'] := by
    cases op <;> cases hop <;> cases e <;> cases he <;> revert hle <;> decide
  have hne : e.token.drop 2 ≠ [] := by
    cases e <;> cases he <;> decide
  obtain ⟨hlt, hstands⟩ := isPrefixOf_drop h hne
  obtain ⟨rfl, hlength, htake⟩ := hplaces before.length hlt hstands
  refine ⟨rfl, ?_⟩
  rw [← htake, h, ← hlength, List.take_left]

theorem not_mem_ending {op e : Operator} (hop : op.endsText = true) (he : e.endsText = false)
    {before after : List Char} : ' ' :: op.token ≠ before ++ (e.token ++ after) := by
  intro h
  have hplaces : ∀ n < (' ' :: op.token).length,
      ¬e.token.isPrefixOf ((' ' :: op.token).drop n) = true := by
    cases op <;> cases hop <;> cases e <;> cases he <;> decide
  obtain ⟨hlt, hstands⟩ := isPrefixOf_drop h (token_ne_nil e)
  exact hplaces _ hlt hstands

/-! ## The reading -/

namespace Operand

theorem mono {p q : Char → Prop} {cs : List Char} (h : Operand p cs) (hpq : ∀ c, p c → q c) :
    Operand q cs := by
  obtain ⟨c, rest, hcs, hc⟩ := h.first
  exact ⟨h.grouped.mono hpq, c, rest, hcs, hpq c hc⟩

variable {a rest : List Char} (ha : Operand IsTermChar a)

include ha

theorem exists_first : ∃ c ∈ a, Text.isBlank c = false := by
  obtain ⟨c, rest, rfl, hc⟩ := ha.first
  exact ⟨c, List.mem_cons_self, hc.not_isBlank⟩

theorem not_isBlank_of_getLast? {c : Char} (hc : (rest ++ a).getLast? = some c) :
    Text.isBlank c = false := by
  obtain ⟨d, ds, rfl, -⟩ := ha.first
  rw [List.getLast?_append, List.getLast?_cons] at hc
  refine ha.grouped.not_isBlank_of_getLast? (fun _ => IsTermChar.not_isBlank) ?_
  rwa [List.getLast?_cons]

/-- A text that begins with an operand has no blanks at its ends, if its last character is none. -/
theorem trimChars_append (hlast : ∀ c, (a ++ rest).getLast? = some c → Text.isBlank c = false) :
    Text.trimChars (a ++ rest) = a ++ rest := by
  refine Text.trimChars_eq_self (fun c hc => ?_) hlast
  obtain ⟨d, ds, rfl, hd⟩ := ha.first
  obtain rfl := Option.some.inj hc
  exact hd.not_isBlank

theorem trimChars_gap {gap : List Char} (hgap : ∀ c ∈ gap, Text.isBlank c = true) :
    Text.trimChars (a ++ gap) = a := by
  have hself : Text.trimChars (a ++ []) = a ++ [] := by
    refine ha.trimChars_append fun c hc => ?_
    rw [List.append_nil] at hc
    exact ha.grouped.not_isBlank_of_getLast? (fun _ => IsTermChar.not_isBlank) hc
  rw [Text.trimChars_append_right hgap, ← List.append_nil a, hself]

end Operand

section Reading

variable {a r : List Char} {op : Operator} (ha : Operand IsTermChar a)

include ha

theorem decides_between (hr : Operand IsTermChar r) (hop : op.endsText = false) :
    Decides op (a ++ (op.gap ++ op.token ++ op.gap ++ r)) (a ++ op.gap) (op.gap ++ r) := by
  have hopens := ha.grouped.opens (fun _ => IsTermChar.isPlain)
    (quotesBalanced (a ++ (op.gap ++ op.token ++ op.gap ++ r)))
  have hgap : ∀ c ∈ op.gap, IsPlain c := fun c hc =>
    plain_of_mem_spaced c (List.mem_append_right (op.gap ++ op.token) hc)
  obtain ⟨c, hc, hblank⟩ := ha.exists_first
  obtain ⟨d, hd, hdblank⟩ := hr.exists_first
  refine ⟨⟨by simp, opens_append_plain hopens hgap, ?_, ?_⟩, fun left right hoccurs => ?_,
    ⟨c, List.mem_append_left _ hc, hblank⟩, fun _ => hop,
    fun _ => ⟨d, List.mem_append_right _ hd, hdblank⟩⟩
  · rintro (rfl | rfl) <;> simp [Operator.gap]
  · rintro (rfl | rfl) <;> cases hop
  · obtain ⟨before, after, hmiddle, rfl⟩ :=
      exists_of_occurs hop ha.grouped plain_of_mem_spaced hr.grouped hoccurs
    rw [(eq_of_mem_spaced hop hop hmiddle).2]

theorem decides_ending (hop : op.endsText = true) :
    Decides op (a ++ ' ' :: op.token) (a ++ [' ']) [] := by
  have hopens := ha.grouped.opens (fun _ => IsTermChar.isPlain)
    (quotesBalanced (a ++ ' ' :: op.token))
  obtain ⟨c, hc, hblank⟩ := ha.exists_first
  have hblanks : ∀ c ∈ [' '], IsPlain c := List.forall_mem_singleton.2 (by decide)
  refine ⟨⟨by simp, opens_append_plain hopens hblanks, by simp, fun _ c hc => ?_⟩,
    fun left right hoccurs => ?_, ⟨c, List.mem_append_left _ hc, hblank⟩, by simp [hop]⟩
  · rw [List.getLast?_concat] at hc
    obtain rfl := Option.some.inj hc
    decide
  · obtain ⟨before, hbefore, hleft⟩ :=
      exists_of_occurs_nil hop ha.grouped plain_of_mem_ending hoccurs
    obtain ⟨-, rfl⟩ := eq_of_mem_ending hop hop (Or.inl rfl) hbefore
    exact (List.append_inj' (hleft.trans (by simp)) rfl).1

theorem between_ending (hop : op.endsText = true) :
    between op (a ++ [' ']) [] = ⟨op, String.ofList a, none⟩ := by
  rw [between, ha.trimChars_gap (List.forall_mem_singleton.2 rfl), hop]
  rfl

theorem between_operands (hop : op.endsText = false) :
    between op (a ++ op.gap) (op.gap ++ r) =
      ⟨op, String.ofList a, some (Literal.coerce (String.ofList r))⟩ := by
  rw [between, ha.trimChars_gap isBlank_of_mem_gap, hop, Literal.coerce, Literal.coerce,
    String.toList_ofList, String.toList_ofList, Text.trimChars_append_left isBlank_of_mem_gap]
  rfl

theorem not_occurs_between (hr : Operand IsTermChar r) (hop : op.endsText = false) {e : Operator}
    (he : e.TriedBefore op) (left right : List Char) :
    ¬Occurs e (a ++ (op.gap ++ op.token ++ op.gap ++ r)) left right := by
  intro hoccurs
  have hsides := Operator.sides_of_triedBefore he hop
  obtain ⟨before, after, hmiddle, -⟩ :=
    exists_of_occurs hsides ha.grouped plain_of_mem_spaced hr.grouped hoccurs
  obtain ⟨rfl, -⟩ := eq_of_mem_spaced hop hsides hmiddle
  exact Nat.lt_irrefl _ he

theorem not_occurs_ending (hop : op.endsText = true) {e : Operator} (he : e.TriedBefore op)
    (left right : List Char) : ¬Occurs e (a ++ ' ' :: op.token) left right := by
  intro hoccurs
  cases hends : e.endsText with
  | true =>
    obtain ⟨before, hbefore, -⟩ :=
      exists_of_occurs_nil hends ha.grouped plain_of_mem_ending hoccurs
    obtain ⟨rfl, -⟩ := eq_of_mem_ending hop hends (Or.inr he) hbefore
    exact Nat.lt_irrefl _ he
  | false =>
    rw [← List.append_nil (' ' :: op.token)] at hoccurs
    obtain ⟨before, after, hbefore, -⟩ :=
      exists_of_occurs hends ha.grouped plain_of_mem_ending .nil hoccurs
    exact not_mem_ending hop hends hbefore

theorem trimChars_between (hr : Operand IsTermChar r) (middle : List Char) :
    Text.trimChars (a ++ (middle ++ r)) = a ++ (middle ++ r) := by
  refine ha.trimChars_append fun c hc => ?_
  rw [← List.append_assoc] at hc
  exact hr.not_isBlank_of_getLast? hc

theorem trimChars_ending (hop : op.endsText = true) :
    Text.trimChars (a ++ ' ' :: op.token) = a ++ ' ' :: op.token := by
  refine ha.trimChars_append fun c hc => ?_
  have hlast : op.token.getLast? = some 'l' := by
    cases op <;> cases hop <;> rfl
  rw [List.getLast?_append, List.getLast?_cons, hlast] at hc
  obtain rfl := Option.some.inj hc
  decide

end Reading

theorem ending_word {op : Operator} (hop : op.endsText = true) : op.word.toList = op.token := by
  rw [Operator.word, String.toList_ofList]
  cases op <;> cases hop <;> decide

/-- Two operands with an operator between them, or one before a `nil` operator, are read as they are
written. -/
theorem read?_of_operands {a r : String} (ha : Operand IsPathChar a.toList)
    (hr : Operand IsTermChar r.toList) :
    (∀ op : Operator, op.endsText = false →
      read? (a ++ " " ++ op.word ++ " " ++ r) = some ⟨op, a, some (Literal.coerce r)⟩) ∧
    ∀ op : Operator, op.endsText = true → read? (a ++ " " ++ op.word) = some ⟨op, a, none⟩ := by
  replace ha : Operand IsTermChar a.toList := ha.mono fun _ => Or.inl
  refine ⟨fun op hop => ?sides, fun op hop => ?ending⟩
  case sides =>
    have htext : (a ++ " " ++ op.word ++ " " ++ r).toList =
        a.toList ++ (op.gap ++ op.token ++ op.gap ++ r.toList) := by
      rw [← spaced_word hop]
      simp
    have hbetween := between_operands (r := r.toList) ha hop
    rw [String.ofList_toList, String.ofList_toList] at hbetween
    rw [← hbetween]
    refine read?_of_decides ?_ fun e he left right => ?_
    · rw [htext, trimChars_between ha hr]
      exact decides_between ha hr hop
    · rw [htext, trimChars_between ha hr]
      exact not_occurs_between ha hr hop he left right
  case ending =>
    have htext : (a ++ " " ++ op.word).toList = a.toList ++ ' ' :: op.token := by
      rw [← ending_word hop]
      simp
    have hbetween := between_ending ha hop
    rw [String.ofList_toList] at hbetween
    rw [← hbetween]
    refine read?_of_decides ?_ fun e he left right => ?_
    · rw [htext, trimChars_ending ha hop]
      exact decides_ending ha hop
    · rw [htext, trimChars_ending ha hop]
      exact not_occurs_ending ha hop he left right

/-- Operators within brackets of every kind, and a sign on the right. -/
theorem read?_of_operands_calls :
    let a := "f(a == b, [1 > 2]).x"
    let r := "-g\x7b is nil \x7d"
    Operand IsPathChar a.toList ∧ Operand IsTermChar r.toList ∧
      read? (a ++ " contains " ++ r) = some ⟨.contains, a, some (Literal.coerce r)⟩ ∧
      read? (a ++ " is not nil") = some ⟨.notNil, a, none⟩ := by
  intro a r
  have hall {p : Char → Prop} [DecidablePred p] {cs : List Char}
      (h : cs.all (fun c => decide (p c)) = true) : ∀ c ∈ cs, p c := by
    simpa using h
  have hinner : Grouped IsPlain ("a == b, ".toList ++ '[' :: ("1 > 2".toList ++ [']'])) :=
    (Grouped.group .square (.of_forall (hall (by decide))) .nil).append_left (hall (by decide))
  have ha : Operand IsPathChar a.toList := by
    refine ⟨?_, 'f', "(a == b, [1 > 2]).x".toList, by decide +kernel, by decide⟩
    have htext : a.toList = "f".toList ++
        '(' :: (("a == b, ".toList ++ '[' :: ("1 > 2".toList ++ [']'])) ++ ')' :: ".x".toList) := by
      decide +kernel
    rw [htext]
    exact (Grouped.group .round hinner (.of_forall (hall (by decide)))).append_left
      (hall (by decide))
  have hr : Operand IsTermChar r.toList := by
    refine ⟨?_, '-', "g\x7b is nil \x7d".toList, by decide +kernel, by decide⟩
    have htext : r.toList = "-g".toList ++ '\x7b' :: (" is nil ".toList ++ ['\x7d']) := by
      decide +kernel
    rw [htext]
    exact (Grouped.group .curly (.of_forall (hall (by decide))) .nil).append_left (hall (by decide))
  obtain ⟨hsides, hending⟩ := read?_of_operands ha hr
  exact ⟨ha, hr, hsides .contains rfl, hending .notNil rfl⟩

end Comparison
end CaseIntake
