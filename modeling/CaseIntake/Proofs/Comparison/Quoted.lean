import CaseIntake.Proofs.Comparison.Priority
import CaseIntake.Proofs.Reference

/-!
# CaseIntake.Proofs.Comparison.Quoted

Comparisons with a text in quotes on the right: when the quotes keep the operators within them from
being seen.

A scanner that counts quotes is inside them at every place of the body, so it finds the operator in
front of the quotes and no other (`place_of_occurs`). Whether it counts quotes depends on the whole
text: the other kind of quote may occur in the body an odd number of times. Then the body is plain
text to the scanner, and an operator there counts if it stands outside brackets (`Exposed`).
`read?_quoted_iff` is the main statement.
-/

namespace CaseIntake

/-- The blanks between an operator and what is next to it; the token of `contains` has its own. -/
def Operator.gap (op : Operator) : List Char :=
  if op = .contains then [] else [' ']

/-- The operator without blanks. -/
def Operator.word (op : Operator) : String :=
  String.ofList (Text.trimChars op.token)

namespace Comparison

/-- What is compared, the operator, and a text in quotes. -/
def quotedText (actual : String) (op : Operator) (q : Char) (body : String) : String :=
  actual ++ " " ++ op.word ++ " " ++ String.singleton q ++ body ++ String.singleton q

/-- The quote of the other kind. -/
def otherQuote (q : Char) : Char :=
  if q = '"' then '\'' else '"'

/-- The operator stands in the body outside all brackets, where quotes do not count. -/
def Exposed (op : Operator) (body : List Char) : Prop :=
  ∃ left right, body = left ++ op.token ++ right ∧ Opens false left 0 ∧
    (op = .greaterThan ∨ op = .lessThan → right.head? ≠ some '=')

/-- What stands in front of the quotes. -/
def front (actual : List Char) (op : Operator) : List Char :=
  actual ++ (op.gap ++ op.token ++ op.gap)

/-- A character that neither brackets nor quotes. -/
def IsPlain (c : Char) : Prop :=
  isQuote c = false ∧ isOpening c = false ∧ isClosing c = false

instance (c : Char) : Decidable (IsPlain c) :=
  inferInstanceAs (Decidable (_ ∧ _))

/-! ## Characters -/

theorem isPlain_of_isWordChar {c : Char} (h : Reference.isWordChar c = true) : IsPlain c := by
  refine ⟨?_, ?_, ?_⟩ <;> refine Bool.eq_false_iff.2 fun hc => ?_
  · rcases isQuote_iff.1 hc with rfl | rfl <;> simp [Reference.isWordChar] at h
  · rcases isOpening_iff.1 hc with rfl | rfl | rfl <;> simp [Reference.isWordChar] at h
  · rcases isClosing_iff.1 hc with rfl | rfl | rfl <;> simp [Reference.isWordChar] at h

theorem plain_of_mem_spaced {op : Operator} :
    ∀ c ∈ op.gap ++ op.token ++ op.gap, IsPlain c := by
  cases op <;> simp [Operator.gap, Operator.token, IsPlain, isQuote, isOpening, isClosing]

/-! ## Reading plain text -/

section Plain

variable {quotes : Bool} {start text : List Char} {depth : Nat}

theorem opens_append_plain (h : Opens quotes start depth) (htext : ∀ c ∈ text, IsPlain c) :
    Opens quotes (start ++ text) depth := by
  induction text generalizing start with
  | nil => simpa using h
  | cons c text ih =>
    obtain ⟨⟨hquote, hopening, hclosing⟩, hrest⟩ := List.forall_mem_cons.1 htext
    have hnext := ih (h.plain (fun _ => hquote) hopening hclosing) hrest
    simpa using hnext

/-- Behind a text that opens nothing a reader starts anew. -/
theorem opens_append_iff (h : Opens quotes start 0) :
    Opens quotes (start ++ text) 0 ↔ Opens quotes text 0 := by
  rw [← isOutside_read, ← isOutside_read, List.foldl_append, h.foldl]
  rfl

theorem quotedBody_of_not_mem {q : Char} {body : List Char} (hq : q ∉ body) (hb : '\\' ∉ body) :
    QuotedBody q body := by
  induction body with
  | nil => exact .nil
  | cons c body ih =>
    simp only [List.mem_cons, not_or] at hq hb
    exact .plain (fun heq => hq.1 heq.symm) (fun heq => hb.1 heq.symm) (ih hq.2 hb.2)

/-- No place of a body is outside the quotes before it, if these count. -/
theorem not_opens_inside {q : Char} {body : List Char} (h : Opens true start 0)
    (hquote : isQuote q = true) (hbody : QuotedBody q body) : ¬Opens true (start ++ q :: body) 0 := by
  rw [← isOutside_read, List.foldl_append, h.foldl, List.foldl_cons, step_quote rfl hquote,
    foldl_quotedBody hbody]
  simp [Nesting.isOutside]

end Plain

/-! ## The places of an operator -/

/-- A name, perhaps with dots in it, an operator of two sides, and a body that its quotes can hold. -/
structure Quotes (actual : List Char) (op : Operator) (q : Char) (body : List Char) : Prop where
  nonempty : actual ≠ []
  words : ∀ c ∈ actual, Reference.isWordChar c = true ∨ c = '.'
  sides : op.endsText = false
  quote : isQuote q = true
  closed : q ∉ body
  unescaped : '\\' ∉ body

theorem not_mem_token {q : Char} (hq : isQuote q = true) (e : Operator) : q ∉ e.token := by
  rcases isQuote_iff.1 hq with rfl | rfl <;> cases e <;> decide

/-- An operator cannot reach over a quote. -/
theorem token_before_quote {e : Operator} {q : Char} (hq : q ∉ e.token)
    {before right rest : List Char} (h : e.token ++ right = before ++ q :: rest) :
    ∃ between, before = e.token ++ between ∧ right = between ++ q :: rest := by
  rcases List.append_eq_append_iff.1 h with ⟨between, hbefore, hright⟩ | ⟨beyond, htoken, hrest⟩
  · exact ⟨between, hbefore, hright⟩
  · cases beyond with
    | nil =>
      rw [List.append_nil] at htoken
      exact ⟨[], by simp [htoken], hrest.symm⟩
    | cons c beyond =>
      obtain ⟨rfl, -⟩ := List.cons.inj hrest
      exact absurd (by simp [htoken]) hq

/-- Nor can it reach over the quote at the end. -/
theorem token_before_end {e : Operator} {q : Char} (hq : q ∉ e.token)
    {body inside right : List Char} (h : body ++ [q] = inside ++ (e.token ++ right)) :
    ∃ between, body = inside ++ (e.token ++ between) ∧ right = between ++ [q] := by
  rcases List.append_eq_append_iff.1 h with ⟨last, -, hlast⟩ | ⟨last, rfl, hlast⟩
  · obtain ⟨t, ts, htoken⟩ := List.exists_cons_of_ne_nil (token_ne_nil e)
    have ht : t ∈ [q] := by simp [hlast, htoken]
    obtain rfl := List.mem_singleton.1 ht
    exact absurd (by simp [htoken]) hq
  · obtain ⟨between, rfl, rfl⟩ := token_before_quote hq hlast
    exact ⟨between, rfl, rfl⟩

/-- A part of a text is found at the place where it stands. -/
theorem isPrefixOf_drop {before part after text : List Char} (h : text = before ++ (part ++ after))
    (hpart : part ≠ []) :
    before.length < text.length ∧ part.isPrefixOf (text.drop before.length) = true := by
  have hpos : 0 < part.length := List.length_pos_iff.2 hpart
  constructor
  · rw [h, List.length_append, List.length_append]
    omega
  · rw [h, List.drop_left, List.isPrefixOf_iff_prefix]
    exact List.prefix_append _ _

/-- Between its blanks an operator of two sides holds no other one. -/
theorem eq_of_mem_spaced {op e : Operator} (hop : op.endsText = false) (he : e.endsText = false)
    {before after : List Char} (h : op.gap ++ op.token ++ op.gap = before ++ (e.token ++ after)) :
    e = op ∧ before = op.gap := by
  have hplaces : ∀ n < (op.gap ++ op.token ++ op.gap).length,
      e.token.isPrefixOf ((op.gap ++ op.token ++ op.gap).drop n) = true →
      e = op ∧ n = op.gap.length := by
    cases op <;> cases hop <;> cases e <;> cases he <;> decide
  obtain ⟨hlt, hstands⟩ := isPrefixOf_drop h (token_ne_nil e)
  obtain ⟨rfl, hlength⟩ := hplaces before.length hlt hstands
  rw [List.append_assoc] at h
  exact ⟨rfl, (List.append_inj_left h hlength.symm).symm⟩

/-- No operator of two sides begins with a character of a name. -/
theorem not_begins_of_words {e : Operator} (he : e.endsText = false) {c : Char}
    (hc : Reference.isWordChar c = true ∨ c = '.') (rest : List Char) : e.token ≠ c :: rest := by
  intro htoken
  have hhead : e.token.head? = some c := by rw [htoken]; rfl
  have hnone : ∀ d, e.token.head? = some d → Reference.isWordChar d = false ∧ d ≠ '.' := by
    intro d hd
    cases e <;> cases he <;> cases hd <;> decide
  obtain ⟨hword, hdot⟩ := hnone c hhead
  rcases hc with hc | hc
  · rw [hword] at hc
    cases hc
  · exact hdot hc

namespace Quotes

variable {actual body left right : List Char} {op e : Operator} {q : Char}
  (h : Quotes actual op q body)

include h

theorem plain_of_mem_front : ∀ c ∈ front actual op, IsPlain c := by
  intro c hc
  rcases List.mem_append.1 hc with hc | hc
  · rcases h.words c hc with hword | rfl
    · exact isPlain_of_isWordChar hword
    · decide
  · exact plain_of_mem_spaced c hc

theorem opens_front (quotes : Bool) : Opens quotes (front actual op) 0 := by
  have hopens : Opens quotes ([] ++ front actual op) 0 :=
    opens_append_plain .nil h.plain_of_mem_front
  exact hopens

/-- A quote that does not count is a character like any other. -/
theorem opens_front_quote : Opens false (front actual op ++ [q]) 0 := by
  refine (h.opens_front false).plain (by simp) ?_ ?_ <;>
    rcases isQuote_iff.1 h.quote with rfl | rfl <;> decide

theorem quotesBalanced_eq :
    quotesBalanced (front actual op ++ q :: (body ++ [q])) =
      decide (body.count (otherQuote q) % 2 = 0) := by
  have hfront (d : Char) (hd : isQuote d = true) : (front actual op).count d = 0 := by
    refine List.count_eq_zero.2 fun hmem => ?_
    rw [(h.plain_of_mem_front d hmem).1] at hd
    cases hd
  have hbody : body.count q = 0 := List.count_eq_zero.2 h.closed
  rcases isQuote_iff.1 h.quote with rfl | rfl <;>
    simp [quotesBalanced, otherQuote, hfront '"' rfl, hfront '\'' rfl, hbody]

/-- An operator of two sides in front of the quotes is the operator that was written there. -/
theorem eq_of_mem_front (he : e.endsText = false) {after : List Char}
    (htext : front actual op = left ++ (e.token ++ after)) :
    e = op ∧ left = actual ++ op.gap := by
  rcases List.append_eq_append_iff.1 htext with ⟨before, rfl, hspaced⟩ | ⟨rest, hactual, hspaced⟩
  · obtain ⟨rfl, rfl⟩ := eq_of_mem_spaced h.sides he hspaced
    exact ⟨rfl, rfl⟩
  · cases rest with
    | nil =>
      have hstart : op.gap ++ op.token ++ op.gap = [] ++ (e.token ++ after) := hspaced.symm
      obtain ⟨rfl, hgap⟩ := eq_of_mem_spaced h.sides he hstart
      refine ⟨rfl, ?_⟩
      rw [← hgap, hactual, List.append_nil, List.append_nil]
    | cons c rest =>
      have hc : c ∈ actual := by simp [hactual]
      obtain ⟨t, ts, htoken⟩ := List.exists_cons_of_ne_nil (token_ne_nil e)
      rw [htoken] at hspaced
      obtain ⟨rfl, -⟩ := List.cons.inj hspaced
      exact absurd htoken (not_begins_of_words he (h.words t hc) ts)

/-- Quotes that hold an operator that counts do not count themselves. -/
theorem exposed_of_occurs {inside between : List Char} (hbody : body = inside ++ (e.token ++ between))
    (hoccurs : Occurs e (front actual op ++ q :: (body ++ [q])) (front actual op ++ q :: inside)
      (between ++ [q])) :
    body.count (otherQuote q) % 2 ≠ 0 ∧ Exposed e body := by
  have htop := hoccurs.topLevel
  rw [h.quotesBalanced_eq] at htop
  have hclosed : q ∉ inside := by
    intro hmem
    exact h.closed (by simp [hbody, hmem])
  have hunescaped : '\\' ∉ inside := by
    intro hmem
    exact h.unescaped (by simp [hbody, hmem])
  by_cases heven : body.count (otherQuote q) % 2 = 0
  · rw [decide_eq_true heven] at htop
    exact absurd htop (not_opens_inside (h.opens_front true) h.quote
      (quotedBody_of_not_mem hclosed hunescaped))
  · rw [decide_eq_false heven, List.append_cons, opens_append_iff h.opens_front_quote] at htop
    refine ⟨heven, inside, between, by simp [hbody], htop, fun hsign hequals => ?_⟩
    refine hoccurs.sign hsign ?_
    rw [List.head?_append, hequals]
    rfl

/-- An operator of two sides occurs where it was written, and else only within quotes that do not
count. -/
theorem place_of_occurs (he : e.endsText = false)
    (hoccurs : Occurs e (front actual op ++ q :: (body ++ [q])) left right) :
    (e = op ∧ left = actual ++ op.gap) ∨
      (body.count (otherQuote q) % 2 ≠ 0 ∧ Exposed e body) := by
  have hq := not_mem_token h.quote e
  have htext : front actual op ++ q :: (body ++ [q]) = left ++ (e.token ++ right) := by
    rw [← List.append_assoc]
    exact hoccurs.text
  rcases List.append_eq_append_iff.1 htext with ⟨beyond, rfl, hrest⟩ | ⟨rest, hfront, hrest⟩
  · cases beyond with
    | nil =>
      have hstart : e.token ++ right = [] ++ q :: (body ++ [q]) := hrest.symm
      obtain ⟨_, hnil, -⟩ := token_before_quote hq hstart
      exact absurd (List.append_eq_nil_iff.1 hnil.symm).1 (token_ne_nil e)
    | cons c inside =>
      obtain ⟨rfl, hbody⟩ := List.cons.inj hrest
      obtain ⟨between, hinside, rfl⟩ := token_before_end hq hbody
      exact Or.inr (h.exposed_of_occurs hinside hoccurs)
  · obtain ⟨after, rfl, rfl⟩ := token_before_quote hq hrest
    exact Or.inl (h.eq_of_mem_front he hfront)

theorem occurs_operator :
    Occurs op (front actual op ++ q :: (body ++ [q])) (actual ++ op.gap)
      (op.gap ++ q :: (body ++ [q])) := by
  have hplain : ∀ c ∈ actual ++ op.gap, IsPlain c := by
    intro c hc
    refine h.plain_of_mem_front c ?_
    rw [front, ← List.append_assoc, ← List.append_assoc]
    exact List.mem_append_left _ (List.mem_append_left _ hc)
  have hopens : Opens (quotesBalanced (front actual op ++ q :: (body ++ [q])))
      ([] ++ (actual ++ op.gap)) 0 := opens_append_plain .nil hplain
  refine ⟨by simp [front], hopens, ?_, ?_⟩
  · rintro (rfl | rfl) <;> simp [Operator.gap]
  · have hsides := h.sides
    rintro (rfl | rfl) <;> cases hsides

/-- Quotes that do not count hide nothing. -/
theorem occurs_of_exposed (hodd : body.count (otherQuote q) % 2 ≠ 0) (he : e.endsText = false)
    (hexposed : Exposed e body) :
    ∃ inside after, Occurs e (front actual op ++ q :: (body ++ [q]))
      (front actual op ++ q :: inside) (after ++ [q]) := by
  obtain ⟨inside, after, rfl, hopens, hsign⟩ := hexposed
  refine ⟨inside, after, by simp, ?_, ?_, ?_⟩
  · rw [h.quotesBalanced_eq, decide_eq_false hodd, List.append_cons,
      opens_append_iff h.opens_front_quote]
    exact hopens
  · intro hop
    have hne : q ≠ '=' := by
      rintro rfl
      exact absurd h.quote (by decide)
    cases after with
    | nil => simpa using hne
    | cons c after => exact hsign hop
  · rintro (rfl | rfl) <;> cases he

end Quotes

/-! ## The reading -/

theorem ofTrimmed_quoted {q : Char} (hq : isQuote q = true) (body : List Char) :
    Literal.ofTrimmed (q :: (body ++ [q])) = .string (String.ofList body) := by
  have hunquote : Literal.unquote? (q :: (body ++ [q])) = some body := by
    simp [Literal.unquote?, isQuote_iff.1 hq]
  rw [Literal.ofTrimmed, hunquote]

theorem isBlank_of_isQuote {q : Char} (hq : isQuote q = true) : Text.isBlank q = false := by
  rcases isQuote_iff.1 hq with rfl | rfl <;> decide

theorem isBlank_of_mem_gap {op : Operator} : ∀ c ∈ op.gap, Text.isBlank c = true := by
  cases op <;> simp [Operator.gap, Text.isBlank]

theorem spaced_word {op : Operator} (hop : op.endsText = false) :
    ' ' :: (op.word.toList ++ [' ']) = op.gap ++ op.token ++ op.gap := by
  rw [Operator.word, String.toList_ofList]
  cases op <;> cases hop <;> decide

theorem toList_quotedText (actual : String) {op : Operator} (hop : op.endsText = false) (q : Char)
    (body : String) :
    (quotedText actual op q body).toList =
      front actual.toList op ++ q :: (body.toList ++ [q]) := by
  rw [front, ← spaced_word hop]
  simp [quotedText]

namespace Quotes

variable {actual body : List Char} {op e : Operator} {q : Char} (h : Quotes actual op q body)

include h

theorem not_isBlank_of_mem : ∀ c ∈ actual, Text.isBlank c = false := by
  intro c hc
  rcases h.words c hc with hword | rfl
  · exact Reference.not_isBlank_of_isWordChar hword
  · decide

/-- What is compared begins with a character that no trimming takes off. -/
theorem exists_first : ∃ first rest, actual = first :: rest ∧ Text.isBlank first = false := by
  obtain ⟨first, rest, hactual⟩ := List.exists_cons_of_ne_nil h.nonempty
  exact ⟨first, rest, hactual, h.not_isBlank_of_mem first (by simp [hactual])⟩

theorem trimChars_actual : Text.trimChars (actual ++ op.gap) = actual := by
  rw [Text.trimChars_append_right isBlank_of_mem_gap]
  refine Text.trimChars_eq_self (fun c hc => ?_) (fun c hc => ?_)
  · exact h.not_isBlank_of_mem c (List.mem_of_head? hc)
  · exact h.not_isBlank_of_mem c (List.mem_of_getLast? hc)

theorem trimChars_quoted : Text.trimChars (op.gap ++ q :: (body ++ [q])) = q :: (body ++ [q]) := by
  have hblank := isBlank_of_isQuote h.quote
  rw [Text.trimChars_append_left isBlank_of_mem_gap]
  refine Text.trimChars_eq_self (fun c hc => ?_) (fun c hc => ?_)
  · obtain rfl := Option.some.inj hc
    exact hblank
  · rw [← List.cons_append, List.getLast?_concat] at hc
    obtain rfl := Option.some.inj hc
    exact hblank

theorem trimChars_whole :
    Text.trimChars (front actual op ++ q :: (body ++ [q])) = front actual op ++ q :: (body ++ [q]) := by
  obtain ⟨first, rest, hactual, hfirst⟩ := h.exists_first
  refine Text.trimChars_eq_self (fun c hc => ?_) (fun c hc => ?_)
  · rw [front, hactual] at hc
    obtain rfl := Option.some.inj hc
    exact hfirst
  · rw [← List.cons_append, ← List.append_assoc, List.getLast?_concat] at hc
    obtain rfl := Option.some.inj hc
    exact isBlank_of_isQuote h.quote

theorem between_eq :
    between op (actual ++ op.gap) (op.gap ++ q :: (body ++ [q])) =
      ⟨op, String.ofList actual, some (.string (String.ofList body))⟩ := by
  rw [between, h.trimChars_actual, Literal.coerce, String.toList_ofList, h.trimChars_quoted,
    ofTrimmed_quoted h.quote, h.sides]
  rfl

theorem decides_operator
    (honly : ∀ left right, Occurs op (front actual op ++ q :: (body ++ [q])) left right →
      left = actual ++ op.gap) :
    Decides op (front actual op ++ q :: (body ++ [q])) (actual ++ op.gap)
      (op.gap ++ q :: (body ++ [q])) := by
  obtain ⟨first, rest, hactual, hfirst⟩ := h.exists_first
  refine ⟨h.occurs_operator, honly, ⟨first, by simp [hactual], hfirst⟩, ?_⟩
  exact ⟨fun _ => h.sides, fun _ => ⟨q, by simp, isBlank_of_isQuote h.quote⟩⟩

/-- An operator that quotes do not hide keeps the text from being read as it was meant. -/
theorem not_exposed (hodd : body.count (otherQuote q) % 2 ≠ 0) (he : e = op ∨ e.TriedBefore op)
    {left right : List Char} (hdecides : Decides op (front actual op ++ q :: (body ++ [q])) left right)
    (hbefore : e.TriedBefore op → ¬Repeated e (front actual op ++ q :: (body ++ [q])) ∧
      ∀ l r, ¬Decides e (front actual op ++ q :: (body ++ [q])) l r) :
    ¬Exposed e body := by
  intro hexposed
  obtain ⟨first, rest, hactual, hfirst⟩ := h.exists_first
  rcases he with rfl | he
  · obtain ⟨inside, after, hoccurs⟩ := h.occurs_of_exposed hodd h.sides hexposed
    have hsame := (hdecides.once _ _ hoccurs).trans (hdecides.once _ _ h.occurs_operator).symm
    have hlength := congrArg List.length hsame
    simp [front] at hlength
  · have hsides := Operator.sides_of_triedBefore he h.sides
    obtain ⟨inside, after, hoccurs⟩ := h.occurs_of_exposed hodd hsides hexposed
    obtain ⟨hrepeated, hnot⟩ := hbefore he
    rcases blank_of_not_decides hsides hoccurs hrepeated (hnot _ _) with hblank | hblank
    · rw [hblank first (by simp [front, hactual])] at hfirst
      cases hfirst
    · have hlast := hblank q (by simp)
      rw [isBlank_of_isQuote h.quote] at hlast
      cases hlast

end Quotes

/-- A comparison with a text in quotes is read as it is meant iff the other kind of quote occurs in
the text an even number of times, or else no operator that counts is left without brackets there. -/
theorem read?_quoted_iff (actual : String) (op : Operator) (q : Char) (body : String)
    (hne : actual ≠ "") (hwords : ∀ c ∈ actual.toList, Reference.isWordChar c = true ∨ c = '.')
    (hop : op.endsText = false) (hq : isQuote q = true) (hclosed : q ∉ body.toList)
    (hunescaped : '\\' ∉ body.toList) :
    read? (quotedText actual op q body) = some ⟨op, actual, some (.string body)⟩ ↔
      body.toList.count (otherQuote q) % 2 = 0 ∨
        ∀ e : Operator, e = op ∨ e.TriedBefore op → ¬Exposed e body.toList := by
  have hnonempty : actual.toList ≠ [] := fun hnil => hne (String.toList_eq_nil_iff.1 hnil)
  have h : Quotes actual.toList op q body.toList :=
    ⟨hnonempty, hwords, hop, hq, hclosed, hunescaped⟩
  have hbetween := h.between_eq
  rw [String.ofList_toList, String.ofList_toList] at hbetween
  rw [read?_decided_iff, toList_quotedText actual hop, h.trimChars_whole]
  constructor
  · rintro ⟨⟨left, right, hdecides, -⟩, hbefore⟩
    refine Classical.or_iff_not_imp_left.2 fun hodd e he => ?_
    exact h.not_exposed hodd he hdecides (hbefore e)
  · intro hhidden
    have honly (e : Operator) (he : e = op ∨ e.TriedBefore op) (left right : List Char)
        (hoccurs : Occurs e (front actual.toList op ++ q :: (body.toList ++ [q])) left right) :
        e = op ∧ left = actual.toList ++ op.gap := by
      have hsides : e.endsText = false := by
        rcases he with rfl | he
        · exact hop
        · exact Operator.sides_of_triedBefore he hop
      rcases h.place_of_occurs hsides hoccurs with hplace | ⟨hodd, hexposed⟩
      · exact hplace
      · exact absurd hexposed ((hhidden.resolve_left hodd) e he)
    refine ⟨⟨_, _, h.decides_operator fun l r ho => (honly op (Or.inl rfl) l r ho).2,
      hbetween.symm⟩, fun e he => ?_⟩
    have hnot : ∀ l r, ¬Occurs e (front actual.toList op ++ q :: (body.toList ++ [q])) l r := by
      intro l r hoccurs
      obtain ⟨rfl, -⟩ := honly e (Or.inr he) l r hoccurs
      exact Nat.lt_irrefl _ he
    refine ⟨?_, fun l r hdecides => hnot l r hdecides.occurs⟩
    rintro ⟨l, r, _, _, hoccurs, _⟩
    exact hnot l r hoccurs

/-- Without an apostrophe the operator within the quotes is not seen. -/
theorem read?_quoted_iff_equation :
    read? (quotedText "result.text" .greaterThan '"' "a == [b") =
      some ⟨.greaterThan, "result.text", some (.string "a == [b")⟩ := by
  have hall : "result.text".toList.all (fun c => Reference.isWordChar c || c = '.') = true := by
    decide
  have hwords : ∀ c ∈ "result.text".toList, Reference.isWordChar c = true ∨ c = '.' := by
    intro c hc
    simpa using List.all_eq_true.1 hall c hc
  have heven : "a == [b".toList.count (otherQuote '"') % 2 = 0 := by decide
  exact (read?_quoted_iff "result.text" .greaterThan '"' "a == [b" (by decide) hwords
    (by decide) (by decide) (by decide) (by decide)).2 (Or.inl heven)

/-- With an apostrophe it is: the equality is there twice, or it counts before the order that was
meant. -/
theorem read?_quoted_apostrophe :
    quotedText "result" .equals '"' "it's == x" = "result == \"it's == x\"" ∧
      read? (quotedText "result" .equals '"' "it's == x") = none ∧
      read? (quotedText "result" .greaterThan '"' "it's == x") =
        some ⟨.equals, "result > \"it's", some (.string "x\"")⟩ := by
  refine ⟨by decide +kernel, by decide +kernel, by decide +kernel⟩

end Comparison
end CaseIntake
