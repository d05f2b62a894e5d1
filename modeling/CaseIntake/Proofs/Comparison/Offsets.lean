import CaseIntake.Proofs.Comparison.TopLevel
import CaseIntake.Proofs.Text.Utf8

/-!
# CaseIntake.Proofs.Comparison.Offsets

The occurrences of an operator, looked for in the bytes of a text.

`offsetsFrom` reads bytes: it keeps the open brackets and the quotes, and after a backslash inside
quotes it jumps over the next byte, also where this is the first byte of a longer character.
`offsetsFrom_eq_splits` is the main statement: it finds the places that the reader of characters
finds. Bytes that are not ASCII change nothing (`offsetsFrom_run`), so the bytes of one character
are one step of the reader of characters (`offsetsFrom_char`).
-/

namespace CaseIntake
namespace Comparison

open Text

/-- What stands around place `i` admits the operator there. -/
def fitsAt (op : Operator) (bytes : List UInt8) (i : Nat) : Bool :=
  match op with
  | .greaterThan | .lessThan => bytes[i + 1]? != some '='.toUInt8
  | .notNil | .nil =>
    i = 0 || [' ', '\t', '\n', '\x0c', '\r'].any fun c => bytes[i - 1]? == some c.toUInt8
  | _ => true

/-- The places, from `i` on, where the bytes of the operator stand outside brackets and quotes. -/
def offsetsFrom (quotes : Bool) (op : Operator) (bytes : List UInt8) (depth : Nat)
    (quote : Option UInt8) (i : Nat) : List Nat :=
  if h : i < bytes.length then
    match quote with
    | some q =>
      if bytes[i] = '\\'.toUInt8 then offsetsFrom quotes op bytes depth (some q) (i + 2)
      else if bytes[i] = q then offsetsFrom quotes op bytes depth none (i + 1)
      else offsetsFrom quotes op bytes depth (some q) (i + 1)
    | none =>
      if quotes = true ∧ (bytes[i] = '"'.toUInt8 ∨ bytes[i] = '\''.toUInt8) then
        offsetsFrom quotes op bytes depth (some bytes[i]) (i + 1)
      else if bytes[i] = '('.toUInt8 ∨ bytes[i] = '['.toUInt8 ∨ bytes[i] = '\x7b'.toUInt8 then
        offsetsFrom quotes op bytes (depth + 1) none (i + 1)
      else if bytes[i] = ')'.toUInt8 ∨ bytes[i] = ']'.toUInt8 ∨ bytes[i] = '\x7d'.toUInt8 then
        offsetsFrom quotes op bytes (depth - 1) none (i + 1)
      else if depth = 0 ∧ (utf8 op.token).isPrefixOf (bytes.drop i) = true ∧
          fitsAt op bytes i = true then
        i :: offsetsFrom quotes op bytes depth none (i + 1)
      else offsetsFrom quotes op bytes depth none (i + 1)
  else []
termination_by bytes.length - i

/-- The places of the operator in the bytes of a text. -/
def offsets (op : Operator) (cs : List Char) : List Nat :=
  offsetsFrom (quotesBalanced cs) op (utf8 cs) 0 none 0

/-! ## Where an operator starts -/

theorem token_ne_nil (op : Operator) : op.token ≠ [] := by
  cases op <;> decide

theorem startsAt_token {op : Operator} {previous : Option Char} {right : List Char} :
    op.startsAt previous (op.token ++ right) = true ↔
      (op = .greaterThan ∨ op = .lessThan → right.head? ≠ some '=') ∧
      (op = .notNil ∨ op = .nil → ∀ c, previous = some c → Text.isAsciiBlank c = true) := by
  have hstarts : op.token.isPrefixOf (op.token ++ right) = true := by
    rw [List.isPrefixOf_iff_prefix]
    exact List.prefix_append _ _
  unfold Operator.startsAt
  rw [hstarts, Bool.true_and]
  cases op <;> cases previous <;> simp [Operator.token, List.head?_eq_getElem?]

theorem startsAt_eq_token_append {op : Operator} {previous : Option Char} {cs : List Char}
    (h : op.startsAt previous cs = true) : cs = op.token ++ cs.drop op.token.length := by
  unfold Operator.startsAt at h
  obtain ⟨rest, hrest⟩ := List.isPrefixOf_iff_prefix.1 (Bool.and_eq_true_iff.1 h).1
  rw [← hrest, List.drop_left]

theorem splits_cons {quotes : Bool} {op : Operator} {n : Nesting} {previous : Option Char} {c : Char}
    {cs : List Char} :
    splits quotes op n previous (c :: cs) =
      if (n.isOutside && op.startsAt previous (c :: cs)) = true then
        ([], (c :: cs).drop op.token.length) ::
          (splits quotes op (n.step quotes c) (some c) cs).map fun s => (c :: s.1, s.2)
      else (splits quotes op (n.step quotes c) (some c) cs).map fun s => (c :: s.1, s.2) := rfl

/-! ## One byte -/

section Byte

variable {quotes : Bool} {op : Operator} {bytes : List UInt8} {depth i : Nat} {b q : UInt8}

theorem offsetsFrom_end {quote : Option UInt8} (h : bytes.length ≤ i) :
    offsetsFrom quotes op bytes depth quote i = [] := by
  rw [offsetsFrom, dif_neg (Nat.not_lt.2 h)]

theorem offsetsFrom_inside (hb : bytes[i]? = some b) :
    offsetsFrom quotes op bytes depth (some q) i =
      if b = '\\'.toUInt8 then offsetsFrom quotes op bytes depth (some q) (i + 2)
      else if b = q then offsetsFrom quotes op bytes depth none (i + 1)
      else offsetsFrom quotes op bytes depth (some q) (i + 1) := by
  obtain ⟨h, rfl⟩ := List.getElem?_eq_some_iff.1 hb
  rw [offsetsFrom, dif_pos h]

theorem offsetsFrom_outside (hb : bytes[i]? = some b) :
    offsetsFrom quotes op bytes depth none i =
      if quotes = true ∧ (b = '"'.toUInt8 ∨ b = '\''.toUInt8) then
        offsetsFrom quotes op bytes depth (some b) (i + 1)
      else if b = '('.toUInt8 ∨ b = '['.toUInt8 ∨ b = '\x7b'.toUInt8 then
        offsetsFrom quotes op bytes (depth + 1) none (i + 1)
      else if b = ')'.toUInt8 ∨ b = ']'.toUInt8 ∨ b = '\x7d'.toUInt8 then
        offsetsFrom quotes op bytes (depth - 1) none (i + 1)
      else if depth = 0 ∧ (utf8 op.token).isPrefixOf (bytes.drop i) = true ∧
          fitsAt op bytes i = true then
        i :: offsetsFrom quotes op bytes depth none (i + 1)
      else offsetsFrom quotes op bytes depth none (i + 1) := by
  obtain ⟨h, rfl⟩ := List.getElem?_eq_some_iff.1 hb
  rw [offsetsFrom, dif_pos h]

theorem ne_toUInt8 (h : 128 ≤ b.toNat) {c : Char} (hc : IsAscii c) : b ≠ c.toUInt8 := by
  rintro rfl
  rw [toNat_toUInt8 hc] at h
  exact absurd hc (Nat.not_lt.2 h)

theorem isAscii_token {op : Operator} : ∀ c ∈ op.token, IsAscii c := by
  have hall : op.token.all (fun c => decide (IsAscii c)) = true := by
    cases op <;> rfl
  simpa using hall

theorem isAscii_of_isQuote {c : Char} (hc : isQuote c = true) : IsAscii c := by
  rcases isQuote_iff.1 hc with rfl | rfl <;> decide

/-- A byte that is not ASCII changes nothing. -/
theorem offsetsFrom_high {quote : Option Char} (hquote : ∀ q ∈ quote, isQuote q = true)
    (hb : bytes[i]? = some b) (h : 128 ≤ b.toNat) :
    offsetsFrom quotes op bytes depth (quote.map Char.toUInt8) i =
      offsetsFrom quotes op bytes depth (quote.map Char.toUInt8) (i + 1) := by
  cases quote with
  | some q =>
    have hq : b ≠ q.toUInt8 := ne_toUInt8 h (isAscii_of_isQuote (hquote q rfl))
    have hbackslash : b ≠ '\\'.toUInt8 := ne_toUInt8 h (by decide)
    rw [Option.map_some, offsetsFrom_inside hb, if_neg hbackslash, if_neg hq]
  | none =>
    have hne : ∀ c, IsAscii c → b ≠ c.toUInt8 := fun c hc => ne_toUInt8 h hc
    have htoken : (utf8 op.token).isPrefixOf (bytes.drop i) = false := by
      obtain ⟨hi, rfl⟩ := List.getElem?_eq_some_iff.1 hb
      rw [List.drop_eq_getElem_cons hi]
      cases op <;> exact Bool.and_eq_false_imp.2 fun heq => absurd (beq_iff_eq.1 heq).symm (hne _ (by decide))
    rw [Option.map_none, offsetsFrom_outside hb]
    simp only [hne _ (show IsAscii '"' by decide), hne _ (show IsAscii '\'' by decide),
      hne _ (show IsAscii '(' by decide), hne _ (show IsAscii '[' by decide),
      hne _ (show IsAscii '\x7b' by decide), hne _ (show IsAscii ')' by decide),
      hne _ (show IsAscii ']' by decide), hne _ (show IsAscii '\x7d' by decide),
      htoken, or_self, and_false, false_and, if_false, Bool.false_eq_true]

theorem offsetsFrom_run {quote : Option Char} (hquote : ∀ q ∈ quote, isQuote q = true) {k : Nat}
    (h : ∀ j < k, ∃ b, bytes[i + j]? = some b ∧ 128 ≤ b.toNat) :
    offsetsFrom quotes op bytes depth (quote.map Char.toUInt8) i =
      offsetsFrom quotes op bytes depth (quote.map Char.toUInt8) (i + k) := by
  induction k with
  | zero => rfl
  | succ k ih =>
    obtain ⟨b, hb, hhigh⟩ := h k (Nat.lt_succ_self k)
    rw [ih fun j hj => h j (Nat.lt_succ_of_lt hj), offsetsFrom_high hquote hb hhigh]
    rfl

end Byte

/-! ## One character -/

section Place

variable {op : Operator} {left cs : List Char} {c : Char}

theorem drop_utf8 : (utf8 (left ++ cs)).drop (utf8 left).length = utf8 cs := by
  rw [utf8_append, List.drop_left]

theorem length_utf8_concat :
    (utf8 (left ++ [c])).length = (utf8 left).length + (String.utf8EncodeChar c).length := by
  rw [utf8_append, utf8_singleton, List.length_append]

theorem getElem?_utf8 {j : Nat} (hj : j < (String.utf8EncodeChar c).length) :
    (utf8 (left ++ c :: cs))[(utf8 left).length + j]? = some (String.utf8EncodeChar c)[j] := by
  rw [utf8_append, utf8_cons, List.getElem?_append_right (Nat.le_add_right _ _),
    Nat.add_sub_cancel_left, List.getElem?_append_left hj, List.getElem?_eq_getElem hj]

theorem getElem?_utf8_ascii (hc : IsAscii c) :
    (utf8 (left ++ c :: cs))[(utf8 left).length]? = some c.toUInt8 := by
  rw [utf8_append, utf8_cons, utf8EncodeChar_of_isAscii hc,
    List.getElem?_append_right (Nat.le_refl _), Nat.sub_self]
  rfl

theorem length_utf8_ascii (hc : IsAscii c) :
    (utf8 (left ++ [c])).length = (utf8 left).length + 1 := by
  rw [length_utf8_concat, utf8EncodeChar_of_isAscii hc, List.length_singleton]

/-- The byte before a place is blank iff the character before it is. -/
theorem wordBegins :
    (((utf8 left).length = 0 || [' ', '\t', '\n', '\x0c', '\r'].any fun a =>
        (utf8 (left ++ cs))[(utf8 left).length - 1]? == some a.toUInt8) = true) ↔
      ∀ a, left.getLast? = some a → isAsciiBlank a = true := by
  rcases List.eq_nil_or_concat left with rfl | ⟨before, d, rfl⟩
  · simp
  · rw [List.concat_eq_append]
    have hlength : (utf8 (before ++ [d])).length ≠ 0 := by
      simp [utf8_eq_nil]
    have hlast : (utf8 (before ++ [d] ++ cs))[(utf8 (before ++ [d])).length - 1]? =
        (utf8 (before ++ [d])).getLast? := by
      rw [utf8_append (before ++ [d]), List.getElem?_append_left (by omega),
        List.getLast?_eq_getElem?]
    have hbyte (a : Char) (ha : IsAscii a) :
        ((utf8 (before ++ [d])).getLast? == some a.toUInt8) = decide (d = a) := by
      rw [Bool.eq_iff_iff, beq_iff_eq, getLast?_utf8 ha, List.getLast?_concat]
      simp
    rw [hlast]
    simp only [List.any_cons, List.any_nil, Bool.or_false, hbyte _ (show IsAscii ' ' by decide),
      hbyte _ (show IsAscii '\t' by decide), hbyte _ (show IsAscii '\n' by decide),
      hbyte _ (show IsAscii '\x0c' by decide), hbyte _ (show IsAscii '\r' by decide)]
    simp [hlength, isAsciiBlank, or_assoc]

theorem fitsAt_utf8 {right : List Char} :
    fitsAt op (utf8 (left ++ (op.token ++ right))) (utf8 left).length = true ↔
      (op = .greaterThan ∨ op = .lessThan → right.head? ≠ some '=') ∧
      (op = .notNil ∨ op = .nil → ∀ a, left.getLast? = some a → isAsciiBlank a = true) := by
  have hnext (sign : Char) (hsign : IsAscii sign) :
      ((utf8 (left ++ ([sign] ++ right)))[(utf8 left).length + 1]? != some '='.toUInt8) = true ↔
        right.head? ≠ some '=' := by
    rw [utf8_append, utf8_append, utf8_singleton, utf8EncodeChar_of_isAscii hsign,
      List.getElem?_append_right (Nat.le_add_right _ _), Nat.add_sub_cancel_left,
      List.singleton_append, List.getElem?_cons_succ, ← List.head?_eq_getElem?, bne_iff_ne, Ne,
      head?_utf8 (by decide)]
  cases op with
  | equals | notEquals | contains => simp [fitsAt]
  | greaterThan => simpa [fitsAt, Operator.token] using hnext '>' (by decide)
  | lessThan => simpa [fitsAt, Operator.token] using hnext '<' (by decide)
  | notNil | nil => simpa [fitsAt] using wordBegins

/-- The bytes of the operator stand at a place iff the operator starts there. -/
theorem startsAt_utf8 :
    ((utf8 op.token).isPrefixOf ((utf8 (left ++ cs)).drop (utf8 left).length) = true ∧
        fitsAt op (utf8 (left ++ cs)) (utf8 left).length = true) ↔
      op.startsAt left.getLast? cs = true := by
  rw [drop_utf8, isPrefixOf_utf8 isAscii_token]
  constructor
  · rintro ⟨hstarts, hfits⟩
    obtain ⟨right, rfl⟩ := List.isPrefixOf_iff_prefix.1 hstarts
    exact startsAt_token.2 (fitsAt_utf8.1 hfits)
  · intro hstart
    obtain ⟨right, rfl⟩ : ∃ right, cs = op.token ++ right := ⟨_, startsAt_eq_token_append hstart⟩
    refine ⟨List.isPrefixOf_iff_prefix.2 (List.prefix_append _ _), ?_⟩
    exact fitsAt_utf8.2 (startsAt_token.1 hstart)

/-- No operator begins with a quote or a bracket. -/
theorem plain_of_startsAt {previous : Option Char} (h : op.startsAt previous (c :: cs) = true) :
    IsAscii c ∧ isQuote c = false ∧ isOpening c = false ∧ isClosing c = false := by
  have heq := startsAt_eq_token_append h
  cases op <;> simp only [Operator.token, List.cons_append, List.cons.injEq] at heq <;>
    obtain ⟨rfl, _⟩ := heq <;> decide

end Place

section Character

variable {quotes : Bool} {op : Operator} {depth : Nat} {left cs : List Char} {c q : Char}

/-- The bytes of a character that is not ASCII change nothing, also from the second one on. -/
theorem offsetsFrom_notAscii {quote : Option Char} (hquote : ∀ q ∈ quote, isQuote q = true)
    (hc : ¬IsAscii c) {k : Nat} (hk : k ≤ (String.utf8EncodeChar c).length) :
    offsetsFrom quotes op (utf8 (left ++ c :: cs)) depth (quote.map Char.toUInt8)
        ((utf8 left).length + k) =
      offsetsFrom quotes op (utf8 (left ++ c :: cs)) depth (quote.map Char.toUInt8)
        (utf8 (left ++ [c])).length := by
  rw [offsetsFrom_run hquote (k := (String.utf8EncodeChar c).length - k), length_utf8_concat]
  · congr 1
    omega
  · intro j hj
    have hlt : k + j < (String.utf8EncodeChar c).length := by omega
    refine ⟨_, ?_, le_of_mem_utf8EncodeChar hc (List.getElem_mem hlt)⟩
    rw [Nat.add_assoc, getElem?_utf8 hlt]

theorem offsetsFrom_inside_char (hq : isQuote q = true) :
    offsetsFrom quotes op (utf8 (left ++ c :: cs)) depth (some q.toUInt8) (utf8 left).length =
      if c = '\\' then
        offsetsFrom quotes op (utf8 (left ++ c :: cs)) depth (some q.toUInt8)
          ((utf8 (left ++ [c])).length + 1)
      else if c = q then
        offsetsFrom quotes op (utf8 (left ++ c :: cs)) depth none (utf8 (left ++ [c])).length
      else
        offsetsFrom quotes op (utf8 (left ++ c :: cs)) depth (some q.toUInt8)
          (utf8 (left ++ [c])).length := by
  have hqa := isAscii_of_isQuote hq
  by_cases hc : IsAscii c
  · rw [offsetsFrom_inside (getElem?_utf8_ascii hc), length_utf8_ascii hc]
    simp only [toUInt8_eq_iff hc hqa, toUInt8_eq_iff hc (show IsAscii '\\' by decide)]
  · have hbackslash : c ≠ '\\' := by
      rintro rfl
      exact hc (by decide)
    have hcq : c ≠ q := by
      rintro rfl
      exact hc hqa
    rw [if_neg hbackslash, if_neg hcq]
    have hquote : ∀ a ∈ some q, isQuote a = true := by
      simpa using hq
    exact offsetsFrom_notAscii hquote hc (Nat.zero_le _)

/-- After a backslash, the jump ends after the first byte of the next character. -/
theorem offsetsFrom_escaped_char (hq : isQuote q = true) :
    offsetsFrom quotes op (utf8 (left ++ c :: cs)) depth (some q.toUInt8)
        ((utf8 left).length + 1) =
      offsetsFrom quotes op (utf8 (left ++ c :: cs)) depth (some q.toUInt8)
        (utf8 (left ++ [c])).length := by
  by_cases hc : IsAscii c
  · rw [length_utf8_ascii hc]
  · have hlength : 1 ≤ (String.utf8EncodeChar c).length :=
      List.length_pos_iff.2 String.utf8EncodeChar_ne_nil
    have hquote : ∀ a ∈ some q, isQuote a = true := by
      simpa using hq
    exact offsetsFrom_notAscii hquote hc hlength

theorem offsetsFrom_outside_char :
    offsetsFrom quotes op (utf8 (left ++ c :: cs)) depth none (utf8 left).length =
      if quotes = true ∧ isQuote c = true then
        offsetsFrom quotes op (utf8 (left ++ c :: cs)) depth (some c.toUInt8)
          (utf8 (left ++ [c])).length
      else if isOpening c = true then
        offsetsFrom quotes op (utf8 (left ++ c :: cs)) (depth + 1) none (utf8 (left ++ [c])).length
      else if isClosing c = true then
        offsetsFrom quotes op (utf8 (left ++ c :: cs)) (depth - 1) none (utf8 (left ++ [c])).length
      else if depth = 0 ∧ op.startsAt left.getLast? (c :: cs) = true then
        (utf8 left).length ::
          offsetsFrom quotes op (utf8 (left ++ c :: cs)) depth none (utf8 (left ++ [c])).length
      else
        offsetsFrom quotes op (utf8 (left ++ c :: cs)) depth none (utf8 (left ++ [c])).length := by
  by_cases hc : IsAscii c
  · have hbyte (a : Char) (ha : IsAscii a) : c.toUInt8 = a.toUInt8 ↔ c = a := toUInt8_eq_iff hc ha
    rw [offsetsFrom_outside (getElem?_utf8_ascii hc), length_utf8_ascii hc]
    simp only [startsAt_utf8, hbyte _ (show IsAscii '"' by decide),
      hbyte _ (show IsAscii '\'' by decide), hbyte _ (show IsAscii '(' by decide),
      hbyte _ (show IsAscii '[' by decide), hbyte _ (show IsAscii '\x7b' by decide),
      hbyte _ (show IsAscii ')' by decide), hbyte _ (show IsAscii ']' by decide),
      hbyte _ (show IsAscii '\x7d' by decide), isQuote, isOpening, isClosing, Bool.or_eq_true,
      decide_eq_true_eq, or_assoc]
  · have hne (a : Char) (ha : IsAscii a) : c ≠ a := by
      rintro rfl
      exact hc ha
    have hquote : isQuote c = false := by
      simp [isQuote, hne _ (show IsAscii '"' by decide), hne _ (show IsAscii '\'' by decide)]
    have hopening : isOpening c = false := by
      simp [isOpening, hne _ (show IsAscii '(' by decide), hne _ (show IsAscii '[' by decide),
        hne _ (show IsAscii '\x7b' by decide)]
    have hclosing : isClosing c = false := by
      simp [isClosing, hne _ (show IsAscii ')' by decide), hne _ (show IsAscii ']' by decide),
        hne _ (show IsAscii '\x7d' by decide)]
    have hstart : op.startsAt left.getLast? (c :: cs) = false := by
      rw [← Bool.not_eq_true]
      intro hstart
      exact hc (plain_of_startsAt hstart).1
    simp only [hquote, hopening, hclosing, hstart, Bool.false_eq_true, and_false, if_false]
    have hquotes : ∀ a ∈ (none : Option Char), isQuote a = true := by
      simp
    exact offsetsFrom_notAscii hquotes hc (Nat.zero_le _)

theorem offsetsFrom_char_outside :
    offsetsFrom quotes op (utf8 (left ++ c :: cs)) depth none (utf8 left).length =
      (if depth = 0 ∧ op.startsAt left.getLast? (c :: cs) = true then [(utf8 left).length] else []) ++
      offsetsFrom quotes op (utf8 (left ++ c :: cs)) (Nesting.step quotes ⟨depth, none, false⟩ c).depth
        ((Nesting.step quotes ⟨depth, none, false⟩ c).quote.map Char.toUInt8)
        ((utf8 (left ++ [c])).length +
          (Nesting.step quotes ⟨depth, none, false⟩ c).escaped.toNat) := by
  have hstart (h : depth = 0 ∧ op.startsAt left.getLast? (c :: cs) = true) :=
    (plain_of_startsAt h.2).2
  rw [offsetsFrom_outside_char]
  by_cases hquote : quotes = true ∧ isQuote c = true
  · rw [if_pos hquote, if_neg fun h => by simp [(hstart h).1] at hquote,
      step_quote hquote.1 hquote.2]
    rfl
  · have hplain : quotes = true → isQuote c = false := fun h => by simpa [h] using hquote
    rw [if_neg hquote]
    cases hopening : isOpening c with
    | true =>
      rw [if_pos rfl, if_neg fun h => by simp [(hstart h).2.1] at hopening, step_opening hopening]
      rfl
    | false =>
      rw [if_neg Bool.false_ne_true]
      cases hclosing : isClosing c with
      | true =>
        rw [if_pos rfl, if_neg fun h => by simp [(hstart h).2.2] at hclosing,
          step_closing hclosing]
        rfl
      | false =>
        rw [if_neg Bool.false_ne_true, step_plain hplain hopening hclosing]
        split <;> rfl

theorem offsetsFrom_char_inside (hq : isQuote q = true) :
    offsetsFrom quotes op (utf8 (left ++ c :: cs)) depth (some q.toUInt8) (utf8 left).length =
      offsetsFrom quotes op (utf8 (left ++ c :: cs))
        (Nesting.step quotes ⟨depth, some q, false⟩ c).depth
        ((Nesting.step quotes ⟨depth, some q, false⟩ c).quote.map Char.toUInt8)
        ((utf8 (left ++ [c])).length +
          (Nesting.step quotes ⟨depth, some q, false⟩ c).escaped.toNat) := by
  rw [offsetsFrom_inside_char hq]
  by_cases hb : c = '\\'
  · subst hb
    rw [if_pos rfl, step_backslash]
    rfl
  · rw [if_neg hb]
    by_cases hcq : c = q
    · subst hcq
      rw [if_pos rfl, step_endQuote hq]
      rfl
    · rw [if_neg hcq, step_inside hcq hb]
      rfl

/-- The bytes of one character are one step of the reader of characters. After a backslash inside
quotes the reader of bytes stands one byte further on. -/
theorem offsetsFrom_char {n : Nesting} (h : Reads quotes left n) :
    offsetsFrom quotes op (utf8 (left ++ c :: cs)) n.depth (n.quote.map Char.toUInt8)
        ((utf8 left).length + n.escaped.toNat) =
      (if (n.isOutside && op.startsAt left.getLast? (c :: cs)) = true then [(utf8 left).length]
        else []) ++
      offsetsFrom quotes op (utf8 (left ++ c :: cs)) (n.step quotes c).depth
        ((n.step quotes c).quote.map Char.toUInt8)
        ((utf8 (left ++ [c])).length + (n.step quotes c).escaped.toNat) := by
  cases h with
  | @outside depth hopens =>
    have hout : ((Nesting.mk depth none false).isOutside &&
          op.startsAt left.getLast? (c :: cs)) = true ↔
        depth = 0 ∧ op.startsAt left.getLast? (c :: cs) = true := by
      simp [Nesting.isOutside]
    simp only [hout]
    exact offsetsFrom_char_outside
  | @inside start body depth q hquotes hq hopens hbody heq =>
    have hout : (Nesting.mk depth (some q) false).isOutside = false := by
      simp [Nesting.isOutside]
    simp only [hout, Bool.false_and, Bool.false_eq_true, if_false, List.nil_append]
    exact offsetsFrom_char_inside hq
  | @afterBackslash start body depth q hquotes hq hopens hbody heq =>
    have hout : (Nesting.mk depth (some q) true).isOutside = false := by
      simp [Nesting.isOutside]
    simp only [hout, Bool.false_and, Bool.false_eq_true, if_false, List.nil_append]
    exact offsetsFrom_escaped_char hq

end Character

/-! ## A whole text -/

/-- The reader of bytes agrees with the reader of characters from every position of a reading. -/
theorem offsetsFrom_eq_splits {quotes : Bool} {op : Operator} :
    ∀ {cs left : List Char} {n : Nesting}, Reads quotes left n →
      offsetsFrom quotes op (utf8 (left ++ cs)) n.depth (n.quote.map Char.toUInt8)
          ((utf8 left).length + n.escaped.toNat) =
        (splits quotes op n left.getLast? cs).map fun s => (utf8 (left ++ s.1)).length := by
  intro cs
  induction cs with
  | nil =>
    intro left n _
    rw [List.append_nil, offsetsFrom_end (Nat.le_add_right _ _)]
    rfl
  | cons c cs ih =>
    intro left n h
    have hnext := ih (h.step c)
    have hlater : ((splits quotes op (n.step quotes c) (some c) cs).map
          fun s => (c :: s.1, s.2)).map (fun s => (utf8 (left ++ s.1)).length) =
        (splits quotes op (n.step quotes c) (some c) cs).map
          fun s => (utf8 (left ++ [c] ++ s.1)).length := by
      simp
    rw [List.getLast?_concat, ← hlater, List.append_assoc, List.singleton_append] at hnext
    rw [offsetsFrom_char h, hnext, splits_cons]
    split
    · rw [List.map_cons, List.append_nil]
      rfl
    · rfl

/-- The places of the operator in the bytes are the lengths, in bytes, of the left sides. -/
theorem offsets_eq (op : Operator) (cs : List Char) :
    offsets op cs =
      (splits (quotesBalanced cs) op .outside none cs).map fun s => (utf8 s.1).length :=
  offsetsFrom_eq_splits (.outside .nil : Reads (quotesBalanced cs) [] .outside)

end Comparison
end CaseIntake
