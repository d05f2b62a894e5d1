import CaseIntake.Comparison

/-!
# CaseIntake.Proofs.Comparison.TopLevel

Which texts end outside quotes, and with how many brackets open, said as a grammar (`Opens`).

`isOutside_read` is the main statement: reading a text from the left ends outside brackets and
quotes iff the grammar derives the text with no bracket open. The invariant of a reading is
`Reads`; one character preserves it (`Reads.step`), and so does a whole text (`Reads.foldl`).
-/

namespace CaseIntake
namespace Comparison

def isQuote (c : Char) : Bool :=
  c = '"' || c = '\''

def isOpening (c : Char) : Bool :=
  c = '(' || c = '[' || c = '\x7b'

def isClosing (c : Char) : Bool :=
  c = ')' || c = ']' || c = '\x7d'

theorem isQuote_iff {c : Char} : isQuote c = true ↔ c = '"' ∨ c = '\'' := by
  simp [isQuote]

theorem isOpening_iff {c : Char} : isOpening c = true ↔ c = '(' ∨ c = '[' ∨ c = '\x7b' := by
  simp [isOpening, or_assoc]

theorem isClosing_iff {c : Char} : isClosing c = true ↔ c = ')' ∨ c = ']' ∨ c = '\x7d' := by
  simp [isClosing, or_assoc]

/-- What may stand between two quotes `q`: a backslash protects the character after it. -/
inductive QuotedBody (q : Char) : List Char → Prop where
  | nil : QuotedBody q []
  | plain {c : Char} {cs : List Char} : c ≠ q → c ≠ '\\' → QuotedBody q cs →
      QuotedBody q (c :: cs)
  | escaped {c : Char} {cs : List Char} : QuotedBody q cs → QuotedBody q ('\\' :: c :: cs)

/-- A text that ends outside quotes with so many brackets open. Closing a bracket where none is
open changes nothing, and nothing inside quotes counts. -/
inductive Opens (quotes : Bool) : List Char → Nat → Prop where
  | nil : Opens quotes [] 0
  | opening {before : List Char} {depth : Nat} {c : Char} : Opens quotes before depth →
      isOpening c = true → Opens quotes (before ++ [c]) (depth + 1)
  | closing {before : List Char} {depth : Nat} {c : Char} : Opens quotes before depth →
      isClosing c = true → Opens quotes (before ++ [c]) (depth - 1)
  | plain {before : List Char} {depth : Nat} {c : Char} : Opens quotes before depth →
      (quotes = true → isQuote c = false) → isOpening c = false → isClosing c = false →
      Opens quotes (before ++ [c]) depth
  | quoted {before body : List Char} {depth : Nat} {q : Char} : Opens quotes before depth →
      quotes = true → isQuote q = true → QuotedBody q body →
      Opens quotes (before ++ q :: (body ++ [q])) depth

namespace QuotedBody

variable {q : Char} {body : List Char}

theorem append_plain {c : Char} (h : QuotedBody q body) (hq : c ≠ q) (hb : c ≠ '\\') :
    QuotedBody q (body ++ [c]) := by
  induction h with
  | nil => exact .plain hq hb .nil
  | plain hq' hb' _ ih => exact .plain hq' hb' ih
  | escaped _ ih => exact .escaped ih

theorem append_escaped {c : Char} (h : QuotedBody q body) : QuotedBody q (body ++ ['\\', c]) := by
  induction h with
  | nil => exact .escaped .nil
  | plain hq hb _ ih => exact .plain hq hb ih
  | escaped _ ih => exact .escaped ih

end QuotedBody

/-! ## One character -/

section Step

variable {quotes : Bool} {depth : Nat} {c q : Char}

theorem step_quote (hquotes : quotes = true) (hc : isQuote c = true) :
    Nesting.step quotes ⟨depth, none, false⟩ c = ⟨depth, some c, false⟩ := by
  simp [Nesting.step, hquotes, isQuote_iff.1 hc]

theorem step_opening (hc : isOpening c = true) :
    Nesting.step quotes ⟨depth, none, false⟩ c = ⟨depth + 1, none, false⟩ := by
  rcases isOpening_iff.1 hc with rfl | rfl | rfl <;> simp [Nesting.step]

theorem step_closing (hc : isClosing c = true) :
    Nesting.step quotes ⟨depth, none, false⟩ c = ⟨depth - 1, none, false⟩ := by
  rcases isClosing_iff.1 hc with rfl | rfl | rfl <;> simp [Nesting.step]

theorem step_plain (hq : quotes = true → isQuote c = false) (ho : isOpening c = false)
    (hc : isClosing c = false) :
    Nesting.step quotes ⟨depth, none, false⟩ c = ⟨depth, none, false⟩ := by
  have hquote : (quotes && (c = '"' || c = '\'')) = false := by
    cases quotes with
    | false => rfl
    | true => exact hq rfl
  simp only [isOpening, isClosing, Bool.or_eq_false_iff, decide_eq_false_iff_not] at ho hc
  obtain ⟨⟨ho1, ho2⟩, ho3⟩ := ho
  obtain ⟨⟨hc1, hc2⟩, hc3⟩ := hc
  simp [Nesting.step, hquote, ho1, ho2, ho3, hc1, hc2, hc3]

theorem step_escaped :
    Nesting.step quotes ⟨depth, some q, true⟩ c = ⟨depth, some q, false⟩ := rfl

theorem step_backslash :
    Nesting.step quotes ⟨depth, some q, false⟩ '\\' = ⟨depth, some q, true⟩ := by
  simp [Nesting.step]

theorem step_inside (hq : c ≠ q) (hb : c ≠ '\\') :
    Nesting.step quotes ⟨depth, some q, false⟩ c = ⟨depth, some q, false⟩ := by
  simp [Nesting.step, hq, hb]

theorem step_endQuote (hq : isQuote q = true) :
    Nesting.step quotes ⟨depth, some q, false⟩ q = ⟨depth, none, false⟩ := by
  have hb : q ≠ '\\' := by
    rintro rfl
    exact absurd hq (by decide)
  simp [Nesting.step, hb]

theorem foldl_quotedBody {body : List Char} (h : QuotedBody q body) :
    body.foldl (Nesting.step quotes) ⟨depth, some q, false⟩ = ⟨depth, some q, false⟩ := by
  induction h with
  | nil => rfl
  | plain hq hb _ ih => rw [List.foldl_cons, step_inside hq hb, ih]
  | escaped _ ih => rw [List.foldl_cons, List.foldl_cons, step_backslash, step_escaped, ih]

end Step

/-! ## A whole text -/

theorem Opens.foldl {quotes : Bool} {text : List Char} {depth : Nat} (h : Opens quotes text depth) :
    text.foldl (Nesting.step quotes) .outside = ⟨depth, none, false⟩ := by
  induction h with
  | nil => rfl
  | opening _ hc ih => rw [List.foldl_append, ih, List.foldl_cons, step_opening hc]; rfl
  | closing _ hc ih => rw [List.foldl_append, ih, List.foldl_cons, step_closing hc]; rfl
  | plain _ hq ho hc ih => rw [List.foldl_append, ih, List.foldl_cons, step_plain hq ho hc]; rfl
  | quoted _ hquotes hq hbody ih =>
    rw [List.foldl_append, ih, List.foldl_cons, step_quote hquotes hq, List.foldl_append,
      foldl_quotedBody hbody, List.foldl_cons, step_endQuote hq]
    rfl

/-- Without a sign at its end that means nothing to the reader, a text opens as much as with it. -/
theorem Opens.of_concat {quotes : Bool} {text : List Char} {depth : Nat} {c : Char}
    (h : Opens quotes (text ++ [c]) depth) (hq : isQuote c = false) (ho : isOpening c = false)
    (hc : isClosing c = false) : Opens quotes text depth := by
  generalize heq : text ++ [c] = whole at h
  cases h with
  | nil => simp at heq
  | opening _ ho' =>
    obtain ⟨rfl, hlast⟩ := List.append_inj' heq rfl
    obtain rfl := List.singleton_inj.1 hlast
    rw [ho] at ho'
    cases ho'
  | closing _ hc' =>
    obtain ⟨rfl, hlast⟩ := List.append_inj' heq rfl
    obtain rfl := List.singleton_inj.1 hlast
    rw [hc] at hc'
    cases hc'
  | plain h _ _ _ =>
    obtain ⟨rfl, -⟩ := List.append_inj' heq rfl
    exact h
  | @quoted before body _ q _ _ hq' _ =>
    have hwhole : before ++ q :: (body ++ [q]) = (before ++ q :: body) ++ [q] := by simp
    rw [hwhole] at heq
    obtain ⟨-, hlast⟩ := List.append_inj' heq rfl
    obtain rfl := List.singleton_inj.1 hlast
    rw [hq] at hq'
    cases hq'

/-- What the position after `before` says about `before`. Inside quotes, the text since the quote
is a quoted body, or one and a backslash. -/
inductive Reads (quotes : Bool) (before : List Char) : Nesting → Prop where
  | outside {depth : Nat} : Opens quotes before depth → Reads quotes before ⟨depth, none, false⟩
  | inside {start body : List Char} {depth : Nat} {q : Char} : quotes = true → isQuote q = true →
      Opens quotes start depth → QuotedBody q body → before = start ++ q :: body →
      Reads quotes before ⟨depth, some q, false⟩
  | afterBackslash {start body : List Char} {depth : Nat} {q : Char} : quotes = true →
      isQuote q = true → Opens quotes start depth → QuotedBody q body →
      before = start ++ q :: (body ++ ['\\']) → Reads quotes before ⟨depth, some q, true⟩

namespace Reads

variable {quotes : Bool} {before : List Char} {n : Nesting}

theorem step (h : Reads quotes before n) (c : Char) :
    Reads quotes (before ++ [c]) (n.step quotes c) := by
  cases h with
  | outside hopens =>
    by_cases hquote : quotes = true ∧ isQuote c = true
    · rw [step_quote hquote.1 hquote.2]
      exact .inside hquote.1 hquote.2 hopens .nil rfl
    · have hq : quotes = true → isQuote c = false := fun h => by simpa [h] using hquote
      cases ho : isOpening c with
      | true => rw [step_opening ho]; exact .outside (.opening hopens ho)
      | false =>
        cases hc : isClosing c with
        | true => rw [step_closing hc]; exact .outside (.closing hopens hc)
        | false => rw [step_plain hq ho hc]; exact .outside (.plain hopens hq ho hc)
  | @inside start body _ q hquotes hq hopens hbody heq =>
    by_cases hb : c = '\\'
    · subst hb
      rw [step_backslash]
      exact .afterBackslash hquotes hq hopens hbody (by simp [heq])
    · by_cases hcq : c = q
      · subst hcq
        rw [step_endQuote hq, show before ++ [c] = start ++ c :: (body ++ [c]) by simp [heq]]
        exact .outside (.quoted hopens hquotes hq hbody)
      · rw [step_inside hcq hb]
        exact .inside hquotes hq hopens (hbody.append_plain hcq hb) (by simp [heq])
  | afterBackslash hquotes hq hopens hbody heq =>
    rw [step_escaped]
    exact .inside hquotes hq hopens (hbody.append_escaped (c := c)) (by simp [heq])

theorem foldl (h : Reads quotes before n) :
    ∀ cs : List Char, Reads quotes (before ++ cs) (cs.foldl (Nesting.step quotes) n) := by
  intro cs
  induction cs generalizing before n with
  | nil => simpa using h
  | cons c cs ih => simpa using ih (h.step c)

theorem opens (h : Reads quotes before n) (hn : n.isOutside = true) : Opens quotes before 0 := by
  cases h with
  | outside hopens =>
    simp only [Nesting.isOutside, Option.isNone_none, Bool.and_true, decide_eq_true_eq] at hn
    rwa [hn] at hopens
  | inside => simp [Nesting.isOutside] at hn
  | afterBackslash => simp [Nesting.isOutside] at hn

end Reads

/-- Reading a text ends outside brackets and quotes iff the text leaves none of them open. -/
theorem isOutside_read {quotes : Bool} {text : List Char} :
    (text.foldl (Nesting.step quotes) .outside).isOutside = true ↔ Opens quotes text 0 := by
  constructor
  · intro h
    have hreads : Reads quotes text (text.foldl (Nesting.step quotes) .outside) :=
      Reads.foldl (.outside .nil) text
    exact hreads.opens h
  · intro h
    rw [h.foldl]
    rfl

end Comparison
end CaseIntake
