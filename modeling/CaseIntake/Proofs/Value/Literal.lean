import CaseIntake.Proofs.Number.Decimal
import CaseIntake.Proofs.Number.Numeral
import CaseIntake.Proofs.Number.Word
import CaseIntake.Value.Literal

/-!
# CaseIntake.Proofs.Value.Literal

What a free text stands for, said without a reader (`StandsFor`): the text between two equal quotes,
a whole number of 64 bits, a decimal numeral rounded to the nearest number, a word, or else itself.

`coerce_eq_iff` is the main statement: a text is read as `v` iff it stands for `v`. Each reading has
one lemma that says when it succeeds, and from it follows when it fails.
-/

namespace CaseIntake
namespace Literal

/-! ## What a text stands for -/

/-- The text is `inner` between two equal quotes. -/
def IsQuoted (cs inner : List Char) : Prop :=
  ∃ q, (q = '"' ∨ q = '\'') ∧ cs = q :: (inner ++ [q])

/-- The text is a decimal numeral, and `x` is what it is rounded to. -/
def IsFloat (cs : List Char) (x : Binary64) : Prop :=
  ∃ n, IsDecimal cs n ∧ Binary64.Rounds n.negative n.magnitude x

inductive IsWord : String → Value → Prop where
  | true : IsWord "true" (.bool true)
  | false : IsWord "false" (.bool false)
  | nil : IsWord "nil" .null
  | null : IsWord "null" .null

/-- The value that a text without blanks at its ends stands for. Every reading counts only where the
earlier ones fail. -/
inductive StandsFor (cs : List Char) : Value → Prop where
  | quoted {inner : List Char} : IsQuoted cs inner → StandsFor cs (.string (String.ofList inner))
  | int {i : Int64} : (∀ inner, ¬IsQuoted cs inner) → IsWhole cs i.toInt → StandsFor cs (.int i)
  | float {x : Binary64} : (∀ inner, ¬IsQuoted cs inner) → (∀ i : Int64, ¬IsWhole cs i.toInt) →
      IsFloat cs x → StandsFor cs (.float x)
  | word {v : Value} : (∀ inner, ¬IsQuoted cs inner) → (∀ i : Int64, ¬IsWhole cs i.toInt) →
      (∀ x, ¬IsFloat cs x) → IsWord (String.ofList cs) v → StandsFor cs v
  | text : (∀ inner, ¬IsQuoted cs inner) → (∀ i : Int64, ¬IsWhole cs i.toInt) →
      (∀ x, ¬IsFloat cs x) → (∀ v, ¬IsWord (String.ofList cs) v) →
      StandsFor cs (.string (String.ofList cs))

/-! ## The readings -/

section Readings

variable {cs : List Char}

theorem unquote?_eq_some_iff {inner : List Char} :
    unquote? cs = some inner ↔ IsQuoted cs inner := by
  constructor
  · intro h
    cases cs with
    | nil => cases h
    | cons q rest =>
      rw [unquote?] at h
      split at h
      · rename_i hquotes
        simp only [Bool.and_eq_true, Bool.or_eq_true, decide_eq_true_eq] at hquotes
        obtain ⟨hquote, hlast⟩ := hquotes
        obtain rfl := Option.some.inj h
        exact ⟨q, hquote, by rw [List.dropLast_append_getLast? q hlast]⟩
      · cases h
  · rintro ⟨q, hquote, rfl⟩
    simp [unquote?, hquote]

theorem int?_eq_some_iff {i : Int64} : int? cs = some i ↔ IsWhole cs i.toInt := by
  rw [int?, Option.bind_eq_some_iff]
  constructor
  · rintro ⟨n, hn, hi⟩
    rw [← Word.int64?_eq_some_iff.1 hi]
    exact Digits.readSigned?_iff.1 hn
  · intro h
    exact ⟨_, Digits.readSigned?_iff.2 h, Word.int64?_toInt i⟩

theorem float?_eq_some_iff {x : Binary64} : float? cs = some x ↔ IsFloat cs x := by
  rw [float?, Option.bind_eq_some_iff]
  simp only [Numeral.read?_iff, Numeral.toBinary64?_eq_some_iff]
  rfl

theorem word?_eq_some_iff {s : String} {v : Value} : word? s = some v ↔ IsWord s v := by
  constructor
  · intro h
    rw [word?] at h
    split at h
    · rename_i hs
      obtain rfl := Option.some.inj h
      exact hs ▸ .true
    · split at h
      · rename_i hs
        obtain rfl := Option.some.inj h
        exact hs ▸ .false
      · split at h
        · rename_i hs
          simp only [Bool.or_eq_true, decide_eq_true_eq] at hs
          obtain rfl := Option.some.inj h
          rcases hs with rfl | rfl
          · exact .nil
          · exact .null
        · cases h
  · intro h
    cases h <;> decide

theorem eq_none_iff {α : Type} {o : Option α} {P : α → Prop} (h : ∀ a, o = some a ↔ P a) :
    o = none ↔ ∀ a, ¬P a := by
  rw [Option.eq_none_iff_forall_ne_some]
  exact forall_congr' fun a => not_congr (h a)

theorem unquote?_eq_none_iff : unquote? cs = none ↔ ∀ inner, ¬IsQuoted cs inner :=
  eq_none_iff fun _ => unquote?_eq_some_iff

theorem int?_eq_none_iff : int? cs = none ↔ ∀ i : Int64, ¬IsWhole cs i.toInt :=
  eq_none_iff fun _ => int?_eq_some_iff

theorem float?_eq_none_iff : float? cs = none ↔ ∀ x, ¬IsFloat cs x :=
  eq_none_iff fun _ => float?_eq_some_iff

theorem word?_eq_none_iff {s : String} : word? s = none ↔ ∀ v, ¬IsWord s v :=
  eq_none_iff fun _ => word?_eq_some_iff

theorem ofTrimmed_eq_iff {v : Value} : ofTrimmed cs = v ↔ StandsFor cs v := by
  constructor
  · rintro rfl
    rw [ofTrimmed]
    cases hquoted : unquote? cs with
    | some inner => exact .quoted (unquote?_eq_some_iff.1 hquoted)
    | none =>
      have hplain := unquote?_eq_none_iff.1 hquoted
      cases hint : int? cs with
      | some i => exact .int hplain (int?_eq_some_iff.1 hint)
      | none =>
        have hnoInt := int?_eq_none_iff.1 hint
        cases hfloat : float? cs with
        | some x => exact .float hplain hnoInt (float?_eq_some_iff.1 hfloat)
        | none =>
          have hnoFloat := float?_eq_none_iff.1 hfloat
          cases hword : word? (String.ofList cs) with
          | some v => exact .word hplain hnoInt hnoFloat (word?_eq_some_iff.1 hword)
          | none => exact .text hplain hnoInt hnoFloat (word?_eq_none_iff.1 hword)
  · intro h
    rw [ofTrimmed]
    cases h with
    | quoted h => rw [unquote?_eq_some_iff.2 h]
    | int hplain h => rw [unquote?_eq_none_iff.2 hplain, int?_eq_some_iff.2 h]
    | float hplain hnoInt h =>
      rw [unquote?_eq_none_iff.2 hplain, int?_eq_none_iff.2 hnoInt, float?_eq_some_iff.2 h]
    | word hplain hnoInt hnoFloat h =>
      rw [unquote?_eq_none_iff.2 hplain, int?_eq_none_iff.2 hnoInt, float?_eq_none_iff.2 hnoFloat,
        word?_eq_some_iff.2 h]
      rfl
    | text hplain hnoInt hnoFloat hnoWord =>
      rw [unquote?_eq_none_iff.2 hplain, int?_eq_none_iff.2 hnoInt, float?_eq_none_iff.2 hnoFloat,
        word?_eq_none_iff.2 hnoWord]
      rfl

end Readings

/-! ## Texts that are no numbers -/

/-- Why a text is not read as a number: it has a character that no numeral has, or no digit, or it
stands for a number that is too large. -/
inductive NoNumber (cs : List Char) : Prop where
  | character {c : Char} : c ∈ cs → ¬IsNumeralChar c → NoNumber cs
  | digits : (∀ c ∈ cs, c.isDigit = false) → NoNumber cs
  | overflow {n : Numeral} : IsDecimal cs n → Binary64.overflowLimit ≤ n.magnitude → NoNumber cs

theorem natAbs_lt_overflowLimit (i : Int64) : (i.toInt.natAbs : ℚ) < Binary64.overflowLimit := by
  have hle : i.toInt.natAbs ≤ 2 ^ 63 := by
    have hlow := i.le_toInt
    have hhigh := i.toInt_lt
    omega
  calc (i.toInt.natAbs : ℚ) ≤ 2 ^ 63 := by exact_mod_cast hle
    _ < (2 ^ 53 - 1 / 2) * 2 ^ (11 : ℤ) := by norm_num
    _ ≤ (2 ^ 53 - 1 / 2) * 2 ^ (971 : ℤ) :=
        mul_le_mul_of_nonneg_left (zpow_le_zpow_right₀ one_le_two (by decide)) (by norm_num)
    _ = Binary64.overflowLimit := Binary64.overflowLimit_eq.symm

section NoNumber

variable {cs : List Char} (h : NoNumber cs)

include h

theorem NoNumber.not_isFloat (x : Binary64) : ¬IsFloat cs x := by
  rintro ⟨n, hn, hx⟩
  cases h with
  | character hc hother => exact hother (hn.isNumeralChar _ hc)
  | digits hnone =>
    obtain ⟨c, hc, hdigit⟩ := hn.exists_digit
    rw [hnone c hc] at hdigit
    cases hdigit
  | overflow hm hlimit =>
    obtain rfl := hn.unique hm
    exact absurd hx.finite (not_lt.2 hlimit)

theorem NoNumber.not_isWhole (i : Int64) : ¬IsWhole cs i.toInt := by
  intro hi
  obtain ⟨negative, hdecimal⟩ := hi.isDecimal
  cases h with
  | character hc hother => exact hother (hi.isNumeralChar _ hc)
  | digits hnone =>
    obtain ⟨c, hc, hdigit⟩ := hdecimal.exists_digit
    rw [hnone c hc] at hdigit
    cases hdigit
  | overflow hm hlimit =>
    obtain rfl := hdecimal.unique hm
    rw [Numeral.magnitude_whole] at hlimit
    exact absurd (natAbs_lt_overflowLimit i) (not_lt.2 hlimit)

end NoNumber

/-- No numeral begins with a quote. -/
theorem not_isQuoted_of_isNumeral {cs : List Char} (h : ∀ c ∈ cs, IsNumeralChar c)
    (inner : List Char) : ¬IsQuoted cs inner := by
  rintro ⟨q, hquote, rfl⟩
  have hq := h q List.mem_cons_self
  rcases hquote with rfl | rfl <;> exact absurd hq (by decide)

/-- A text is read as what it stands for, and as nothing else. A whole number of 64 bits is never
read as a floating-point number; any other numeral is, unless it is too large. A text that is no
number, in no quotes, and none of the words stays as it is. -/
theorem coerce_eq_iff (text : String) :
    (∀ v, coerce text = v ↔ StandsFor (Text.trimChars text.toList) v) ∧
      (∀ n, IsWhole (Text.trimChars text.toList) n → -2 ^ 63 ≤ n → n < 2 ^ 63 →
        ∃ i : Int64, coerce text = .int i ∧ i.toInt = n) ∧
      (∀ n, IsDecimal (Text.trimChars text.toList) n → n.magnitude < Binary64.overflowLimit →
        (∀ i : Int64, ¬IsWhole (Text.trimChars text.toList) i.toInt) →
        ∃ x, coerce text = .float x ∧ Binary64.Rounds n.negative n.magnitude x) ∧
      (NoNumber (Text.trimChars text.toList) →
        (∀ inner, ¬IsQuoted (Text.trimChars text.toList) inner) →
        (∀ v, ¬IsWord (Text.trim text) v) → coerce text = .string (Text.trim text)) := by
  refine ⟨fun v => ofTrimmed_eq_iff, fun n hn hlow hhigh => ?_, fun n hn hlimit hnoInt => ?_,
    fun hnumber hplain hword => ?_⟩
  · obtain ⟨i, rfl⟩ : ∃ i : Int64, i.toInt = n := ⟨_, Int64.toInt_ofInt_of_le hlow hhigh⟩
    have hplain := not_isQuoted_of_isNumeral hn.isNumeralChar
    exact ⟨i, ofTrimmed_eq_iff.2 (.int hplain hn), rfl⟩
  · obtain ⟨x, hx⟩ := Numeral.exists_rounds hlimit
    have hplain := not_isQuoted_of_isNumeral hn.isNumeralChar
    exact ⟨x, ofTrimmed_eq_iff.2 (.float hplain hnoInt ⟨n, hn, hx⟩), hx⟩
  · exact ofTrimmed_eq_iff.2 (.text hplain hnumber.not_isWhole hnumber.not_isFloat hword)

example : coerce " -9223372036854775808" = .int Int64.minValue := by decide +kernel

example : coerce "1e999" = .string "1e999" := by decide +kernel

end Literal
end CaseIntake
