import CaseIntake.Number.Numeral
import CaseIntake.Proofs.Text.Blank

/-!
# CaseIntake.Proofs.Number.Numeral

The grammar of numerals, said without a reader, and what the readers make of it.

* `IsWhole`: a sign or none, then digits, with the whole number they stand for.
  `Digits.readSigned?` reads exactly these (`readSigned?_iff`).
* `IsDecimal`: a sign or none, digits with at most one point among them, an exponent or none.
  `Numeral.read?` reads exactly these (`read?_iff`).
-/

namespace CaseIntake

/-! ## The grammar -/

/-- Decimal digits alone, and the number they stand for. -/
structure IsDigits (cs : List Char) (n : Nat) : Prop where
  digits : ∀ c ∈ cs, c.isDigit = true
  value : Nat.ofDigitChars 10 cs 0 = n

inductive IsSign : List Char → Bool → Prop where
  | none : IsSign [] false
  | plus : IsSign ['+'] false
  | minus : IsSign ['-'] true

inductive IsWhole : List Char → Int → Prop where
  | mk {sign ds : List Char} {negative : Bool} {n : Nat} : IsSign sign negative → ds ≠ [] →
      IsDigits ds n → IsWhole (sign ++ ds) (if negative then -n else n)

/-- Digits with at most one point among them: the number they stand for without it, and how many of
them stand after it. -/
inductive IsMantissa : List Char → Nat → Nat → Prop where
  | whole {ds : List Char} {n : Nat} : ds ≠ [] → IsDigits ds n → IsMantissa ds n 0
  | point {before after : List Char} {n : Nat} : before ++ after ≠ [] →
      IsDigits (before ++ after) n → IsMantissa (before ++ '.' :: after) n after.length

inductive IsExponent : List Char → Int → Prop where
  | none : IsExponent [] 0
  | some {mark : Char} {cs : List Char} {n : Int} : mark = 'e' ∨ mark = 'E' → IsWhole cs n →
      IsExponent (mark :: cs) n

inductive IsDecimal : List Char → Numeral → Prop where
  | mk {sign mantissa exponent : List Char} {negative : Bool} {digits places : Nat} {e : Int} :
      IsSign sign negative → IsMantissa mantissa digits places → IsExponent exponent e →
      IsDecimal (sign ++ (mantissa ++ exponent)) ⟨negative, digits, places, e⟩

/-- A digit, or a character that may stand beside the digits of a numeral. -/
def IsNumeralChar (c : Char) : Prop :=
  c.isDigit = true ∨ c = '.' ∨ c = '+' ∨ c = '-' ∨ c = 'e' ∨ c = 'E'

instance (c : Char) : Decidable (IsNumeralChar c) :=
  inferInstanceAs (Decidable (_ ∨ _))

/-! ## Signs -/

/-- What a reader takes for the sign of `cs`, and what is left. -/
inductive IsSigned : List Char → Bool → List Char → Prop where
  | minus {cs : List Char} : IsSigned ('-' :: cs) true cs
  | plus {cs : List Char} : IsSigned ('+' :: cs) false cs
  | none {cs : List Char} : cs.head? ≠ some '-' → cs.head? ≠ some '+' → IsSigned cs false cs

theorem exists_isSigned (cs : List Char) : ∃ negative rest, IsSigned cs negative rest := by
  by_cases hminus : cs.head? = some '-'
  · obtain ⟨rest, rfl⟩ := List.head?_eq_some_iff.1 hminus
    exact ⟨_, _, .minus⟩
  by_cases hplus : cs.head? = some '+'
  · obtain ⟨rest, rfl⟩ := List.head?_eq_some_iff.1 hplus
    exact ⟨_, _, .plus⟩
  · exact ⟨_, _, .none hminus hplus⟩

theorem IsSigned.exists_sign {cs rest : List Char} {negative : Bool}
    (h : IsSigned cs negative rest) : ∃ sign, IsSign sign negative ∧ cs = sign ++ rest := by
  cases h with
  | minus => exact ⟨_, .minus, rfl⟩
  | plus => exact ⟨_, .plus, rfl⟩
  | none => exact ⟨_, .none, rfl⟩

theorem IsSign.isSigned_append {sign rest : List Char} {negative : Bool} (h : IsSign sign negative)
    (hminus : rest.head? ≠ some '-') (hplus : rest.head? ≠ some '+') :
    IsSigned (sign ++ rest) negative rest := by
  cases h with
  | minus => exact .minus
  | plus => exact .plus
  | none => exact .none hminus hplus

/-! ## Digits -/

namespace Digits

theorem toNat_le_of_le {c d : Char} (h : c ≤ d) : c.toNat ≤ d.toNat :=
  UInt32.le_iff_toNat_le.1 h

theorem value?_of_isDigit {c : Char} (h : c.isDigit = true) : value? c = some (c.toNat - 48) := by
  rw [value?]
  exact if_pos h

theorem isDigit_ten (c : Char) : isDigit 10 c = c.isDigit := by
  cases h : c.isDigit with
  | true =>
    have hle : c.toNat ≤ 57 := by
      have hbounds : (decide ('0' ≤ c) && decide (c ≤ '9')) = true := h
      simp only [Bool.and_eq_true, decide_eq_true_eq] at hbounds
      exact toNat_le_of_le hbounds.2
    rw [isDigit, value?_of_isDigit h]
    simp only [decide_eq_true_eq]
    omega
  | false =>
    have hnot : ¬(decide ('0' ≤ c) && decide (c ≤ '9')) = true := by
      intro hbounds
      exact Bool.false_ne_true (h.symm.trans hbounds)
    -- what is left are letters, which stand for ten or more
    rw [isDigit, value?, if_neg hnot]
    split
    · rename_i d hd
      have hten : 10 ≤ d := by
        split at hd
        · rename_i hletter
          simp only [Bool.and_eq_true, decide_eq_true_eq] at hletter
          have hge : 97 ≤ c.toNat := toNat_le_of_le hletter.1
          obtain rfl := Option.some.inj hd
          omega
        · split at hd
          · rename_i hletter
            simp only [Bool.and_eq_true, decide_eq_true_eq] at hletter
            have hge : 65 ≤ c.toNat := toNat_le_of_le hletter.1
            obtain rfl := Option.some.inj hd
            omega
          · cases hd
      simpa using hten
    · rfl

theorem toNat_eq {cs : List Char} (h : ∀ c ∈ cs, c.isDigit = true) :
    toNat 10 cs = Nat.ofDigitChars 10 cs 0 := by
  have hfold (n : Nat) :
      cs.foldl (fun n c => n * 10 + (value? c).getD 0) n = Nat.ofDigitChars 10 cs n := by
    induction cs generalizing n with
    | nil => rfl
    | cons c cs ih =>
      obtain ⟨hc, hrest⟩ := List.forall_mem_cons.1 h
      rw [List.foldl_cons, ih hrest, Nat.ofDigitChars_cons, value?_of_isDigit hc, Nat.mul_comm]
      rfl
  exact hfold 0

theorem read?_iff {cs : List Char} {n : Nat} :
    read? 10 cs = some n ↔ cs ≠ [] ∧ IsDigits cs n := by
  have htest : (!cs.isEmpty && cs.all (isDigit 10)) = true ↔
      cs ≠ [] ∧ ∀ c ∈ cs, c.isDigit = true := by
    simp [isDigit_ten]
  rw [read?]
  split
  · rename_i h
    obtain ⟨hne, hdigits⟩ := htest.1 h
    rw [toNat_eq hdigits, Option.some.injEq]
    exact ⟨fun hvalue => ⟨hne, hdigits, hvalue⟩, fun hrun => hrun.2.value⟩
  · rename_i h
    refine ⟨fun hnone => (by cases hnone), fun hrun => ?_⟩
    exact absurd (htest.2 ⟨hrun.1, hrun.2.digits⟩) h

theorem readSigned?_of_isSigned {cs rest : List Char} {negative : Bool}
    (h : IsSigned cs negative rest) :
    readSigned? cs = (read? 10 rest).map fun n : Nat => if negative then -(n : Int) else n := by
  cases h with
  | minus => cases hn : read? 10 rest <;> simp [readSigned?, hn]
  | plus => cases hn : read? 10 rest <;> simp [readSigned?, hn]
  | none hminus hplus =>
    unfold readSigned?
    split
    · exact absurd rfl hminus
    · exact absurd rfl hplus
    · cases read? 10 cs <;> rfl

theorem head?_ne_of_isDigits {ds : List Char} {n : Nat} (h : IsDigits ds n) {c : Char}
    (hc : c.isDigit = false) : ds.head? ≠ some c := by
  intro hhead
  rw [h.digits c (List.mem_of_head? hhead)] at hc
  cases hc

theorem readSigned?_iff {cs : List Char} {n : Int} : readSigned? cs = some n ↔ IsWhole cs n := by
  constructor
  · intro h
    obtain ⟨negative, rest, hsigned⟩ := exists_isSigned cs
    obtain ⟨sign, hsign, rfl⟩ := hsigned.exists_sign
    rw [readSigned?_of_isSigned hsigned] at h
    obtain ⟨m, hm, rfl⟩ := Option.map_eq_some_iff.1 h
    obtain ⟨hne, hdigits⟩ := read?_iff.1 hm
    exact .mk hsign hne hdigits
  · rintro ⟨hsign, hne, hdigits⟩
    have hsigned := hsign.isSigned_append (head?_ne_of_isDigits hdigits rfl)
      (head?_ne_of_isDigits hdigits rfl)
    rw [readSigned?_of_isSigned hsigned, read?_iff.2 ⟨hne, hdigits⟩]
    rfl

end Digits

/-! ## Numerals -/

namespace Numeral

theorem readExponent?_iff {cs : List Char} {e : Int} :
    readExponent? cs = some e ↔ IsExponent cs e := by
  constructor
  · intro h
    cases cs with
    | nil =>
      obtain rfl := Option.some.inj h
      exact .none
    | cons c cs =>
      rw [readExponent?] at h
      split at h
      · rename_i hmark
        exact .some (by simpa using hmark) (Digits.readSigned?_iff.1 h)
      · cases h
  · intro h
    cases h with
    | none => rfl
    | some hmark hwhole =>
      rw [readExponent?, if_pos (by simpa using hmark)]
      exact Digits.readSigned?_iff.2 hwhole

/-- An exponent does not begin with a digit or a point. -/
theorem head?_of_isExponent {cs : List Char} {e : Int} (h : IsExponent cs e) {c : Char}
    (hc : cs.head? = some c) : Digits.isDigit 10 c = false ∧ c ≠ '.' := by
  cases h with
  | none => cases hc
  | some hmark _ =>
    obtain rfl := Option.some.inj hc
    rcases hmark with rfl | rfl <;> decide

theorem span_append {ds rest : List Char} (hds : ∀ c ∈ ds, c.isDigit = true)
    (hrest : ∀ c, rest.head? = some c → Digits.isDigit 10 c = false) :
    Digits.span 10 (ds ++ rest) = (ds, rest) := by
  have hall : ∀ c ∈ ds, Digits.isDigit 10 c = true := by
    intro c hc
    rw [Digits.isDigit_ten, hds c hc]
  rw [Digits.span, Text.takeWhile_run hall hrest, Text.dropWhile_run hall hrest]

theorem span_digits {cs ds rest : List Char} (h : Digits.span 10 cs = (ds, rest)) :
    cs = ds ++ rest ∧ ∀ c ∈ ds, c.isDigit = true := by
  obtain ⟨rfl, rfl⟩ := Prod.mk.inj h
  refine ⟨List.takeWhile_append_dropWhile.symm, fun c hc => ?_⟩
  rw [← Digits.isDigit_ten]
  exact List.all_eq_true.1 List.all_takeWhile c hc

section Unsigned

variable {negative : Bool} {cs whole rest after places : List Char}

theorem readUnsigned?_point (hwhole : Digits.span 10 cs = (whole, '.' :: after))
    (hplaces : Digits.span 10 after = (places, rest)) :
    readUnsigned? negative cs =
      if whole ++ places = [] then none
      else (readExponent? rest).map fun e =>
        ⟨negative, Digits.toNat 10 (whole ++ places), places.length, e⟩ := by
  unfold readUnsigned?
  simp only [hwhole, hplaces, List.append_eq_nil_iff, Bool.and_eq_true, List.isEmpty_iff]

theorem readUnsigned?_whole (hwhole : Digits.span 10 cs = (whole, rest))
    (hrest : rest.head? ≠ some '.') :
    readUnsigned? negative cs =
      if whole = [] then none
      else (readExponent? rest).map fun e => ⟨negative, Digits.toNat 10 whole, 0, e⟩ := by
  unfold readUnsigned?
  simp only [hwhole]
  split
  · exact absurd rfl hrest
  · simp

/-- What is read as the mantissa is one, and what is left is the exponent. -/
theorem readUnsigned?_iff {n : Numeral} :
    readUnsigned? negative cs = some n ↔
      ∃ mantissa exponent digits places e, cs = mantissa ++ exponent ∧
        IsMantissa mantissa digits places ∧ IsExponent exponent e ∧
        n = ⟨negative, digits, places, e⟩ := by
  constructor
  · intro h
    obtain ⟨⟨whole, rest⟩, hwhole⟩ : ∃ split, Digits.span 10 cs = split := ⟨_, rfl⟩
    obtain ⟨rfl, hdigits⟩ := span_digits hwhole
    by_cases hpoint : rest.head? = some '.'
    · obtain ⟨after, rfl⟩ := List.head?_eq_some_iff.1 hpoint
      obtain ⟨⟨places, rest⟩, hplaces⟩ : ∃ split, Digits.span 10 after = split := ⟨_, rfl⟩
      obtain ⟨rfl, hdigits'⟩ := span_digits hplaces
      rw [readUnsigned?_point hwhole hplaces] at h
      split at h
      · cases h
      · rename_i hne
        obtain ⟨e, he, rfl⟩ := Option.map_eq_some_iff.1 h
        have hall : ∀ c ∈ whole ++ places, c.isDigit = true := by
          intro c hc
          exact (List.mem_append.1 hc).elim (hdigits c) (hdigits' c)
        exact ⟨whole ++ '.' :: places, rest, _, _, e, by simp,
          .point hne ⟨hall, (Digits.toNat_eq hall).symm⟩, readExponent?_iff.1 he, rfl⟩
    · rw [readUnsigned?_whole hwhole hpoint] at h
      split at h
      · cases h
      · rename_i hne
        obtain ⟨e, he, rfl⟩ := Option.map_eq_some_iff.1 h
        exact ⟨whole, rest, _, _, e, rfl, .whole hne ⟨hdigits, (Digits.toNat_eq hdigits).symm⟩,
          readExponent?_iff.1 he, rfl⟩
  · rintro ⟨mantissa, exponent, digits, places, e, rfl, hmantissa, hexponent, rfl⟩
    have hread := readExponent?_iff.2 hexponent
    have hnext (c : Char) (hc : exponent.head? = some c) := head?_of_isExponent hexponent hc
    cases hmantissa with
    | whole hne hdigits =>
      have hwhole := span_append hdigits.digits fun c hc => (hnext c hc).1
      rw [readUnsigned?_whole hwhole fun hc => (hnext _ hc).2 rfl, if_neg hne, hread,
        Digits.toNat_eq hdigits.digits, hdigits.value]
      rfl
    | @point before after _ hne hdigits =>
      obtain ⟨hbefore, hafter⟩ := List.forall_mem_append.1 hdigits.digits
      have hwhole : Digits.span 10 (before ++ '.' :: after ++ exponent) =
          (before, '.' :: (after ++ exponent)) := by
        rw [List.append_assoc]
        refine span_append hbefore fun c hc => ?_
        obtain rfl := Option.some.inj hc
        decide
      have hplaces := span_append hafter fun c hc => (hnext c hc).1
      rw [readUnsigned?_point hwhole hplaces, if_neg hne, hread,
        Digits.toNat_eq hdigits.digits, hdigits.value]
      rfl

end Unsigned

theorem read?_of_isSigned {cs rest : List Char} {negative : Bool}
    (h : IsSigned cs negative rest) : read? cs = readUnsigned? negative rest := by
  cases h with
  | minus => rfl
  | plus => rfl
  | none hminus hplus =>
    unfold read?
    split
    · exact absurd rfl hminus
    · exact absurd rfl hplus
    · rfl

theorem head?_of_isMantissa {mantissa rest : List Char} {digits places : Nat}
    (h : IsMantissa mantissa digits places) {c : Char} (hc : c.isDigit = false) (hpoint : c ≠ '.') :
    (mantissa ++ rest).head? ≠ some c := by
  intro hhead
  cases h with
  | whole hne hdigits =>
    obtain ⟨d, ds, rfl⟩ := List.exists_cons_of_ne_nil hne
    exact Digits.head?_ne_of_isDigits hdigits hc hhead
  | @point before after _ hne hdigits =>
    cases before with
    | nil =>
      obtain rfl := Option.some.inj hhead
      exact hpoint rfl
    | cons d before =>
      obtain rfl := Option.some.inj hhead
      rw [hdigits.digits d List.mem_cons_self] at hc
      cases hc

theorem read?_iff {cs : List Char} {n : Numeral} : read? cs = some n ↔ IsDecimal cs n := by
  constructor
  · intro h
    obtain ⟨negative, rest, hsigned⟩ := exists_isSigned cs
    obtain ⟨sign, hsign, rfl⟩ := hsigned.exists_sign
    obtain ⟨mantissa, exponent, _, _, _, rfl, hmantissa, hexponent, rfl⟩ :=
      readUnsigned?_iff.1 ((read?_of_isSigned hsigned).symm.trans h)
    exact .mk hsign hmantissa hexponent
  · rintro ⟨hsign, hmantissa, hexponent⟩
    rw [read?_of_isSigned (hsign.isSigned_append ?_ ?_)]
    · exact readUnsigned?_iff.2 ⟨_, _, _, _, _, rfl, hmantissa, hexponent, rfl⟩
    · exact head?_of_isMantissa hmantissa rfl (by decide)
    · exact head?_of_isMantissa hmantissa rfl (by decide)

end Numeral

/-! ## Characters of numerals -/

section Characters

variable {cs : List Char}

theorem IsSign.isNumeralChar {negative : Bool} (h : IsSign cs negative) :
    ∀ c ∈ cs, IsNumeralChar c := by
  intro c hc
  cases h with
  | none => cases hc
  | plus => exact Or.inr (Or.inr (Or.inl (List.mem_singleton.1 hc)))
  | minus => exact Or.inr (Or.inr (Or.inr (Or.inl (List.mem_singleton.1 hc))))

theorem IsDigits.isNumeralChar {n : Nat} (h : IsDigits cs n) : ∀ c ∈ cs, IsNumeralChar c :=
  fun c hc => Or.inl (h.digits c hc)

theorem IsWhole.isNumeralChar {n : Int} (h : IsWhole cs n) : ∀ c ∈ cs, IsNumeralChar c := by
  obtain ⟨hsign, -, hdigits⟩ := h
  exact List.forall_mem_append.2 ⟨hsign.isNumeralChar, hdigits.isNumeralChar⟩

theorem IsMantissa.isNumeralChar {digits places : Nat} (h : IsMantissa cs digits places) :
    ∀ c ∈ cs, IsNumeralChar c := by
  cases h with
  | whole _ hdigits => exact hdigits.isNumeralChar
  | point _ hdigits =>
    obtain ⟨hbefore, hafter⟩ := List.forall_mem_append.1 hdigits.isNumeralChar
    exact List.forall_mem_append.2 ⟨hbefore, List.forall_mem_cons.2 ⟨Or.inr (Or.inl rfl), hafter⟩⟩

theorem IsExponent.isNumeralChar {e : Int} (h : IsExponent cs e) : ∀ c ∈ cs, IsNumeralChar c := by
  cases h with
  | none => exact fun c hc => by cases hc
  | some hmark hwhole =>
    refine List.forall_mem_cons.2 ⟨?_, hwhole.isNumeralChar⟩
    rcases hmark with rfl | rfl <;> simp [IsNumeralChar]

theorem IsMantissa.exists_digit {digits places : Nat} (h : IsMantissa cs digits places) :
    ∃ c ∈ cs, c.isDigit = true := by
  cases h with
  | whole hne hdigits =>
    obtain ⟨c, hc⟩ := List.exists_mem_of_ne_nil _ hne
    exact ⟨c, hc, hdigits.digits c hc⟩
  | point hne hdigits =>
    obtain ⟨c, hc⟩ := List.exists_mem_of_ne_nil _ hne
    refine ⟨c, ?_, hdigits.digits c hc⟩
    rcases List.mem_append.1 hc with hc | hc
    · exact List.mem_append_left _ hc
    · exact List.mem_append_right _ (List.mem_cons_of_mem _ hc)

variable {n : Numeral}

theorem IsDecimal.isNumeralChar (h : IsDecimal cs n) : ∀ c ∈ cs, IsNumeralChar c := by
  obtain ⟨hsign, hmantissa, hexponent⟩ := h
  refine List.forall_mem_append.2 ⟨hsign.isNumeralChar, ?_⟩
  exact List.forall_mem_append.2 ⟨hmantissa.isNumeralChar, hexponent.isNumeralChar⟩

theorem IsDecimal.exists_digit (h : IsDecimal cs n) : ∃ c ∈ cs, c.isDigit = true := by
  obtain ⟨-, hmantissa, -⟩ := h
  obtain ⟨c, hc, hdigit⟩ := hmantissa.exists_digit
  exact ⟨c, List.mem_append_right _ (List.mem_append_left _ hc), hdigit⟩

theorem IsDecimal.unique {m : Numeral} (h : IsDecimal cs n) (h' : IsDecimal cs m) : n = m :=
  Option.some.inj ((Numeral.read?_iff.2 h).symm.trans (Numeral.read?_iff.2 h'))

/-- A whole number is a numeral without a point and an exponent. -/
theorem IsWhole.isDecimal {k : Int} (h : IsWhole cs k) :
    ∃ negative, IsDecimal cs ⟨negative, k.natAbs, 0, 0⟩ := by
  obtain @⟨sign, ds, negative, m, hsign, hne, hdigits⟩ := h
  have hdecimal : IsDecimal (sign ++ (ds ++ [])) ⟨negative, m, 0, 0⟩ :=
    .mk hsign (.whole hne hdigits) .none
  have habs : (if negative then -(m : Int) else m).natAbs = m := by
    cases negative <;> simp
  rw [List.append_nil] at hdecimal
  exact ⟨negative, habs.symm ▸ hdecimal⟩

end Characters
end CaseIntake
