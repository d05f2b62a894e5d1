import CaseIntake.Text.Blank
import Mathlib.Order.Defs.LinearOrder
import Mathlib.Tactic.SplitIfs

/-!
# CaseIntake.Proofs.Text.Utf8

Texts as bytes. An ASCII character is one byte, and every byte of another character is at least 128:
an ASCII character is found at the same places in a text and in its bytes.

* `head?_utf8`, `getLast?_utf8`: the first and the last byte.
* `isPrefixOf_utf8`: what the bytes start with.
* `utf8_lt_iff`: the order of texts is the order of their bytes.
-/

namespace CaseIntake
namespace Text

def utf8 (cs : List Char) : List UInt8 :=
  cs.flatMap String.utf8EncodeChar

def IsAscii (c : Char) : Prop :=
  c.toNat < 128

instance (c : Char) : Decidable (IsAscii c) :=
  inferInstanceAs (Decidable (c.toNat < 128))

@[simp] theorem utf8_nil : utf8 [] = [] := rfl

theorem utf8_cons (c : Char) (cs : List Char) :
    utf8 (c :: cs) = String.utf8EncodeChar c ++ utf8 cs := rfl

theorem utf8_append (cs ds : List Char) : utf8 (cs ++ ds) = utf8 cs ++ utf8 ds :=
  List.flatMap_append

theorem utf8_singleton (c : Char) : utf8 [c] = String.utf8EncodeChar c := by
  simp [utf8]

section Bytes

variable {a c : Char}

theorem utf8EncodeChar_of_isAscii (hc : IsAscii c) : String.utf8EncodeChar c = [c.toUInt8] := by
  apply String.utf8EncodeChar_eq_singleton
  rw [Char.utf8Size_eq_one_iff, UInt32.le_iff_toNat_le]
  exact Nat.le_of_lt_succ hc

theorem toNat_toUInt8 (hc : IsAscii c) : c.toUInt8.toNat = c.toNat := by
  change c.toNat % 256 = c.toNat
  unfold IsAscii at hc
  omega

theorem toUInt8_eq_iff (hc : IsAscii c) (ha : IsAscii a) : c.toUInt8 = a.toUInt8 ↔ c = a := by
  rw [← UInt8.toNat_inj, toNat_toUInt8 hc, toNat_toUInt8 ha, Char.toNat_inj]

theorem le_of_mem_utf8EncodeChar (hc : ¬IsAscii c) {b : UInt8}
    (hb : b ∈ String.utf8EncodeChar c) : 128 ≤ b.toNat := by
  have hv : ¬c.val.toNat ≤ 127 := by
    change ¬c.toNat < 128 at hc
    change ¬c.toNat ≤ 127
    omega
  simp only [String.utf8EncodeChar, if_neg hv] at hb
  split at hb
  · simp only [List.mem_cons, List.not_mem_nil, or_false] at hb
    rcases hb with rfl | rfl <;> simp only [UInt8.toNat_ofNat'] <;> omega
  · split at hb
    · simp only [List.mem_cons, List.not_mem_nil, or_false] at hb
      rcases hb with rfl | rfl | rfl <;> simp only [UInt8.toNat_ofNat'] <;> omega
    · simp only [List.mem_cons, List.not_mem_nil, or_false] at hb
      rcases hb with rfl | rfl | rfl | rfl <;> simp only [UInt8.toNat_ofNat'] <;> omega

/-- No byte of another character is the byte of an ASCII character. -/
theorem toUInt8_mem_utf8EncodeChar (ha : IsAscii a) :
    a.toUInt8 ∈ String.utf8EncodeChar c ↔ c = a := by
  by_cases hc : IsAscii c
  · rw [utf8EncodeChar_of_isAscii hc, List.mem_singleton, eq_comm, toUInt8_eq_iff hc ha]
  · constructor
    · intro hmem
      have hle := le_of_mem_utf8EncodeChar hc hmem
      rw [toNat_toUInt8 ha] at hle
      exact absurd ha (Nat.not_lt.2 hle)
    · rintro rfl
      exact absurd ha hc

end Bytes

section Ends

variable {a : Char} {cs : List Char}

theorem utf8_eq_nil : utf8 cs = [] ↔ cs = [] := by
  cases cs with
  | nil => simp
  | cons c cs => simp [utf8_cons, String.utf8EncodeChar_ne_nil]

theorem head?_utf8 (ha : IsAscii a) : (utf8 cs).head? = some a.toUInt8 ↔ cs.head? = some a := by
  cases cs with
  | nil => simp
  | cons c cs =>
    obtain ⟨b, bytes, hbytes⟩ := List.exists_cons_of_ne_nil (String.utf8EncodeChar_ne_nil (c := c))
    rw [utf8_cons, hbytes, List.cons_append, List.head?_cons, List.head?_cons, Option.some.injEq,
      Option.some.injEq]
    constructor
    · rintro rfl
      exact (toUInt8_mem_utf8EncodeChar ha).1 (by simp [hbytes])
    · rintro rfl
      rw [utf8EncodeChar_of_isAscii ha, List.cons.injEq] at hbytes
      exact hbytes.1.symm

theorem getLast?_utf8 (ha : IsAscii a) :
    (utf8 cs).getLast? = some a.toUInt8 ↔ cs.getLast? = some a := by
  rcases List.eq_nil_or_concat cs with rfl | ⟨before, c, rfl⟩
  · simp
  · obtain ⟨bytes, b, hbytes⟩ :=
      (List.eq_nil_or_concat (String.utf8EncodeChar c)).resolve_left String.utf8EncodeChar_ne_nil
    rw [List.concat_eq_append] at hbytes
    rw [List.concat_eq_append, utf8_append, utf8_singleton, hbytes, ← List.append_assoc,
      List.getLast?_concat, List.getLast?_concat, Option.some.injEq, Option.some.injEq]
    constructor
    · rintro rfl
      exact (toUInt8_mem_utf8EncodeChar ha).1 (by simp [hbytes])
    · rintro rfl
      rw [utf8EncodeChar_of_isAscii ha] at hbytes
      have hlast := congrArg List.getLast? hbytes
      rw [List.getLast?_concat, List.getLast?_singleton, Option.some.injEq] at hlast
      exact hlast.symm

/-- Bytes start with an ASCII token iff their text does. -/
theorem isPrefixOf_utf8 {token : List Char} (htoken : ∀ a ∈ token, IsAscii a) :
    (utf8 token).isPrefixOf (utf8 cs) = token.isPrefixOf cs := by
  induction token generalizing cs with
  | nil => rfl
  | cons a token ih =>
    have ha := htoken a List.mem_cons_self
    rw [utf8_cons, utf8EncodeChar_of_isAscii ha, List.singleton_append]
    cases cs with
    | nil => rfl
    | cons c cs =>
      by_cases hc : c = a
      · subst hc
        rw [utf8_cons, utf8EncodeChar_of_isAscii ha, List.singleton_append]
        rw [List.isPrefixOf_cons_cons_self, List.isPrefixOf_cons_cons_self]
        exact ih fun b hb => htoken b (List.mem_cons_of_mem _ hb)
      · have hhead : (utf8 (c :: cs)).head? ≠ some a.toUInt8 := by
          rw [Ne, head?_utf8 ha]
          simpa using hc
        have hne : (a == c) = false := beq_eq_false_iff_ne.2 (Ne.symm hc)
        rw [List.isPrefixOf_cons_cons, hne, Bool.false_and]
        cases hbytes : utf8 (c :: cs) with
        | nil => rfl
        | cons b bytes =>
          rw [hbytes, List.head?_cons] at hhead
          have hb : (a.toUInt8 == b) = false := beq_eq_false_iff_ne.2 fun h => hhead (by rw [h])
          rw [List.isPrefixOf_cons_cons, hb, Bool.false_and]

end Ends

/-! ## The order of bytes -/

/-- Of two characters the smaller one has the smaller bytes, whatever follows them. -/
theorem utf8EncodeChar_append_lt {c d : Char} (h : c < d) (x y : List UInt8) :
    String.utf8EncodeChar c ++ x < String.utf8EncodeChar d ++ y := by
  have hval : c.val.toNat < d.val.toNat := h
  have hlimit : d.val.toNat < 0x110000 := by
    rcases d.valid with hlow | ⟨-, hhigh⟩
    · exact Nat.lt_trans hlow (by decide)
    · exact hhigh
  have hlt (a b : Nat) : UInt8.ofNat a < UInt8.ofNat b ↔ a % 256 < b % 256 := by
    rw [UInt8.lt_iff_toNat_lt, UInt8.toNat_ofNat', UInt8.toNat_ofNat']
  have heq (a b : Nat) : UInt8.ofNat a = UInt8.ofNat b ↔ a % 256 = b % 256 := by
    rw [← UInt8.toNat_inj, UInt8.toNat_ofNat', UInt8.toNat_ofNat']
  have hdigits (n : Nat) : n / 4096 = n / 64 / 64 ∧ n / 262144 = n / 64 / 64 / 64 := by omega
  -- a character with fewer bytes has a smaller first byte, and with as many the bytes are digits
  simp only [String.utf8EncodeChar, hdigits]
  split_ifs <;>
    simp only [List.cons_append, List.nil_append, List.cons_lt_cons_iff, hlt, heq] <;> omega

theorem utf8_lt_of_lt {cs ds : List Char} (h : cs < ds) : utf8 cs < utf8 ds := by
  induction cs generalizing ds with
  | nil =>
    cases ds with
    | nil => exact absurd h (List.lt_irrefl _)
    | cons d ds =>
      obtain ⟨b, bytes, hbytes⟩ :=
        List.exists_cons_of_ne_nil (String.utf8EncodeChar_ne_nil (c := d))
      rw [utf8_cons, hbytes]
      exact List.nil_lt_cons _ _
  | cons c cs ih =>
    cases ds with
    | nil => exact absurd h (List.not_lt_nil _)
    | cons d ds =>
      rw [utf8_cons, utf8_cons]
      rcases List.cons_lt_cons_iff.1 h with hlt | ⟨rfl, hlt⟩
      · exact utf8EncodeChar_append_lt hlt _ _
      · exact List.append_left_lt (ih hlt)

/-- The order of texts is the order of their bytes. -/
theorem utf8_lt_iff {cs ds : List Char} : utf8 cs < utf8 ds ↔ cs < ds := by
  refine ⟨fun h => ?_, utf8_lt_of_lt⟩
  rcases Std.lt_trichotomy cs ds with hlt | rfl | hgt
  · exact hlt
  · exact absurd h (List.lt_irrefl _)
  · exact absurd (utf8_lt_of_lt hgt) (List.lt_asymm h)

end Text
end CaseIntake
