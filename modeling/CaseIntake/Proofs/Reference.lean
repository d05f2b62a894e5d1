import CaseIntake.Reference
import CaseIntake.Proofs.Text.Split

/-!
# CaseIntake.Proofs.Reference

Identifiers as references. An identifier written bare refers to itself (`name_of_isIdentifier`), and
between commas it is one piece (`isPiece_of_isIdentifier`).
-/

namespace CaseIntake
namespace Reference

/-- Word characters lie between the digit zero and the letter z. -/
theorem bounds_of_isWordChar {c : Char} (h : isWordChar c = true) :
    48 ≤ c.toNat ∧ c.toNat ≤ 122 := by
  simp only [isWordChar, Bool.or_eq_true, Bool.and_eq_true, decide_eq_true_eq, Char.le_def,
    UInt32.le_iff_toNat_le] at h
  unfold Char.toNat
  rcases h with ((⟨hlo, hhi⟩ | ⟨hlo, hhi⟩) | ⟨hlo, hhi⟩) | rfl
  · change 97 ≤ c.val.toNat at hlo
    change c.val.toNat ≤ 122 at hhi
    omega
  · change 65 ≤ c.val.toNat at hlo
    change c.val.toNat ≤ 90 at hhi
    omega
  · change 48 ≤ c.val.toNat at hlo
    change c.val.toNat ≤ 57 at hhi
    omega
  · decide

theorem ne_of_isWordChar {c d : Char} (h : isWordChar c = true) (hd : d.toNat < 48) : c ≠ d := by
  rintro rfl
  have := (bounds_of_isWordChar h).1
  omega

theorem not_isBlank_of_isWordChar {c : Char} (h : isWordChar c = true) :
    Text.isBlank c = false := by
  rw [← Bool.not_eq_true]
  intro hblank
  have hword := bounds_of_isWordChar h
  have hbounds := Text.bounds_of_isBlank hblank
  omega

theorem trimChars_of_isWordChar {cs : List Char} (h : ∀ c ∈ cs, isWordChar c = true) :
    Text.trimChars cs = cs := by
  apply Text.trimChars_eq_self
  · intro c hc
    exact not_isBlank_of_isWordChar (h c (List.mem_of_head? hc))
  · intro c hc
    exact not_isBlank_of_isWordChar (h c (List.mem_of_getLast? hc))

/-- Blanks at the ends of a reference can be cut off first. -/
theorem name_trimmed (token : String) :
    name (String.ofList (Text.trimChars token.toList)) = name token := by
  rw [name, name, String.toList_ofList, Text.trimChars_trimChars]

section Identifier

variable {n : String} (h : isIdentifier n = true)

include h

theorem ne_nil_of_isIdentifier : n.toList ≠ [] := by
  intro hnil
  simp [isIdentifier, hnil] at h

theorem isWordChar_of_isIdentifier : ∀ c ∈ n.toList, isWordChar c = true := by
  unfold isIdentifier at h
  split at h
  · simp at h
  · rename_i c cs hlist
    simp only [Bool.and_eq_true, List.all_eq_true] at h
    obtain ⟨⟨hc, _⟩, hcs⟩ := h
    rw [hlist]
    exact List.forall_mem_cons.2 ⟨hc, hcs⟩

theorem trimChars_of_isIdentifier : Text.trimChars n.toList = n.toList :=
  trimChars_of_isWordChar (isWordChar_of_isIdentifier h)

theorem isPiece_of_isIdentifier : Text.IsPiece n.toList where
  ne_nil := ne_nil_of_isIdentifier h
  comma hmem := ne_of_isWordChar (isWordChar_of_isIdentifier h _ hmem) (by decide) rfl
  trimmed := trimChars_of_isIdentifier h

theorem name_of_isIdentifier : name n = n := by
  have hdollar (rest : List Char) : n.toList ≠ '$' :: rest := by
    intro hlist
    have hword := isWordChar_of_isIdentifier h '$' (by simp [hlist])
    exact absurd hword (by decide)
  have hbare : nameOfTrimmed n.toList = n.toList := by
    have hbraced : braced? n.toList = none := by
      unfold braced?
      split
      · rename_i rest hlist
        exact absurd hlist (hdollar _)
      · rfl
    unfold nameOfTrimmed
    rw [hbraced]
    split
    · rename_i hsome
      cases hsome
    · split
      · rename_i rest hlist
        exact absurd hlist (hdollar _)
      · rfl
  rw [name, trimChars_of_isIdentifier h, hbare, String.ofList_toList]

end Identifier

end Reference
end CaseIntake
