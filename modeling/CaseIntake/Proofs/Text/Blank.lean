import CaseIntake.Text.Blank
import Mathlib.Data.List.TakeWhile

/-!
# CaseIntake.Proofs.Text.Blank

Trimming takes blanks off both ends and nothing else: a text of blanks becomes empty, a text
without blanks at its ends stays as it is, and blanks put at an end do not count.

`takeWhile_run`, `dropWhile_run`: a run of characters is cut off where the next one is no longer
among them.
-/

namespace CaseIntake
namespace Text

theorem trimChars_eq_nil {cs : List Char} :
    trimChars cs = [] ↔ ∀ c ∈ cs, isBlank c = true := by
  have hdrop : trimChars cs = [] ↔ ∀ c ∈ cs.dropWhile isBlank, isBlank c = true := by
    simp only [trimChars, dropTrailing, List.reverse_eq_nil_iff, List.dropWhile_eq_nil_iff,
      List.mem_reverse]
  rw [hdrop]
  constructor
  · intro h c hc
    rw [← List.takeWhile_append_dropWhile (p := isBlank) (l := cs)] at hc
    rcases List.mem_append.1 hc with hc | hc
    · exact List.mem_takeWhile_imp hc
    · exact h c hc
  · intro h c hc
    exact h c ((List.dropWhile_sublist isBlank).subset hc)

/-- Blanks are controls, the space, or no ASCII characters. -/
theorem bounds_of_isBlank {c : Char} (h : isBlank c = true) : c.toNat ≤ 32 ∨ 127 < c.toNat := by
  simp only [isBlank, Bool.or_eq_true, Bool.and_eq_true, decide_eq_true_eq, Char.le_def,
    UInt32.le_iff_toNat_le] at h
  obtain ((((((((((rfl | ⟨_, hhi⟩) | rfl) | rfl) | rfl) | ⟨hlo, _⟩) | rfl) | rfl) | rfl) | rfl) |
    rfl) := h
  · decide
  · change c.toNat ≤ 13 at hhi
    omega
  · decide
  · decide
  · decide
  · change 8192 ≤ c.toNat at hlo
    omega
  all_goals decide

theorem dropWhile_eq_self_of_head? {p : Char → Bool} {cs : List Char}
    (h : ∀ c, cs.head? = some c → p c = false) : cs.dropWhile p = cs := by
  cases cs with
  | nil => rfl
  | cons c cs => simp [h c rfl]

section Run

variable {p : Char → Bool} {run rest : List Char} (hrun : ∀ c ∈ run, p c = true)
  (hrest : ∀ c, rest.head? = some c → p c = false)

include hrun hrest

theorem takeWhile_run : (run ++ rest).takeWhile p = run := by
  have hstop : rest.takeWhile p = [] := by
    cases rest with
    | nil => rfl
    | cons c rest => exact List.takeWhile_cons_of_neg (by simp [hrest c rfl])
  rw [List.takeWhile_append_of_pos hrun, hstop, List.append_nil]

theorem dropWhile_run : (run ++ rest).dropWhile p = rest := by
  rw [List.dropWhile_append_of_pos hrun, dropWhile_eq_self_of_head? hrest]

end Run

theorem trimChars_eq_self {cs : List Char} (hhead : ∀ c, cs.head? = some c → isBlank c = false)
    (hlast : ∀ c, cs.getLast? = some c → isBlank c = false) : trimChars cs = cs := by
  rw [trimChars, dropWhile_eq_self_of_head? hhead, dropTrailing, dropWhile_eq_self_of_head?,
    List.reverse_reverse]
  intro c hc
  rw [List.head?_reverse] at hc
  exact hlast c hc

theorem dropTrailing_prefix (p : Char → Bool) (cs : List Char) : dropTrailing p cs <+: cs := by
  rw [← List.reverse_suffix, dropTrailing, List.reverse_reverse]
  exact List.dropWhile_suffix p

/-- What stands in front of a character that is kept is kept. -/
theorem dropTrailing_append {p : Char → Bool} {c : Char} (hc : p c = false)
    (before after : List Char) :
    dropTrailing p (before ++ c :: after) = before ++ c :: dropTrailing p after := by
  have hrev : (before ++ c :: after).reverse = after.reverse ++ c :: before.reverse := by simp
  rw [dropTrailing, dropTrailing, hrev, List.dropWhile_append]
  split
  · rename_i hempty
    rw [List.isEmpty_iff] at hempty
    simp [hempty, hc]
  · simp

section Ends

variable {lead trail cs : List Char}

theorem trimChars_append_left (h : ∀ c ∈ lead, isBlank c = true) :
    trimChars (lead ++ cs) = trimChars cs := by
  rw [trimChars, trimChars, List.dropWhile_append_of_pos h]

theorem trimChars_append_right (h : ∀ c ∈ trail, isBlank c = true) :
    trimChars (cs ++ trail) = trimChars cs := by
  rw [trimChars, trimChars, List.dropWhile_append]
  split
  · rename_i hempty
    rw [List.isEmpty_iff] at hempty
    rw [hempty, List.dropWhile_eq_nil_iff.2 h]
  · have hrev : ∀ c ∈ trail.reverse, isBlank c = true := by simpa using h
    rw [dropTrailing, dropTrailing, List.reverse_append, List.dropWhile_append_of_pos hrev]

end Ends

/-! ## The ends of a trimmed text -/

theorem eq_nil_of_prefix_dropWhile {p : Char → Bool} {lead cs : List Char}
    (h : lead <+: cs.dropWhile p) (hlead : ∀ c ∈ lead, p c = true) : lead = [] := by
  cases lead with
  | nil => rfl
  | cons c lead =>
    obtain ⟨rest, hrest⟩ := h
    have hhead := List.head?_dropWhile_not p cs
    rw [← hrest] at hhead
    have hc : p c = true := hlead c List.mem_cons_self
    simp [hc] at hhead

theorem eq_nil_of_prefix_trimChars {lead cs : List Char} (h : lead <+: trimChars cs)
    (hlead : ∀ c ∈ lead, isBlank c = true) : lead = [] := by
  have hkept : trimChars cs <+: cs.dropWhile isBlank := dropTrailing_prefix isBlank _
  exact eq_nil_of_prefix_dropWhile (h.trans hkept) hlead

theorem eq_nil_of_suffix_trimChars {trail cs : List Char} (h : trail <:+ trimChars cs)
    (htrail : ∀ c ∈ trail, isBlank c = true) : trail = [] := by
  rw [trimChars, dropTrailing, ← List.reverse_prefix, List.reverse_reverse] at h
  have hnil : trail.reverse = [] := eq_nil_of_prefix_dropWhile h (by simpa using htrail)
  exact List.reverse_eq_nil_iff.1 hnil

section Trimmed

variable {cs : List Char} {c : Char}

theorem isBlank_of_head?_trimChars (h : (trimChars cs).head? = some c) : isBlank c = false := by
  obtain ⟨rest, hrest⟩ := List.head?_eq_some_iff.1 h
  have hprefix : [c] <+: trimChars cs := ⟨rest, hrest.symm⟩
  rw [← Bool.not_eq_true]
  intro hblank
  cases eq_nil_of_prefix_trimChars hprefix (by simpa using hblank)

theorem isBlank_of_getLast?_trimChars (h : (trimChars cs).getLast? = some c) :
    isBlank c = false := by
  obtain ⟨rest, hrest⟩ := List.getLast?_eq_some_iff.1 h
  have hsuffix : [c] <:+ trimChars cs := ⟨rest, hrest.symm⟩
  rw [← Bool.not_eq_true]
  intro hblank
  cases eq_nil_of_suffix_trimChars hsuffix (by simpa using hblank)

theorem trimChars_trimChars : trimChars (trimChars cs) = trimChars cs :=
  trimChars_eq_self (fun _ => isBlank_of_head?_trimChars) fun _ => isBlank_of_getLast?_trimChars

end Trimmed

/-- A text that is not blank is not blank after trimming either. -/
theorem isBlankText_trimChars {cs : List Char} (h : ∃ c ∈ cs, isBlank c = false) :
    isBlankText (String.ofList (trimChars cs)) = false := by
  obtain ⟨c, hc, hblank⟩ := h
  cases htrim : trimChars cs with
  | nil => simp [trimChars_eq_nil.1 htrim c hc] at hblank
  | cons first rest =>
    have hhead : (trimChars cs).head? = some first := by rw [htrim, List.head?_cons]
    simp [isBlankText, isBlank_of_head?_trimChars hhead]

end Text
end CaseIntake
