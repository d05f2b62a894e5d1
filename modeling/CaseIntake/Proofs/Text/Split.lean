import CaseIntake.Text.Split
import CaseIntake.Proofs.Text.Blank

/-!
# CaseIntake.Proofs.Text.Split

Cutting a text that was put together from parts.

* `breakAt_append`, `beforeLast_append`: a text is cut where its parts meet.
* `commaPieces_intercalate`: the pieces between commas are the words that were joined.
* `commaPieces_parts`: every part between commas gives its own pieces.
* `beforeLastWord_append`: a text is cut in front of a word that has no later place.
-/

namespace CaseIntake
namespace Text

variable {c sep : Char} {before after cs : List Char}

theorem breakAt_append (h : c ∉ before) :
    breakAt c (before ++ c :: after) = some (before, after) := by
  induction before with
  | nil => simp [breakAt]
  | cons d before ih =>
    obtain ⟨hd, hbefore⟩ := not_or.1 (List.mem_cons.not.1 h)
    rw [List.cons_append, breakAt, if_neg (Ne.symm hd), ih hbefore]
    rfl

theorem breakAt_eq_none_iff : breakAt c cs = none ↔ c ∉ cs := by
  induction cs with
  | nil => simp [breakAt]
  | cons d cs ih =>
    rw [breakAt, List.mem_cons, not_or, ← ih]
    split
    · rename_i hd
      simp [hd]
    · rename_i hd
      simp [Ne.symm hd]

theorem breakAt_eq_some_iff :
    breakAt c cs = some (before, after) ↔ c ∉ before ∧ cs = before ++ c :: after := by
  constructor
  · intro h
    have hmem : c ∈ cs := by
      by_contra hnot
      rw [breakAt_eq_none_iff.2 hnot] at h
      cases h
    obtain ⟨front, back, rfl, hfront⟩ := List.eq_append_cons_of_mem hmem
    rw [breakAt_append hfront] at h
    obtain ⟨rfl, rfl⟩ := Prod.mk.inj (Option.some.inj h)
    exact ⟨hfront, rfl⟩
  · rintro ⟨hbefore, rfl⟩
    exact breakAt_append hbefore

theorem beforeLast_append (h : c ∉ after) : beforeLast c (before ++ c :: after) = some before := by
  have hreverse : (before ++ c :: after).reverse = after.reverse ++ c :: before.reverse := by simp
  rw [beforeLast, hreverse, breakAt_append (List.mem_reverse.not.2 h)]
  simp

theorem splitAt_eq_singleton (h : sep ∉ cs) : splitAt sep cs = [cs] := by
  induction cs with
  | nil => rfl
  | cons c cs ih =>
    obtain ⟨hc, hcs⟩ := not_or.1 (List.mem_cons.not.1 h)
    rw [splitAt, if_neg (Ne.symm hc), ih hcs]

theorem splitAt_append (h : sep ∉ before) :
    splitAt sep (before ++ sep :: after) = before :: splitAt sep after := by
  induction before with
  | nil => simp [splitAt]
  | cons c before ih =>
    obtain ⟨hc, hbefore⟩ := not_or.1 (List.mem_cons.not.1 h)
    rw [List.cons_append, splitAt, if_neg (Ne.symm hc), ih hbefore]

theorem splitAt_ne_nil : splitAt sep cs ≠ [] := by
  cases cs with
  | nil => simp [splitAt]
  | cons c cs =>
    rw [splitAt]
    split
    · simp
    · split <;> simp

theorem trimChars_cons (hc : isBlank c = true) : trimChars (c :: cs) = trimChars cs := by
  rw [trimChars, trimChars, List.dropWhile_cons_of_pos hc]

/-- Of a text without a comma, one piece is left, or none if it is blank. -/
theorem commaPieces_of_not_mem (h : ',' ∉ cs) :
    commaPieces cs = if trimChars cs = [] then [] else [String.ofList (trimChars cs)] := by
  rw [commaPieces, splitAt_eq_singleton h]
  split
  · rename_i hnil
    simp [hnil]
  · rename_i hne
    simp [hne]

theorem commaPieces_append (h : ',' ∉ before) :
    commaPieces (before ++ ',' :: after) = commaPieces before ++ commaPieces after := by
  have hsplit : splitAt ',' (before ++ ',' :: after) = splitAt ',' before ++ splitAt ',' after := by
    rw [splitAt_append h, splitAt_eq_singleton h, List.singleton_append]
  rw [commaPieces, hsplit, List.map_append, List.filter_append, List.map_append]
  rfl

/-- A blank at the front does not count. -/
theorem commaPieces_cons (hc : isBlank c = true) : commaPieces (c :: cs) = commaPieces cs := by
  have hcomma : c ≠ ',' := by
    rintro rfl
    exact absurd hc (by decide)
  have hne : splitAt ',' cs ≠ [] := splitAt_ne_nil
  obtain ⟨piece, rest, hpieces⟩ := List.exists_cons_of_ne_nil hne
  have hcons : splitAt ',' (c :: cs) = (c :: piece) :: rest := by
    rw [splitAt, if_neg hcomma, hpieces]
  rw [commaPieces, commaPieces, hcons, hpieces, List.map_cons, List.map_cons, trimChars_cons hc]

/-- A text that is a piece of its own between commas. -/
structure IsPiece (cs : List Char) : Prop where
  ne_nil : cs ≠ []
  comma : ',' ∉ cs
  trimmed : trimChars cs = cs

theorem IsPiece.commaPieces_eq (h : IsPiece cs) : commaPieces cs = [String.ofList cs] := by
  rw [commaPieces_of_not_mem h.comma, h.trimmed, if_neg h.ne_nil]

theorem commaPieces_intercalate {pieces : List (List Char)} (h : ∀ cs ∈ pieces, IsPiece cs) :
    commaPieces ([',', ' '].intercalate pieces) = pieces.map String.ofList := by
  induction pieces with
  | nil => rfl
  | cons first pieces ih =>
    have hfirst := h first List.mem_cons_self
    have hrest := ih fun cs hcs => h cs (List.mem_cons_of_mem _ hcs)
    cases pieces with
    | nil =>
      rw [List.intercalate_singleton, hfirst.commaPieces_eq]
      rfl
    | cons second pieces =>
      rw [List.intercalate_cons_cons, List.append_assoc, List.cons_append, List.singleton_append,
        commaPieces_append hfirst.comma, commaPieces_cons (by decide), hrest, hfirst.commaPieces_eq]
      rfl

theorem commaPieces_parts {parts : List (List Char)} (h : ∀ part ∈ parts, ',' ∉ part) :
    commaPieces ([','].intercalate parts) = parts.flatMap commaPieces := by
  induction parts with
  | nil => rfl
  | cons first parts ih =>
    obtain ⟨hfirst, hparts⟩ := List.forall_mem_cons.1 h
    cases parts with
    | nil => simp
    | cons second parts =>
      rw [List.intercalate_cons_cons, List.append_assoc, List.singleton_append,
        commaPieces_append hfirst, ih hparts, List.flatMap_cons (x := first)]

/-! ## The last place of a word -/

section LastWord

variable {word : List Char}

theorem beforeLastWord_eq_none (hne : word ≠ []) (h : ¬word <:+: cs) :
    beforeLastWord word cs = none := by
  induction cs with
  | nil =>
    rw [beforeLastWord, if_neg]
    simpa using hne
  | cons c cs ih =>
    obtain ⟨hhead, htail⟩ := not_or.1 (List.infix_cons_iff.not.1 h)
    have hstart : word.isPrefixOf (c :: cs) = false := by
      rw [← Bool.not_eq_true, List.isPrefixOf_iff_prefix]
      exact hhead
    rw [beforeLastWord, ih htail]
    simp [hstart]

theorem beforeLastWord_append_left {found : List Char} (h : beforeLastWord word cs = some found) :
    beforeLastWord word (before ++ cs) = some (before ++ found) := by
  induction before with
  | nil => exact h
  | cons c before ih => rw [List.cons_append, beforeLastWord, ih, List.cons_append]

/-- The word stands at the cut, and what follows its first character holds it no more. -/
theorem beforeLastWord_append {w : Char} {rest : List Char}
    (h : ¬(w :: rest) <:+: rest ++ after) :
    beforeLastWord (w :: rest) (before ++ (w :: rest) ++ after) = some before := by
  have hlater := beforeLastWord_eq_none (List.cons_ne_nil w rest) h
  have hhere : beforeLastWord (w :: rest) (w :: (rest ++ after)) = some [] := by
    have hstart : (w :: rest).isPrefixOf (w :: (rest ++ after)) = true := by
      rw [List.isPrefixOf_iff_prefix]
      exact List.prefix_append (w :: rest) after
    rw [beforeLastWord, hlater]
    simp [hstart]
  have hall : beforeLastWord (w :: rest) (before ++ w :: (rest ++ after)) = some (before ++ []) :=
    beforeLastWord_append_left hhere
  rwa [List.append_nil, ← List.cons_append, ← List.append_assoc] at hall

end LastWord

theorem dropStart?_append (word rest : List Char) : dropStart? word (word ++ rest) = some rest := by
  have hstart : word.isPrefixOf (word ++ rest) = true := by
    rw [List.isPrefixOf_iff_prefix]
    exact List.prefix_append word rest
  rw [dropStart?, if_pos hstart, List.drop_left]

theorem dropStart?_eq_none {word : List Char} (h : ¬word <+: cs) : dropStart? word cs = none := by
  rw [dropStart?, if_neg]
  rwa [List.isPrefixOf_iff_prefix]

theorem dropEnd?_append (word rest : List Char) : dropEnd? word (rest ++ word) = some rest := by
  rw [dropEnd?, List.reverse_append, dropStart?_append, Option.map_some, List.reverse_reverse]

theorem dropEnd?_eq_none {word : List Char} (h : ¬word <:+ cs) : dropEnd? word cs = none := by
  rw [dropEnd?, dropStart?_eq_none (List.reverse_prefix.not.2 h), Option.map_none]

end Text
end CaseIntake
