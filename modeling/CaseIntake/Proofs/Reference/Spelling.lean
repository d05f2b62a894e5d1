import CaseIntake.Proofs.Reference

/-!
# CaseIntake.Proofs.Reference.Spelling

The ways to write a reference to a name: bare, after a dollar sign, or in braces after one, with
blanks around it and within the braces. All of them refer to the name (`name_of_spells`).

`Respelled`: two references among which nothing has changed, or the spelling of a known name.
-/

namespace CaseIntake
namespace Reference

/-- A name that no spelling of a reference to it can be taken for another one. Identifiers are such
names (`isPlainName_of_isIdentifier`). -/
structure IsPlainName (n : String) : Prop where
  ne_empty : n ≠ ""
  trimmed : Text.trimChars n.toList = n.toList
  dollar : n.toList.head? ≠ some '$'
  brace : n.toList.head? ≠ some '\x7b'

inductive Spells (n : List Char) : List Char → Prop where
  | bare : Spells n n
  | dollar : Spells n ('$' :: n)
  | braced {lead trail : List Char} : (∀ c ∈ lead, Text.isBlank c = true) →
      (∀ c ∈ trail, Text.isBlank c = true) →
      Spells n ('$' :: '\x7b' :: (lead ++ n ++ trail ++ ['\x7d']))
  | padded {lead trail text : List Char} : (∀ c ∈ lead, Text.isBlank c = true) →
      (∀ c ∈ trail, Text.isBlank c = true) → Spells n text → Spells n (lead ++ text ++ trail)

/-- The same text, or two spellings of a name that is known. -/
inductive Respelled (known : String → Prop) : String → String → Prop where
  | same {text : String} : Respelled known text text
  | spelled {n a b : String} : IsPlainName n → known n → Spells n.toList a.toList →
      Spells n.toList b.toList → Respelled known a b

/-- A word is a plain name, even if it starts with a digit. -/
theorem isPlainName_of_isWordChar {n : String} (hne : n ≠ "")
    (hword : ∀ c ∈ n.toList, isWordChar c = true) : IsPlainName n := by
  have hhead (c : Char) (hc : isWordChar c = false) : n.toList.head? ≠ some c := by
    intro hmem
    rw [hword c (List.mem_of_head? hmem)] at hc
    cases hc
  exact ⟨hne, trimChars_of_isWordChar hword, hhead _ (by decide), hhead _ (by decide)⟩

theorem isPlainName_of_isIdentifier {n : String} (h : isIdentifier n = true) : IsPlainName n := by
  refine isPlainName_of_isWordChar ?_ (isWordChar_of_isIdentifier h)
  rintro rfl
  exact ne_nil_of_isIdentifier h rfl

/-- Whatever stands in braces is the name, without the blanks at its ends. -/
theorem nameOfTrimmed_braces (inside : List Char) :
    nameOfTrimmed (Text.trimChars ('$' :: '\x7b' :: (inside ++ ['\x7d']))) =
      Text.trimChars inside := by
  have htrimmed : Text.trimChars ('$' :: '\x7b' :: (inside ++ ['\x7d'])) =
      '$' :: '\x7b' :: (inside ++ ['\x7d']) := by
    refine Text.trimChars_eq_self (fun c hc => ?_) (fun c hc => ?_)
    · obtain rfl := Option.some.inj hc
      decide
    · rw [← List.cons_append, ← List.cons_append, List.getLast?_concat] at hc
      obtain rfl := Option.some.inj hc
      decide
  have hbraced : braced? ('$' :: '\x7b' :: (inside ++ ['\x7d'])) = some inside :=
    Text.dropEnd?_append ['\x7d'] inside
  rw [htrimmed, nameOfTrimmed, hbraced]

section Plain

variable {n : String} (h : IsPlainName n)

include h

theorem isBlank_of_getLast?_plain {c : Char} (hc : n.toList.getLast? = some c) :
    Text.isBlank c = false := by
  rw [← h.trimmed] at hc
  exact Text.isBlank_of_getLast?_trimChars hc

theorem nameOfTrimmed_bare : nameOfTrimmed n.toList = n.toList := by
  have hdollar (rest : List Char) : n.toList ≠ '$' :: rest := by
    intro hlist
    exact h.dollar (by rw [hlist]; rfl)
  unfold nameOfTrimmed braced?
  split
  · rename_i inner hbraced
    split at hbraced
    · rename_i rest hlist
      exact absurd hlist (hdollar _)
    · cases hbraced
  · split
    · rename_i rest hlist
      exact absurd hlist (hdollar _)
    · rfl

theorem nameOfTrimmed_dollar : nameOfTrimmed ('$' :: n.toList) = n.toList := by
  unfold nameOfTrimmed braced?
  split
  · rename_i inner hbraced
    split at hbraced
    · rename_i rest hlist
      refine absurd ?_ h.brace
      rw [(List.cons.inj hlist).2]
      rfl
    · cases hbraced
  · rfl

/-- Whatever way a name is spelled, its signs and blanks come off again. -/
theorem nameOfTrimmed_of_spells {text : List Char} (hspells : Spells n.toList text) :
    nameOfTrimmed (Text.trimChars text) = n.toList := by
  induction hspells with
  | bare => rw [h.trimmed, nameOfTrimmed_bare h]
  | dollar =>
    have htrimmed : Text.trimChars ('$' :: n.toList) = '$' :: n.toList := by
      refine Text.trimChars_eq_self (fun c hc => ?_) (fun c hc => ?_)
      · obtain rfl := Option.some.inj hc
        decide
      · rw [List.getLast?_cons] at hc
        cases hlast : n.toList.getLast? with
        | none =>
          rw [hlast] at hc
          obtain rfl := Option.some.inj hc
          decide
        | some last =>
          rw [hlast] at hc
          obtain rfl := Option.some.inj hc
          exact isBlank_of_getLast?_plain h hlast
    rw [htrimmed, nameOfTrimmed_dollar h]
  | braced hlead htrail =>
    rw [nameOfTrimmed_braces, Text.trimChars_append_right htrail,
      Text.trimChars_append_left hlead, h.trimmed]
  | padded hlead htrail _ ih =>
    rwa [Text.trimChars_append_right htrail, Text.trimChars_append_left hlead]

theorem name_of_spells {token : String} (hspells : Spells n.toList token.toList) :
    name token = n := by
  rw [name, nameOfTrimmed_of_spells h hspells, String.ofList_toList]

end Plain

/-- A respelled reference refers to what it referred to. -/
theorem Respelled.eq_or_name_eq {known : String → Prop} {a b : String} (h : Respelled known a b) :
    a = b ∨ name a = name b ∧ known (name a) := by
  cases h with
  | same => exact Or.inl rfl
  | spelled hplain hknown ha hb =>
    rw [name_of_spells hplain ha, name_of_spells hplain hb]
    exact Or.inr ⟨rfl, hknown⟩

end Reference
end CaseIntake
