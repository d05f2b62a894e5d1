import CaseIntake.Proofs.Comparison.Priority

/-!
# CaseIntake.Proofs.Comparison.Neighbours

Which signs may stand next to the operator that a text is read by.

The reader knows only its own operators. A sign next to the one that decides is ruled out where the
two make up an operator too: the same one a second time, or one that is tried before
(`occurs_earlier`, `occurs_later`). Of the other spellings only `>=` and `<=` are known not to be
operators. `read?_apart` is the main statement.
-/

namespace CaseIntake
namespace Comparison

/-- The characters that operators of signs are made of. -/
def isSign (c : Char) : Bool :=
  c = '=' || c = '!' || c = '<' || c = '>'

/-- What is certain of the characters next to the operator between `left` and `right`. -/
def Apart : Operator → List Char → List Char → Prop
  | .equals, left, right => left.getLast? ≠ some '=' ∧ right.head? ≠ some '='
  | .notEquals, _, right => right.head? = some '=' → right = ['=']
  | .greaterThan, left, right =>
    left.getLast? ≠ some '>' ∧ right.head? ≠ some '=' ∧
      (right.head? = some '>' → right[1]? = some '=')
  | .lessThan, left, right =>
    left.getLast? ≠ some '<' ∧ right.head? ≠ some '=' ∧
      (right.head? = some '<' → right[1]? = some '=') ∧
      (left.getLast? = some '>' → left = ['>']) ∧
      (right.head? = some '>' → right = ['>'] ∨ right[1]? = some '=')
  | .contains, _, _ | .notNil, _, _ | .nil, _, _ => True

theorem plain_of_isSign {c : Char} (h : isSign c = true) :
    isQuote c = false ∧ isOpening c = false ∧ isClosing c = false ∧ Text.isBlank c = false := by
  simp only [isSign, Bool.or_eq_true, decide_eq_true_eq] at h
  rcases h with ((rfl | rfl) | rfl) | rfl <;> decide

/-! ## A sign next to an operator -/

section Shift

variable {op e : Operator} {cs left right right' : List Char} {c : Char}

/-- With the sign before it, what an operator begins may be another operator. -/
theorem occurs_earlier (h : Occurs op cs (left ++ [c]) right) (hc : isSign c = true)
    (he : e.endsText = false) (htext : c :: (op.token ++ right) = e.token ++ right')
    (hsign : e = .greaterThan ∨ e = .lessThan → right'.head? ≠ some '=') :
    Occurs e cs left right' := by
  obtain ⟨hquote, hopening, hclosing, -⟩ := plain_of_isSign hc
  refine ⟨?_, h.topLevel.of_concat hquote hopening hclosing, hsign, ?_⟩
  · calc cs = left ++ [c] ++ op.token ++ right := h.text
      _ = left ++ c :: (op.token ++ right) := by simp
      _ = left ++ e.token ++ right' := by rw [htext, List.append_assoc]
  · rintro (rfl | rfl) <;> cases he

/-- Without its first sign, what an operator begins may be another operator. -/
theorem occurs_later (h : Occurs op cs left right) (hc : isSign c = true)
    (he : e.endsText = false) (htext : op.token ++ right = c :: (e.token ++ right'))
    (hsign : e = .greaterThan ∨ e = .lessThan → right'.head? ≠ some '=') :
    Occurs e cs (left ++ [c]) right' := by
  obtain ⟨hquote, hopening, hclosing, -⟩ := plain_of_isSign hc
  refine ⟨?_, h.topLevel.plain (fun _ => hquote) hopening hclosing, hsign, ?_⟩
  · calc cs = left ++ (op.token ++ right) := by rw [h.text, List.append_assoc]
      _ = left ++ [c] ++ e.token ++ right' := by rw [htext]; simp
  · rintro (rfl | rfl) <;> cases he

end Shift

/-! ## The same sign again -/

section Again

variable {op : Operator} {cs left right left' right' : List Char} {c : Char}

theorem not_occurs_again (h : Decides op cs left right) (hne : left' ≠ left) :
    ¬Occurs op cs left' right' := by
  intro hoccurs
  exact hne (h.once left' right' hoccurs)

/-- An operator made of one sign does not decide after that sign. -/
theorem getLast?_ne_of_decides (h : Decides op cs left right) (hc : isSign c = true)
    (hends : op.endsText = false) (htoken : c :: op.token = op.token ++ [c])
    (hsign : op = .greaterThan ∨ op = .lessThan → c ≠ '=') : left.getLast? ≠ some c := by
  intro hlast
  obtain ⟨before, rfl⟩ := List.getLast?_eq_some_iff.1 hlast
  have htext : c :: (op.token ++ right) = op.token ++ (c :: right) := by
    rw [← List.cons_append, htoken, List.append_assoc, List.singleton_append]
  have hoccurs : Occurs op cs before (c :: right) :=
    occurs_earlier h.occurs hc hends htext (by simpa using hsign)
  exact not_occurs_again h (by simp) hoccurs

/-- An operator made of one sign decides before that sign only if a sign `=` keeps the second one
from being an operator. -/
theorem getElem?_one_of_decides (h : Decides op cs left right) (hc : isSign c = true)
    (hends : op.endsText = false) (htoken : c :: op.token = op.token ++ [c])
    (hhead : right.head? = some c) :
    (op = .greaterThan ∨ op = .lessThan) ∧ right[1]? = some '=' := by
  obtain ⟨after, rfl⟩ := List.head?_eq_some_iff.1 hhead
  have htext : op.token ++ c :: after = c :: (op.token ++ after) := by
    rw [← List.cons_append, htoken, List.append_assoc, List.singleton_append]
  refine Classical.byContradiction fun hno => ?_
  have hoccurs : Occurs op cs (left ++ [c]) after := by
    refine occurs_later h.occurs hc hends htext fun hop hequals => hno ⟨hop, ?_⟩
    rwa [List.getElem?_cons_succ, ← List.head?_eq_getElem?]
  exact not_occurs_again h (by simp) hoccurs

end Again

/-! ## An operator that is tried before -/

section Before

variable {text left right : List Char} {e : Operator}
  (hbefore : ¬Repeated e (Text.trimChars text) ∧ ∀ l r, ¬Decides e (Text.trimChars text) l r)
  (he : e.endsText = false)

include hbefore he

/-- In a trimmed text the side that is missing is empty. -/
theorem eq_nil_of_not_decides (hoccurs : Occurs e (Text.trimChars text) left right) :
    left = [] ∨ right = [] := by
  rcases blank_of_not_decides he hoccurs hbefore.1 (hbefore.2 left right) with hleft | hright
  · have hprefix : left <+: Text.trimChars text := ⟨e.token ++ right, by simp [hoccurs.text]⟩
    exact Or.inl (Text.eq_nil_of_prefix_trimChars hprefix hleft)
  · have hsuffix : right <:+ Text.trimChars text := ⟨left ++ e.token, hoccurs.text.symm⟩
    exact Or.inr (Text.eq_nil_of_suffix_trimChars hsuffix hright)

end Before

/-! ## The four operators -/

section Decided

variable {text left right : List Char}

theorem apart_equals {cs : List Char} (h : Decides .equals cs left right) :
    Apart .equals left right := by
  refine ⟨getLast?_ne_of_decides h (by decide) rfl rfl (by simp), fun hhead => ?_⟩
  obtain ⟨hop, -⟩ := getElem?_one_of_decides h (by decide) rfl rfl hhead
  simp at hop

theorem apart_notEquals (h : Decides .notEquals (Text.trimChars text) left right)
    (hequals : ¬Repeated .equals (Text.trimChars text) ∧
      ∀ l r, ¬Decides .equals (Text.trimChars text) l r) :
    Apart .notEquals left right := by
  intro hhead
  obtain ⟨after, rfl⟩ := List.head?_eq_some_iff.1 hhead
  have hoccurs : Occurs .equals (Text.trimChars text) (left ++ ['!']) after :=
    occurs_later h.occurs (by decide) rfl rfl (by simp)
  rcases eq_nil_of_not_decides hequals rfl hoccurs with hleft | rfl
  · simp at hleft
  · rfl

theorem apart_greaterThan {cs : List Char} (h : Decides .greaterThan cs left right) :
    Apart .greaterThan left right := by
  refine ⟨getLast?_ne_of_decides h (by decide) rfl rfl (by simp), h.occurs.sign (Or.inl rfl), ?_⟩
  intro hhead
  exact (getElem?_one_of_decides h (by decide) rfl rfl hhead).2

theorem apart_lessThan (h : Decides .lessThan (Text.trimChars text) left right)
    (hgreater : ¬Repeated .greaterThan (Text.trimChars text) ∧
      ∀ l r, ¬Decides .greaterThan (Text.trimChars text) l r) :
    Apart .lessThan left right := by
  refine ⟨getLast?_ne_of_decides h (by decide) rfl rfl (by simp), h.occurs.sign (Or.inr rfl),
    fun hhead => ?_, fun hlast => ?_, fun hhead => ?_⟩
  · exact (getElem?_one_of_decides h (by decide) rfl rfl hhead).2
  · obtain ⟨before, rfl⟩ := List.getLast?_eq_some_iff.1 hlast
    have hoccurs : Occurs .greaterThan (Text.trimChars text) before ('<' :: right) :=
      occurs_earlier h.occurs (by decide) rfl rfl (by simp)
    rcases eq_nil_of_not_decides hgreater rfl hoccurs with rfl | hright
    · rfl
    · cases hright
  · obtain ⟨after, rfl⟩ := List.head?_eq_some_iff.1 hhead
    refine Classical.byContradiction fun hno => ?_
    have hequals : ('>' :: after)[1]? ≠ some '=' := fun h => hno (Or.inr h)
    have hoccurs : Occurs .greaterThan (Text.trimChars text) (left ++ ['<']) after := by
      refine occurs_later h.occurs (by decide) rfl rfl fun _ => ?_
      rwa [List.head?_eq_getElem?]
    rcases eq_nil_of_not_decides hgreater rfl hoccurs with hleft | rfl
    · simp at hleft
    · exact hno (Or.inl rfl)

end Decided

/-- The operator that a text is read by stands apart from other signs only as far as `Apart` says:
it is not doubled, and the signs with an operator that is tried before it would leave that one
without a side. -/
theorem read?_apart (text : String) (c : Comparison) (h : read? text = some c) :
    ∃ left right, Decides c.operator (Text.trimChars text.toList) left right ∧
      c = between c.operator left right ∧ Apart c.operator left right := by
  obtain ⟨⟨left, right, hdecides, hc⟩, hbefore⟩ := read?_decided_iff.1 h
  refine ⟨left, right, hdecides, hc, ?_⟩
  cases hop : c.operator with
  | equals =>
    rw [hop] at hdecides
    exact apart_equals hdecides
  | notEquals =>
    rw [hop] at hdecides hbefore
    exact apart_notEquals hdecides (hbefore .equals (by decide))
  | greaterThan =>
    rw [hop] at hdecides
    exact apart_greaterThan hdecides
  | lessThan =>
    rw [hop] at hdecides hbefore
    exact apart_lessThan hdecides (hbefore .greaterThan (by decide))
  | contains | notNil | nil => trivial

/-- The second sign of an unfinished `!==` is what is expected. -/
theorem read?_apart_unfinished :
    read? "x !==" = some ⟨.notEquals, "x", some (.string "=")⟩ ∧
      ∃ left right, Decides .notEquals (Text.trimChars "x !==".toList) left right ∧
        Apart .notEquals left right := by
  have hread : read? "x !==" = some ⟨.notEquals, "x", some (.string "=")⟩ := by decide +kernel
  obtain ⟨left, right, hdecides, -, hapart⟩ := read?_apart "x !==" _ hread
  exact ⟨hread, left, right, hdecides, hapart⟩

/-- The signs `!==`, `<>` and `=>` are read as an equality and as orders, with the sign in front of
the operator as a part of what is compared. -/
theorem read?_within_signs :
    read? "a !== b" = some ⟨.equals, "a !", some (.string "b")⟩ ∧
      Decides .equals (Text.trimChars "a !== b".toList) ['a', ' ', '!'] [' ', 'b'] ∧
      isSign '!' = true ∧
      read? "a <> b" = some ⟨.greaterThan, "a <", some (.string "b")⟩ ∧
      read? "a => b" = some ⟨.greaterThan, "a =", some (.string "b")⟩ := by
  have hsplits : splits (quotesBalanced (Text.trimChars "a !== b".toList)) .equals .outside none
      (Text.trimChars "a !== b".toList) = [(['a', ' ', '!'], [' ', 'b'])] := by
    decide +kernel
  obtain ⟨hoccurs, honce⟩ := splits_eq_singleton.1 hsplits
  have hleft : ∃ c ∈ ['a', ' ', '!'], Text.isBlank c = false := ⟨'a', by decide, by decide⟩
  have hright : ∃ c ∈ [' ', 'b'], Text.isBlank c = false := ⟨'b', by decide, by decide⟩
  refine ⟨by decide +kernel, ⟨hoccurs, honce, hleft, ?_⟩, by decide, by decide +kernel,
    by decide +kernel⟩
  exact ⟨fun _ => rfl, fun _ => hright⟩

end Comparison
end CaseIntake
