import CaseIntake.Action
import CaseIntake.Proofs.Dict
import CaseIntake.Proofs.Text.Split

/-!
# CaseIntake.Proofs.Action

The arguments of an action: of one that was written out from a list of texts, and of one with named
arguments.

* `callArguments_callText`: the arguments of a call are the texts that were put between its
  parentheses, whatever parentheses they hold themselves.
* `Action.Spells`: the three ways to write such an action. Its arguments are always the texts
  (`Action.Spells.arguments_eq`).
* `mem_orderedNames`: whatever order is asked for, the named arguments are those of the map.
-/

namespace CaseIntake

theorem textArguments_eq_map (texts : List String) :
    textArguments texts = (texts.map .string).map .positional := by
  rw [textArguments, List.map_map]
  rfl

/-- The call of a function with its arguments, as text. -/
def callText (function : String) (args : List String) : String :=
  function ++ "(" ++ ", ".intercalate args ++ ")"

/-- What stands between the first opening and the last closing parenthesis is cut at its commas. -/
theorem callArguments_parentheses {before after : String} (hbefore : '(' ∉ before.toList)
    (hafter : ')' ∉ after.toList) (inner : String) :
    callArguments (before ++ "(" ++ inner ++ ")" ++ after) = Text.commaPieces inner.toList := by
  have htext : (before ++ "(" ++ inner ++ ")" ++ after).toList =
      before.toList ++ '(' :: (inner.toList ++ ')' :: after.toList) := by
    simp
  rw [callArguments, htext, Text.breakAt_append hbefore]
  simp only [Text.beforeLast_append hafter]

section Texts

variable {texts : List String} (hpieces : ∀ text ∈ texts, Text.IsPiece text.toList)

include hpieces

/-- Texts that were joined with commas are the pieces again. -/
theorem commaPieces_joined : Text.commaPieces (", ".intercalate texts).toList = texts := by
  have hchars : ∀ cs ∈ texts.map String.toList, Text.IsPiece cs := by
    intro cs hcs
    obtain ⟨text, htext, rfl⟩ := List.mem_map.1 hcs
    exact hpieces text htext
  have hjoined : (", ".intercalate texts).toList =
      [',', ' '].intercalate (texts.map String.toList) := by
    simp
  rw [hjoined, Text.commaPieces_intercalate hchars, List.map_map]
  simp [Function.comp_def]

theorem callArguments_callText {function : String} (hfunction : '(' ∉ function.toList) :
    callArguments (callText function texts) = texts := by
  have hnone : ')' ∉ "".toList := by simp
  have hcall := callArguments_parentheses hfunction hnone (", ".intercalate texts)
  rw [String.append_empty] at hcall
  rw [callText, hcall, commaPieces_joined hpieces]

end Texts

/-- An action that passes the texts by position: a call with the texts between its parentheses, a
structured call with one text that has commas between them, or a structured call with a list of
them. -/
inductive Action.Spells (texts : List String) : Action → Prop where
  | call {function : String} : '(' ∉ function.toList →
      Spells texts (.call (callText function texts))
  | text {function : Option String} {order : List String} :
      Spells texts (.structured ⟨function, some (.text (", ".intercalate texts)), order⟩)
  | list {function : Option String} {order : List String} :
      Spells texts (.structured ⟨function, some (.positional (texts.map .string)), order⟩)

theorem Action.Spells.arguments_eq {texts : List String} {a : Action} (h : a.Spells texts)
    (hpieces : ∀ text ∈ texts, Text.IsPiece text.toList) :
    a.arguments = some (textArguments texts) := by
  cases h with
  | call hfunction => rw [Action.arguments, callArguments_callText hpieces hfunction]
  | text => simp only [Action.arguments, StructuredAction.arguments, commaPieces_joined hpieces]
  | list => rw [Action.arguments, StructuredAction.arguments, textArguments_eq_map]

theorem mem_orderedNames {named : Dict Value} {order : List String} {name : String} :
    name ∈ orderedNames named order ↔ named.contains name = true := by
  rw [orderedNames, List.mem_append, List.mem_filter, Dict.mem_names]
  constructor
  · rintro (hfirst | ⟨hname, -⟩)
    · exact (List.mem_filter.1 (List.mem_eraseDups.1 hfirst)).2
    · exact hname
  · intro hname
    by_cases hfirst : name ∈ (order.filter named.contains).eraseDups
    · exact Or.inl hfirst
    · refine Or.inr ⟨hname, ?_⟩
      rwa [Bool.not_eq_true', ← Bool.not_eq_true, List.contains_iff_mem]

end CaseIntake
