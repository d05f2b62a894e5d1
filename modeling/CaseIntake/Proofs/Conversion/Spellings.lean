import CaseIntake.Proofs.Action
import CaseIntake.Proofs.Conversion.Identifiers

/-!
# CaseIntake.Proofs.Conversion.Spellings

It does not matter how the action of a simplified case is written: `convertAll_of_spells`. Only its
arguments count (`ofSimple_of_arguments_eq`), and all spellings of a list of texts have the same.
-/

namespace CaseIntake
namespace Conversion

theorem ofSimple_of_arguments_eq {ctx : Context} {a b : Action} (h : a.arguments = b.arguments)
    (id : String) (c : SimpleCase) :
    ofSimple ctx id { c with action := some a } = ofSimple ctx id { c with action := some b } := by
  have hargs : argumentsOf { c with action := some a } =
      argumentsOf { c with action := some b } := by
    rw [argumentsOf, argumentsOf]
    simp only [h]
  rw [ofSimple, ofSimple, inputsOfSimple, inputsOfSimple, hargs]
  rfl

/-- One case among others: what becomes of all of them depends on its arguments only. -/
theorem convertAll_of_arguments_eq {a b : Action} (h : a.arguments = b.arguments) (c : SimpleCase)
    (before after : List SimpleCase) (ids : Nat → String) (target : Target) (o : Options) :
    SimpleCase.convertAll (before ++ { c with action := some a } :: after) ids target o =
      SimpleCase.convertAll (before ++ { c with action := some b } :: after) ids target o := by
  have hname : SimpleCase.name { c with action := some a } =
      SimpleCase.name { c with action := some b } := rfl
  rw [SimpleCase.convertAll, SimpleCase.convertAll, ofCases, ofCases,
    collect_replace hname fun id => ofSimple_of_arguments_eq h id c]

/-- Texts without commas, and without blanks at their ends, are passed in their order by a call, by
a text with commas between them, and by a list. A case with one of these actions becomes the same
specification as with another, up to its identifier, or is skipped for the same reason, and so do
the cases around it. -/
theorem convertAll_of_spells {texts : List String} {a b : Action} (ha : a.Spells texts)
    (hb : b.Spells texts) (hpieces : ∀ text ∈ texts, Text.IsPiece text.toList) (c : SimpleCase)
    (before after : List SimpleCase) (ids ids' : Nat → String) (target : Target) (o : Options) :
    a.arguments = some (texts.map fun text => .positional (.string text)) ∧
      a.arguments = b.arguments ∧
      (∀ ctx id id',
        (ofSimple ctx id { c with action := some a }).map Spec.anonymous =
          (ofSimple ctx id' { c with action := some b }).map Spec.anonymous) ∧
      (SimpleCase.convertAll (before ++ { c with action := some a } :: after) ids target o).map
          anonymous =
        (SimpleCase.convertAll (before ++ { c with action := some b } :: after) ids' target o).map
          anonymous := by
  have hsame : a.arguments = b.arguments :=
    (ha.arguments_eq hpieces).trans (hb.arguments_eq hpieces).symm
  refine ⟨ha.arguments_eq hpieces, hsame, fun ctx id id' => ?_, ?_⟩
  · rw [ofSimple_of_arguments_eq hsame, ofSimple_anonymous ctx id id']
  · rw [convertAll_of_arguments_eq hsame, SimpleCase.convertAll_anonymous ids ids']

/-- Parentheses within the texts, open or closed, and one in the name of the function. -/
theorem convertAll_of_spells_parentheses :
    let texts := ["g(1)", "x)", "(", "$a b"]
    let call := Action.call "F)(g(1), x), (, $a b)"
    let text := Action.structured ⟨some "F", some (.text "g(1), x), (, $a b"), ["x)"]⟩
    let c : SimpleCase := ⟨"n", none, .ofList [("a b", .int 1)], none, none, none, none, none, none, []⟩
    (∀ t ∈ texts, Text.IsPiece t.toList) ∧ call.Spells texts ∧ text.Spells texts ∧
      call.arguments = some (texts.map fun t => .positional (.string t)) ∧
      call.arguments = text.arguments ∧
      (SimpleCase.convertAll [{ c with action := some call }] (fun _ => "1") (.function "F")
          .standard).map anonymous =
        (SimpleCase.convertAll [{ c with action := some text }] (fun _ => "2") (.function "F")
          .standard).map anonymous := by
  intro texts call text c
  have hpieces : ∀ t ∈ texts, Text.IsPiece t.toList := by
    intro t ht
    have hall : texts.all (fun t => t.toList ≠ [] ∧ ',' ∉ t.toList ∧
        Text.trimChars t.toList = t.toList) = true := by
      decide +kernel
    have hpiece := of_decide_eq_true (List.all_eq_true.1 hall t ht)
    exact ⟨hpiece.1, hpiece.2.1, hpiece.2.2⟩
  have hcall : call.Spells texts := by
    have hspells : (Action.call (callText "F)" texts)).Spells texts := .call (by decide +kernel)
    exact hspells
  have htext : text.Spells texts := .text
  obtain ⟨harguments, hsame, -, hconvert⟩ := convertAll_of_spells hcall htext hpieces c [] []
    (fun _ => "1") (fun _ => "2") (.function "F") .standard
  exact ⟨hpieces, hcall, htext, harguments, hsame, hconvert⟩

end Conversion
end CaseIntake
