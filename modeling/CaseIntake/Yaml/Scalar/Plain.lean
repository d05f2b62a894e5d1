import CaseIntake.Yaml.Cursor
import CaseIntake.Yaml.Scalar.Folding

/-!
# Plain scalars

A plain scalar has no quotes. It ends before `: `, before a comment, at a mark of a flow collection
inside one, at a document mark, and outside flow collections before a line that is indented less.
-/

namespace CaseIntake
namespace Yaml

/-- The word at the start of a text. In a flow collection a colon right before a mark is refused. -/
def plainWord (flow : Bool) : List Char → Option (List Char)
  | [] => some []
  | c :: cs =>
    if isGap c || isBreak c then some []
    else
      let next := cs.head?.getD ' '
      if flow && c = ':' && (isFlowMark next || next = '?') then none
      else if (c = ':' && atGap cs) || (flow && isFlowMark c) then some []
      else (plainWord flow cs).map (c :: ·)

structure PlainScan where
  text : List Char
  /-- Whether line ends follow the scalar. -/
  broken : Bool
  cursor : Cursor

/-- The rest of a scalar after a word. A word goes on over a gap only if another word follows. -/
def plainTail (flow : Bool) (indent : Nat) (c : Cursor) : Option PlainScan :=
  let (gap, rest) := Gap.scan c.rest
  let next := c.moveTo rest
  if Gap.hasTabBefore indent false c.column c.rest then none
  else if !flow && next.column < indent then some ⟨[], gap.isBroken, next⟩
  else if (next.column = 0 && atDocumentMark rest) || rest.head? = some '#' then
    some ⟨[], gap.isBroken, next⟩
  else
    match plainWord flow rest with
    | none => none
    | some [] => some ⟨[], gap.isBroken, next⟩
    | some word =>
      let after := next.skip word.length
      if _shorter : after.rest.length < c.rest.length then
        match plainTail flow indent after with
        | none => none
        | some tail => some { tail with text := gap.text ++ word ++ tail.text }
      else none
termination_by c.rest.length

/-- The plain scalar at a cursor, whose lines after the first have at least the given
indentation. -/
def scanPlain (flow : Bool) (indent : Nat) (c : Cursor) : Option PlainScan :=
  match plainWord flow c.rest with
  | none => none
  | some word =>
    match plainTail flow indent (c.skip word.length) with
    | none => none
    | some tail => some { tail with text := word ++ tail.text }

end Yaml
end CaseIntake
