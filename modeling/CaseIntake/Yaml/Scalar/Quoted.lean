import CaseIntake.Number.Digits
import CaseIntake.Yaml.Cursor
import CaseIntake.Yaml.Scalar.Folding

/-!
# Quoted scalars

Between single quotes only the quote itself is special, and is written twice. Between double quotes
a backslash introduces an escape; before a line end it keeps the line end from becoming a space.
-/

namespace CaseIntake
namespace Yaml

def simpleEscape? : Char → Option Char
  | '0' => some '\x00'
  | 'a' => some '\x07'
  | 'b' => some '\x08'
  | 't' => some '\t'
  | '\t' => some '\t'
  | 'n' => some '\n'
  | 'v' => some '\x0b'
  | 'f' => some '\x0c'
  | 'r' => some '\r'
  | 'e' => some '\x1b'
  | ' ' => some ' '
  | '"' => some '"'
  | '/' => some '/'
  | '\\' => some '\\'
  | 'N' => some '\u0085'
  | '_' => some '\u00a0'
  | 'L' => some '\u2028'
  | 'P' => some '\u2029'
  | _ => none

/-- How many digits a numeric escape has. -/
def escapeWidth? : Char → Option Nat
  | 'x' => some 2
  | 'u' => some 4
  | 'U' => some 8
  | _ => none

/-- The character that an escape stands for, and the width of the escape after its backslash. -/
def escape? (e : Char) (cs : List Char) : Option (Char × Nat) :=
  match simpleEscape? e with
  | some c => some (c, 1)
  | none =>
    match escapeWidth? e with
    | none => none
    | some width =>
      let ds := cs.take width
      if ds.length < width then none
      else
        match Digits.read? 16 ds with
        | none => none
        | some n => if n.isValidChar then some (Char.ofNat n, width + 1) else none

structure QuotedWord where
  text : List Char
  /-- Whether the word ends with an escaped line end. -/
  escaped : Bool
  rest : List Char

/-- The word up to the closing quote, a blank or a line end. -/
def quotedWord (double : Bool) (cs : List Char) : Option QuotedWord :=
  match cs with
  | [] => some ⟨[], false, []⟩
  | c :: rest =>
    if isGap c || isBreak c then some ⟨[], false, c :: rest⟩
    else if !double && c = '\'' && rest.head? = some '\'' then
      (quotedWord double (rest.drop 1)).map fun w => { w with text := '\'' :: w.text }
    else if c = (if double then '"' else '\'') then some ⟨[], false, c :: rest⟩
    else if double && c = '\\' then
      match rest with
      | [] => none
      | e :: after =>
        if isBreak e then some ⟨[], true, after⟩
        else
          match escape? e after with
          | none => none
          | some (x, width) =>
            (quotedWord double ((e :: after).drop width)).map fun w =>
              { w with text := x :: w.text }
    else (quotedWord double rest).map fun w => { w with text := c :: w.text }
termination_by cs.length
decreasing_by all_goals (simp only [List.length_cons, List.length_drop]; omega)

/-- The rest of a quoted scalar, up to and over its closing quote. -/
def quotedFrom (double : Bool) (c : Cursor) : Option (List Char × Cursor) :=
  if c.column = 0 && atDocumentMark c.rest then none
  else
    match quotedWord double c.rest with
    | none => none
    | some word =>
      if word.rest.head? = some (if double then '"' else '\'') then
        some (word.text, (c.moveTo word.rest).skip 1)
      else
        let (gap, rest) := Gap.scan word.rest
        let next := c.moveTo rest
        if _shorter : next.rest.length < c.rest.length then
          (quotedFrom double next).map fun (tail, after) =>
            (word.text ++ (if word.escaped then gap.breaks else gap.text) ++ tail, after)
        else none
termination_by c.rest.length

/-- The quoted scalar at a cursor that stands at the opening quote. -/
def scanQuoted (double : Bool) (c : Cursor) : Option (List Char × Cursor) :=
  quotedFrom double (c.skip 1)

end Yaml
end CaseIntake
