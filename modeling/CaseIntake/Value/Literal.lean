import CaseIntake.Text.Blank
import CaseIntake.Number.Numeral
import CaseIntake.Number.Word
import CaseIntake.Value.Basic

/-!
# Literals

The value that free text stands for, such as the right side of `result == 5`. The readings are
tried in this order: a text in matching quotes, a whole number of 64 bits, a decimal numeral with a
finite nearest number, the words `true`, `false`, `nil` and `null`, and last the text itself.
-/

namespace CaseIntake
namespace Literal

/-- The text between two equal quotes, single or double. -/
def unquote? (cs : List Char) : Option (List Char) :=
  match cs with
  | [] => none
  | q :: rest =>
    if (q = '"' || q = '\'') && rest.getLast? = some q then some rest.dropLast else none

def int? (cs : List Char) : Option Int64 :=
  (Digits.readSigned? cs).bind Word.int64?

def float? (cs : List Char) : Option Binary64 :=
  (Numeral.read? cs).bind Numeral.toBinary64?

def word? (s : String) : Option Value :=
  if s = "true" then some (.bool true)
  else if s = "false" then some (.bool false)
  else if s = "nil" || s = "null" then some .null
  else none

/-- The value of a text without blanks at its ends. -/
def ofTrimmed (cs : List Char) : Value :=
  match unquote? cs with
  | some inner => .string (String.ofList inner)
  | none =>
    match int? cs with
    | some n => .int n
    | none =>
      match float? cs with
      | some x => .float x
      | none => (word? (String.ofList cs)).getD (.string (String.ofList cs))

def coerce (s : String) : Value :=
  ofTrimmed (Text.trimChars s.toList)

end Literal
end CaseIntake
