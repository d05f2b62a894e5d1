import CaseIntake.Comparison
import CaseIntake.SimpleCase
import CaseIntake.Suite

/-!
# Checks of a payload

The checks that a simplified case asks for. Text is read as a comparison, and text that is none is
itself the expected result. In a map some keys have a meaning of their own, and every other key
asks for equality with its value.
-/

namespace CaseIntake
namespace Payload

def equalsResult (expected : Value) : Check :=
  .new "equals" "result" (some expected)

/-- The check for a case that asks for nothing. -/
def fallback : Check :=
  .new "not_nil" "result" none

def checkOfText (text : String) : Check :=
  match Comparison.read? text with
  | some c => .new c.operator.assertionType c.actual c.expected
  | none => equalsResult (.string text)

/-- Keys with a meaning of their own. -/
def reservedKeys : List String :=
  ["result", "expect", "error", "contains", "type"]

def checksOfError : Option Value → List Check
  | some (.bool true) => [.new "not_nil" "error" none]
  | some (.string s) => [.new "contains" "error" (some (.string s))]
  | _ => []

/-- The checks of a map: first those of the reserved keys, then one for each other key. -/
def checksOfMap (entries : List (String × Value)) : List Check :=
  (match findEntry "result" entries with
    | some v => [equalsResult v]
    | none => []) ++
  (match findEntry "expect" entries with
    | some (.string s) => [checkOfText s]
    | _ => []) ++
  checksOfError (findEntry "error" entries) ++
  (match findEntry "contains" entries with
    | some v => [.new "contains" "result" (some v)]
    | none => []) ++
  (match findEntry "type" entries with
    | some v => [.new "type_is" "result" (some v)]
    | none => []) ++
  (entries.filter fun entry => !reservedKeys.contains entry.1).map fun entry =>
    .new "equals" entry.1 (some entry.2)

def checksOfItem : Value → List Check
  | .string s => [checkOfText s]
  | .map entries => checksOfMap entries
  | v => [equalsResult v]

def checks : Payload → List Check
  | .text s => [checkOfText s]
  | .list items => items.flatMap checksOfItem
  | .map entries => checksOfMap entries.entries
  | .scalar v => [equalsResult v]

end Payload

/-- What a simplified case asks for; there is always something. -/
def SimpleCase.checks (c : SimpleCase) : List Check :=
  match c.payload with
  | none => [Payload.fallback]
  | some p =>
    match p.checks with
    | [] => [Payload.fallback]
    | checks => checks

end CaseIntake
