import CaseIntake.Action

/-!
# Simplified cases

The loose form in which a case is often written. What is expected may stand in any of five fields
and in any of four forms.
-/

namespace CaseIntake

/-- What a simplified case expects. -/
inductive Payload where
  | text (text : String)
  | list (items : List Value)
  | map (entries : Dict Value)
  | scalar (value : Value)
deriving DecidableEq

structure SimpleCase where
  name : String
  description : Option String
  setup : Dict Value
  action : Option Action
  assertions : Option Payload
  assertion : Option Payload
  assert : Option Payload
  expected : Option Payload
  expect : Option Payload
  tags : List String
deriving DecidableEq

/-- The payload that counts: that of the first field that has one. -/
def SimpleCase.payload (c : SimpleCase) : Option Payload :=
  [c.assertions, c.assertion, c.assert, c.expected, c.expect].findSome? id

end CaseIntake
