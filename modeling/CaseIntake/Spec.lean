import CaseIntake.Value.Basic

/-!
# Test specifications

The flat records that code emitters read: one `Spec` for each test, with the inputs of the call,
their types and order, and what to assert of the outcome.
-/

namespace CaseIntake

/-- Granularity of a test. -/
inductive Level where
  | unit
  | api
  | endToEnd
deriving DecidableEq

def Level.words : List (String × Level) :=
  [("unit", .unit), ("api", .api), ("e2e", .endToEnd)]

def Level.word : Level → String
  | .unit => "unit"
  | .api => "api"
  | .endToEnd => "e2e"

/-- What is known of the function under test. -/
structure Target where
  functionName : String
  filePath : Option String
  level : Level
deriving DecidableEq

def Target.function (name : String) : Target :=
  ⟨name, none, .unit⟩

structure Assertion where
  kind : String
  actual : String
  expected : Option Value
  message : Option String
deriving DecidableEq

structure Spec where
  id : String
  level : Level
  targetKind : String
  targetId : String
  functionName : String
  filePath : Option String
  description : String
  inputs : Dict Value
  inputTypes : Dict String
  argOrder : List String
  assertions : List Assertion
  tags : List String
  priority : String
deriving DecidableEq

end CaseIntake
