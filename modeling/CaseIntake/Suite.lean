import CaseIntake.Value.Basic

/-!
# Canonical suites

The Given/When/Then form of a test suite for one function. Every part may be missing in a document;
it is then empty here, and validation reports it.
-/

namespace CaseIntake

/-- A set-up variable with an optional type hint. -/
structure Variable where
  name : String
  value : Option Value
  hint : Option String
deriving DecidableEq

/-- The call under test. The text of the call is for people; the arguments say what is passed. -/
structure Invocation where
  call : String
  args : List String
deriving DecidableEq

/-- An expected outcome. -/
structure Check where
  type : String
  actual : String
  expected : Option Value
  message : Option String
deriving DecidableEq

structure TestCase where
  name : String
  description : Option String
  given : List Variable
  action : Invocation
  checks : List Check
  tags : List String
deriving DecidableEq

structure Suite where
  functionName : String
  description : Option String
  tests : List TestCase
deriving DecidableEq

def Variable.new (name : String) (value : Value) (hint : String) : Variable :=
  ⟨name, some value, some hint⟩

/-- A check without a message. -/
def Check.new (type actual : String) (expected : Option Value) : Check :=
  ⟨type, actual, expected, none⟩

def Invocation.empty : Invocation :=
  ⟨"", []⟩

def Suite.empty : Suite :=
  ⟨"", none, []⟩

end CaseIntake
