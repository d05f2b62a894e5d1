import CaseIntake.Json.Decoder

/-!
# Document shapes

The forms in which cases come: a canonical suite or one canonical case, and three forms of
simplified cases.
-/

namespace CaseIntake

inductive DocumentShape where
  | canonicalSuite
  | canonicalCase
  | caseList
  | singleCase
  | wrappedCases
deriving DecidableEq

namespace DocumentShape

def words : List (String × DocumentShape) := [
  ("canonical_suite", .canonicalSuite),
  ("canonical_case", .canonicalCase),
  ("case_list", .caseList),
  ("single_case", .singleCase),
  ("wrapped_cases", .wrappedCases)]

def word : DocumentShape → String
  | .canonicalSuite => "canonical_suite"
  | .canonicalCase => "canonical_case"
  | .caseList => "case_list"
  | .singleCase => "single_case"
  | .wrappedCases => "wrapped_cases"

/-- The name of a shape in messages. -/
def title : DocumentShape → String
  | .canonicalSuite => "CanonicalSuite"
  | .canonicalCase => "CanonicalCase"
  | .caseList => "CaseList"
  | .singleCase => "SingleCase"
  | .wrappedCases => "WrappedCases"

def toJson (s : DocumentShape) : Json :=
  .string s.word

def decode : Decoder DocumentShape :=
  Decoder.variant words

end DocumentShape
end CaseIntake
