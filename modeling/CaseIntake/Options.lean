import CaseIntake.Dict

/-!
# Options

The tables that validation and conversion share: the type hints that variables may have, the
assertion types with the kind each one becomes, and the types that need an expected value.
-/

namespace CaseIntake

structure Options where
  typeHints : NameSet
  /-- The kind that each assertion type becomes. -/
  assertionKinds : Dict String
  expectedRequired : NameSet
  /-- Function names beyond this length are warned of. -/
  maxFunctionNameLength : Nat
  /-- How many characters of a document a diagnostic shows. -/
  excerptLength : Nat
deriving DecidableEq

namespace Options

def standard : Options where
  typeHints := NameSet.ofNames
    ["int", "float", "string", "bool", "null", "array", "object", "function"]
  assertionKinds := Dict.ofList [
    ("equals", "equality"),
    ("not_equals", "not_equal"),
    ("contains", "contains"),
    ("not_contains", "not_contains"),
    ("greater_than", "greater_than"),
    ("less_than", "less_than"),
    ("throws", "throws"),
    ("truthy", "truthy"),
    ("falsy", "falsy"),
    ("nil", "nil"),
    ("not_nil", "not_nil"),
    ("length", "length"),
    ("type_is", "type_is")]
  expectedRequired := NameSet.ofNames
    ["equals", "not_equals", "contains", "not_contains", "greater_than", "less_than", "length",
      "type_is"]
  maxFunctionNameLength := 200
  excerptLength := 200

def allowsHint (o : Options) (hint : String) : Bool :=
  o.typeHints.contains hint

def knowsAssertion (o : Options) (type : String) : Bool :=
  o.assertionKinds.contains type

def requiresExpected (o : Options) (type : String) : Bool :=
  o.expectedRequired.contains type

/-- The kind of an assertion type; an unknown type stands for itself. -/
def kindOf (o : Options) (type : String) : String :=
  (o.assertionKinds.find? type).getD type

end Options
end CaseIntake
