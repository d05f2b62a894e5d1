import CaseIntake.Json.Encode
import CaseIntake.Json.Shape
import CaseIntake.Value.Json
import CaseIntake.Suite

/-!
# Canonical suites as JSON

The decoders fill every missing part with its empty form. A variable's value and a check's expected
value are absent when the document holds `null` for them. An action that is only a string is the
text of a call without arguments.
-/

namespace CaseIntake

def Variable.toJson (v : Variable) : Json :=
  .record [
    ("name", some (.string v.name)),
    ("value", some ((v.value.map Value.toJson).getD .null)),
    ("type", v.hint.map .string)]

def Invocation.toJson (a : Invocation) : Json :=
  .record [("call", some (.string a.call)), ("args", Json.unlessEmpty a.args)]

def Check.toJson (c : Check) : Json :=
  .record [
    ("type", some (.string c.type)),
    ("actual", some (.string c.actual)),
    ("expected", c.expected.map Value.toJson),
    ("message", c.message.map .string)]

def TestCase.toJson (c : TestCase) : Json :=
  .record [
    ("name", some (.string c.name)),
    ("description", c.description.map .string),
    ("given", some (.array (c.given.map Variable.toJson))),
    ("when", some c.action.toJson),
    ("then", some (.array (c.checks.map Check.toJson))),
    ("tags", Json.unlessEmpty c.tags)]

def Suite.toJson (s : Suite) : Json :=
  .record [
    ("function_name", some (.string s.functionName)),
    ("description", s.description.map .string),
    ("tests", some (.array (s.tests.map TestCase.toJson)))]

def Variable.shape : Shape Variable :=
  Variable.mk
    <$> .withDefault "name" "" Decoder.string
    <*> .optional "value" Value.decode
    <*> .optional "type" Decoder.string

def Variable.decode : Decoder Variable :=
  Variable.shape.decoder "IRVariable"

def Invocation.shape : Shape Invocation :=
  Invocation.mk
    <$> .withDefault "call" "" Decoder.string
    <*> .withDefault "args" [] (Decoder.list Decoder.string)

def Invocation.decode : Decoder Invocation := fun j =>
  Decoder.firstOf "ActionRepr" [
    (Decoder.string j).map fun call => ⟨call, []⟩,
    match j with
    | .object members => Invocation.shape.decodeMembers members
    | j => Decoder.refuse "a map" j]

def Check.shape : Shape Check :=
  Check.mk
    <$> .withDefault "type" "" Decoder.string
    <*> .withDefault "actual" "" Decoder.string
    <*> .optional "expected" Value.decode
    <*> .optional "message" Decoder.string

def Check.decode : Decoder Check :=
  Check.shape.decoder "IRAssertion"

def TestCase.shape : Shape TestCase :=
  TestCase.mk
    <$> .withDefault "name" "" Decoder.string
    <*> .optional "description" Decoder.string
    <*> .withDefault "given" [] (Decoder.list Variable.decode)
    <*> .withDefault "when" .empty Invocation.decode
    <*> .withDefault "then" [] (Decoder.list Check.decode)
    <*> .withDefault "tags" [] (Decoder.list Decoder.string)

def TestCase.decode : Decoder TestCase :=
  TestCase.shape.decoder "IRTestCase"

def Suite.shape : Shape Suite :=
  Suite.mk
    <$> .withDefault "function_name" "" Decoder.string
    <*> .optional "description" Decoder.string
    <*> .withDefault "tests" [] (Decoder.list TestCase.decode)

def Suite.decode : Decoder Suite :=
  Suite.shape.decoder "IRTestSuite"

end CaseIntake
