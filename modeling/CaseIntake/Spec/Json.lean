import CaseIntake.Json.Encode
import CaseIntake.Json.Shape
import CaseIntake.Value.Json
import CaseIntake.Spec

/-!
# Test specifications as JSON
-/

namespace CaseIntake

def Level.toJson (l : Level) : Json :=
  .string l.word

def Level.decode : Decoder Level :=
  Decoder.variant Level.words

def Target.toJson (t : Target) : Json :=
  .record [
    ("function_name", some (.string t.functionName)),
    ("file_path", t.filePath.map .string),
    ("level", some t.level.toJson)]

def Target.shape : Shape Target :=
  Target.mk
    <$> .required "function_name" Decoder.string
    <*> .optional "file_path" Decoder.string
    <*> .withDefault "level" .unit Level.decode

def Target.decode : Decoder Target :=
  Target.shape.decoder "Target"

def Assertion.toJson (a : Assertion) : Json :=
  .record [
    ("kind", some (.string a.kind)),
    ("actual", some (.string a.actual)),
    ("expected", a.expected.map Value.toJson),
    ("message", a.message.map .string)]

def Assertion.shape : Shape Assertion :=
  Assertion.mk
    <$> .required "kind" Decoder.string
    <*> .required "actual" Decoder.string
    <*> .optional "expected" Value.decode
    <*> .optional "message" Decoder.string

def Assertion.decode : Decoder Assertion :=
  Assertion.shape.decoder "Assertion"

def Spec.toJson (s : Spec) : Json :=
  .record [
    ("id", some (.string s.id)),
    ("level", some s.level.toJson),
    ("target_kind", some (.string s.targetKind)),
    ("target_id", some (.string s.targetId)),
    ("function_name", some (.string s.functionName)),
    ("file_path", s.filePath.map .string),
    ("description", some (.string s.description)),
    ("inputs", some s.inputs.toJson),
    ("input_types", some (Json.stringDict s.inputTypes)),
    ("arg_order", some (Json.strings s.argOrder)),
    ("assertions", some (.array (s.assertions.map Assertion.toJson))),
    ("tags", some (Json.strings s.tags)),
    ("priority", some (.string s.priority))]

def Spec.shape : Shape Spec :=
  Spec.mk
    <$> .required "id" Decoder.string
    <*> .required "level" Level.decode
    <*> .required "target_kind" Decoder.string
    <*> .required "target_id" Decoder.string
    <*> .required "function_name" Decoder.string
    <*> .optional "file_path" Decoder.string
    <*> .required "description" Decoder.string
    <*> .required "inputs" Decoder.valueDict
    <*> .required "input_types" (Decoder.dict Decoder.string)
    <*> .required "arg_order" (Decoder.list Decoder.string)
    <*> .required "assertions" (Decoder.list Assertion.decode)
    <*> .withDefault "tags" [] (Decoder.list Decoder.string)
    <*> .required "priority" Decoder.string

def Spec.decode : Decoder Spec :=
  Spec.shape.decoder "TestSpec"

end CaseIntake
