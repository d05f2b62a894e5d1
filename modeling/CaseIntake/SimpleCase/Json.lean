import CaseIntake.Action.Json
import CaseIntake.SimpleCase

/-!
# Simplified cases as JSON

The set-up and the tags may be `null`, which counts as empty.
-/

namespace CaseIntake

def Payload.toJson : Payload → Json
  | .text s => .string s
  | .list items => (Value.list items).toJson
  | .map entries => entries.toJson
  | .scalar v => v.toJson

def Payload.decode : Decoder Payload := fun j =>
  Decoder.firstOf "AssertionPayload" [
    (Decoder.string j).map .text,
    (Decoder.list Value.decode j).map .list,
    (Decoder.valueDict j).map .map,
    (Value.decode j).map .scalar]

def SimpleCase.toJson (c : SimpleCase) : Json :=
  .record [
    ("name", some (.string c.name)),
    ("description", c.description.map .string),
    ("setup", some c.setup.toJson),
    ("action", c.action.map Action.toJson),
    ("assertions", c.assertions.map Payload.toJson),
    ("assertion", c.assertion.map Payload.toJson),
    ("assert", c.assert.map Payload.toJson),
    ("expected", c.expected.map Payload.toJson),
    ("expect", c.expect.map Payload.toJson),
    ("tags", some (Json.strings c.tags))]

def SimpleCase.shape : Shape SimpleCase :=
  SimpleCase.mk
    <$> .withDefault "name" "" Decoder.string
    <*> .optional "description" Decoder.string
    <*> .withDefault "setup" .empty (Decoder.orDefault .empty Decoder.valueDict)
    <*> .optional "action" Action.decode
    <*> .optional "assertions" Payload.decode
    <*> .optional "assertion" Payload.decode
    <*> .optional "assert" Payload.decode
    <*> .optional "expected" Payload.decode
    <*> .optional "expect" Payload.decode
    <*> .withDefault "tags" [] (Decoder.orDefault [] (Decoder.list Decoder.string))

def SimpleCase.decode : Decoder SimpleCase :=
  SimpleCase.shape.decoder "SimpleCase"

end CaseIntake
