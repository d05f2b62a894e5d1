import CaseIntake.Json.Encode
import CaseIntake.Json.Shape
import CaseIntake.Options

/-!
# Options as JSON

A document names only what it overrides; every other option has its standard value.
-/

namespace CaseIntake
namespace Options

def toJson (o : Options) : Json :=
  .record [
    ("type-hints", some (Json.names o.typeHints)),
    ("assertion-kinds", some (Json.stringDict o.assertionKinds)),
    ("expected-required", some (Json.names o.expectedRequired)),
    ("max-function-name-len", some (.int o.maxFunctionNameLength)),
    ("excerpt-len", some (.int o.excerptLength))]

def shape : Shape Options :=
  Options.mk
    <$> .withDefault "type-hints" standard.typeHints Decoder.nameSet
    <*> .withDefault "assertion-kinds" standard.assertionKinds (Decoder.dict Decoder.string)
    <*> .withDefault "expected-required" standard.expectedRequired Decoder.nameSet
    <*> .withDefault "max-function-name-len" standard.maxFunctionNameLength Decoder.size
    <*> .withDefault "excerpt-len" standard.excerptLength Decoder.size

def decode : Decoder Options :=
  shape.decoder "IngestOptions"

end Options
end CaseIntake
