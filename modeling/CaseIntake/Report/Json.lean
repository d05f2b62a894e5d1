import CaseIntake.Json.Encode
import CaseIntake.Json.Shape
import CaseIntake.Report

/-!
# Reports as JSON
-/

namespace CaseIntake

def Finding.toJson (f : Finding) : Json :=
  .record [
    ("field", some (.string f.field)),
    ("message", some (.string f.message)),
    ("value", f.value.map .string)]

def Finding.shape : Shape Finding :=
  Finding.mk
    <$> .required "field" Decoder.string
    <*> .required "message" Decoder.string
    <*> .optional "value" Decoder.string

def Finding.decode : Decoder Finding :=
  Finding.shape.decoder "ValidationError"

def Report.toJson (r : Report) : Json :=
  .record [
    ("errors", some (.array (r.errors.map Finding.toJson))),
    ("warnings", some (.array (r.warnings.map Finding.toJson))),
    ("valid", some (.bool r.valid))]

def Report.shape : Shape Report :=
  Report.mk
    <$> .required "errors" (Decoder.list Finding.decode)
    <*> .required "warnings" (Decoder.list Finding.decode)
    <*> .required "valid" Decoder.bool

def Report.decode : Decoder Report :=
  Report.shape.decoder "ValidationResult"

end CaseIntake
