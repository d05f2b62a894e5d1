import CaseIntake.Conversion
import CaseIntake.Document
import CaseIntake.Validation

/-!
# Ingestion

From the text of a document to test specifications. A canonical document is validated first, and an
error rejects all of it; simplified cases are converted without validation. At least one case has
to be converted.
-/

namespace CaseIntake

/-- Why a document gives no specifications. -/
inductive IngestError where
  | malformed (refusal : Document.Refusal)
  | invalid (report : Report)
  | noCasesConverted (skipped : List Skip)
deriving DecidableEq

namespace IngestError

def message : IngestError → String
  | .malformed r => r.message
  | .invalid report => "validation failed: " ++ String.intercalate "; " report.errorMessages
  | .noCasesConverted skipped =>
    "no test cases converted (" ++ toString skipped.length ++ " skipped)"

/-- The cases that were skipped before the error. -/
def skipped : IngestError → List Skip
  | .noCasesConverted skipped => skipped
  | _ => []

end IngestError

/-- The conversion itself if it has a specification. -/
def Conversion.accept (c : Conversion) : Except IngestError Conversion :=
  if c.specs.isEmpty then .error (.noCasesConverted c.skipped) else .ok c

def Suite.convert (s : Suite) (ids : Nat → String) (target : Target) (o : Options) :
    Except IngestError Conversion :=
  (Conversion.ofSuite ids target o s).accept

def SimpleCase.convertAll (cases : List SimpleCase) (ids : Nat → String) (target : Target)
    (o : Options) : Except IngestError Conversion :=
  (Conversion.ofCases ids target o cases).accept

/-- The result of an ingestion. -/
structure Ingested where
  shape : DocumentShape
  conversion : Conversion
  /-- The warnings of validation; simplified documents have none. -/
  warnings : List Finding
deriving DecidableEq

/-- The suite under the name of the target, if it has no name of its own. -/
def Suite.named (s : Suite) (target : Target) : Suite :=
  if s.functionName = "" then { s with functionName := target.functionName } else s

/-- Reads a canonical document and validates it. -/
def parseAndValidate (o : Options) (text : String) : Except IngestError (Suite × Report) :=
  match Document.resolve o text with
  | .error r => .error (.malformed r)
  | .ok resolved =>
    match resolved.content with
    | .canonical suite => .ok (suite, suite.validate o)
    | .simplified _ =>
      .error (.malformed (Document.refusal o text (.notCanonical resolved.shape)))

def ingestSuite (ids : Nat → String) (target : Target) (o : Options) (shape : DocumentShape)
    (suite : Suite) : Except IngestError Ingested :=
  let report := suite.validate o
  if !report.valid then .error (.invalid report)
  else
    match suite.convert ids target o with
    | .error e => .error e
    | .ok conversion => .ok ⟨shape, conversion, report.warnings⟩

def ingestCases (ids : Nat → String) (target : Target) (o : Options) (shape : DocumentShape)
    (cases : List SimpleCase) : Except IngestError Ingested :=
  match SimpleCase.convertAll cases ids target o with
  | .error e => .error e
  | .ok conversion => .ok ⟨shape, conversion, []⟩

/-- Reads a document, validates it if it is canonical, and converts its cases. -/
def ingest (ids : Nat → String) (target : Target) (o : Options) (text : String) :
    Except IngestError Ingested :=
  match Document.resolve o text with
  | .error r => .error (.malformed r)
  | .ok resolved =>
    match resolved.content with
    | .canonical suite => ingestSuite ids target o resolved.shape (suite.named target)
    | .simplified cases => ingestCases ids target o resolved.shape cases

end CaseIntake
