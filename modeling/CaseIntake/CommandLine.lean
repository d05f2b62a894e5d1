import CaseIntake.CommandLine.Arguments
import CaseIntake.CommandLine.Files
import CaseIntake.Ingest
import CaseIntake.Json.Writer
import CaseIntake.Options.File
import CaseIntake.Report.Json
import CaseIntake.Spec.Json

/-!
# Running a command

A command reads its options and its input, and only when all of its work has succeeded does it write
what it was asked for. `validate` always shows the report of a canonical document, and fails if the
report is not valid.
-/

namespace CaseIntake

/-- Why a command fails. -/
inductive CommandError where
  | usage
  | optionsUnread (path : String) (error : FileError)
  | optionsRefused (path : String) (fault : Options.FileFault)
  | inputUnread (path : String) (error : FileError)
  | validationFailed (error : IngestError)
  | conversionFailed (error : IngestError)
  | invalid (report : Report)
  | outputRefused (path : String) (error : FileError)
deriving DecidableEq

namespace CommandError

/-- A failure and what caused it, the cause indented. -/
def withCause (failure cause : String) : String :=
  "Error: " ++ failure ++ "\n\nCaused by:\n    " ++
    String.intercalate "\n    " (cause.splitOn "\n") ++ "\n"

/-- What the command says of its failure; misuse is left to the caller. -/
def text? : CommandError → Option String
  | .usage => none
  | .optionsUnread path e => withCause ("Failed to read options file: " ++ path) e.message
  | .optionsRefused path e => withCause ("Failed to parse options from: " ++ path) e.message
  | .inputUnread path e => withCause ("Failed to read input file: " ++ path) e.message
  | .validationFailed e => withCause "Validation failed" e.message
  | .conversionFailed e => withCause "Conversion failed" e.message
  | .invalid report => "Error: " ++ report.summary ++ "\n"
  | .outputRefused path e => withCause ("Failed to create output file: " ++ path) e.message

def exitCode : CommandError → Nat
  | .usage => 2
  | _ => 1

end CommandError

/-- What a command leaves behind. -/
structure CommandOutcome where
  stdout : String
  files : Files
  error : Option CommandError
deriving DecidableEq

namespace CommandOutcome

def exitCode (r : CommandOutcome) : Nat :=
  (r.error.map CommandError.exitCode).getD 0

def errorText? (r : CommandOutcome) : Option String :=
  r.error.bind CommandError.text?

end CommandOutcome

namespace CommandLine

/-- JSON text in a layout, with a line end. -/
def layOut (layout : Layout) (j : Json) : String :=
  (match layout with
    | .pretty => j.indented 0
    | .compact => j.compact) ++ "\n"

def readOptions (f : Files) : Option String → Except CommandError Options
  | none => .ok .standard
  | some path =>
    match f.read path with
    | .error e => .error (.optionsUnread path e)
    | .ok text =>
      match Options.ofFile text with
      | .error e => .error (.optionsRefused path e)
      | .ok o => .ok o

def readInput (f : Files) (path : String) : Except CommandError String :=
  match f.read path with
  | .error e => .error (.inputUnread path e)
  | .ok text => .ok text

/-- The options and the input of a command. -/
def readAll (f : Files) (options : Option String) (input : String) :
    Except CommandError (Options × String) :=
  match readOptions f options with
  | .error e => .error e
  | .ok o =>
    match readInput f input with
    | .error e => .error e
    | .ok text => .ok (o, text)

/-- The report of the input, or why there is none. -/
def reportOf (f : Files) (c : ValidateCommand) : Except CommandError Report :=
  match readAll f c.options c.input with
  | .error e => .error e
  | .ok (o, text) =>
    match parseAndValidate o text with
    | .error e => .error (.validationFailed e)
    | .ok (_, report) => .ok report

def runValidate (f : Files) (c : ValidateCommand) : CommandOutcome :=
  match reportOf f c with
  | .error e => ⟨"", f, some e⟩
  | .ok report =>
    ⟨layOut c.layout report.toJson, f, if report.valid then none else some (.invalid report)⟩

/-- The specifications of the input, or why there are none. -/
def specsOf (ids : Nat → String) (f : Files) (c : ConvertCommand) :
    Except CommandError (List Spec) :=
  match readAll f c.options c.input with
  | .error e => .error e
  | .ok (o, text) =>
    match ingest ids ⟨c.function, c.file, c.level⟩ o text with
    | .error e => .error (.conversionFailed e)
    | .ok result => .ok result.conversion.specs

def runConvert (ids : Nat → String) (f : Files) (c : ConvertCommand) : CommandOutcome :=
  match specsOf ids f c with
  | .error e => ⟨"", f, some e⟩
  | .ok specs =>
    let text := layOut c.layout (.array (specs.map Spec.toJson))
    match c.output with
    | none => ⟨text, f, none⟩
    | some path =>
      match f.write path text with
      | .ok f => ⟨"", f, none⟩
      | .error e => ⟨"", f, some (.outputRefused path e)⟩

/-- Runs a command line on files. -/
def run (ids : Nat → String) (f : Files) (args : List String) : CommandOutcome :=
  match read? args with
  | none => ⟨"", f, some .usage⟩
  | some (.validate c) => runValidate f c
  | some (.convert c) => runConvert ids f c

end CommandLine
end CaseIntake
