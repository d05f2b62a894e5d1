/-!
# Reports

What validation has to say about a suite: errors, which reject it, and warnings, which do not. Each
finding names the field it is about by a path such as `tests[0]/given[1]/type`.
-/

namespace CaseIntake

structure Finding where
  field : String
  message : String
  /-- The text that the finding is about, if there is one. -/
  value : Option String
deriving DecidableEq

def Finding.text (f : Finding) : String :=
  match f.value with
  | some v => f.field ++ ": " ++ f.message ++ " (got: " ++ v ++ ")"
  | none => f.field ++ ": " ++ f.message

inductive Severity where
  | error
  | warning
deriving DecidableEq

structure Diagnostic where
  severity : Severity
  finding : Finding
deriving DecidableEq

namespace Diagnostic

def error (field message : String) (value : Option String) : Diagnostic :=
  ⟨.error, ⟨field, message, value⟩⟩

def warning (field message : String) (value : Option String) : Diagnostic :=
  ⟨.warning, ⟨field, message, value⟩⟩

/-- The findings of one severity, in order. -/
def only (severity : Severity) (ds : List Diagnostic) : List Finding :=
  (ds.filter fun d => d.severity = severity).map Diagnostic.finding

end Diagnostic

structure Report where
  errors : List Finding
  warnings : List Finding
  valid : Bool
deriving DecidableEq

namespace Report

/-- A report is valid iff it has no errors. -/
def ofDiagnostics (ds : List Diagnostic) : Report :=
  let errors := Diagnostic.only .error ds
  ⟨errors, Diagnostic.only .warning ds, errors.isEmpty⟩

def errorMessages (r : Report) : List String :=
  r.errors.map Finding.text

def warningMessages (r : Report) : List String :=
  r.warnings.map Finding.text

/-- The outcome in one line. -/
def summary (r : Report) : String :=
  if r.valid && r.warnings.isEmpty then "validation passed"
  else
    "validation " ++ (if r.valid then "passed with warnings" else "failed") ++ ": " ++
      toString r.errors.length ++ " errors, " ++ toString r.warnings.length ++ " warnings"

end Report
end CaseIntake
