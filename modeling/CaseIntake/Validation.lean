import CaseIntake.Environment
import CaseIntake.Options
import CaseIntake.Report

/-!
# Validation

One walk over a suite that reports every defect. The checks of a case see only the case itself, its
position and the names of the cases before it.
-/

namespace CaseIntake
namespace Validation

/-- The path of an element of a list. -/
def element (path : String) (index : Nat) : String :=
  path ++ "[" ++ toString index ++ "]"

def onFunctionName (o : Options) (name : String) : List Diagnostic :=
  if name = "" then [.error "function_name" "function_name is required" none]
  else
    (if name.toList.any Text.isBlank then
      [.error "function_name" "function_name contains whitespace" (some name)] else []) ++
    (if name.length > o.maxFunctionNameLength then
      [.warning "function_name" "function_name is unusually long" none] else [])

/-- Whether a value that is not null has the shape its hint asks for. The hint `function` and hints
that the options add ask for none. -/
def fitsHint (v : Value) (hint : String) : Bool :=
  if hint = "int" then v.isWholeNumber
  else if hint = "float" then v.isNumber
  else if hint = "string" then v.kind = .string
  else if hint = "bool" then v.kind = .bool
  else if hint = "array" then v.kind = .array
  else if hint = "object" then v.kind = .object
  else true

/-- The warnings on a value beside its hint. -/
def onValue (path : String) (value : Option Value) (hint : String) : List Diagnostic :=
  let v := value.getD .null
  if v.isNull then
    if hint = "null" then []
    else [.warning path "null value with non-null type hint" (some hint)]
  else if hint = "null" then [.warning path "non-null value with null type hint" none]
  else if fitsHint v hint then []
  else if hint = "int" && v.kind = .float then
    [.warning path "float value with int type hint" none]
  else
    [.warning path ("value doesn't match " ++ hint ++ " type hint") (some v.kind.hint)]

def onHint (o : Options) (path : String) (v : Variable) : List Diagnostic :=
  let hint := v.hint.getD ""
  if hint = "" then [.warning (path ++ "/type") "type hint is recommended" none]
  else if !o.allowsHint hint then [.error (path ++ "/type") "invalid type hint" (some hint)]
  else onValue (path ++ "/value") v.value hint

/-- The checks of one variable, where `earlier` are the names declared before it. Of a variable
without a name nothing else is checked. -/
def onVariable (o : Options) (path : String) (earlier : List String) (v : Variable) :
    List Diagnostic :=
  if v.name = "" then [.error (path ++ "/name") "variable name is required" none]
  else
    (if earlier.contains v.name then
      [.error (path ++ "/name") "duplicate variable name" (some v.name)] else []) ++
    (if Reference.isIdentifier v.name then [] else
      [.warning (path ++ "/name") "variable name may not be a valid identifier" (some v.name)]) ++
    onHint o path v

def onGivenFrom (o : Options) (path : String) (index : Nat) (earlier : List String) :
    List Variable → List Diagnostic
  | [] => []
  | v :: vs =>
    onVariable o (element path index) earlier v ++
      onGivenFrom o path (index + 1) (v.name :: earlier) vs

def onGiven (o : Options) (path : String) (given : List Variable) : List Diagnostic :=
  onGivenFrom o (path ++ "/given") 0 [] given

def onArg (env : Environment) (path : String) (arg : String) : List Diagnostic :=
  match env.resolve arg with
  | .bound _ _ => []
  | .unbound token => [.error path "references undefined variable" (some token)]

def onArgsFrom (env : Environment) (path : String) (index : Nat) : List String → List Diagnostic
  | [] => []
  | arg :: args => onArg env (element path index) arg ++ onArgsFrom env path (index + 1) args

/-- The names of the variables that are passed. -/
def passedNames (env : Environment) (args : List String) : List String :=
  args.filterMap fun arg =>
    match env.resolve arg with
    | .bound name _ => some name
    | .unbound _ => none

/-- The check of a name that the text of the call refers to. -/
def onMention (env : Environment) (path : String) (args : List String) (name : String) :
    List Diagnostic :=
  if !env.contains name then
    [.warning path "references variable not in given section" (some ("$" ++ name))]
  else if !args.isEmpty && !(passedNames env args).contains name then
    [.warning path "references variable not listed in args" (some ("$" ++ name))]
  else []

def onAction (env : Environment) (path : String) (a : Invocation) : List Diagnostic :=
  (if Text.isBlankText a.call then [.error (path ++ "/call") "function call is required" none]
    else []) ++
  onArgsFrom env (path ++ "/args") 0 a.args ++
  (Reference.scan a.call).flatMap (onMention env (path ++ "/call") a.args)

def onCheck (o : Options) (path : String) (c : Check) : List Diagnostic :=
  (if c.type = "" then [.error (path ++ "/type") "assertion type is required" none]
    else if !o.knowsAssertion c.type then
      [.error (path ++ "/type") "invalid assertion type" (some c.type)]
    else []) ++
  (if Text.isBlankText c.actual then
    [.error (path ++ "/actual") "actual value reference is required" none] else []) ++
  (if o.requiresExpected c.type && c.expected.isNone then
    [.error (path ++ "/expected") ("expected value is required for " ++ c.type) none] else [])

def onChecksFrom (o : Options) (path : String) (index : Nat) : List Check → List Diagnostic
  | [] => []
  | c :: cs => onCheck o (element path index) c ++ onChecksFrom o path (index + 1) cs

def onChecks (o : Options) (path : String) (checks : List Check) : List Diagnostic :=
  if checks.isEmpty then [.error path "at least one assertion is required" none]
  else onChecksFrom o path 0 checks

/-- The check of a case's name, where `earlier` are the names of the cases before it. -/
def onName (path : String) (earlier : List String) (name : String) : List Diagnostic :=
  if name = "" then [.error (path ++ "/name") "test name is required" none]
  else if earlier.contains name then
    [.warning (path ++ "/name") "duplicate test name" (some name)]
  else []

def onCase (o : Options) (path : String) (earlier : List String) (c : TestCase) :
    List Diagnostic :=
  onName path earlier c.name ++
  onGiven o path c.given ++
  onAction (Environment.ofGiven c.given) (path ++ "/when") c.action ++
  onChecks o (path ++ "/then") c.checks

def onCasesFrom (o : Options) (index : Nat) (earlier : List String) :
    List TestCase → List Diagnostic
  | [] => []
  | c :: cs =>
    onCase o (element "tests" index) earlier c ++ onCasesFrom o (index + 1) (c.name :: earlier) cs

def diagnostics (o : Options) (s : Suite) : List Diagnostic :=
  onFunctionName o s.functionName ++
  (if s.tests.isEmpty then [.error "tests" "at least one test case is required" none] else []) ++
  onCasesFrom o 0 [] s.tests

end Validation

def Suite.validate (s : Suite) (o : Options) : Report :=
  Report.ofDiagnostics (Validation.diagnostics o s)

end CaseIntake
