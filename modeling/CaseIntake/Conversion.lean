import CaseIntake.Text.Capital
import CaseIntake.Environment
import CaseIntake.Options
import CaseIntake.Spec
import CaseIntake.Conversion.Payload

/-!
# Conversion

Canonical and simplified cases become test specifications. Each case is converted on its own; one
that cannot be converted is skipped with a reason, and the others go on.

A specification needs an identifier that no other has. Identifiers come from a source that gives
one for each position in the list of cases.
-/

namespace CaseIntake

/-- Why a case is skipped. -/
inductive SkipReason where
  | declaredTwice (name : String)
  | noMatchingInput (arg : String)
  | notCallable
  | literalCollides (index : Nat) (name : String)
deriving DecidableEq

def SkipReason.message : SkipReason → String
  | .declaredTwice name => "input '" ++ name ++ "' declared twice"
  | .noMatchingInput arg => "argument '" ++ arg ++ "' has no matching input"
  | .notCallable => "action is neither a call expression nor a structured call"
  | .literalCollides index name =>
    "literal argument " ++ toString index ++ " collides with input '" ++ name ++ "'"

structure Skip where
  index : Nat
  name : String
  reason : SkipReason
deriving DecidableEq

def Skip.message (s : Skip) : String :=
  "case " ++ toString s.index ++ " (" ++ s.name ++ ") skipped: " ++ s.reason.message

/-- A case name as a sentence: blanks for underscores, and a capital at the start. -/
def readableName (name : String) : String :=
  match name.toList.map fun c => if c = '_' then ' ' else c with
  | [] => ""
  | c :: cs => String.ofList (Text.capital c ++ cs)

def describe (description : Option String) (name : String) : String :=
  let trimmed := Text.trim (description.getD "")
  if trimmed = "" then readableName name else trimmed

namespace Conversion

/-- What all specifications of one conversion share. -/
structure Context where
  target : Target
  functionName : String
  options : Options

def Context.assertion (ctx : Context) (c : Check) : Assertion :=
  ⟨ctx.options.kindOf c.type, c.actual, c.expected, c.message⟩

/-- The values that a case passes, and in which order. -/
structure Inputs where
  values : Dict Value
  types : Dict String
  order : List String

def Context.spec (ctx : Context) (id description : String) (inputs : Inputs)
    (checks : List Check) (tags : List String) : Spec where
  id := id
  level := ctx.target.level
  targetKind := "function"
  targetId := ctx.functionName
  functionName := ctx.functionName
  filePath := ctx.target.filePath
  description := description
  inputs := inputs.values
  inputTypes := inputs.types
  argOrder := inputs.order
  assertions := checks.map ctx.assertion
  tags := tags
  priority := "normal"

def declareAll : List Variable → Dict Value → Except SkipReason (Dict Value)
  | [], inputs => .ok inputs
  | v :: vs, inputs =>
    if inputs.contains v.name then .error (.declaredTwice v.name)
    else declareAll vs (inputs.insert v.name (v.value.getD .null))

/-- The hints of the variables that have one. -/
def hints (given : List Variable) : Dict String :=
  Dict.ofList (given.filterMap fun v =>
    match v.hint with
    | none => none
    | some hint => if hint = "" then none else some (v.name, hint))

/-- The inputs of a canonical case. Every argument has to refer to a variable of the case. -/
def inputsOfTest (c : TestCase) : Except SkipReason Inputs :=
  match declareAll c.given .empty with
  | .error e => .error e
  | .ok values =>
    match c.action.args.find? fun arg => !values.contains (Reference.name arg) with
    | some arg => .error (.noMatchingInput arg)
    | none => .ok ⟨values, hints c.given, c.action.args⟩

def ofTest (ctx : Context) (id : String) (c : TestCase) : Except SkipReason Spec :=
  match inputsOfTest c with
  | .error e => .error e
  | .ok inputs => .ok (ctx.spec id (describe c.description c.name) inputs c.checks c.tags)

/-- The name under which the literal at a position is passed. -/
def literalName (index : Nat) : String :=
  "arg" ++ toString index

def placeLiteral (index : Nat) (value : Value) (inputs : Dict Value) :
    Except SkipReason (String × Dict Value) :=
  if inputs.contains (literalName index) then
    .error (.literalCollides index (literalName index))
  else .ok (literalName index, inputs.insert (literalName index) value)

/-- Passes one argument. A text that refers to a variable of the set-up passes that variable; any
other text is a literal. -/
def placeArgument (env : Environment) (index : Nat) (argument : Argument) (inputs : Dict Value) :
    Except SkipReason (String × Dict Value) :=
  match argument with
  | .named name value => .ok (name, inputs.insert name value)
  | .positional (.string text) =>
    match env.resolve text with
    | .bound name _ => .ok (name, inputs)
    | .unbound token => placeLiteral index (Literal.coerce token) inputs
  | .positional value => placeLiteral index value inputs

def placeAll (env : Environment) (index : Nat) :
    List Argument → Dict Value → Except SkipReason (List String × Dict Value)
  | [], inputs => .ok ([], inputs)
  | a :: rest, inputs =>
    match placeArgument env index a inputs with
    | .error e => .error e
    | .ok (name, inputs) =>
      match placeAll env (index + 1) rest inputs with
      | .error e => .error e
      | .ok (names, inputs) => .ok (name :: names, inputs)

/-- The arguments of a case; a case without an action has none. -/
def argumentsOf (c : SimpleCase) : Except SkipReason (List Argument) :=
  match c.action with
  | none => .ok []
  | some action =>
    match action.arguments with
    | none => .error .notCallable
    | some arguments => .ok arguments

def inputsOfSimple (c : SimpleCase) : Except SkipReason Inputs :=
  match argumentsOf c with
  | .error e => .error e
  | .ok arguments =>
    match placeAll (Environment.ofSetup c.setup) 0 arguments c.setup with
    | .error e => .error e
    | .ok (order, values) => .ok ⟨values, values.map (·.kind.hint), order⟩

def ofSimple (ctx : Context) (id : String) (c : SimpleCase) : Except SkipReason Spec :=
  match inputsOfSimple c with
  | .error e => .error e
  | .ok inputs => .ok (ctx.spec id (describe c.description c.name) inputs c.checks c.tags)

end Conversion

/-- The specifications of the cases that could be converted, and the cases that could not. -/
structure Conversion where
  specs : List Spec
  skipped : List Skip
deriving DecidableEq

namespace Conversion

/-- Adds the outcome of a case in front of those of the later cases. -/
def add (index : Nat) (name : String) (outcome : Except SkipReason Spec) (later : Conversion) :
    Conversion :=
  match outcome with
  | .ok spec => { later with specs := spec :: later.specs }
  | .error reason => { later with skipped := ⟨index, name, reason⟩ :: later.skipped }

/-- Converts every case, where `index` is the position of the first one. -/
def collect {α : Type} (nameOf : α → String) (convert : String → α → Except SkipReason Spec)
    (ids : Nat → String) (index : Nat) : List α → Conversion
  | [] => ⟨[], []⟩
  | c :: cs =>
    add index (nameOf c) (convert (ids index) c) (collect nameOf convert ids (index + 1) cs)

/-- The conversion of a suite. The name of the function is that of the suite, or else that of the
target. -/
def ofSuite (ids : Nat → String) (target : Target) (options : Options) (s : Suite) : Conversion :=
  let functionName := if s.functionName = "" then target.functionName else s.functionName
  collect TestCase.name (ofTest ⟨target, functionName, options⟩) ids 0 s.tests

def ofCases (ids : Nat → String) (target : Target) (options : Options) (cases : List SimpleCase) :
    Conversion :=
  collect SimpleCase.name (ofSimple ⟨target, target.functionName, options⟩) ids 0 cases

end Conversion
end CaseIntake
