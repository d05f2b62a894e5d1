import CaseIntake.Text.Split
import CaseIntake.Value.Basic

/-!
# Actions of simplified cases

An action is the text of a call, a structured call, or some other value that cannot be called.
`Action.arguments` lists what is passed, by position or by name.
-/

namespace CaseIntake

/-- The arguments of a structured call. -/
inductive ArgumentSource where
  | positional (values : List Value)
  | named (values : Dict Value)
  /-- Argument texts with commas between them. -/
  | text (text : String)
deriving DecidableEq

structure StructuredAction where
  function : Option String
  args : Option ArgumentSource
  /-- Names that come first among named arguments. -/
  order : List String
deriving DecidableEq

inductive Action where
  | call (text : String)
  | structured (action : StructuredAction)
  | other (value : Value)
deriving DecidableEq

inductive Argument where
  | positional (value : Value)
  | named (name : String) (value : Value)
deriving DecidableEq

/-- The argument texts of `name(a, b, …)`: the pieces between the first opening parenthesis and the
last closing one. Every comma separates, also one within nested parentheses. -/
def callArguments (call : String) : List String :=
  match Text.breakAt '(' call.toList with
  | none => []
  | some (_, after) =>
    match Text.beforeLast ')' after with
    | none => []
    | some inner => Text.commaPieces inner

/-- The names of the map, first those that `order` mentions, then the others in ascending order. -/
def orderedNames (named : Dict Value) (order : List String) : List String :=
  let first := (order.filter named.contains).eraseDups
  first ++ named.names.filter (!first.contains ·)

def textArguments (texts : List String) : List Argument :=
  texts.map fun text => .positional (.string text)

def namedArguments (named : Dict Value) (order : List String) : List Argument :=
  (orderedNames named order).filterMap fun name =>
    (named.find? name).map fun value => .named name value

def StructuredAction.arguments (a : StructuredAction) : List Argument :=
  match a.args with
  | none => []
  | some (.positional values) => values.map .positional
  | some (.named values) => namedArguments values a.order
  | some (.text text) => textArguments (Text.commaPieces text.toList)

/-- The arguments of an action; a value that cannot be called has none to speak of. -/
def Action.arguments : Action → Option (List Argument)
  | .call text => some (textArguments (callArguments text))
  | .structured a => some a.arguments
  | .other _ => none

end CaseIntake
