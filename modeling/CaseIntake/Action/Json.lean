import CaseIntake.Json.Encode
import CaseIntake.Json.Shape
import CaseIntake.Value.Json
import CaseIntake.Action

/-!
# Actions as JSON

A string is a call. An object whose parts have the right forms is a structured call, in which
`call` is another key for `function`; both together are refused. Anything else is kept as a value.
-/

namespace CaseIntake

def ArgumentSource.toJson : ArgumentSource → Json
  | .positional values => (Value.list values).toJson
  | .named values => values.toJson
  | .text s => .string s

def ArgumentSource.decode : Decoder ArgumentSource := fun j =>
  Decoder.firstOf "StructuredArgs" [
    (Decoder.list Value.decode j).map .positional,
    (Decoder.valueDict j).map .named,
    (Decoder.string j).map .text]

def StructuredAction.toJson (a : StructuredAction) : Json :=
  .record [
    ("function", a.function.map .string),
    ("args", a.args.map ArgumentSource.toJson),
    ("order", Json.unlessEmpty a.order)]

/-- The function under either of its keys. Keys are read in ascending order, so that of two it is
`function` that comes second. -/
def StructuredAction.function? (members : List (String × Json)) : Outcome (Option String) :=
  match Json.lookupLast "call" members, Json.lookupLast "function" members with
  | none, none => .ok none
  | none, some j => read "function" j (fun x => .ok x)
  | some j, none => read "call" j (fun x => .ok x)
  | some j, some _ =>
    read "call" j fun _ => .refused "function" (.duplicateField "function")
where
  read (key : String) (j : Json) (next : Option String → Outcome (Option String)) :
      Outcome (Option String) :=
    match Decoder.optional Decoder.string j with
    | .ok x => next x
    | .error e => .refused key e

def StructuredAction.ofMembers (members : List (String × Json)) : Outcome StructuredAction :=
  let args := Shape.optional "args" ArgumentSource.decode
  let order := Shape.withDefault "order" [] (Decoder.list Decoder.string)
  (((Outcome.ok StructuredAction.mk).apply (StructuredAction.function? members)).apply
    (args.ofMembers members)).apply (order.ofMembers members)

def StructuredAction.decode : Decoder StructuredAction
  | .object members => (StructuredAction.ofMembers members).toExcept
  | j => Decoder.refuse "a structured action map" j

def Action.toJson : Action → Json
  | .call text => .string text
  | .structured a => a.toJson
  | .other v => v.toJson

def Action.decode : Decoder Action := fun j =>
  Decoder.firstOf "RawAction" [
    (Decoder.string j).map .call,
    (StructuredAction.decode j).map .structured,
    (Value.decode j).map .other]

end CaseIntake
