import CaseIntake.Json.Decoder

/-!
# Record shapes

A `Shape α` says how a record of type `α` is read, either from the members of an object or from the
elements of an array by position. Shapes are combined field by field in the order of declaration.

Of several faults in an object one is reported. A refused member counts before a missing one; of
two refused members the one with the smaller key counts, and of two missing ones the one declared
first. In an array the first fault counts.
-/

namespace CaseIntake

/-- What comes of reading the members of an object. -/
inductive Outcome (α : Type) where
  | ok (value : α)
  | refused (key : String) (error : DecodeError)
  | missing (name : String)

namespace Outcome

/-- Joins the outcomes of an earlier and a later field. -/
def apply {α β : Type} : Outcome (α → β) → Outcome α → Outcome β
  | .refused k e, .refused l f => if l < k then .refused l f else .refused k e
  | .refused k e, _ => .refused k e
  | _, .refused l f => .refused l f
  | .missing name, _ => .missing name
  | .ok _, .missing name => .missing name
  | .ok f, .ok x => .ok (f x)

def toExcept {α : Type} : Outcome α → Except DecodeError α
  | .ok x => .ok x
  | .refused _ e => .error e
  | .missing name => .error (.missingField name)

end Outcome

/-- What is left of the elements of an array, and how many were taken. -/
structure Elements where
  taken : Nat
  rest : List Json

/-- Why the elements of an array make no record. -/
inductive ElementFault where
  | refused (error : DecodeError)
  | tooFew (taken : Nat)

structure Shape (α : Type) where
  size : Nat
  ofMembers : List (String × Json) → Outcome α
  ofElements : Elements → Except ElementFault (α × Elements)

namespace Shape

def const {α : Type} (x : α) : Shape α where
  size := 0
  ofMembers _ := .ok x
  ofElements elements := .ok (x, elements)

def apply {α β : Type} (f : Shape (α → β)) (s : Shape α) : Shape β where
  size := f.size + s.size
  ofMembers members := (f.ofMembers members).apply (s.ofMembers members)
  ofElements elements :=
    match f.ofElements elements with
    | .error e => .error e
    | .ok (g, elements) =>
      match s.ofElements elements with
      | .error e => .error e
      | .ok (x, elements) => .ok (g x, elements)

instance : Applicative Shape where
  pure := const
  seq f s := apply f (s ())

/-- A field by its key. Without a default it has to be there. -/
def field {α : Type} (key : String) (d : Decoder α) (default : Option α) : Shape α where
  size := 1
  ofMembers members :=
    match Json.lookupLast key members with
    | some j =>
      match d j with
      | .ok x => .ok x
      | .error e => .refused key e
    | none =>
      match default with
      | some x => .ok x
      | none => .missing key
  ofElements elements :=
    match elements.rest with
    | j :: rest =>
      match d j with
      | .ok x => .ok (x, ⟨elements.taken + 1, rest⟩)
      | .error e => .error (.refused e)
    | [] =>
      match default with
      | some x => .ok (x, elements)
      | none => .error (.tooFew elements.taken)

def required {α : Type} (key : String) (d : Decoder α) : Shape α :=
  field key d none

def withDefault {α : Type} (key : String) (default : α) (d : Decoder α) : Shape α :=
  field key d (some default)

/-- A field that may be absent or `null`. -/
def optional {α : Type} (key : String) (d : Decoder α) : Shape (Option α) :=
  withDefault key none (Decoder.optional d)

/-- How a message speaks of a record and its fields. -/
def described (name : String) (size : Nat) : String :=
  "struct " ++ name ++ " with " ++ toString size ++ if size = 1 then " element" else " elements"

/-- Reads a record from the members of an object. -/
def decodeMembers {α : Type} (s : Shape α) (members : List (String × Json)) :
    Except DecodeError α :=
  (s.ofMembers members).toExcept

/-- Reads a record from the elements of an array, all of which have to be used. -/
def decodeElements {α : Type} (s : Shape α) (name : String) (items : List Json) :
    Except DecodeError α :=
  match s.ofElements ⟨0, items⟩ with
  | .error (.refused e) => .error e
  | .error (.tooFew taken) => .error (.wrongLength taken (described name s.size))
  | .ok (x, elements) =>
    if elements.rest.isEmpty then .ok x
    else .error (.wrongLength items.length "fewer elements in array")

/-- The decoder of a record that messages call `name`. -/
def decoder {α : Type} (name : String) (s : Shape α) : Decoder α
  | .object members => s.decodeMembers members
  | .array items => s.decodeElements name items
  | j => Decoder.refuse ("struct " ++ name) j

end Shape
end CaseIntake
