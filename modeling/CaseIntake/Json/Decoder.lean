import CaseIntake.Dict
import CaseIntake.Json.DecodeError

/-!
# Decoders

A decoder takes a JSON tree to a value or says why not. The decoders of collections report the
first element that is refused, in the order of the list or in ascending order of the keys.
-/

namespace CaseIntake

abbrev Decoder (α : Type) := Json → Except DecodeError α

namespace Decoder

def refuse {α : Type} (expected : String) (j : Json) : Except DecodeError α :=
  .error (.wrongType (Found.ofJson j) expected)

def string : Decoder String
  | .string s => .ok s
  | j => refuse "a string" j

def bool : Decoder Bool
  | .bool b => .ok b
  | j => refuse "a boolean" j

/-- A whole number that is not negative. -/
def size : Decoder Nat
  | .int n => if 0 ≤ n then .ok n.toNat else .error (.wrongValue (.integer n) "usize")
  | j => refuse "usize" j

/-- Decodes every element; the first refusal counts. -/
def all {α : Type} (d : Decoder α) : List Json → Except DecodeError (List α)
  | [] => .ok []
  | j :: js =>
    match d j with
    | .error e => .error e
    | .ok x =>
      match all d js with
      | .error e => .error e
      | .ok xs => .ok (x :: xs)

def list {α : Type} (d : Decoder α) : Decoder (List α)
  | .array items => all d items
  | j => refuse "a sequence" j

/-- Decodes the value of every entry; the first refusal counts. -/
def entries {α : Type} (d : Decoder α) :
    List (String × Json) → Except DecodeError (List (String × α))
  | [] => .ok []
  | (name, j) :: rest =>
    match d j with
    | .error e => .error e
    | .ok x =>
      match entries d rest with
      | .error e => .error e
      | .ok xs => .ok ((name, x) :: xs)

def dict {α : Type} (d : Decoder α) : Decoder (Dict α)
  | .object members => (entries d (sortEntries members)).map Dict.ofList
  | j => refuse "a map" j

def nameSet : Decoder NameSet :=
  fun j => (list string j).map NameSet.ofNames

/-- `null` stands for nothing. -/
def optional {α : Type} (d : Decoder α) : Decoder (Option α)
  | .null => .ok none
  | j => (d j).map some

/-- `null` stands for the default. -/
def orDefault {α : Type} (default : α) (d : Decoder α) : Decoder α :=
  fun j => (optional d j).map (·.getD default)

/-- The first alternative that accepts the tree; the reasons of the others do not count. -/
def firstOf {α : Type} (name : String) (alternatives : List (Except DecodeError α)) :
    Except DecodeError α :=
  match alternatives with
  | [] => .error (.noVariant name)
  | .ok x :: _ => .ok x
  | .error _ :: rest => firstOf name rest

/-- One of the known words, either as a string or as the only key of an object that holds `null`. -/
def variant {α : Type} (known : List (String × α)) : Decoder α
  | .string s => find s
  | .object [] => .error (.wrongValue .map "map with a single key")
  | .object [(key, payload)] =>
    match find key with
    | .error e => .error e
    | .ok x =>
      match payload with
      | .null => .ok x
      | j => refuse "unit" j
  | .object _ => .error (.wrongValue .map "map with a single key")
  | j => refuse "string or map" j
where
  find (s : String) : Except DecodeError α :=
    match findEntry s known with
    | some x => .ok x
    | none => .error (.unknownVariant s (known.map Prod.fst))

end Decoder
end CaseIntake
