import CaseIntake.Json.Decoder
import CaseIntake.Json.Writer
import CaseIntake.Number.Word
import CaseIntake.Value.Basic

/-!
# Values and JSON

`Value.toJson` writes a value as a JSON tree. There are two ways back: `Value.ofJson` goes by the
kind of the tree, and `Value.decode` tries the kinds of value one after the other and takes the
first that accepts the tree. A whole number beyond 64 bits with a sign becomes the nearest
floating-point number.
-/

namespace CaseIntake

/-- A whole number as a value. -/
def Value.ofInt (n : Int) : Value :=
  match Word.int64? n with
  | some i => .int i
  | none => .float (Binary64.ofInt n)

namespace Value

mutual

def toJson : Value → Json
  | .null => .null
  | .bool b => .bool b
  | .int n => .int n.toInt
  | .float x => .float x
  | .string s => .string s
  | .list items => .array (toJsonItems items)
  | .map entries => .object (toJsonEntries entries)

def toJsonItems : List Value → List Json
  | [] => []
  | v :: rest => toJson v :: toJsonItems rest

def toJsonEntries : List (String × Value) → List (String × Json)
  | [] => []
  | (key, v) :: rest => (key, toJson v) :: toJsonEntries rest

end

mutual

def ofJson : Json → Value
  | .null => .null
  | .bool b => .bool b
  | .int n => ofInt n
  | .float x => .float x
  | .string s => .string s
  | .array items => .list (ofJsonItems items)
  | .object members => .map (sortEntries (ofJsonMembers members))

def ofJsonItems : List Json → List Value
  | [] => []
  | j :: rest => ofJson j :: ofJsonItems rest

def ofJsonMembers : List (String × Json) → List (String × Value)
  | [] => []
  | (key, j) :: rest => (key, ofJson j) :: ofJsonMembers rest

end

namespace Alternative

def null : Json → Except DecodeError Value
  | .null => .ok .null
  | j => Decoder.refuse "unit" j

def bool : Json → Except DecodeError Value
  | .bool b => .ok (.bool b)
  | j => Decoder.refuse "a boolean" j

def int : Json → Except DecodeError Value
  | .int n =>
    match Word.int64? n with
    | some i => .ok (.int i)
    | none => .error (.wrongValue (.integer n) "i64")
  | j => Decoder.refuse "i64" j

/-- Whole numbers count as floating-point numbers too. -/
def float : Json → Except DecodeError Value
  | .float x => .ok (.float x)
  | .int n => .ok (.float (Binary64.ofInt n))
  | j => Decoder.refuse "f64" j

def string : Json → Except DecodeError Value
  | .string s => .ok (.string s)
  | j => Decoder.refuse "a string" j

end Alternative

mutual

def decode (j : Json) : Except DecodeError Value :=
  Decoder.firstOf "DynValue" [
    Alternative.null j,
    Alternative.bool j,
    Alternative.int j,
    Alternative.float j,
    Alternative.string j,
    match j with
    | .array items => (decodeItems items).map .list
    | j => Decoder.refuse "a sequence" j,
    match j with
    | .object members => (decodeMembers members).map fun entries => .map (sortEntries entries)
    | j => Decoder.refuse "a map" j]

def decodeItems : List Json → Except DecodeError (List Value)
  | [] => .ok []
  | j :: rest =>
    match decode j with
    | .error e => .error e
    | .ok v => (decodeItems rest).map (v :: ·)

def decodeMembers : List (String × Json) → Except DecodeError (List (String × Value))
  | [] => .ok []
  | (key, j) :: rest =>
    match decode j with
    | .error e => .error e
    | .ok v => (decodeMembers rest).map ((key, v) :: ·)

end

/-- A value as people read it: strings stand for themselves, floating-point numbers are in the
plain layout, collections are compact JSON text. -/
def display : Value → String
  | .float x => x.plainText
  | .string s => s
  | v => v.toJson.compact

end Value

def Dict.toJson (d : Dict Value) : Json :=
  .object (Value.toJsonEntries d.entries)

/-- A map whose values are values. -/
def Decoder.valueDict : Decoder (Dict Value) :=
  Decoder.dict Value.decode

end CaseIntake
