import CaseIntake.Json.Basic
import CaseIntake.Number.Numeral
import CaseIntake.Number.Word
import CaseIntake.Yaml.Node

/-!
# What scalars stand for

The core schema: a plain scalar is null, a truth value, a whole number or a floating-point number if
it is spelled like one, and otherwise a string. Quoted and block scalars are strings. A tag of the
core schema asks for one kind.
-/

namespace CaseIntake
namespace Yaml

def isNullWord (s : String) : Bool :=
  s = "null" || s = "Null" || s = "NULL" || s = "~"

def bool? (s : String) : Option Bool :=
  if s = "true" || s = "True" || s = "TRUE" then some true
  else if s = "false" || s = "False" || s = "FALSE" then some false
  else none

/-- Digits alone with a needless zero in front are not a number. -/
def hasNeedlessZero (cs : List Char) : Bool :=
  let ds :=
    match cs with
    | c :: rest => if c = '-' || c = '+' then rest else cs
    | [] => cs
  match ds with
  | '0' :: c :: rest => (c :: rest).all (Digits.isDigit 10)
  | _ => false

/-- A number in hexadecimal, octal or binary digits, by the mark in front of them. -/
def marked? : List Char → Option Nat
  | '0' :: 'x' :: ds => Digits.read? 16 ds
  | '0' :: 'o' :: ds => Digits.read? 8 ds
  | '0' :: 'b' :: ds => Digits.read? 2 ds
  | _ => none

/-- A whole number of any size. -/
def int? (cs : List Char) : Option Int :=
  let unsigned := fun ds =>
    (marked? ds).or (if hasNeedlessZero cs then none else Digits.read? 10 ds)
  match cs with
  | '-' :: ds => (unsigned ds).map fun n => -(n : Int)
  | '+' :: ds => (unsigned ds).map fun n => (n : Int)
  | ds => (unsigned ds).map fun n => (n : Int)

/-- What a scalar stands for. Whole numbers beyond 64 bits, infinities and not-a-number have no
place in a JSON tree. -/
inductive ScalarValue where
  | json (value : Json)
  | wideInteger (n : Int)
  | special (name : String)

/-- A special floating-point number becomes null; a whole number that is too large is refused. -/
def ScalarValue.toJson? : ScalarValue → Option Json
  | .json value => some value
  | .wideInteger _ => none
  | .special _ => some .null

/-- A whole number of at most 128 bits; a larger one is no whole number at all. -/
def readInt (cs : List Char) : Option ScalarValue :=
  match int? cs with
  | none => none
  | some n =>
    if Word.fits 64 n then some (.json (.int n))
    else if Word.fits 128 n then some (.wideInteger n)
    else none

def specialFloat? (cs : List Char) : Option String :=
  let s := String.ofList cs
  let unsigned := String.ofList (if cs.head? = some '+' then cs.drop 1 else cs)
  if unsigned = ".inf" || unsigned = ".Inf" || unsigned = ".INF" then some "inf"
  else if s = "-.inf" || s = "-.Inf" || s = "-.INF" then some "-inf"
  else if s = ".nan" || s = ".NaN" || s = ".NAN" then some "NaN"
  else none

/-- A number that is written with digits, with at most one sign. -/
def finiteFloat? (cs : List Char) : Option Binary64 :=
  let signedTwice :=
    match cs with
    | '+' :: c :: _ => c = '+' || c = '-'
    | _ => false
  let unsigned := if cs.head? = some '+' then cs.drop 1 else cs
  if signedTwice then none else (Numeral.read? unsigned).bind Numeral.toBinary64?

def readFloat (cs : List Char) : Option ScalarValue :=
  match specialFloat? cs with
  | some name => some (.special name)
  | none => (finiteFloat? cs).map fun x => .json (.float x)

/-- What a plain scalar without a tag stands for. -/
def plainValue (cs : List Char) : ScalarValue :=
  let s := String.ofList cs
  if cs.isEmpty || isNullWord s then .json .null
  else
    match bool? s with
    | some b => .json (.bool b)
    | none =>
      let float := if hasNeedlessZero cs then none else readFloat cs
      ((readInt cs).or float).getD (.json (.string s))

/-- A tag of the core schema. -/
def coreTag (kind : String) : TagText :=
  TagText.ofAscii ("tag:yaml.org,2002:" ++ kind).toList

/-- Whether a tag has the form of those that belong to an application. -/
def hasLocalForm (tag : TagText) : Bool :=
  tag.head? = some '!'.toUInt8

/-- Whether a tag belongs to the application, which has none. If it is no text, it counts for
nothing. -/
def isLocalTag (tag : TagText) : Bool :=
  hasLocalForm tag && (String.fromUTF8? ⟨tag.toArray⟩).isSome

/-- What a scalar without a tag stands for. -/
def untaggedValue (t : ScalarText) : ScalarValue :=
  if t.isPlain then plainValue t.text else .json (.string (String.ofList t.text))

/-- What a scalar stands for if its tag is not of the application; otherwise the kind of value that
the tag asks for in vain. -/
def scalarValue (tag : Option TagText) (t : ScalarText) : Except String ScalarValue :=
  let s := String.ofList t.text
  let asked := fun (value : Option ScalarValue) kind =>
    match value with
    | some v => Except.ok v
    | none => .error kind
  match tag with
  | none => .ok (untaggedValue t)
  | some tag =>
    if tag = coreTag "bool" then asked ((bool? s).map fun b => .json (.bool b)) "a boolean"
    else if tag = coreTag "int" then asked (readInt t.text) "an integer"
    else if tag = coreTag "float" then asked (readFloat t.text) "a float"
    else if tag = coreTag "null" then
      asked (if isNullWord s then some (.json .null) else none) "null"
    else if hasLocalForm tag then .ok (untaggedValue t)
    else .ok (.json (.string s))

def scalarJson? (p : Properties) (t : ScalarText) : Option Json :=
  if (p.tag.map isLocalTag).getD false then none
  else
    match scalarValue p.tag t with
    | .ok v => v.toJson?
    | .error _ => none

end Yaml
end CaseIntake
