import CaseIntake.Dict
import CaseIntake.Json.Number

/-!
# Reading JSON text

A strict reader: one value, white space around it, nothing else. The members of an object come out
in ascending order of their keys, and of several with one key the last counts. Collections may
nest 127 deep.
-/

namespace CaseIntake
namespace Json

def isSpace (c : Char) : Bool :=
  c = ' ' || c = '\n' || c = '\t' || c = '\r'

def skipSpace (cs : List Char) : List Char :=
  cs.dropWhile isSpace

/-- A piece of a string literal: a character, or a unit of sixteen bits written by its number. -/
inductive Piece where
  | char (c : Char)
  | unit (n : Nat)

def escaped? : Char → Option Char
  | '"' => some '"'
  | '\\' => some '\\'
  | '/' => some '/'
  | 'b' => some '\x08'
  | 'f' => some '\x0c'
  | 'n' => some '\n'
  | 'r' => some '\r'
  | 't' => some '\t'
  | _ => none

/-- The pieces up to the closing quote, and what follows the quote. -/
def scanPieces : List Char → Option (List Piece × List Char)
  | [] => none
  | '"' :: rest => some ([], rest)
  | '\\' :: 'u' :: a :: b :: c :: d :: rest =>
    match Digits.read? 16 [a, b, c, d] with
    | some n => (scanPieces rest).map fun (ps, rest) => (.unit n :: ps, rest)
    | none => none
  | '\\' :: e :: rest =>
    match escaped? e with
    | some c => (scanPieces rest).map fun (ps, rest) => (.char c :: ps, rest)
    | none => none
  | c :: rest =>
    if c < ' ' then none
    else (scanPieces rest).map fun (ps, rest) => (.char c :: ps, rest)

/-- Joins the units of surrogate pairs; a surrogate without its partner has no character. -/
def joinPieces : List Piece → Option (List Char)
  | [] => some []
  | .char c :: rest => (joinPieces rest).map (c :: ·)
  | .unit n :: rest =>
    if n < 0xD800 || 0xE000 ≤ n then (joinPieces rest).map (Char.ofNat n :: ·)
    else
      match rest with
      | .unit m :: rest =>
        if n < 0xDC00 && 0xDC00 ≤ m && m < 0xE000 then
          (joinPieces rest).map (Char.ofNat (0x10000 + (n - 0xD800) * 0x400 + (m - 0xDC00)) :: ·)
        else none
      | _ => none

/-- A string after its opening quote. -/
def scanString (cs : List Char) : Option (String × List Char) :=
  match scanPieces cs with
  | some (pieces, rest) => (joinPieces pieces).map fun chars => (String.ofList chars, rest)
  | none => none

/-- One or more items with commas between them, up to the closing character. An item that takes up
no text ends the reading. -/
def scanItems {α : Type} (item : List Char → Option (α × List Char)) (close : Char)
    (cs : List Char) : Option (List α × List Char) :=
  match item cs with
  | none => none
  | some (x, rest) =>
    match skipSpace rest with
    | [] => none
    | c :: after =>
      if c = close then some ([x], after)
      else if c = ',' then
        if _shorter : after.length < cs.length then
          (scanItems item close after).map fun (xs, rest) => (x :: xs, rest)
        else none
      else none
termination_by cs.length

/-- The items of a collection after its opening character. -/
def scanCollection {α : Type} (item : List Char → Option (α × List Char)) (close : Char)
    (cs : List Char) : Option (List α × List Char) :=
  match skipSpace cs with
  | [] => none
  | c :: after => if c = close then some ([], after) else scanItems item close (c :: after)

def scanMember (value : List Char → Option (Json × List Char)) (cs : List Char) :
    Option ((String × Json) × List Char) :=
  match skipSpace cs with
  | '"' :: rest =>
    match scanString rest with
    | none => none
    | some (key, rest) =>
      match skipSpace rest with
      | ':' :: rest => (value rest).map fun (v, rest) => ((key, v), rest)
      | _ => none
  | _ => none

def scanWord (word : String) (value : Json) (cs : List Char) : Option (Json × List Char) :=
  if word.toList.isPrefixOf cs then some (value, cs.drop word.length) else none

/-- A value that stands at the start of a text, and what follows it. The number is how deep
collections may still nest. -/
def scanValue : Nat → List Char → Option (Json × List Char)
  | depth, cs =>
    match skipSpace cs with
    | [] => none
    | c :: rest =>
      if c = '"' then (scanString rest).map fun (s, rest) => (.string s, rest)
      else if c = '[' then
        match depth with
        | 0 => none
        | depth + 1 =>
          (scanCollection (scanValue depth) ']' rest).map fun (items, rest) => (.array items, rest)
      else if c = '\x7b' then
        match depth with
        | 0 => none
        | depth + 1 =>
          (scanCollection (scanMember (scanValue depth)) '\x7d' rest).map fun (members, rest) =>
            (.object (sortEntries members), rest)
      else if c = 't' then scanWord "true" (.bool true) (c :: rest)
      else if c = 'f' then scanWord "false" (.bool false) (c :: rest)
      else if c = 'n' then scanWord "null" .null (c :: rest)
      else
        match scanNumber (c :: rest) with
        | some (number, rest) => number.value?.map fun v => (v, rest)
        | none => none

def maxDepth : Nat := 127

/-- The value of a text that holds one JSON value and nothing else. -/
def read? (s : String) : Option Json :=
  match scanValue maxDepth s.toList with
  | some (value, rest) => if (skipSpace rest).isEmpty then some value else none
  | none => none

end Json
end CaseIntake
