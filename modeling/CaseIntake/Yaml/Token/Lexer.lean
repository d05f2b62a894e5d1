import CaseIntake.Yaml.Scalar.Block
import CaseIntake.Yaml.Scalar.Plain
import CaseIntake.Yaml.Scalar.Quoted
import CaseIntake.Yaml.Token
import CaseIntake.Yaml.Token.Tag

/-!
# From text to tokens

Most tokens stand in the text. Four kinds do not: the start and end of a block collection follow
from the indentation, and a key without a question mark is known for a key only when its colon is
found. The place of a possible key is therefore kept, and the tokens that announce the key are
inserted there.

A possible key is given up at the end of its line, or after 1024 bytes of UTF-8. At the indentation
of a block mapping there has to be a key, and then giving up is an error.
-/

namespace CaseIntake
namespace Yaml

/-- A place where a key may have begun. -/
structure KeyPlace where
  required : Bool
  /-- How many tokens stand before it. -/
  position : Nat
  mark : Mark

/-- Whether a possible key can no longer be one. -/
def KeyPlace.isStale (k : KeyPlace) (m : Mark) : Bool :=
  k.mark.line < m.line || k.mark.index + 1024 < m.index

structure Lexer where
  cursor : Cursor
  /-- The tokens found so far, the last one first. -/
  found : List Token
  /-- The columns of the open block collections, the innermost first. -/
  indents : List Nat
  /-- For each open flow collection, whether a key may have begun in it; last outside of all. -/
  keys : List (Option KeyPlace)
  /-- Whether a key may begin here. -/
  keyAllowed : Bool

namespace Lexer

def start (cs : List Char) : Lexer where
  cursor := ⟨cs, .start⟩
  found := []
  indents := []
  keys := [none]
  keyAllowed := true

def inFlow (l : Lexer) : Bool :=
  l.keys.length > 1

def indent? (l : Lexer) : Option Nat :=
  l.indents.head?

def mark (l : Lexer) : Mark :=
  l.cursor.mark

def push (l : Lexer) (symbol : Symbol) (mark : Mark) : Lexer :=
  { l with found := ⟨symbol, mark⟩ :: l.found }

/-- Adds a token for the next `width` characters. -/
def pushNext (l : Lexer) (symbol : Symbol) (width : Nat) : Lexer :=
  { l.push symbol l.mark with cursor := l.cursor.skip width }

/-- Inserts a token after the first `position` ones. -/
def insert (l : Lexer) (position : Nat) (symbol : Symbol) (mark : Mark) : Lexer :=
  let later := l.found.length - position
  { l with found := l.found.take later ++ ⟨symbol, mark⟩ :: l.found.drop later }

def allowKey (l : Lexer) (allowed : Bool) : Lexer :=
  { l with keyAllowed := allowed }

/-- Skips blanks, comments and line ends. A tab does not count as a blank where a key may begin; a
byte order mark counts as one at the start of a line. -/
def skipToToken (l : Lexer) : Lexer :=
  go l.cursor.rest false l
where
  /-- Goes through a text, inside a comment or not. -/
  go : List Char → Bool → Lexer → Lexer
    | [], _, l => l
    | c :: cs, comment, l =>
      let next := { l with cursor := l.cursor.skip 1 }
      if isBreak c then go cs false (if l.inFlow then next else next.allowKey true)
      else if comment then go cs true next
      else if c = '#' then go cs true next
      else if c = ' ' || (c = '\t' && (l.inFlow || !l.keyAllowed)) then go cs false next
      else if c = '\ufeff' && l.mark.column = 0 then go cs false next
      else l

/-- Gives up the possible keys that can no longer be keys. -/
def dropStaleKeys (l : Lexer) : Option Lexer :=
  let stale := fun k : KeyPlace => k.isStale l.mark
  if l.keys.any fun key => (key.map fun k => k.required && stale k).getD false then none
  else some { l with keys := l.keys.map fun key => key.filter fun k => !stale k }

/-- Gives up the possible key of the innermost flow collection. -/
def dropKey (l : Lexer) : Option Lexer :=
  match l.keys with
  | some k :: rest => if k.required then none else some { l with keys := none :: rest }
  | _ => some l

/-- Notes that a key may begin here. -/
def noteKey (l : Lexer) : Option Lexer :=
  if !l.keyAllowed then some l
  else
    let place : KeyPlace :=
      ⟨!l.inFlow && l.indent? = some l.mark.column, l.found.length, l.mark⟩
    l.dropKey.map fun l => { l with keys := some place :: l.keys.drop 1 }

/-- Closes the block collections that are indented more than `keep` columns allow; none is left if
nothing is kept. -/
def closeBlocks (keep : Option Nat) (l : Lexer) : Lexer :=
  if l.inFlow then l
  else
    let deeper := fun n => (keep.map fun k => decide (k < n)).getD true
    let closed := l.indents.takeWhile deeper
    closed.foldl (fun l _ => l.push .blockEnd l.mark)
      { l with indents := l.indents.drop closed.length }

/-- Opens a block collection at a column that is deeper than the innermost one, with its token
after the first `position` ones. -/
def openBlock (l : Lexer) (column position : Nat) (symbol : Symbol) (mark : Mark) : Lexer :=
  let deeper := (l.indent?.map fun n => decide (n < column)).getD true
  if l.inFlow || !deeper then l
  else { l.insert position symbol mark with indents := column :: l.indents }

/-- Opens a block collection at the cursor. -/
def openBlockHere (l : Lexer) (symbol : Symbol) : Lexer :=
  l.openBlock l.mark.column l.found.length symbol l.mark

/-- Leaves all block collections before something that ends a document. -/
def leaveBlocks (l : Lexer) : Option Lexer :=
  (l.closeBlocks none).dropKey.map (·.allowKey false)

def lexDirective (l : Lexer) : Option Lexer :=
  match l.leaveBlocks with
  | none => none
  | some l =>
    match scanDirective (l.cursor.rest.drop 1) with
    | none => none
    | some (directive, rest) =>
      let symbol :=
        match directive with
        | .version major minor => Symbol.version major minor
        | .shorthand handle expansion => .tagShorthand handle expansion
      some { l.push symbol l.mark with cursor := l.cursor.moveTo rest }

def lexDocumentMark (symbol : Symbol) (l : Lexer) : Option Lexer :=
  l.leaveBlocks.map fun l => l.pushNext symbol 3

def lexFlowStart (symbol : Symbol) (l : Lexer) : Option Lexer :=
  l.noteKey.map fun l => { l with keys := none :: l.keys, keyAllowed := true }.pushNext symbol 1

def lexFlowEnd (symbol : Symbol) (l : Lexer) : Option Lexer :=
  l.dropKey.map fun l =>
    { l with keys := if l.inFlow then l.keys.drop 1 else l.keys, keyAllowed := false }.pushNext
      symbol 1

def lexFlowEntry (l : Lexer) : Option Lexer :=
  l.dropKey.map fun l => (l.allowKey true).pushNext .flowEntry 1

def lexBlockEntry (l : Lexer) : Option Lexer :=
  if !l.inFlow && !l.keyAllowed then none
  else
    (l.openBlockHere .blockSequenceStart).dropKey.map fun l =>
      (l.allowKey true).pushNext .blockEntry 1

def lexKey (l : Lexer) : Option Lexer :=
  if !l.inFlow && !l.keyAllowed then none
  else
    (l.openBlockHere .blockMappingStart).dropKey.map fun l =>
      (l.allowKey !l.inFlow).pushNext .key 1

/-- The colon after a key. If a key may have begun before, it did. -/
def lexValue (l : Lexer) : Option Lexer :=
  match l.keys with
  | some k :: rest =>
    let l := { l with keys := none :: rest }.insert k.position .key k.mark
    let l := l.openBlock k.mark.column k.position .blockMappingStart k.mark
    some ((l.allowKey false).pushNext .value 1)
  | _ =>
    if !l.inFlow && !l.keyAllowed then none
    else
      let l := l.openBlockHere .blockMappingStart
      some ((l.allowKey !l.inFlow).pushNext .value 1)

/-- An anchor or an alias, whose name ends at a blank or at one of a few marks. -/
def lexName (symbol : List Char → Symbol) (l : Lexer) : Option Lexer :=
  match l.noteKey with
  | none => none
  | some l =>
    let body := l.cursor.rest.drop 1
    let name := body.takeWhile isNameChar
    let rest := body.dropWhile isNameChar
    let ends :=
      match rest with
      | [] => true
      | c :: _ =>
        isGap c || isBreak c || c = '?' || c = ':' || c = ',' || c = ']' || c = '\x7d' ||
          c = '%' || c = '@' || c = '\x60'
    if name.isEmpty || !ends then none
    else some ((l.allowKey false).pushNext (symbol name) (name.length + 1))

def lexTag (l : Lexer) : Option Lexer :=
  match l.noteKey with
  | none => none
  | some l =>
    (scanTag l.inFlow l.cursor.rest).map fun ((handle, suffix), rest) =>
      { (l.allowKey false).push (.tag handle suffix) l.mark with cursor := l.cursor.moveTo rest }

def lexBlockScalar (literal : Bool) (l : Lexer) : Option Lexer :=
  match l.dropKey with
  | none => none
  | some l =>
    let style := if literal then ScalarStyle.literal else .other
    (scanBlock literal l.indent? l.cursor).map fun (text, cursor) =>
      { (l.allowKey true).push (.scalar ⟨text, style⟩) l.mark with cursor := cursor }

def lexQuoted (double : Bool) (l : Lexer) : Option Lexer :=
  match l.noteKey with
  | none => none
  | some l =>
    (scanQuoted double l.cursor).map fun (text, cursor) =>
      { (l.allowKey false).push (.scalar ⟨text, .other⟩) l.mark with cursor := cursor }

def lexPlain (l : Lexer) : Option Lexer :=
  match l.noteKey with
  | none => none
  | some l =>
    (scanPlain l.inFlow ((l.indent?.map (· + 1)).getD 0) l.cursor).map fun scan =>
      { (l.allowKey scan.broken).push (.scalar ⟨scan.text, .plain⟩) l.mark with
        cursor := scan.cursor }

/-- Whether a plain scalar may begin with `c` when `rest` follows. -/
def startsPlain (flow : Bool) (c : Char) (rest : List Char) : Bool :=
  !(isIndicator c || isGap c || isBreak c) ||
    (c = '-' && !(rest.head?.map isGap).getD false) ||
    (!flow && (c = '?' || c = ':') && !atGap rest)

/-- The next token, which begins with `c`. -/
def lexOne (l : Lexer) (c : Char) (rest : List Char) : Option Lexer :=
  if l.mark.column = 0 && c = '%' then l.lexDirective
  else if l.mark.column = 0 && atDocumentMark (c :: rest) then
    l.lexDocumentMark (if c = '-' then .documentStart else .documentEnd)
  else if c = '[' then l.lexFlowStart .flowSequenceStart
  else if c = '\x7b' then l.lexFlowStart .flowMappingStart
  else if c = ']' then l.lexFlowEnd .flowSequenceEnd
  else if c = '\x7d' then l.lexFlowEnd .flowMappingEnd
  else if c = ',' then l.lexFlowEntry
  else if c = '-' && atGap rest then l.lexBlockEntry
  else if c = '?' && (l.inFlow || atGap rest) then l.lexKey
  else if c = ':' && (l.inFlow || atGap rest) then l.lexValue
  else if c = '*' then l.lexName .alias
  else if c = '&' then l.lexName .anchor
  else if c = '!' then l.lexTag
  else if c = '|' && !l.inFlow then l.lexBlockScalar true
  else if c = '>' && !l.inFlow then l.lexBlockScalar false
  else if c = '\'' then l.lexQuoted false
  else if c = '"' then l.lexQuoted true
  else if startsPlain l.inFlow c rest then l.lexPlain
  else none

/-- All tokens of the text. Every token takes up some of it. -/
def run (l : Lexer) : Option (List Token) :=
  match l.skipToToken.dropStaleKeys with
  | none => none
  | some ready =>
    match ready.cursor.rest with
    | [] => ready.leaveBlocks.map fun l => l.found.reverse
    | c :: rest =>
      match (ready.closeBlocks (some ready.mark.column)).lexOne c rest with
      | none => none
      | some next =>
        if _shorter : next.cursor.rest.length < l.cursor.rest.length then next.run else none
termination_by l.cursor.rest.length

end Lexer

/-- The tokens of a text. -/
def tokens? (s : String) : Option (List Token) :=
  if s.toList.all isAllowed then (Lexer.start (normalizeBreaks s.toList)).run else none

end Yaml
end CaseIntake
