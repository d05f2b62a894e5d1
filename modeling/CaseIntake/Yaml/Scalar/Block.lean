import CaseIntake.Number.Digits
import CaseIntake.Yaml.Cursor

/-!
# Block scalars

A literal block keeps its line ends; a folded block joins two lines that both begin with a word. The
indentation is that of the first line with content, unless the header gives it, and the header also
says what becomes of the line ends at the end.
-/

namespace CaseIntake
namespace Yaml

/-- What becomes of the line ends after the last line of content. -/
inductive Chomping where
  | strip
  | clip
  | keep
deriving DecidableEq

structure BlockHeader where
  chomping : Chomping
  /-- The indentation beyond that of the parent, if it is given. -/
  increment : Option Nat

def chomping? : Char → Option Chomping
  | '-' => some .strip
  | '+' => some .keep
  | _ => none

def increment? (c : Char) : Option Nat :=
  if '1' ≤ c && c ≤ '9' then Digits.value? c else none

/-- The header of a block, up to the end of its line. -/
def blockHeader (cs : List Char) : Option (BlockHeader × List Char) :=
  let (chomping, cs) :=
    match cs with
    | c :: rest =>
      match chomping? c with
      | some x => (some x, rest)
      | none => (none, cs)
    | [] => (none, cs)
  let (increment, cs) :=
    match cs with
    | c :: rest =>
      match increment? c with
      | some n => (some n, rest)
      | none => (none, cs)
    | [] => (none, cs)
  let (chomping, cs) :=
    match chomping, cs with
    | none, c :: rest =>
      match chomping? c with
      | some x => (some x, rest)
      | none => (none, cs)
    | chomping, cs => (chomping, cs)
  let cs := cs.dropWhile isGap
  let cs := if cs.head? = some '#' then cs.dropWhile (!isBreak ·) else cs
  match cs with
  | [] => some (⟨chomping.getD .clip, increment⟩, [])
  | c :: rest =>
    if isBreak c then some (⟨chomping.getD .clip, increment⟩, rest) else none

structure BlockBreaks where
  breaks : List Char
  /-- The widest indentation among the lines. -/
  widest : Nat
  rest : List Char

/-- Skips indentation and empty lines. Without a known indentation all spaces at the start of a line
are indentation; a tab in place of one is refused. -/
def blockBreaks (indent : Option Nat) (column widest : Nat) : List Char → Option BlockBreaks
  | [] => some ⟨[], max widest column, []⟩
  | c :: cs =>
    let inside :=
      match indent with
      | none => true
      | some n => decide (column < n)
    if inside && c = ' ' then blockBreaks indent (column + 1) widest cs
    else if inside && c = '\t' then none
    else if isBreak c then
      (blockBreaks indent 0 (max widest column) cs).map fun b => { b with breaks := c :: b.breaks }
    else some ⟨[], max widest column, c :: cs⟩

structure BlockText where
  text : List Char
  /-- The line end after the last line of content. -/
  lastBreak : List Char
  /-- The line ends of the empty lines after it. -/
  trailing : List Char
  cursor : Cursor

/-- What stands between two lines of content. -/
def joinLines (literal : Bool) (lastBreak trailing : List Char) (afterBlank beforeBlank : Bool) :
    List Char :=
  if !literal && lastBreak = ['\n'] && !afterBlank && !beforeBlank then
    (if trailing.isEmpty then [' '] else trailing)
  else lastBreak ++ trailing

/-- The lines of content from a cursor on; `afterBlank` says whether the line before begins with a
blank. -/
def blockLines (literal : Bool) (indent : Nat) (afterBlank : Bool) (lastBreak trailing : List Char)
    (c : Cursor) : Option BlockText :=
  match c.rest with
  | [] => some ⟨[], lastBreak, trailing, c⟩
  | x :: _ =>
    if c.column ≠ indent then some ⟨[], lastBreak, trailing, c⟩
    else
      let line := c.rest.takeWhile (!isBreak ·)
      let ended := c.skip line.length
      let lineBreak := ended.rest.take 1
      let started := ended.skip 1
      match blockBreaks (some indent) started.column 0 started.rest with
      | none => none
      | some b =>
        let next := started.moveTo b.rest
        if _shorter : next.rest.length < c.rest.length then
          (blockLines literal indent (isGap x) lineBreak b.breaks next).map fun t =>
            { t with
              text := joinLines literal lastBreak trailing afterBlank (isGap x) ++ line ++ t.text }
        else none
termination_by c.rest.length

/-- The block scalar at a cursor that stands at its indicator; `parent` is the column of the
collection around it, if there is one. -/
def scanBlock (literal : Bool) (parent : Option Nat) (c : Cursor) : Option (List Char × Cursor) :=
  match blockHeader (c.rest.drop 1) with
  | none => none
  | some (header, rest) =>
    let c := c.moveTo rest
    let given := header.increment.map fun n => parent.getD 0 + n
    match blockBreaks given c.column 0 c.rest with
    | none => none
    | some b =>
      let least := (parent.map (· + 1)).getD 0
      let indent := given.getD (max (max b.widest least) 1)
      match blockLines literal indent false [] b.breaks (c.moveTo b.rest) with
      | none => none
      | some t =>
        let tail :=
          match header.chomping with
          | .strip => []
          | .clip => t.lastBreak
          | .keep => t.lastBreak ++ t.trailing
        some (t.text ++ tail, t.cursor)

end Yaml
end CaseIntake
