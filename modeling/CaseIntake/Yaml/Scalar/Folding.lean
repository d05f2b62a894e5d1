import CaseIntake.Yaml.Char

/-!
# Folding of lines

Blanks and line ends between two words of a flow scalar. Within a line the blanks stand for
themselves. Around line ends they vanish, a single line end becomes a space, and of several the
first vanishes; but a line end of its own kind is always kept.
-/

namespace CaseIntake
namespace Yaml

structure Gap where
  /-- The blanks before the first line end. -/
  blanks : List Char
  breaks : List Char

namespace Gap

/-- The line ends up to the next word, and the text from there on. -/
def scanBreaks : List Char → List Char × List Char
  | [] => ([], [])
  | c :: cs =>
    if isBreak c then
      let (breaks, rest) := scanBreaks cs
      (c :: breaks, rest)
    else if isGap c then scanBreaks cs
    else ([], c :: cs)

/-- The gap at the start of a text, and the text after it. -/
def scan (cs : List Char) : Gap × List Char :=
  let blanks := cs.takeWhile isGap
  match cs.dropWhile isGap with
  | [] => (⟨blanks, []⟩, [])
  | c :: rest =>
    if isBreak c then
      let (breaks, rest) := scanBreaks rest
      (⟨blanks, c :: breaks⟩, rest)
    else (⟨blanks, []⟩, c :: rest)

def isBroken (g : Gap) : Bool :=
  !g.breaks.isEmpty

def text (g : Gap) : List Char :=
  match g.breaks with
  | [] => g.blanks
  | b :: more => if b = '\n' then (if more.isEmpty then [' '] else more) else b :: more

/-- Whether a tab stands before a column at the start of a line of the gap. -/
def hasTabBefore (limit : Nat) (broken : Bool) (column : Nat) : List Char → Bool
  | [] => false
  | c :: cs =>
    if isBreak c then hasTabBefore limit true 0 cs
    else if isGap c then
      (broken && column < limit && c = '\t') || hasTabBefore limit broken (column + 1) cs
    else false

end Gap
end Yaml
end CaseIntake
