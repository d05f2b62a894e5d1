import CaseIntake.Yaml.Char

/-!
# Places in a text

A cursor is what is left of a text together with the place where it begins.
-/

namespace CaseIntake
namespace Yaml

/-- A place in a text, counted from zero. -/
structure Mark where
  /-- How many bytes of UTF-8 stand before it. -/
  index : Nat
  line : Nat
  column : Nat
deriving DecidableEq

def Mark.start : Mark :=
  ⟨0, 0, 0⟩

/-- The place after one more character. -/
def Mark.after (m : Mark) (c : Char) : Mark :=
  let index := m.index + c.utf8Size
  if isBreak c then ⟨index, m.line + 1, 0⟩ else ⟨index, m.line, m.column + 1⟩

structure Cursor where
  rest : List Char
  mark : Mark

namespace Cursor

/-- Goes forward by a number of characters, at most to the end of the text. -/
def skip : Nat → Cursor → Cursor
  | 0, c => c
  | n + 1, c =>
    match c.rest with
    | [] => c
    | x :: rest => skip n ⟨rest, c.mark.after x⟩

/-- Goes forward to where `rest` is left. -/
def moveTo (c : Cursor) (rest : List Char) : Cursor :=
  c.skip (c.rest.length - rest.length)

def column (c : Cursor) : Nat :=
  c.mark.column

end Cursor
end Yaml
end CaseIntake
