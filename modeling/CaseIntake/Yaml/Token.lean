import CaseIntake.Yaml.Cursor

/-!
# Tokens of YAML

Tags are bytes, because escapes in a tag give bytes.
-/

namespace CaseIntake
namespace Yaml

/-- How a scalar is written: with neither quotes nor a header, as a literal block, or otherwise. -/
inductive ScalarStyle where
  | plain
  | literal
  | other
deriving DecidableEq

/-- The text of a scalar. Without a tag only a plain scalar can stand for something else than a
string. -/
structure ScalarText where
  text : List Char
  style : ScalarStyle
deriving DecidableEq

def ScalarText.isPlain (t : ScalarText) : Bool :=
  t.style = .plain

/-- The bytes of a tag, or of a part of one. -/
abbrev TagText := List UInt8

/-- The bytes of an ASCII text. -/
def TagText.ofAscii (cs : List Char) : TagText :=
  cs.map Char.toUInt8

inductive Symbol where
  | version (major minor : Nat)
  | tagShorthand (handle : List Char) (expansion : TagText)
  | documentStart
  | documentEnd
  | blockSequenceStart
  | blockMappingStart
  | blockEnd
  | flowSequenceStart
  | flowSequenceEnd
  | flowMappingStart
  | flowMappingEnd
  | blockEntry
  | flowEntry
  | key
  | value
  | alias (name : List Char)
  | anchor (name : List Char)
  | tag (handle : List Char) (suffix : TagText)
  | scalar (text : ScalarText)
deriving DecidableEq

structure Token where
  symbol : Symbol
  mark : Mark
deriving DecidableEq

end Yaml
end CaseIntake
