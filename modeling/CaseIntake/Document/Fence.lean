import CaseIntake.Text.Split

/-!
# Code fences

Generated documents often stand between the fences of a code block, with a word for the language
after the first fence and remarks after the last one.
-/

namespace CaseIntake
namespace Document

def fence : List Char :=
  ['\x60', '\x60', '\x60']

/-- A character of the word for the language. -/
def isHintChar (c : Char) : Bool :=
  ('a' ≤ c && c ≤ 'z') || ('A' ≤ c && c ≤ 'Z') || ('0' ≤ c && c ≤ '9') ||
    c = '-' || c = '_' || c = '+' || c = '.'

/-- What follows the word for the language. A word with more text right after it is part of the
document. -/
def dropHint (cs : List Char) : List Char :=
  match cs.dropWhile isHintChar with
  | [] => []
  | c :: rest => if Text.isBlank c then c :: rest else cs

/-- The document within the fences, without blanks at its ends. -/
def unfencedChars (cs : List Char) : List Char :=
  let trimmed := Text.trimChars cs
  match Text.dropStart? fence trimmed with
  | some rest =>
    let body := dropHint rest
    Text.trimChars ((Text.beforeLastWord fence body).getD body)
  | none => Text.trimChars ((Text.dropEnd? fence trimmed).getD trimmed)

def unfenced (text : String) : String :=
  String.ofList (unfencedChars text.toList)

end Document
end CaseIntake
