import CaseIntake.Text.Picture

/-!
# Quoted text

A text between double quotes, as messages show it: quotes and backslashes are escaped, and a
character without a picture of its own is shown by its number.
-/

namespace CaseIntake
namespace Text

/-- The digits of `n` in base sixteen, lower case. -/
def hex (n : Nat) : List Char :=
  Nat.toDigits 16 n

def quotedChar (c : Char) : List Char :=
  match c with
  | '"' => ['\\', '"']
  | '\\' => ['\\', '\\']
  | '\x00' => ['\\', '0']
  | '\t' => ['\\', 't']
  | '\r' => ['\\', 'r']
  | '\n' => ['\\', 'n']
  | c => if hasPicture c then [c] else ['\\', 'u', '\x7b'] ++ hex c.toNat ++ ['\x7d']

def quoted (s : String) : String :=
  String.ofList ('"' :: s.toList.flatMap quotedChar ++ ['"'])

end Text
end CaseIntake
