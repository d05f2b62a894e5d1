import CaseIntake.Text.Blank

/-!
# Cutting texts

Splitting at a character, finding the first or last place of a word, and taking a word off either
end of a text.
-/

namespace CaseIntake
namespace Text

/-- The pieces between the characters `sep`; there is one piece more than separators. -/
def splitAt (sep : Char) : List Char → List (List Char)
  | [] => [[]]
  | c :: cs =>
    if c = sep then [] :: splitAt sep cs
    else
      match splitAt sep cs with
      | [] => [[c]]
      | piece :: rest => (c :: piece) :: rest

/-- What stands before and after the first `c`. -/
def breakAt (c : Char) : List Char → Option (List Char × List Char)
  | [] => none
  | d :: ds =>
    if d = c then some ([], ds)
    else (breakAt c ds).map fun (before, after) => (d :: before, after)

/-- What stands before the last `c`. -/
def beforeLast (c : Char) (cs : List Char) : Option (List Char) :=
  (breakAt c cs.reverse).map fun (_, before) => before.reverse

def dropStart? (word cs : List Char) : Option (List Char) :=
  if word.isPrefixOf cs then some (cs.drop word.length) else none

def dropEnd? (word cs : List Char) : Option (List Char) :=
  (dropStart? word.reverse cs.reverse).map List.reverse

/-- What stands before the last place of `word`. -/
def beforeLastWord (word : List Char) : List Char → Option (List Char)
  | [] => if word.isEmpty then some [] else none
  | c :: cs =>
    match beforeLastWord word cs with
    | some before => some (c :: before)
    | none => if word.isPrefixOf (c :: cs) then some [] else none

/-- The non-blank pieces between commas, trimmed. -/
def commaPieces (cs : List Char) : List String :=
  (((splitAt ',' cs).map trimChars).filter (!·.isEmpty)).map String.ofList

end Text
end CaseIntake
