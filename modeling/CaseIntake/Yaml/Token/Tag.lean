import CaseIntake.Number.Digits
import CaseIntake.Yaml.Token

/-!
# Tags and directives

A tag is written out between angle brackets, or as a handle and a suffix. A directive line gives the
version of the language or a shorthand for the beginning of tags. What a percent sign escapes is a
byte, and a part of a tag ends at the first zero byte in it.
-/

namespace CaseIntake
namespace Yaml

def isUriChar (verbatim : Bool) (c : Char) : Bool :=
  isNameChar c || c = ';' || c = '/' || c = '?' || c = ':' || c = '@' || c = '&' || c = '=' ||
    c = '+' || c = '$' || c = '.' || c = '!' || c = '~' || c = '*' || c = '\'' || c = '(' ||
    c = ')' || (verbatim && (c = ',' || c = '[' || c = ']'))

/-- The bytes of the escapes `%XX` at the start of a text, at most `count` of them. -/
def escapedBytes : Nat → List Char → List UInt8
  | 0, _ => []
  | count + 1, '%' :: a :: b :: rest =>
    match Digits.read? 16 [a, b] with
    | some n => n.toUInt8 :: escapedBytes count rest
    | none => []
  | _, _ => []

/-- How many bytes a character has whose first byte is given. -/
def utf8Width (first : UInt8) : Nat :=
  if first < 0x80 then 1
  else if first < 0xC0 then 0
  else if first < 0xE0 then 2
  else if first < 0xF0 then 3
  else if first < 0xF8 then 4
  else 0

/-- The bytes of one escaped character. A byte after the first has to be of the range for those, but
the bytes may still be no character. -/
def escapedChar? (cs : List Char) : Option (List UInt8) :=
  match escapedBytes 1 cs with
  | [] => none
  | first :: _ =>
    let width := utf8Width first
    let bytes := escapedBytes width cs
    let wellFormed := (bytes.drop 1).all fun b => 0x80 ≤ b && b < 0xC0
    if width = 0 || bytes.length < width || !wellFormed then none else some bytes

/-- The bytes of a URI at the start of a text, and what follows it. -/
def scanUri (verbatim : Bool) (cs : List Char) : Option (TagText × List Char) :=
  match cs with
  | [] => some ([], [])
  | c :: rest =>
    if c = '%' then
      match escapedChar? (c :: rest) with
      | none => none
      | some bytes =>
        (scanUri verbatim (rest.drop (3 * bytes.length - 1))).map fun (uri, after) =>
          (bytes ++ uri, after)
    else if isUriChar verbatim c then
      (scanUri verbatim rest).map fun (uri, after) => (c.toUInt8 :: uri, after)
    else some ([], c :: rest)
termination_by cs.length
decreasing_by all_goals (simp only [List.length_cons, List.length_drop]; omega)

/-- An exclamation mark, a word, and possibly a second exclamation mark. -/
def scanHandle (cs : List Char) : Option (List Char × List Char) :=
  match cs with
  | '!' :: rest =>
    let word := rest.takeWhile isNameChar
    match rest.dropWhile isNameChar with
    | '!' :: after => some ('!' :: word ++ ['!'], after)
    | after => some ('!' :: word, after)
  | _ => none

/-- The part of a tag that counts. -/
def TagText.beforeZero (t : TagText) : TagText :=
  t.takeWhile (· ≠ 0)

/-- A tag as its handle and its suffix. A tag without a second exclamation mark has the handle `!`,
and a lone exclamation mark has no handle. -/
def scanTag (flow : Bool) (cs : List Char) : Option ((List Char × TagText) × List Char) :=
  let parts : Option ((List Char × TagText) × List Char) :=
    match cs with
    | '!' :: '<' :: body =>
      match scanUri true body with
      | some (uri, '>' :: after) => if uri.isEmpty then none else some (([], uri.beforeZero), after)
      | _ => none
    | cs =>
      match scanHandle cs with
      | none => none
      | some (handle, rest) =>
        match scanUri false rest with
        | none => none
        | some (uri, after) =>
          if handle.length > 1 && handle.getLast? = some '!' then
            if uri.isEmpty then none else some ((handle, uri.beforeZero), after)
          else
            let suffix := (TagText.ofAscii (handle.drop 1) ++ uri).beforeZero
            let mark := ['!']
            some (if suffix.isEmpty then ([], TagText.ofAscii mark) else (mark, suffix), after)
  match parts with
  | none => none
  | some (tag, after) =>
    if atGap after || (flow && after.head? = some ',') then some (tag, after) else none

/-- A version number of at most nine digits. -/
def scanVersionNumber (cs : List Char) : Option (Nat × List Char) :=
  let (ds, rest) := Digits.span 10 cs
  if ds.isEmpty || ds.length > 9 then none else some (Digits.toNat 10 ds, rest)

inductive Directive where
  | version (major minor : Nat)
  | shorthand (handle : List Char) (expansion : TagText)

def scanVersion (cs : List Char) : Option (Directive × List Char) :=
  match scanVersionNumber (cs.dropWhile isGap) with
  | some (major, '.' :: rest) =>
    (scanVersionNumber rest).map fun (minor, after) => (.version major minor, after)
  | _ => none

def scanShorthand (cs : List Char) : Option (Directive × List Char) :=
  match scanHandle (cs.dropWhile isGap) with
  | none => none
  | some (handle, rest) =>
    if handle ≠ ['!'] && !(handle.length > 1 && handle.getLast? = some '!') then none
    else if !(rest.head?.map isGap).getD false then none
    else
      match scanUri true (rest.dropWhile isGap) with
      | none => none
      | some (uri, after) =>
        if uri.isEmpty || !atGap after then none
        else some (.shorthand handle uri.beforeZero, after)

/-- A directive after its percent sign, up to the end of its line. -/
def scanDirective (cs : List Char) : Option (Directive × List Char) :=
  let name := cs.takeWhile isNameChar
  let rest := cs.dropWhile isNameChar
  let body :=
    if !atGap rest then none
    else if name = ['Y', 'A', 'M', 'L'] then scanVersion rest
    else if name = ['T', 'A', 'G'] then scanShorthand rest
    else none
  match body with
  | none => none
  | some (directive, after) =>
    let after := after.dropWhile isGap
    let after := if after.head? = some '#' then after.dropWhile (!isBreak ·) else after
    match after with
    | [] => some (directive, [])
    | c :: after => if isBreak c then some (directive, after) else none

end Yaml
end CaseIntake
