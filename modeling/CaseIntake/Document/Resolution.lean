import CaseIntake.Document.Shape
import CaseIntake.SimpleCase.Json
import CaseIntake.Suite.Json
import CaseIntake.Text.Blank

/-!
# Resolution

Which shape a document has. The candidates are tried in a fixed order. A document with the marks of
a canonical suite or case is one, or else it is malformed; it is never read as simplified cases.
-/

namespace CaseIntake

/-- Why a document is refused. -/
inductive Malformed where
  /-- The text is neither JSON nor YAML. What the two readers have to say about it is left out, so that
  all such texts are refused with the same words. -/
  | unreadable
  | undecodableSuite (error : DecodeError)
  | undecodableCase (error : DecodeError)
  | unrecognized
  | notCanonical (shape : DocumentShape)
deriving DecidableEq

def Malformed.message : Malformed → String
  | .unreadable => "not valid JSON or YAML"
  | .undecodableSuite e => "canonical suite does not decode: " ++ e.message
  | .undecodableCase e => "canonical case does not decode: " ++ e.message
  | .unrecognized => "no recognized test-suite shape"
  | .notCanonical shape => "expected a canonical suite, found " ++ shape.title

/-- What a document holds. -/
inductive Content where
  | canonical (suite : Suite)
  | simplified (cases : List SimpleCase)
deriving DecidableEq

structure Resolved where
  shape : DocumentShape
  content : Content
deriving DecidableEq

namespace Resolved

/-- The suite of one canonical case, whose function is not named. -/
def suiteOfCase (c : TestCase) : Suite :=
  ⟨"", none, [c]⟩

/-- Whether the document has a string with more than blanks under the key. -/
def hasText (key : String) (doc : Json) : Bool :=
  match (doc.member? key).bind Json.string? with
  | some s => !Text.isBlankText s
  | none => false

def hasKey (key : String) (doc : Json) : Bool :=
  (doc.member? key).isSome

/-- The keys that only canonical cases have. -/
def hasCaseKey (doc : Json) : Bool :=
  hasKey "given" doc || hasKey "when" doc || hasKey "then" doc

/-- The reading of a document with the marks of a canonical one; `none` for any other. -/
def canonical? (doc : Json) : Option (Except Malformed Resolved) :=
  if hasText "function_name" doc then
    match Suite.decode doc with
    | .ok s => some (.ok ⟨.canonicalSuite, .canonical s⟩)
    | .error e => some (.error (.undecodableSuite e))
  else if hasText "name" doc && hasCaseKey doc then
    match TestCase.decode doc with
    | .ok c => some (.ok ⟨.canonicalCase, .canonical (suiteOfCase c)⟩)
    | .error e => some (.error (.undecodableCase e))
  else none

def caseList? : Json → Option Resolved
  | .array items =>
    match Decoder.all SimpleCase.decode items with
    | .ok [] => none
    | .ok cases => some ⟨.caseList, .simplified cases⟩
    | .error _ => none
  | _ => none

def singleCase? (doc : Json) : Option Resolved :=
  match SimpleCase.decode doc with
  | .ok c => if Text.isBlankText c.name then none else some ⟨.singleCase, .simplified [c]⟩
  | .error _ => none

/-- The cases under the key `tests`. -/
def wrappedCases? (members : List (String × Json)) : Option Resolved :=
  match (Json.lookupLast "tests" members).map (Decoder.list SimpleCase.decode) with
  | none => none
  | some (.ok []) => none
  | some (.ok cases) => some ⟨.wrappedCases, .simplified cases⟩
  | some (.error _) => none

/-- The reading as simplified cases, which have no `function_name` at the root. -/
def simplified? : Json → Option Resolved
  | .object members =>
    if hasKey "function_name" (.object members) then none
    else (singleCase? (.object members)).or (wrappedCases? members)
  | doc => caseList? doc

def ofJson (doc : Json) : Except Malformed Resolved :=
  match canonical? doc with
  | some result => result
  | none =>
    match simplified? doc with
    | some r => .ok r
    | none => .error .unrecognized

end Resolved
end CaseIntake
