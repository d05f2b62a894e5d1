import CaseIntake.Document.Fence
import CaseIntake.Document.Resolution
import CaseIntake.Json.Reader
import CaseIntake.Options
import CaseIntake.Yaml.Node.Json

/-!
# Documents

A document is a text with JSON or YAML in it, perhaps between code fences. `Document.resolve` reads
it and finds its shape. A refusal shows the start of the text that was read.
-/

namespace CaseIntake
namespace Document

/-- The tree of a text in JSON, or else in YAML. -/
def read? (body : String) : Option Json :=
  (Json.read? body).or (Yaml.read? body)

def resolveBody (body : String) : Except Malformed Resolved :=
  match read? body with
  | none => .error .unreadable
  | some doc => Resolved.ofJson doc

/-- At most `limit` characters of a text, with a mark where it was cut. -/
def excerpt (limit : Nat) (text : String) : String :=
  if limit < text.length then String.ofList (text.toList.take limit) ++ "... (truncated)"
  else text

/-- A refused document: why, and how it starts. -/
structure Refusal where
  cause : Malformed
  excerpt : String
deriving DecidableEq

def refusal (o : Options) (text : String) (cause : Malformed) : Refusal :=
  ⟨cause, excerpt o.excerptLength (unfenced text)⟩

def Refusal.message (r : Refusal) : String :=
  "malformed specification: " ++ r.cause.message ++ " (near: " ++ r.excerpt ++ ")"

def resolve (o : Options) (text : String) : Except Refusal Resolved :=
  match resolveBody (unfenced text) with
  | .ok r => .ok r
  | .error cause => .error (refusal o text cause)

end Document
end CaseIntake
