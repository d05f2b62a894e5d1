import CaseIntake.Json.DecodeError
import CaseIntake.Options
import CaseIntake.Yaml.Node.Json

/-!
# Option files

Options are read from YAML directly. Every scalar counts as a string where a string is asked for,
and an empty place counts as an empty collection. A fault names the option and the place in the
file. That a second document follows is a fault only if the first one has none.
-/

namespace CaseIntake
namespace Options

inductive FileFault where
  | unreadable
  | severalDocuments
  /-- What is wrong, in which option, and where. -/
  | undecodable (path : String) (mark : Yaml.Mark) (cause : DecodeError)
deriving DecidableEq

namespace FileFault

def place (m : Yaml.Mark) : String :=
  if m.line = 0 && m.column = 0 then ""
  else " at line " ++ toString (m.line + 1) ++ " column " ++ toString (m.column + 1)

/-- The wording of a cause, in which a null is a unit value. -/
def causeText : DecodeError → String
  | .wrongType .null expected => "invalid type: unit value, expected " ++ expected
  | e => e.message

def message : FileFault → String
  | .unreadable => "not valid YAML"
  | .severalDocuments =>
    "deserializing from YAML containing more than one document is not supported"
  | .undecodable path mark cause =>
    (if path = "" then "" else path ++ ": ") ++ causeText cause ++ place mark

end FileFault

namespace File

open Yaml

/-- The node that an alias means, or the node itself. -/
def target (t : Targets) (n : Node) : Node :=
  match n with
  | .alias m id => (t.nodes.lookup id).getD (.emptyScalar ⟨m, none, none⟩)
  | n => n

def isEmptyPlace (text : ScalarText) : Bool :=
  text.isPlain && text.text.isEmpty

def foundValue : ScalarValue → Found
  | .json j => .ofJson j
  | .wideInteger n =>
    .other ("integer " ++ ticked (toString n) ++ if n < 0 then " as i128" else " as u128")
  | .special name => .other ("floating point " ++ ticked name)

/-- Why a node is not what is expected. A scalar that is not what its own tag asks for is refused
for that reason. -/
def mismatch (n : Node) (expected : String) : DecodeError :=
  match n with
  | .sequence _ _ => .wrongType .sequence expected
  | .mapping _ _ => .wrongType .map expected
  | .alias _ _ => .wrongType .null expected
  | .scalar p text =>
    match scalarValue p.tag text with
    | .ok v => .wrongType (foundValue v) expected
    | .error kind => .wrongValue (.string (String.ofList text.text)) kind

def refuse {α : Type} (path : String) (n : Node) (expected : String) : Except FileFault α :=
  .error (.undecodable path n.mark (mismatch n expected))

def string (t : Targets) (path : String) (n : Node) : Except FileFault String :=
  match target t n with
  | .scalar _ text => .ok (String.ofList text.text)
  | n => refuse path n "a string"

def stringsFrom (t : Targets) (path : String) (index : Nat) :
    List Node → Except FileFault (List String)
  | [] => .ok []
  | n :: rest =>
    match string t (path ++ "[" ++ toString index ++ "]") n with
    | .error e => .error e
    | .ok s => (stringsFrom t path (index + 1) rest).map (s :: ·)

def names (t : Targets) (path : String) (n : Node) : Except FileFault NameSet :=
  match target t n with
  | .sequence _ items => (stringsFrom t path 0 items).map NameSet.ofNames
  | .scalar p text =>
    if isEmptyPlace text then .ok Dict.empty else refuse path (.scalar p text) "a sequence"
  | n => refuse path n "a sequence"

/-- What a key is called in a path. An alias in its place has no name. -/
def keyLabel (key : Node) (name : String) : String :=
  match key with
  | .alias _ _ => "?"
  | _ => name

def pairs (t : Targets) (path : String) :
    List (Node × Node) → Except FileFault (List (String × String))
  | [] => .ok []
  | (k, v) :: rest =>
    match string t path k with
    | .error e => .error e
    | .ok key =>
      match string t (path ++ "." ++ keyLabel k key) v with
      | .error e => .error e
      | .ok value => (pairs t path rest).map ((key, value) :: ·)

def dict (t : Targets) (path : String) (n : Node) : Except FileFault (Dict String) :=
  match target t n with
  | .mapping _ entries => (pairs t path entries).map Dict.ofList
  | .scalar p text =>
    if isEmptyPlace text then .ok Dict.empty else refuse path (.scalar p text) "a map"
  | n => refuse path n "a map"

/-- Whether a scalar may be read as a size where one is asked for. A minus sign is refused even
before zero. -/
def mayBeSize (p : Properties) (text : ScalarText) : Bool :=
  (text.isPlain || (text.style = .literal && p.tag = some (coreTag "int"))) &&
    text.text.head? ≠ some '-'

def size (t : Targets) (path : String) (n : Node) : Except FileFault Nat :=
  match target t n with
  | .scalar p text =>
    match if mayBeSize p text then readInt text.text else none with
    | some (.json (.int i)) => .ok i.toNat
    | _ => refuse path (.scalar p text) "usize"
  | n => refuse path n "usize"

/-- One option read into its place. -/
def setField (t : Targets) (o : Options) (name path : String) (n : Node) :
    Except FileFault Options :=
  if name = "type-hints" then (names t path n).map fun x => { o with typeHints := x }
  else if name = "assertion-kinds" then (dict t path n).map fun x => { o with assertionKinds := x }
  else if name = "expected-required" then
    (names t path n).map fun x => { o with expectedRequired := x }
  else if name = "max-function-name-len" then
    (size t path n).map fun x => { o with maxFunctionNameLength := x }
  else if name = "excerpt-len" then (size t path n).map fun x => { o with excerptLength := x }
  else .ok o

def fieldNames : List String :=
  ["type-hints", "assertion-kinds", "expected-required", "max-function-name-len", "excerpt-len"]

/-- The entries of a mapping in their order; an option may not come twice. -/
def ofEntries (t : Targets) (mark : Mark) (seen : List String) (o : Options) :
    List (Node × Node) → Except FileFault Options
  | [] => .ok o
  | (k, v) :: rest =>
    match target t k with
    | .scalar _ text =>
      let name := String.ofList text.text
      if seen.contains name then .error (.undecodable "" mark (.duplicateField name))
      else
        match setField t o name (keyLabel k name) v with
        | .error e => .error e
        | .ok o => ofEntries t mark (if fieldNames.contains name then name :: seen else seen) o rest
    | k => refuse "" k "field identifier"

def ofNode (n : Node) : Except FileFault Options :=
  let t := Targets.of n
  match n with
  | .mapping p entries => ofEntries t p.mark [] standard entries
  | .scalar p text =>
    if isEmptyPlace text then .ok standard
    else refuse "" (.scalar p text) "struct IngestOptions"
  | n => refuse "" n "struct IngestOptions"

end File

/-- The options that a file names; the others are standard. -/
def ofFile (text : String) : Except FileFault Options :=
  match Yaml.firstDocument? text with
  | none => .error .unreadable
  | some d =>
    match File.ofNode d.root with
    | .error e => .error e
    | .ok o => if d.isOnly then .ok o else .error .severalDocuments

end Options
end CaseIntake
