import CaseIntake.Dict
import CaseIntake.Yaml.Node.Parser
import CaseIntake.Yaml.Scalar.Schema

/-!
# YAML documents as JSON trees

Collections become arrays and objects. The keys of an object are the texts of scalars, and of
several entries with one key the last counts. Collections may nest 128 deep, aliases included, and
a document may follow its aliases a hundred times for each thing in it.
-/

namespace CaseIntake
namespace Yaml

/-- The nodes that aliases mean. -/
structure Targets where
  nodes : List (Nat × Node)

def Targets.of (n : Node) : Targets :=
  ⟨n.anchored.reverse⟩

/-- A step that may follow some aliases: it takes how often aliases may still be followed and
gives how often they may be afterwards. -/
abbrev Step (α : Type) := Nat → Option (α × Nat)

namespace Step

def of {α : Type} (x : Option α) : Step α :=
  fun left => x.map fun x => (x, left)

def each {α β : Type} (f : α → Step β) : List α → Step (List β)
  | [], left => some ([], left)
  | x :: xs, left =>
    match f x left with
    | none => none
    | some (y, left) =>
      match each f xs left with
      | none => none
      | some (ys, left) => some (y :: ys, left)

end Step

/-- The node itself, or the node that an alias means. -/
def Targets.follow (t : Targets) (n : Node) : Step Node :=
  match n with
  | .alias _ id => fun left =>
    match left, t.nodes.lookup id with
    | left + 1, some target => some (target, left)
    | _, _ => none
  | n => Step.of (some n)

def Properties.isLocal (p : Properties) : Bool :=
  (p.tag.map isLocalTag).getD false

/-- The text of a key, whatever its tag. -/
def keyText (t : Targets) (n : Node) : Step String := fun left =>
  match t.follow n left with
  | some (.scalar _ text, left) => some (String.ofList text.text, left)
  | _ => none

def readEntry {α : Type} (t : Targets) (value : Node → Step α) (entry : Node × Node) :
    Step (String × α) := fun left =>
  match keyText t entry.1 left with
  | none => none
  | some (key, left) => (value entry.2 left).map fun (v, left) => ((key, v), left)

/-- The tree of a node, in which collections may nest as deep as the number says. -/
def nodeJson (t : Targets) : Nat → Node → Step Json
  | depth, n, left =>
    match t.follow n left with
    | some (.scalar p text, left) => Step.of (scalarJson? p text) left
    | some (.sequence p items, left) =>
      match depth with
      | 0 => none
      | depth + 1 =>
        if p.isLocal then none
        else (Step.each (nodeJson t depth) items left).map fun (items, left) =>
          (.array items, left)
    | some (.mapping p entries, left) =>
      match depth with
      | 0 => none
      | depth + 1 =>
        if p.isLocal then none
        else (Step.each (readEntry t (nodeJson t depth)) entries left).map fun (members, left) =>
          (.object (sortEntries members), left)
    | _ => none

def maxDepth : Nat := 128

/-- How often the aliases of a document may be followed. -/
def maxFollowed (n : Node) : Nat :=
  100 * n.eventCount

def Node.toJson? (n : Node) : Option Json :=
  (nodeJson (Targets.of n) maxDepth n (maxFollowed n)).map Prod.fst

/-- The tree of a text that holds one YAML document or none. -/
def read? (s : String) : Option Json :=
  (document? s).bind Node.toJson?

end Yaml
end CaseIntake
