import CaseIntake.Yaml.Token

/-!
# Nodes of YAML

The tree of a YAML document. An alias names the anchor of another node by its number.

The number of an anchor is how many names were in use when it was declared. A name that is declared
again therefore shares its number with the next new name, and an alias means the last node with the
number.
-/

namespace CaseIntake
namespace Yaml

structure Properties where
  mark : Mark
  anchor : Option Nat
  tag : Option TagText
deriving DecidableEq

inductive Node where
  | alias (mark : Mark) (anchor : Nat)
  | scalar (properties : Properties) (text : ScalarText)
  | sequence (properties : Properties) (items : List Node)
  | mapping (properties : Properties) (entries : List (Node × Node))

/-- The names of anchors with their numbers, each name once. -/
structure Anchors where
  known : List (List Char × Nat)

namespace Anchors

def empty : Anchors :=
  ⟨[]⟩

def find? (a : Anchors) (name : List Char) : Option Nat :=
  a.known.lookup name

def declare (a : Anchors) (name : List Char) : Nat × Anchors :=
  (a.known.length, ⟨(name, a.known.length) :: a.known.filter fun known => known.1 ≠ name⟩)

end Anchors

namespace Node

def emptyScalar (p : Properties) : Node :=
  .scalar p ⟨[], .plain⟩

def mark : Node → Mark
  | .alias m _ => m
  | .scalar p _ | .sequence p _ | .mapping p _ => p.mark

def anchor? : Node → Option Nat
  | .alias _ _ => none
  | .scalar p _ | .sequence p _ | .mapping p _ => p.anchor

mutual

/-- How many things stand in a document: scalars, aliases, and starts and ends of collections. -/
def eventCount : Node → Nat
  | .alias _ _ | .scalar _ _ => 1
  | .sequence _ items => 2 + eventCountItems items
  | .mapping _ entries => 2 + eventCountEntries entries

def eventCountItems : List Node → Nat
  | [] => 0
  | n :: rest => n.eventCount + eventCountItems rest

def eventCountEntries : List (Node × Node) → Nat
  | [] => 0
  | (k, v) :: rest => k.eventCount + v.eventCount + eventCountEntries rest

end

def withAnchor (n : Node) (inner : List (Nat × Node)) : List (Nat × Node) :=
  match n.anchor? with
  | some id => (id, n) :: inner
  | none => inner

mutual

/-- The nodes with an anchor, in the order in which they begin. -/
def anchored : Node → List (Nat × Node)
  | .alias m id => withAnchor (.alias m id) []
  | .scalar p text => withAnchor (.scalar p text) []
  | .sequence p items => withAnchor (.sequence p items) (anchoredItems items)
  | .mapping p entries => withAnchor (.mapping p entries) (anchoredEntries entries)

def anchoredItems : List Node → List (Nat × Node)
  | [] => []
  | n :: rest => n.anchored ++ anchoredItems rest

def anchoredEntries : List (Node × Node) → List (Nat × Node)
  | [] => []
  | (k, v) :: rest => k.anchored ++ v.anchored ++ anchoredEntries rest

end

end Node
end Yaml
end CaseIntake
