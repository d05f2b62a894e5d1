import CaseIntake.Value.Literal

/-!
# Comparisons

Reading `actual <operator> expected` from free text. Operators count only outside brackets and,
when both kinds of quotes are balanced in the text, outside quotes. They are tried in a fixed
order. The first one that occurs exactly once and leaves two fitting sides decides the reading; one
that occurs more than once makes the text unreadable.
-/

namespace CaseIntake

inductive Operator where
  | equals
  | notEquals
  | greaterThan
  | lessThan
  | contains
  | notNil
  | nil
deriving DecidableEq

namespace Operator

/-- All operators, in the order in which they are tried. -/
def byPriority : List Operator :=
  [.equals, .notEquals, .greaterThan, .lessThan, .contains, .notNil, .nil]

def token : Operator → List Char
  | .equals => ['=', '=']
  | .notEquals => ['!', '=']
  | .greaterThan => ['>']
  | .lessThan => ['<']
  | .contains => [' ', 'c', 'o', 'n', 't', 'a', 'i', 'n', 's', ' ']
  | .notNil => ['i', 's', ' ', 'n', 'o', 't', ' ', 'n', 'i', 'l']
  | .nil => ['i', 's', ' ', 'n', 'i', 'l']

/-- The type of assertion that an operator expresses. -/
def assertionType : Operator → String
  | .equals => "equals"
  | .notEquals => "not_equals"
  | .greaterThan => "greater_than"
  | .lessThan => "less_than"
  | .contains => "contains"
  | .notNil => "not_nil"
  | .nil => "nil"

/-- Whether nothing may follow the operator. -/
def endsText : Operator → Bool
  | .notNil | .nil => true
  | _ => false

/-- Whether the operator stands at the start of `cs`, after the character `previous`. The signs
`>=` and `<=` are no operators, and the `nil` operators begin a word. -/
def startsAt (op : Operator) (previous : Option Char) (cs : List Char) : Bool :=
  op.token.isPrefixOf cs &&
    match op with
    | .greaterThan | .lessThan => cs[1]? != some '='
    | .notNil | .nil =>
      match previous with
      | none => true
      | some c => Text.isAsciiBlank c
    | _ => true

end Operator

/-- Where a reader of an expression stands: how many brackets are open, and inside which quotes. -/
structure Nesting where
  depth : Nat
  quote : Option Char
  /-- Inside quotes, whether the character before was a backslash. -/
  escaped : Bool
deriving DecidableEq

namespace Nesting

def outside : Nesting :=
  ⟨0, none, false⟩

/-- The position after one more character. Brackets of all kinds count as one kind. -/
def step (quotes : Bool) (n : Nesting) (c : Char) : Nesting :=
  match n.quote with
  | some q =>
    if n.escaped then { n with escaped := false }
    else if c = '\\' then { n with escaped := true }
    else if c = q then { n with quote := none }
    else n
  | none =>
    if quotes && (c = '"' || c = '\'') then { n with quote := some c }
    else if c = '(' || c = '[' || c = '\x7b' then { n with depth := n.depth + 1 }
    else if c = ')' || c = ']' || c = '\x7d' then { n with depth := n.depth - 1 }
    else n

def isOutside (n : Nesting) : Bool :=
  n.depth = 0 && n.quote.isNone

end Nesting

structure Comparison where
  operator : Operator
  actual : String
  /-- The right side; the `nil` operators have none. -/
  expected : Option Value
deriving DecidableEq

namespace Comparison

/-- The two sides of every occurrence of the operator outside brackets and quotes. -/
def splits (quotes : Bool) (op : Operator) (n : Nesting) (previous : Option Char) :
    List Char → List (List Char × List Char)
  | [] => []
  | c :: cs =>
    let later :=
      (splits quotes op (n.step quotes c) (some c) cs).map fun (left, right) => (c :: left, right)
    if n.isOutside && op.startsAt previous (c :: cs) then
      ([], (c :: cs).drop op.token.length) :: later
    else later

/-- The comparison of two sides, if they fit the operator. -/
def ofSides? (op : Operator) (left right : List Char) : Option Comparison :=
  let left := Text.trimChars left
  let right := Text.trimChars right
  if left.isEmpty || right.isEmpty != op.endsText then none
  else
    some ⟨op, String.ofList left, if op.endsText then none else some (Literal.ofTrimmed right)⟩

def firstFitting (quotes : Bool) (cs : List Char) : List Operator → Option Comparison
  | [] => none
  | op :: ops =>
    match splits quotes op .outside none cs with
    | [] => firstFitting quotes cs ops
    | [(left, right)] =>
      match ofSides? op left right with
      | some c => some c
      | none => firstFitting quotes cs ops
    | _ => none

/-- Whether both kinds of quotes occur an even number of times. -/
def quotesBalanced (cs : List Char) : Bool :=
  cs.count '"' % 2 = 0 && cs.count '\'' % 2 = 0

def read? (text : String) : Option Comparison :=
  let cs := Text.trimChars text.toList
  firstFitting (quotesBalanced cs) cs Operator.byPriority

end Comparison
end CaseIntake
