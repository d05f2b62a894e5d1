import CaseIntake.Dict
import CaseIntake.Number.Binary64

/-!
# Dynamic values

Set-up variables, expected results and arguments carry values of a closed set of kinds. Whole
numbers of 64 bits and floating-point numbers are different kinds: `5` and `5.0` are two values.
-/

namespace CaseIntake

inductive Value where
  | null
  | bool (value : Bool)
  | int (value : Int64)
  /-- A finite number. Infinities and not-a-number are left out, since none comes out of a document:
  JSON has no words for them, those of YAML are read as `null`, and a numeral that is too large is
  refused in JSON and stays a text elsewhere. -/
  | float (value : Binary64)
  | string (value : String)
  | list (items : List Value)
  | map (entries : List (String × Value))

inductive ValueKind where
  | null
  | bool
  | int
  | float
  | string
  | array
  | object
deriving DecidableEq

/-- The word for a kind in type hints. -/
def ValueKind.hint : ValueKind → String
  | .null => "null"
  | .bool => "bool"
  | .int => "int"
  | .float => "float"
  | .string => "string"
  | .array => "array"
  | .object => "object"

namespace Value

instance : Inhabited Value := ⟨.null⟩

def kind : Value → ValueKind
  | .null => .null
  | .bool _ => .bool
  | .int _ => .int
  | .float _ => .float
  | .string _ => .string
  | .list _ => .array
  | .map _ => .object

def isNull (v : Value) : Bool :=
  v.kind = .null

def isNumber (v : Value) : Bool :=
  v.kind = .int || v.kind = .float

/-- Whether the value is a number without a fractional part, of either kind. -/
def isWholeNumber : Value → Bool
  | .int _ => true
  | .float x => x.isWhole
  | _ => false

def string? : Value → Option String
  | .string s => some s
  | _ => none

def ofDict (d : Dict Value) : Value :=
  .map d.entries

mutual

/-- Whether the keys of all maps in the value are ascending, at every depth. -/
def Ordered : Value → Prop
  | .list items => OrderedItems items
  | .map entries => Ascending entries ∧ OrderedEntries entries
  | _ => True

def OrderedItems : List Value → Prop
  | [] => True
  | v :: rest => v.Ordered ∧ OrderedItems rest

def OrderedEntries : List (String × Value) → Prop
  | [] => True
  | (_, v) :: rest => v.Ordered ∧ OrderedEntries rest

end

mutual

def same : Value → Value → Bool
  | .null, .null => true
  | .bool a, .bool b => a = b
  | .int a, .int b => a = b
  | .float a, .float b => a = b
  | .string a, .string b => a = b
  | .list a, .list b => sameItems a b
  | .map a, .map b => sameEntries a b
  | _, _ => false

def sameItems : List Value → List Value → Bool
  | [], [] => true
  | v :: vs, w :: ws => same v w && sameItems vs ws
  | _, _ => false

def sameEntries : List (String × Value) → List (String × Value) → Bool
  | [], [] => true
  | (k, v) :: vs, (l, w) :: ws => k = l && same v w && sameEntries vs ws
  | _, _ => false

end

mutual

theorem same_iff : ∀ v w : Value, same v w = true ↔ v = w
  | .null, w | .bool _, w | .int _, w | .float _, w | .string _, w => by
    cases w <;> simp [same]
  | .list a, w => by
    cases w <;> simp [same, sameItems_iff a]
  | .map a, w => by
    cases w <;> simp [same, sameEntries_iff a]

theorem sameItems_iff : ∀ vs ws : List Value, sameItems vs ws = true ↔ vs = ws
  | [], ws => by cases ws <;> simp [sameItems]
  | v :: vs, ws => by cases ws <;> simp [sameItems, same_iff v, sameItems_iff vs]

theorem sameEntries_iff :
    ∀ vs ws : List (String × Value), sameEntries vs ws = true ↔ vs = ws
  | [], ws => by cases ws <;> simp [sameEntries]
  | (k, v) :: vs, ws => by
    rcases ws with _ | ⟨⟨l, w⟩, ws⟩ <;>
      simp [sameEntries, same_iff v, sameEntries_iff vs]

end

instance : DecidableEq Value := fun v w =>
  decidable_of_iff (same v w = true) (same_iff v w)

end Value
end CaseIntake
