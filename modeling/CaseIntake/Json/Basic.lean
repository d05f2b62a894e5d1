import CaseIntake.Number.Binary64

/-!
# JSON trees

The tree of a JSON document. Numbers keep whether they are whole; the members of an object keep
the order in which they stand.
-/

namespace CaseIntake

inductive Json where
  | null
  | bool (value : Bool)
  | int (value : Int)
  | float (value : Binary64)
  | string (value : String)
  | array (items : List Json)
  | object (members : List (String × Json))

namespace Json

instance : Inhabited Json := ⟨.null⟩

/-- The value of the last member of that name. -/
def lookupLast (name : String) : List (String × Json) → Option Json
  | [] => none
  | (other, value) :: rest =>
    match lookupLast name rest with
    | some found => some found
    | none => if other = name then some value else none

def member? (name : String) : Json → Option Json
  | .object members => lookupLast name members
  | _ => none

def string? : Json → Option String
  | .string s => some s
  | _ => none

end Json
end CaseIntake
