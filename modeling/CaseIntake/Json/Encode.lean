import CaseIntake.Dict
import CaseIntake.Json.Basic

/-!
# Building JSON trees

Trees of lists, dictionaries and records. The members of a record stand in the order of its fields,
and a field without a value is left out.
-/

namespace CaseIntake
namespace Json

def strings (items : List String) : Json :=
  .array (items.map .string)

def names (s : NameSet) : Json :=
  strings s.names

def stringDict (d : Dict String) : Json :=
  .object (d.map Json.string).entries

/-- An object of the fields that have a value. -/
def record (fields : List (String × Option Json)) : Json :=
  .object (fields.filterMap fun (name, value) => value.map fun j => (name, j))

/-- A list as a field that is left out when the list is empty. -/
def unlessEmpty (items : List String) : Option Json :=
  if items.isEmpty then none else some (strings items)

end Json
end CaseIntake
