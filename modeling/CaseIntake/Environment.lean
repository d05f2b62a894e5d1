import CaseIntake.Reference
import CaseIntake.Suite

/-!
# Environments

The values of the names of one case. A reference resolves to the variable it names; an unknown name
hands the reference back unchanged.
-/

namespace CaseIntake

structure Environment where
  values : Dict Value
deriving DecidableEq

/-- What a reference resolves to. -/
inductive Binding where
  | bound (name : String) (value : Value)
  | unbound (token : String)
deriving DecidableEq

namespace Environment

/-- Declares a variable. Variables without a name do not count, and of several declarations of one
name the first is kept. -/
def declare (values : Dict Value) (v : Variable) : Dict Value :=
  if v.name = "" || values.contains v.name then values
  else values.insert v.name (v.value.getD .null)

def ofGiven (given : List Variable) : Environment :=
  ⟨given.foldl declare Dict.empty⟩

def ofSetup (setup : Dict Value) : Environment :=
  ⟨setup⟩

def find? (env : Environment) (name : String) : Option Value :=
  env.values.find? name

def contains (env : Environment) (name : String) : Bool :=
  env.values.contains name

def isEmpty (env : Environment) : Bool :=
  env.values.isEmpty

def resolve (env : Environment) (token : String) : Binding :=
  match env.find? (Reference.name token) with
  | some value => .bound (Reference.name token) value
  | none => .unbound token

end Environment
end CaseIntake
