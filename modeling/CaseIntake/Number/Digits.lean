/-!
# Digits

Digit characters of a base up to sixteen, and the whole number that a run of them stands for.
-/

namespace CaseIntake
namespace Digits

/-- The value of a digit of any base up to sixteen; letters count in either case. -/
def value? (c : Char) : Option Nat :=
  if '0' ≤ c && c ≤ '9' then some (c.toNat - 48)
  else if 'a' ≤ c && c ≤ 'f' then some (c.toNat - 87)
  else if 'A' ≤ c && c ≤ 'F' then some (c.toNat - 55)
  else none

def isDigit (base : Nat) (c : Char) : Bool :=
  match value? c with
  | some d => d < base
  | none => false

/-- The run of digits at the start of a text, and what follows it. -/
def span (base : Nat) (cs : List Char) : List Char × List Char :=
  (cs.takeWhile (isDigit base), cs.dropWhile (isDigit base))

def toNat (base : Nat) (cs : List Char) : Nat :=
  cs.foldl (fun n c => n * base + (value? c).getD 0) 0

/-- A non-empty text of digits alone. -/
def read? (base : Nat) (cs : List Char) : Option Nat :=
  if !cs.isEmpty && cs.all (isDigit base) then some (toNat base cs) else none

/-- Decimal digits after at most one sign. -/
def readSigned? (cs : List Char) : Option Int :=
  match cs with
  | '-' :: ds => (read? 10 ds).map fun n => -(n : Int)
  | '+' :: ds => (read? 10 ds).map fun n => (n : Int)
  | ds => (read? 10 ds).map fun n => (n : Int)

end Digits
end CaseIntake
