import CaseIntake.Number.Shortest

/-!
# Numbers as text

Floating-point numbers are written with their shortest digits, in one of two layouts. The plain
layout never has an exponent and shows whole numbers without a point. The JSON layout always has a
point or an exponent: it is positional while the leading digit stands for a power of ten from
`10 ^ -5` to `10 ^ 15`, and scientific outside.
-/

namespace CaseIntake
namespace Decimal

def digitChars (d : Decimal) : List Char :=
  Nat.toDigits 10 d.digits

/-- The power of ten that the first digit stands for. -/
def leadingPower (d : Decimal) : Int :=
  d.digitChars.length + d.power - 1

/-- Digits, zeros where the power asks for them, and a point if a digit stands after it. -/
def positional (d : Decimal) : List Char :=
  let ds := d.digitChars
  if 0 ≤ d.power then ds ++ List.replicate d.power.toNat '0'
  else
    let places := (-d.power).toNat
    if places < ds.length then
      ds.take (ds.length - places) ++ '.' :: ds.drop (ds.length - places)
    else '0' :: '.' :: List.replicate (places - ds.length) '0' ++ ds

/-- One digit before the point, and the exponent with its sign. -/
def scientific (d : Decimal) : List Char :=
  let e := d.leadingPower
  let mantissa :=
    match d.digitChars with
    | [] => []
    | [c] => [c]
    | c :: cs => c :: '.' :: cs
  mantissa ++ 'e' :: (if e < 0 then '-' else '+') :: Nat.toDigits 10 e.natAbs

end Decimal

namespace Binary64

def sign (x : Binary64) : List Char :=
  if x.negative then ['-'] else []

def plainChars (x : Binary64) : List Char :=
  x.sign ++ (x.shortest .up).positional

/-- The plain layout. -/
def plainText (x : Binary64) : String :=
  String.ofList x.plainChars

/-- The plain layout, with a point also in whole numbers. -/
def pointedText (x : Binary64) : String :=
  String.ofList (x.plainChars ++ if x.isWhole then ['.', '0'] else [])

/-- The JSON layout. -/
def jsonText (x : Binary64) : String :=
  let d := x.shortest .even
  let body :=
    if -5 ≤ d.leadingPower && d.leadingPower ≤ 15 then
      d.positional ++ if 0 ≤ d.power then ['.', '0'] else []
    else d.scientific
  String.ofList (x.sign ++ body)

end Binary64
end CaseIntake
