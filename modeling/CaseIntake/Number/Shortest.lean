import CaseIntake.Number.Binary64

/-!
# The shortest decimal of a floating-point number

Among the decimals that read back as the number, `Binary64.shortest` gives the one with the fewest
digits, and among those the nearest. The decimals that read back form an interval around the
number, whose ends belong to it iff the mantissa is even. The search goes through the powers of
ten from a coarse one downwards and stops at the first that has a multiple in the interval; only
the two multiples beside the number need to be tested.
-/

namespace CaseIntake

/-- The number `digits · 10 ^ power`. -/
structure Decimal where
  digits : Nat
  power : Int
deriving DecidableEq

/-- Which of two equally near decimals is taken. -/
inductive Tie where
  | up
  | even

namespace Binary64

/-- The interval of a number, in quarters of its last binary place: `low`, the number itself, and
`high`. -/
structure Interval where
  low : Nat
  middle : Nat
  high : Nat
  closed : Bool

/-- Below a power of two the neighbours are half as far apart as above it. -/
def interval (x : Binary64) : Interval where
  low := if x.mantissa = Nat.pow 2 52 && -1074 < x.exponent then 4 * x.mantissa - 1
    else 4 * x.mantissa - 2
  middle := 4 * x.mantissa
  high := 4 * x.mantissa + 2
  closed := x.mantissa % 2 = 0

def Interval.contains (i : Interval) (num den : Nat) : Bool :=
  if i.closed then i.low * den ≤ num && num ≤ i.high * den
  else i.low * den < num && num < i.high * den

/-- The whole numbers `a` and `b` with `10 ^ power / 2 ^ (exponent - 2) = a / b`. -/
def weights (power : Int) (exponent : Int) : Nat × Nat :=
  let q := exponent - 2
  let a := Nat.pow 10 power.toNat * Nat.pow 2 (-q).toNat
  let b := Nat.pow 10 (-power).toNat * Nat.pow 2 q.toNat
  (a, b)

/-- The multiple of `10 ^ power` next to the number that lies in the interval, the nearer if both
do. -/
def gridPoint? (tie : Tie) (x : Binary64) (power : Int) : Option Nat :=
  let (a, b) := weights power x.exponent
  let i := x.interval
  let below := i.middle * b / a
  let above := below + 1
  match i.contains (below * a) b, i.contains (above * a) b with
  | false, false => none
  | true, false => some below
  | false, true => some above
  | true, true =>
    let down := i.middle * b - below * a
    let up := above * a - i.middle * b
    if down < up then some below
    else if up < down then some above
    else
      match tie with
      | .up => some above
      | .even => some (if below % 2 = 0 then below else above)

def searchGrids (tie : Tie) (x : Binary64) : Nat → Int → Decimal
  | 0, power => ⟨(gridPoint? tie x power).getD 0, power⟩
  | steps + 1, power =>
    match gridPoint? tie x power with
    | some digits => ⟨digits, power⟩
    | none => searchGrids tie x steps (power - 1)

/-- The shortest decimal of the number without its sign. A number in `[2 ^ k, 2 ^ (k + 1))` is below
`10 ^ (0.302 · k + 2)`, where the search starts; seventeen digits always suffice. -/
def shortest (tie : Tie) (x : Binary64) : Decimal :=
  if x.mantissa = 0 then ⟨0, 0⟩
  else
    let k : Int := x.mantissa.log2 + x.exponent
    searchGrids tie x 24 (k * 302 / 1000 + 2)

end Binary64
end CaseIntake
