/-!
# Finite binary floating-point numbers

A `Binary64` is a sign, a mantissa of at most 53 bits and an exponent: the number
`± mantissa · 2 ^ exponent`. The canonical form has the smallest exponent that leaves room for the
mantissa, so that equal fields mean the same number; zero keeps its sign.

Every operation here computes the exact result as a ratio of whole numbers and rounds it once, to
the nearest `Binary64`, an exact half going to the even mantissa. A result beyond the largest
finite number is `none`.
-/

namespace CaseIntake

/-- Either the exponent is the least one, or the mantissa has its full 53 bits. -/
def Canonical (mantissa : Nat) (exponent : Int) : Prop :=
  (exponent = -1074 ∧ mantissa < Nat.pow 2 53) ∨
    (-1074 < exponent ∧ exponent ≤ 971 ∧ Nat.pow 2 52 ≤ mantissa ∧ mantissa < Nat.pow 2 53)

instance (mantissa : Nat) (exponent : Int) : Decidable (Canonical mantissa exponent) := by
  unfold Canonical; infer_instance

structure Binary64 where
  negative : Bool
  mantissa : Nat
  exponent : Int
  canonical : Canonical mantissa exponent
deriving DecidableEq

/-- The whole number nearest to `num / den`, an exact half going to the even neighbour. -/
def roundHalfEven (num den : Nat) : Nat :=
  let below := num / den
  let rest := num % den
  if 2 * rest > den || (2 * rest = den && below % 2 = 1) then below + 1 else below

namespace Binary64

def zero (negative : Bool) : Binary64 :=
  ⟨negative, 0, -1074, by decide⟩

instance : Inhabited Binary64 := ⟨zero false⟩

/-- `num / den / 2 ^ q` as a ratio of whole numbers. -/
def scale (num den : Nat) (q : Int) : Nat × Nat :=
  (num * Nat.pow 2 (-q).toNat, den * Nat.pow 2 q.toNat)

/-- The exponent at which `num / den` has a mantissa of 53 bits, or the least exponent. -/
def unitOf (num den : Nat) : Int :=
  let q : Int := (num.log2 : Int) - den.log2 - 53
  let (n, d) := scale num den q
  max (-1074) (if n / d < Nat.pow 2 53 then q else q + 1)

/-- The number nearest to `± num / den`. -/
def ofRatio (negative : Bool) (num den : Nat) : Option Binary64 :=
  if num = 0 then some (zero negative)
  else
    let q := unitOf num den
    let (n, d) := scale num den q
    let m := roundHalfEven n d
    let (m, q) := if m = Nat.pow 2 53 then (Nat.pow 2 52, q + 1) else (m, q)
    if h : Canonical m q then some ⟨negative, m, q, h⟩ else none

/-- The number nearest to `± num / den · 2 ^ q`. -/
def ofScaledRatio (negative : Bool) (num den : Nat) (q : Int) : Option Binary64 :=
  ofRatio negative (num * Nat.pow 2 q.toNat) (den * Nat.pow 2 (-q).toNat)

def ofNat (n : Nat) : Option Binary64 :=
  ofRatio false n 1

def mul (x y : Binary64) : Option Binary64 :=
  ofScaledRatio (x.negative != y.negative) (x.mantissa * y.mantissa) 1 (x.exponent + y.exponent)

/-- The quotient; `none` also for the divisor zero. -/
def div (x y : Binary64) : Option Binary64 :=
  if y.mantissa = 0 then none
  else ofScaledRatio (x.negative != y.negative) x.mantissa y.mantissa (x.exponent - y.exponent)

def withSign (x : Binary64) (negative : Bool) : Binary64 :=
  { x with negative := negative }

/-- The number nearest to a whole number of at most a thousand bits. -/
def ofInt (n : Int) : Binary64 :=
  ((ofNat n.natAbs).getD (zero false)).withSign (n < 0)

def isZero (x : Binary64) : Bool :=
  x.mantissa = 0

/-- Whether the number has no fractional part. -/
def isWhole (x : Binary64) : Bool :=
  0 ≤ x.exponent || x.mantissa % Nat.pow 2 (-x.exponent).toNat = 0

/-- The number nearest to `± digits · 10 ^ power`. Powers far outside the range are decided by the
magnitude alone, so that no huge power of ten is computed for them. -/
def ofDecimal (negative : Bool) (digits : Nat) (power : Int) : Option Binary64 :=
  let magnitude : Int := (Nat.toDigits 10 digits).length + power
  if digits = 0 || magnitude < -330 then some (zero negative)
  else if magnitude > 310 then none
  else ofRatio negative (digits * Nat.pow 10 power.toNat) (Nat.pow 10 (-power).toNat)

end Binary64
end CaseIntake
