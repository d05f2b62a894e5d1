import CaseIntake.Number.Digits
import CaseIntake.Number.Binary64

/-!
# Decimal numerals

A sign, digits with at most one point and at least one digit, then possibly `e` or `E`, a sign and
digits. The numeral stands for `± digits · 10 ^ (exponent - places)`.
-/

namespace CaseIntake

structure Numeral where
  negative : Bool
  /-- All digits of the mantissa as one whole number. -/
  digits : Nat
  /-- How many of them stand after the point. -/
  places : Nat
  exponent : Int
deriving DecidableEq

namespace Numeral

/-- The part after the mantissa: empty, or `e` and a signed whole number. -/
def readExponent? : List Char → Option Int
  | [] => some 0
  | c :: cs => if c = 'e' || c = 'E' then Digits.readSigned? cs else none

def readUnsigned? (negative : Bool) (cs : List Char) : Option Numeral :=
  let (whole, rest) := Digits.span 10 cs
  let (places, rest) :=
    match rest with
    | '.' :: after => Digits.span 10 after
    | rest => ([], rest)
  if whole.isEmpty && places.isEmpty then none
  else (readExponent? rest).map fun exponent =>
    ⟨negative, Digits.toNat 10 (whole ++ places), places.length, exponent⟩

def read? : List Char → Option Numeral
  | '-' :: cs => readUnsigned? true cs
  | '+' :: cs => readUnsigned? false cs
  | cs => readUnsigned? false cs

/-- The nearest finite number, if there is one. -/
def toBinary64? (n : Numeral) : Option Binary64 :=
  Binary64.ofDecimal n.negative n.digits (n.exponent - n.places)

end Numeral
end CaseIntake
