import CaseIntake.Number.Digits
import CaseIntake.Json.Basic

/-!
# Numbers in JSON text

A number is an optional minus, digits without a leading zero, possibly a point and digits, and
possibly an exponent. Whole numbers of 64 bits stay whole, except `-0`, which is the negative zero.

All other numbers become floating-point numbers in two roundings. The significand is made of as
many digits as fit in 64 bits; it is rounded, and then multiplied or divided by a power of ten that
is itself rounded. The result can therefore differ from the nearest number in its last place.
-/

namespace CaseIntake
namespace Json

/-- The parts of a number as they stand in the text. -/
structure NumberText where
  negative : Bool
  whole : List Char
  /-- The digits after the point, if there is a point. -/
  places : Option (List Char)
  exponent : Option Int

/-- The exponent after `e` or `E`, and what follows it. -/
def scanExponent (cs : List Char) : Option (Int × List Char) :=
  let (negative, cs) :=
    match cs with
    | '-' :: rest => (true, rest)
    | '+' :: rest => (false, rest)
    | cs => (false, cs)
  let (ds, rest) := Digits.span 10 cs
  if ds.isEmpty then none
  else
    let n : Int := Digits.toNat 10 ds
    some (if negative then -n else n, rest)

def scanNumber (cs : List Char) : Option (NumberText × List Char) :=
  let (negative, cs) :=
    match cs with
    | '-' :: rest => (true, rest)
    | cs => (false, cs)
  let (whole, rest) := Digits.span 10 cs
  if whole.isEmpty || (whole.head? = some '0' && whole.length > 1) then none
  else
    let point : Option (Option (List Char) × List Char) :=
      match rest with
      | '.' :: after =>
        let (ds, rest) := Digits.span 10 after
        if ds.isEmpty then none else some (some ds, rest)
      | rest => some (none, rest)
    match point with
    | none => none
    | some (places, rest) =>
      match rest with
      | c :: after =>
        if c = 'e' || c = 'E' then
          (scanExponent after).map fun (e, rest) => (⟨negative, whole, places, some e⟩, rest)
        else some (⟨negative, whole, places, none⟩, rest)
      | [] => some (⟨negative, whole, places, none⟩, [])

/-- Appends digits to a significand while it fits in 64 bits; gives the digits left over. -/
def appendFitting (significand : Nat) : List Char → Nat × List Char
  | [] => (significand, [])
  | c :: cs =>
    let next := significand * 10 + (Digits.value? c).getD 0
    if next < Nat.pow 2 64 then appendFitting next cs else (significand, c :: cs)

def powerOfTen (n : Nat) : Option Binary64 :=
  Binary64.ofNat (Nat.pow 10 n)

/-- A significand times `10 ^ power`. Powers below `10 ^ -308` are divided out in two steps, and
below `10 ^ -616` nothing is left of a significand of 64 bits. -/
def scaleByTen (x : Binary64) (power : Int) : Option Binary64 :=
  if x.isZero then some x
  else if 308 < power then none
  else if 0 ≤ power then (powerOfTen power.toNat).bind x.mul
  else if -308 ≤ power then (powerOfTen (-power).toNat).bind x.div
  else if -616 ≤ power then
    ((powerOfTen 308).bind x.div).bind fun y => (powerOfTen (-power - 308).toNat).bind y.div
  else some (Binary64.zero x.negative)

/-- The number a text stands for; `none` if it is too large. -/
def NumberText.value? (t : NumberText) : Option Json :=
  let (significand, dropped) := appendFitting 0 t.whole
  let float (significand : Nat) (power : Int) : Option Json :=
    ((Binary64.ofNat significand).bind (scaleByTen · power)).map fun x =>
      .float (x.withSign t.negative)
  match t.places, t.exponent with
  | none, none =>
    if !dropped.isEmpty then float significand dropped.length
    else if !t.negative then some (.int significand)
    else if significand = 0 || significand > Nat.pow 2 63 then float significand 0
    else some (.int (-(significand : Int)))
  | places, exponent =>
    let ds := places.getD []
    let (significand, unused) := appendFitting significand ds
    float significand (dropped.length - (ds.length - unused.length : Nat) + exponent.getD 0)

end Json
end CaseIntake
