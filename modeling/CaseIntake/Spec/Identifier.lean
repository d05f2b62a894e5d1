import CaseIntake.Text.Quoted

/-!
# Identifiers

Random identifiers of 122 bits in their usual form: 32 hexadecimal digits in five groups, where one
digit gives the version and two bits the variant. The identifiers of one conversion are consecutive
numbers from a random start, so no two of them are equal.
-/

namespace CaseIntake
namespace Identifier

/-- How many identifiers there are. -/
def count : Nat :=
  Nat.pow 2 122

/-- The last `digits` hexadecimal digits of a number. -/
def hexDigits (digits n : Nat) : List Char :=
  let ds := Text.hex (n % Nat.pow 16 digits)
  List.replicate (digits - ds.length) '0' ++ ds

/-- The identifier with a number below `count`. -/
def ofNumber (n : Nat) : String :=
  String.ofList (
    hexDigits 8 (n / Nat.pow 2 90) ++ '-' ::
    hexDigits 4 (n / Nat.pow 2 74) ++ '-' :: '4' ::
    hexDigits 3 (n / Nat.pow 2 62) ++ '-' ::
    hexDigits 4 (Nat.pow 2 15 + n / Nat.pow 2 48 % Nat.pow 2 14) ++ '-' ::
    hexDigits 12 n)

/-- The identifier at a position, counted from a start. -/
def consecutive (start index : Nat) : String :=
  ofNumber ((start + index) % count)

end Identifier
end CaseIntake
