/-!
# Words

Whole numbers that fit in words of a given size.
-/

namespace CaseIntake
namespace Word

/-- Whether a number fits in a word of `bits` bits; a negative one needs a bit for its sign. -/
def fits (bits : Nat) (n : Int) : Bool :=
  if 0 ≤ n then n.natAbs < Nat.pow 2 bits else n.natAbs ≤ Nat.pow 2 (bits - 1)

/-- The word of 64 bits with a sign for a number from `-2 ^ 63` to `2 ^ 63 - 1`. -/
def int64? (n : Int) : Option Int64 :=
  if -9223372036854775808 ≤ n && n ≤ 9223372036854775807 then some (Int64.ofInt n) else none

end Word
end CaseIntake
