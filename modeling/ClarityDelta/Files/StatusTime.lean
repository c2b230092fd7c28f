import ClarityDelta.Data.Decimal

/-!
# Times of modification

A time is a number of nanoseconds. The status of a file tells it in seconds, as a floating-point number
with 53 significant binary digits, so two times some hundred nanoseconds apart may be told as one. Such
numbers are whole here, in units of `2 ^ -82` seconds.
-/

namespace ClarityDelta.Files

/-- The nanoseconds of a second. -/
def secondSize : Nat := 1000000000

/-- The floating-point number that is nearest to a nanosecond. -/
def floatNanosecond : Nat := 0x112E0BE826D695

/-- The floating-point number that is nearest to the given one, of two such numbers the even one. -/
def roundedNat (n : Nat) : Nat :=
  let unit := Nat.pow 2 (n.log2 - 52)
  Data.Decimal.roundQuotient n unit * unit

/-- The floating-point number that is nearest to the given one, of either sign. -/
def rounded (n : Int) : Int :=
  n.sign * roundedNat n.natAbs

/-- A time as the status of a file tells it: the whole seconds and the fraction, which is rounded by
itself, make a sum that is rounded once more. -/
def statusTime (time : Int) : Int :=
  let seconds := time / secondSize * Nat.pow 2 82
  let fraction := rounded (time % secondSize * floatNanosecond)
  rounded (seconds + fraction)

end ClarityDelta.Files
