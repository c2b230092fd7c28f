/-!
# Decimal fractions

A number written with a point or an exponent stands for the binary number nearest to it that has
53 significant bits (a tie goes to the even one), as far as the exponents of such numbers reach.
`Decimal.nearest?` finds it in exact arithmetic and `Decimal.whole?` tells whether it is a whole
number.
-/

namespace ClarityDelta.Data

/-- The number `mantissa * 10 ^ exponent`. -/
structure Decimal where
  mantissa : Int
  exponent : Int
  deriving DecidableEq, Repr

namespace Decimal

/-- A quotient rounded to the nearest natural number, a tie to the even one. -/
def roundQuotient (n d : Nat) : Nat :=
  let q := n / d
  let twice := 2 * (n % d)
  if twice > d || (twice == d && q % 2 == 1) then q + 1 else q

/-- The least binary exponent of a number with 53 significant bits. -/
def leastExponent : Int := -1074

/-- The greatest binary exponent of a number with 53 significant bits. -/
def greatestExponent : Int := 971

/-- The quotient `n / d` as `(m, e)`, meaning `m * 2 ^ e` with `m ≤ 2 ^ 53`: the nearest such number
whose exponent is at least `leastExponent`. -/
def nearestQuotient (n d : Nat) : Nat × Int :=
  let guess : Int := (Nat.log2 n : Int) - (Nat.log2 d : Int) - 52
  let scaled (e : Int) : Nat × Nat := (n * Nat.pow 2 (-e).toNat, d * Nat.pow 2 e.toNat)
  let e := if (scaled guess).1 < (scaled guess).2 * Nat.pow 2 52 then guess - 1 else guess
  let e := max e leastExponent
  (roundQuotient (scaled e).1 (scaled e).2, e)

/-- The binary number nearest to a decimal one as `(m, e)`, meaning `m * 2 ^ e`; none beyond the
greatest of them. -/
def nearest? (x : Decimal) : Option (Int × Int) :=
  let size : Int := Nat.log2 x.mantissa.natAbs
  if x.mantissa = 0 then some (0, 0)
  else if x.exponent > 400 then none
  else if x.exponent + size < -400 then some (0, 0)
  else
    let (m, e) := nearestQuotient (x.mantissa.natAbs * Nat.pow 10 x.exponent.toNat)
      (Nat.pow 10 (-x.exponent).toNat)
    if e > greatestExponent || (e == greatestExponent && m == Nat.pow 2 53) then none
    else some (if x.mantissa < 0 then -(m : Int) else m, e)

/-- The whole number that a decimal one stands for: `none` when it is too great to stand for any
number, `some none` when it stands for one with a fraction. -/
def whole? (x : Decimal) : Option (Option Int) :=
  (nearest? x).map fun (m, e) =>
    if 0 ≤ e then some (m * Nat.pow 2 e.toNat)
    else if m % Nat.pow 2 (-e).toNat = 0 then some (m / Nat.pow 2 (-e).toNat)
    else none

end Decimal

end ClarityDelta.Data
