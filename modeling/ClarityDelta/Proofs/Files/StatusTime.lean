import ClarityDelta.Files.StatusTime
import Mathlib.Algebra.Group.Nat.Defs

/-!
# Times as they are told

The status of a file tells times in order: a time that is not later than another one is not told as a
later one, although two of them may be told as one. Rounding keeps the order of numbers that have the same
unit, because their quotients are rounded in order. Between two numbers with different units there is a
power of two, which is a multiple of both units, so that rounding passes it from neither side.
-/

namespace ClarityDelta

namespace Data.Decimal

variable {n m d q : Nat}

/-- A quotient that is at most a whole number is rounded to at most that number. -/
theorem roundQuotient_le (h : n ≤ q * d) : roundQuotient n d ≤ q := by
  have hdiv := Nat.div_add_mod' n d
  simp only [roundQuotient]
  split
  next hup =>
    -- Something is left when the quotient is rounded up, so its whole part is smaller than the number.
    have hrest : 0 < n % d := by grind
    have hlt : n / d * d < q * d := by omega
    exact Nat.lt_of_mul_lt_mul_right hlt
  next =>
    exact Nat.div_le_of_le_mul (by rwa [Nat.mul_comm])

/-- The whole part of a quotient is at most what it is rounded to. -/
theorem div_le_roundQuotient (n d : Nat) : n / d ≤ roundQuotient n d := by
  simp only [roundQuotient]
  split <;> omega

/-- Quotients with the same divisor are rounded in order. -/
theorem roundQuotient_mono (h : n ≤ m) : roundQuotient n d ≤ roundQuotient m d := by
  rcases Nat.lt_or_eq_of_le (Nat.div_le_div_right (c := d) h) with hlt | heq
  · have hn : roundQuotient n d ≤ n / d + 1 := by
      simp only [roundQuotient]
      split <;> omega
    exact Nat.le_trans hn (Nat.le_trans hlt (div_le_roundQuotient m d))
  · -- The whole parts are equal, so the rests are in order.
    have hrest : n % d ≤ m % d := by
      have hn := Nat.div_add_mod' n d
      have hm := Nat.div_add_mod' m d
      rw [heq] at hn
      omega
    simp only [roundQuotient, heq]
    grind

end Data.Decimal

namespace Files

open Data.Decimal

variable {n m : Nat}

/-- A number is rounded to at most the next power of two. -/
theorem roundedNat_le (n : Nat) : roundedNat n ≤ 2 ^ (n.log2 + 1) := by
  have hunit : 2 ^ (n.log2 + 1) = 2 ^ (n.log2 + 1 - (n.log2 - 52)) * 2 ^ (n.log2 - 52) := by
    rw [← Nat.pow_add, Nat.sub_add_cancel (by omega)]
  rw [hunit]
  exact Nat.mul_le_mul_right _ (roundQuotient_le (hunit ▸ Nat.le_of_lt Nat.lt_log2_self))

/-- A number that is not 0 is rounded to at least the power of two below it. -/
theorem le_roundedNat (hn : n ≠ 0) : 2 ^ n.log2 ≤ roundedNat n := by
  have hunit : 2 ^ n.log2 = 2 ^ (n.log2 - (n.log2 - 52)) * 2 ^ (n.log2 - 52) := by
    rw [← Nat.pow_add, Nat.sub_add_cancel (by omega)]
  have hquotient : 2 ^ (n.log2 - (n.log2 - 52)) ≤ n / 2 ^ (n.log2 - 52) := by
    rw [Nat.le_div_iff_mul_le (Nat.two_pow_pos _), ← hunit]
    exact Nat.log2_self_le hn
  rw [hunit]
  exact Nat.mul_le_mul_right _ (Nat.le_trans hquotient (div_le_roundQuotient _ _))

/-- Natural numbers are rounded in order. -/
theorem roundedNat_mono (h : n ≤ m) : roundedNat n ≤ roundedNat m := by
  by_cases hn : n = 0
  · subst hn
    exact Nat.zero_le _
  have hm : m ≠ 0 := by omega
  have hlog : n.log2 ≤ m.log2 :=
    (Nat.le_log2 hm).mpr (Nat.le_trans (Nat.log2_self_le hn) h)
  rcases Nat.lt_or_eq_of_le hlog with hlt | heq
  · calc
      roundedNat n ≤ 2 ^ (n.log2 + 1) := roundedNat_le n
      _ ≤ 2 ^ m.log2 := Nat.pow_le_pow_right (by decide) hlt
      _ ≤ roundedNat m := le_roundedNat hm
  · simp only [roundedNat, heq]
    exact Nat.mul_le_mul_right _ (roundQuotient_mono h)

/-- A number that is not negative is rounded as a natural number. -/
theorem rounded_natCast (n : Nat) : rounded n = roundedNat n := by
  cases n with
  | zero => rfl
  | succ n => exact Int.one_mul _

/-- A negative number is rounded as the positive one is. -/
theorem rounded_neg (a : Int) : rounded (-a) = -rounded a := by
  rw [rounded, rounded, Int.natAbs_neg, Int.sign_neg, Int.neg_mul]

/-- Numbers of either sign are rounded in order. -/
theorem rounded_mono {a b : Int} (h : a ≤ b) : rounded a ≤ rounded b := by
  rcases Int.le_total 0 a with ha | ha
  · obtain ⟨n, rfl⟩ := Int.eq_ofNat_of_zero_le ha
    obtain ⟨m, rfl⟩ := Int.eq_ofNat_of_zero_le (Int.le_trans ha h)
    rw [rounded_natCast, rounded_natCast]
    exact Int.ofNat_le.mpr (roundedNat_mono (Int.ofNat_le.mp h))
  obtain ⟨n, hn⟩ := Int.eq_ofNat_of_zero_le (Int.neg_nonneg_of_nonpos ha)
  obtain rfl : a = -n := by omega
  rw [rounded_neg, rounded_natCast]
  rcases Int.le_total 0 b with hb | hb
  · obtain ⟨m, rfl⟩ := Int.eq_ofNat_of_zero_le hb
    rw [rounded_natCast]
    omega
  · obtain ⟨m, hm⟩ := Int.eq_ofNat_of_zero_le (Int.neg_nonneg_of_nonpos hb)
    obtain rfl : b = -m := by omega
    rw [rounded_neg, rounded_natCast]
    have hle : roundedNat m ≤ roundedNat n := roundedNat_mono (by omega)
    omega

/-- The fraction of a second that a time has is told as a number from 0 to a second. -/
private theorem fraction_bounds (time : Int) :
    0 ≤ rounded (time % secondSize * floatNanosecond) ∧
      rounded (time % secondSize * floatNanosecond) ≤ (Nat.pow 2 82 : Nat) := by
  have hlower : (0 : Int) ≤ time % secondSize := Int.emod_nonneg _ (by decide)
  have hupper : time % secondSize ≤ 999999999 :=
    Int.le_of_lt_add_one (Int.emod_lt_of_pos time (by decide))
  constructor
  · exact rounded_mono (Int.mul_nonneg hlower (by decide))
  · calc
      rounded (time % secondSize * floatNanosecond)
        ≤ rounded (999999999 * floatNanosecond) :=
          rounded_mono (Int.mul_le_mul_of_nonneg_right hupper (by decide))
      _ ≤ (Nat.pow 2 82 : Nat) := by decide +kernel

/-- Times are told in order. -/
theorem statusTime_mono {made written : Int} (h : made ≤ written) :
    statusTime made ≤ statusTime written := by
  refine rounded_mono ?_
  obtain ⟨-, hmade⟩ := fraction_bounds made
  obtain ⟨hwritten, -⟩ := fraction_bounds written
  have hseconds : made / secondSize ≤ written / secondSize :=
    Int.ediv_le_ediv (by decide) h
  rcases Int.lt_or_eq_of_le hseconds with hlt | heq
  · -- A fraction is told as a second at most, and between the times a whole second begins.
    have hnext : (made / secondSize + 1) * (Nat.pow 2 82 : Nat) ≤
        written / secondSize * (Nat.pow 2 82 : Nat) :=
      Int.mul_le_mul_of_nonneg_right hlt (by decide)
    rw [Int.add_mul, Int.one_mul] at hnext
    omega
  · have hrest : made % secondSize ≤ written % secondSize := by
      have hm := Int.mul_ediv_add_emod made secondSize
      have hw := Int.mul_ediv_add_emod written secondSize
      rw [heq] at hm
      omega
    rw [heq]
    exact Int.add_le_add_left
      (rounded_mono (Int.mul_le_mul_of_nonneg_right hrest (by decide))) _

/-- Two times a hundred nanoseconds apart are told as one. -/
example : statusTime (1750000000 * 1000000000 + 100) = statusTime (1750000000 * 1000000000) := by
  decide +kernel

end Files

end ClarityDelta
