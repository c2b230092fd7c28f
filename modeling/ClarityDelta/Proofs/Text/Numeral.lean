import Mathlib.Algebra.Group.Nat.Defs
import Mathlib.Data.List.Induction
import ClarityDelta.Text.Numeral

/-!
# Numbers in decimal digits

A number is got back from its decimal digits, so different numbers have different digits. How many digits
it has is told by the powers of ten, and a numeral that is read denotes a number that can be printed:
`length_decimal_of_numeral`.
-/

namespace ClarityDelta.Text

/-- The digits below ten have their values. -/
theorem digit?_hexChar : ∀ n < 10, digit? (hexChar n) = some n := by
  decide +kernel

/-- Only zero has the digit zero. -/
theorem hexChar_ne_zero : ∀ n < 10, 0 < n → hexChar n ≠ '0' := by
  decide

/-- A decimal number is made of digits below ten. -/
theorem exists_hexChar_of_mem_decimal {n : Nat} {c : Char} (h : c ∈ decimal n) :
    ∃ digit < 10, c = hexChar digit := by
  fun_induction decimal n with
  | case1 n hn => exact ⟨n, hn, List.mem_singleton.mp h⟩
  | case2 n hn ih =>
    rcases List.mem_append.mp h with h | h
    · exact ih h
    · exact ⟨n % 10, Nat.mod_lt n (by decide), List.mem_singleton.mp h⟩

/-- A number is got back from its decimal digits. -/
theorem natOfDigits_decimal (n : Nat) : natOfDigits (decimal n) = n := by
  fun_induction decimal n with
  | case1 n hn =>
    simp [natOfDigits, ofDigits, digit?_hexChar n hn]
  | case2 n hn ih =>
    have hlast := digit?_hexChar (n % 10) (Nat.mod_lt n (by decide))
    rw [natOfDigits, ofDigits] at ih ⊢
    rw [List.filterMap_append, List.foldl_append, ih]
    simp only [List.filterMap_cons, hlast, List.filterMap_nil, List.foldl_cons, List.foldl_nil]
    omega

/-- Different numbers have different digits. -/
theorem decimal_inj {m n : Nat} (h : decimal m = decimal n) : m = n := by
  rw [← natOfDigits_decimal m, h, natOfDigits_decimal]

/-- Every number has a digit. -/
theorem decimal_ne_nil (n : Nat) : decimal n ≠ [] := by
  rw [decimal]
  split <;> simp

/-- A number above zero does not begin with a zero. -/
theorem exists_decimal_eq_cons {n : Nat} (hn : 0 < n) :
    ∃ c cs, decimal n = c :: cs ∧ c ≠ '0' := by
  fun_induction decimal n with
  | case1 n hlt => exact ⟨_, [], rfl, hexChar_ne_zero n hlt hn⟩
  | case2 n hge ih =>
    obtain ⟨c, cs, hcons, hc⟩ := ih (by omega)
    exact ⟨c, cs ++ [hexChar (n % 10)], by rw [hcons, List.cons_append], hc⟩

/-! ## The number of digits -/

/-- A number has at most `d` digits exactly if it is below the power of ten that has one more. -/
theorem length_decimal_le_iff {n d : Nat} (hd : 0 < d) : (decimal n).length ≤ d ↔ n < 10 ^ d := by
  fun_induction decimal n generalizing d with
  | case1 n hlt =>
    have hpow : 10 ^ 1 ≤ 10 ^ d := Nat.pow_le_pow_right (by decide) hd
    rw [List.length_singleton]
    omega
  | case2 n hge ih =>
    obtain ⟨d, rfl⟩ : ∃ front, d = front + 1 := ⟨d - 1, by omega⟩
    rw [List.length_append, List.length_singleton, Nat.add_le_add_iff_right]
    rcases Nat.eq_zero_or_pos d with rfl | hpos
    · have hnonempty := List.length_pos_iff.mpr (decimal_ne_nil (n / 10))
      omega
    · rw [ih hpos, Nat.pow_succ, Nat.div_lt_iff_lt_mul (by decide)]

/-- A power of ten has one digit more than its exponent. -/
theorem length_decimal_pow (d : Nat) : (decimal (10 ^ d)).length = d + 1 := by
  have hle : (decimal (10 ^ d)).length ≤ d + 1 :=
    (length_decimal_le_iff (by omega)).mpr (Nat.pow_lt_pow_right (by decide) (by omega))
  have hgt : ¬ (decimal (10 ^ d)).length ≤ d := by
    intro hno
    rcases Nat.eq_zero_or_pos d with rfl | hpos
    · exact absurd hno (Nat.not_le.mpr (List.length_pos_iff.mpr (decimal_ne_nil _)))
    · exact Nat.lt_irrefl _ ((length_decimal_le_iff hpos).mp hno)
  omega

/-- A decimal digit is below ten. -/
theorem digit_lt {c : Char} {digit : Nat} (h : digit? c = some digit) : digit < 10 := by
  obtain ⟨first, hfirst, rfl⟩ := Option.map_eq_some_iff.mp h
  have hrange := List.find?_some hfirst
  rw [Bool.and_eq_true, decide_eq_true_eq, decide_eq_true_eq] at hrange
  omega

/-- What digits denote has no more digits. -/
theorem natOfDigits_lt (cs : List Char) : natOfDigits cs < 10 ^ cs.length := by
  have hdigits : ∀ digits : List Nat, (∀ digit ∈ digits, digit < 10) →
      ofDigits 10 digits < 10 ^ digits.length := by
    intro digits
    induction digits using List.reverseRecOn with
    | nil => exact fun _ => by decide
    | append_singleton front last ih =>
      intro hall
      have hfront := ih fun digit hdigit => hall digit (List.mem_append_left _ hdigit)
      have hlast := hall last (List.mem_append_right _ (List.mem_singleton.mpr rfl))
      rw [ofDigits] at hfront ⊢
      rw [List.foldl_append, List.foldl_cons, List.foldl_nil, List.length_append,
        List.length_singleton, Nat.pow_succ]
      omega
  refine Nat.lt_of_lt_of_le (hdigits _ fun digit hdigit => ?_)
    (Nat.pow_le_pow_right (by decide) (List.length_filterMap_le _ cs))
  obtain ⟨c, -, hc⟩ := List.mem_filterMap.mp hdigit
  exact digit_lt hc

/-! ## Printing -/

/-- The check passes just the integers with few enough digits, the sign apart. -/
theorem checkDigits_eq_ok_iff {n : Int} :
    checkDigits n = .ok () ↔ (decimal n.natAbs).length ≤ maxDigits := by
  rw [checkDigits]
  split
  · next h => exact ⟨fun _ => h, fun _ => rfl⟩
  · next h => exact ⟨fun heq => (by cases heq), fun hle => absurd hle h⟩

/-- A number is printed exactly if it has few enough digits. -/
theorem printed_eq_ok_iff {n : Nat} {s : String} :
    printed n = .ok s ↔ (decimal n).length ≤ maxDigits ∧ s = toString n := by
  have hdigits : checkDigits n = .ok () ↔ (decimal n).length ≤ maxDigits := checkDigits_eq_ok_iff
  rw [printed, ← hdigits]
  cases checkDigits n with
  | error long => exact ⟨fun h => (by cases h), fun h => (by cases h.1)⟩
  | ok => exact ⟨fun h => ⟨rfl, (Except.ok.inj h).symm⟩, fun h => congrArg Except.ok h.2.symm⟩

/-- A number that was read can be printed. -/
theorem length_decimal_of_numeral {cs : List Char} {n : Nat} (h : numeral cs = .ok n) :
    (decimal n).length ≤ maxDigits := by
  rw [numeral] at h
  split at h
  · next hle =>
    obtain rfl := Except.ok.inj h
    rw [length_decimal_le_iff (by decide)]
    exact Nat.lt_of_lt_of_le (natOfDigits_lt cs) (Nat.pow_le_pow_right (by decide) hle)
  · cases h

end ClarityDelta.Text
