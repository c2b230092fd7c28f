/-!
# Numerals

Decimal digits of every script, their values, and the reading and printing of numbers. A number with
more than `maxDigits` digits is refused rather than read, and not printed either.
-/

namespace ClarityDelta.Text

/-- The zero of every script that has ten decimal digits; its other nine digits follow it in the
code. -/
def digitZeros : List Nat :=
  [0x30, 0x660, 0x6f0, 0x7c0, 0x966, 0x9e6, 0xa66, 0xae6, 0xb66, 0xbe6, 0xc66, 0xce6, 0xd66, 0xde6,
   0xe50, 0xed0, 0xf20, 0x1040, 0x1090, 0x17e0, 0x1810, 0x1946, 0x19d0, 0x1a80, 0x1a90, 0x1b50,
   0x1bb0, 0x1c40, 0x1c50, 0xa620, 0xa8d0, 0xa900, 0xa9d0, 0xa9f0, 0xaa50, 0xabf0, 0xff10, 0x104a0,
   0x10d30, 0x11066, 0x110f0, 0x11136, 0x111d0, 0x112f0, 0x11450, 0x114d0, 0x11650, 0x116c0,
   0x11730, 0x118e0, 0x11950, 0x11c50, 0x11d50, 0x11da0, 0x16a60, 0x16ac0, 0x16b50, 0x1d7ce,
   0x1d7d8, 0x1d7e2, 0x1d7ec, 0x1d7f6, 0x1e140, 0x1e2f0, 0x1e950, 0x1fbf0]

/-- The value of a decimal digit of any script. -/
def digit? (c : Char) : Option Nat :=
  let n := c.toNat
  (digitZeros.find? fun first => first ≤ n && n < first + 10).map (n - ·)

/-- A decimal digit of any script. -/
def isDigit (c : Char) : Bool :=
  (digit? c).isSome

/-- The number that a list of digits denotes, the most significant first. -/
def ofDigits (base : Nat) (digits : List Nat) : Nat :=
  digits.foldl (fun value digit => value * base + digit) 0

/-- The number written by a run of decimal digits. -/
def natOfDigits (cs : List Char) : Nat :=
  ofDigits 10 (cs.filterMap digit?)

/-- The most digits that a number may have as text. -/
def maxDigits : Nat := 4300

/-- A number with more digits than are read or printed. -/
structure LongNumeral where
  digits : Nat
  deriving DecidableEq, Repr

namespace LongNumeral

/-- What is told of a numeral that is too long to be read. -/
def message (long : LongNumeral) : String :=
  s!"Exceeds the limit ({maxDigits} digits) for integer string conversion: value has "
    ++ s!"{long.digits} digits; use sys.set_int_max_str_digits() to increase the limit"

/-- What is told of a number that is too long to be printed, whatever its length. -/
def printMessage (_ : LongNumeral) : String :=
  s!"Exceeds the limit ({maxDigits} digits) for integer string conversion; "
    ++ "use sys.set_int_max_str_digits() to increase the limit"

end LongNumeral

/-- The number written by a run of decimal digits, unless the run is too long. -/
def numeral (cs : List Char) : Except LongNumeral Nat :=
  if cs.length ≤ maxDigits then .ok (natOfDigits cs) else .error ⟨cs.length⟩

/-- The value of a hexadecimal digit. -/
def hexDigit? (c : Char) : Option Nat :=
  if '0' ≤ c ∧ c ≤ '9' then some (c.toNat - '0'.toNat)
  else if 'a' ≤ c ∧ c ≤ 'f' then some (c.toNat - 'a'.toNat + 10)
  else if 'A' ≤ c ∧ c ≤ 'F' then some (c.toNat - 'A'.toNat + 10)
  else none

/-- A digit below sixteen, in lower case. -/
def hexChar (n : Nat) : Char :=
  if n < 10 then Char.ofNat ('0'.toNat + n) else Char.ofNat ('a'.toNat + (n - 10))

/-- A number in base `base`, most significant digit first, with at least `width` digits. -/
def padDigits (width : Nat) (digits : List Char) : List Char :=
  List.replicate (width - digits.length) '0' ++ digits

/-- A number below `16 ^ width` in hexadecimal, with exactly `width` digits. -/
def hex : Nat → Nat → List Char
  | 0, _ => []
  | width + 1, n => hex width (n / 16) ++ [hexChar (n % 16)]

/-- A number in decimal, most significant digit first, without leading zeros. -/
def decimal (n : Nat) : List Char :=
  if n < 10 then [hexChar n] else decimal (n / 10) ++ [hexChar (n % 10)]
termination_by n

/-- An integer in decimal, a minus sign in front of a negative one. -/
def signedDecimal : Int → List Char
  | .ofNat n => decimal n
  | .negSucc n => '-' :: decimal (n + 1)

/-- Fails for an integer that has too many digits to be printed, the sign apart. -/
def checkDigits (n : Int) : Except LongNumeral Unit :=
  let digits := (decimal n.natAbs).length
  if digits ≤ maxDigits then .ok () else .error ⟨digits⟩

/-- A number as it is printed. -/
def printed (n : Nat) : Except LongNumeral String := do
  checkDigits n
  return toString n

end ClarityDelta.Text
