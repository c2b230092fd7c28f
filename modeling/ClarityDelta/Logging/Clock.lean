import ClarityDelta.Text.Numeral

/-!
# Dates and times

The date and time of day, without any offset, of a number of seconds since the beginning of 1970,
and its text in a format of percent directives.
-/

namespace ClarityDelta.Logging

open Text

/-- A date and time of day. Months and days count from 1, weekdays from Sunday, days of the year
from 0. -/
structure Moment where
  seconds : Int
  year : Int
  month : Nat
  day : Nat
  weekday : Nat
  yearDay : Nat
  hour : Nat
  minute : Nat
  second : Nat
  deriving DecidableEq, Repr

namespace Moment

/-- Whether a year has a leap day. -/
def isLeap (year : Int) : Bool :=
  year % 4 = 0 && (year % 100 ≠ 0 || year % 400 = 0)

/-- The moment that many seconds after the beginning of 1970. Years are taken to begin with March
while the date is found, so that the leap day comes last. -/
def ofSeconds (seconds : Int) : Moment :=
  let days := seconds.fdiv 86400
  let time := (seconds.fmod 86400).toNat
  let shifted := days + 719468
  let era := shifted.fdiv 146097
  let dayOfEra := (shifted - era * 146097).toNat
  let yearOfEra := (dayOfEra - dayOfEra / 1460 + dayOfEra / 36524 - dayOfEra / 146096) / 365
  let dayOfYear := dayOfEra - (365 * yearOfEra + yearOfEra / 4 - yearOfEra / 100)
  let monthFromMarch := (5 * dayOfYear + 2) / 153
  let day := dayOfYear - (153 * monthFromMarch + 2) / 5 + 1
  let month := if monthFromMarch < 10 then monthFromMarch + 3 else monthFromMarch - 9
  let year := (yearOfEra : Int) + era * 400 + (if month ≤ 2 then 1 else 0)
  let yearDay :=
    if month ≤ 2 then dayOfYear - 306 else dayOfYear + 59 + (if isLeap year then 1 else 0)
  { seconds, year, month, day, weekday := ((days + 4).fmod 7).toNat, yearDay,
    hour := time / 3600, minute := time / 60 % 60, second := time % 60 }

/-- The names of the weekdays. -/
def weekdays : List String :=
  ["Sunday", "Monday", "Tuesday", "Wednesday", "Thursday", "Friday", "Saturday"]

/-- The names of the months. -/
def months : List String :=
  ["January", "February", "March", "April", "May", "June", "July", "August", "September",
    "October", "November", "December"]

/-- The hour on a twelve hour clock. -/
def halfDayHour (t : Moment) : Nat :=
  if t.hour % 12 = 0 then 12 else t.hour % 12

/-- Whether the moment lies before noon, in capitals. -/
def halfDay (t : Moment) : String :=
  if t.hour < 12 then "AM" else "PM"

/-- The week of the year, weeks beginning with the given weekday. -/
def week (t : Moment) (first : Nat) : Nat :=
  (t.yearDay + 7 - (t.weekday + 7 - first) % 7) / 7

/-- The year and the week that has its Thursday in it. -/
def thursdayWeek (t : Moment) : Int × Nat :=
  let fromMonday := (t.weekday + 6) % 7
  let thursday : Int := (t.yearDay : Int) - fromMonday + 3
  let length (year : Int) : Int := if isLeap year then 366 else 365
  if thursday < 0 then (t.year - 1, ((thursday + length (t.year - 1)) / 7 + 1).toNat)
  else if thursday < length t.year then (t.year, (thursday / 7 + 1).toNat)
  else (t.year + 1, ((thursday - length t.year) / 7 + 1).toNat)

/-- How a directive pads a number. -/
inductive Padding where
  | usual
  | none
  | blanks
  | zeros
  deriving DecidableEq, Repr

/-- A number with at least the given number of digits. -/
def padded (padding : Padding) (fill : Char) (width : Nat) (n : Int) : List Char :=
  let digits := decimal n.natAbs
  let sign := if n < 0 then ['-'] else []
  match padding with
  | .none => sign ++ digits
  | .blanks => List.replicate (width - (sign.length + digits.length)) ' ' ++ sign ++ digits
  | .zeros => sign ++ List.replicate (width - (sign.length + digits.length)) '0' ++ digits
  | .usual =>
    let gap := List.replicate (width - (sign.length + digits.length)) fill
    if fill = '0' then sign ++ gap ++ digits else gap ++ sign ++ digits

/-- The text of a directive that is no group of others. -/
def single? (t : Moment) (padding : Padding) (directive : Char) : Option (List Char) :=
  let zeros (width : Nat) (n : Int) := some (padded padding '0' width n)
  let blanks (width : Nat) (n : Int) := some (padded padding ' ' width n)
  let name (names : List String) (index : Nat) := some ((names[index]?.getD "").toList)
  match directive with
  | 'A' => name weekdays t.weekday
  | 'a' => (name weekdays t.weekday).map (·.take 3)
  | 'B' => name months (t.month - 1)
  | 'b' => (name months (t.month - 1)).map (·.take 3)
  | 'h' => (name months (t.month - 1)).map (·.take 3)
  | 'C' => zeros 2 (t.year.fdiv 100)
  | 'd' => zeros 2 t.day
  | 'e' => blanks 2 t.day
  | 'G' => zeros 1 t.thursdayWeek.1
  | 'g' => zeros 2 (t.thursdayWeek.1.fmod 100)
  | 'H' => zeros 2 t.hour
  | 'I' => zeros 2 t.halfDayHour
  | 'j' => zeros 3 (t.yearDay + 1)
  | 'k' => blanks 2 t.hour
  | 'l' => blanks 2 t.halfDayHour
  | 'M' => zeros 2 t.minute
  | 'm' => zeros 2 t.month
  | 'n' => some ['\n']
  | 'P' => some (t.halfDay.toList.map Char.toLower)
  | 'p' => some t.halfDay.toList
  | 'S' => zeros 2 t.second
  | 's' => zeros 1 t.seconds
  | 't' => some ['\t']
  | 'U' => zeros 2 (t.week 0)
  | 'u' => zeros 1 ((t.weekday + 6) % 7 + 1 : Nat)
  | 'V' => zeros 2 t.thursdayWeek.2
  | 'W' => zeros 2 (t.week 1)
  | 'w' => zeros 1 t.weekday
  | 'Y' => zeros 1 t.year
  | 'y' => zeros 2 (t.year.fmod 100)
  | 'Z' => some "UTC".toList
  | 'z' => some "+0000".toList
  | '%' => some ['%']
  | _ => none

/-- The directives that a group stands for. -/
def group? : Char → Option String
  | 'c' => some "a b e H:M:S Y"
  | 'D' => some "m/d/y"
  | 'F' => some "Y-m-d"
  | 'R' => some "H:M"
  | 'r' => some "I:M:S p"
  | 'T' => some "H:M:S"
  | 'X' => some "H:M:S"
  | 'x' => some "m/d/y"
  | _ => none

/-- The text of a directive, none when there is no such directive. -/
def directive? (t : Moment) (padding : Padding) (directive : Char) : Option (List Char) :=
  match group? directive with
  | some letters =>
    some (letters.toList.flatMap fun c => if c.isAlpha then (t.single? .usual c).getD [] else [c])
  | none => t.single? padding directive

/-- The padding that a flag asks for. -/
def flag? : Char → Option Padding
  | '-' => some .none
  | '_' => some .blanks
  | '0' => some .zeros
  | _ => none

/-- The text of a moment in a format. What is no directive stays as it is. -/
def format (t : Moment) : List Char → List Char
  | '%' :: flag :: c :: rest =>
    match flag? flag with
    | some padding =>
      match t.directive? padding c with
      | some text => text ++ format t rest
      | none => '%' :: flag :: format t (c :: rest)
    | none =>
      if (flag = 'E' || flag = 'O') && (t.directive? .usual c).isSome then
        (t.directive? .usual c).getD [] ++ format t rest
      else
        match t.directive? .usual flag with
        | some text => text ++ format t (c :: rest)
        | none => '%' :: flag :: format t (c :: rest)
  | ['%', c] => (t.directive? .usual c).getD ['%', c]
  | c :: rest => c :: format t rest
  | [] => []

end Moment

end ClarityDelta.Logging
