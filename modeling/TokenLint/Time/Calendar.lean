import TokenLint.Text

/-!
# Points in time

A point in time is a number of nanoseconds since the beginning of 1970, in universal time.
Days are turned into dates by the rule of the Gregorian calendar, in which 400 years have
146097 days; the count starts on the first of March, so that a leap day ends its year.
-/

namespace TokenLint.Time

/-- A date. -/
structure Date where
  year : Int
  month : Nat
  day : Nat
  deriving DecidableEq, Inhabited

/-- The date of a day, counted from the first of January 1970. -/
def dateOfDay (day : Int) : Date :=
  let z := day + 719468
  let era := Int.fdiv z 146097
  let dayOfEra := (z - era * 146097).toNat
  let yearOfEra := (dayOfEra - dayOfEra / 1460 + dayOfEra / 36524 - dayOfEra / 146096) / 365
  let dayOfYear := dayOfEra - (365 * yearOfEra + yearOfEra / 4 - yearOfEra / 100)
  let monthFromMarch := (5 * dayOfYear + 2) / 153
  let month := if monthFromMarch < 10 then monthFromMarch + 3 else monthFromMarch - 9
  { year := yearOfEra + era * 400 + (if month ≤ 2 then 1 else 0)
    month := month
    day := dayOfYear - (153 * monthFromMarch + 2) / 5 + 1 }

/-- The digits of a number with leading zeros up to a width. -/
def digits (width n : Nat) : Text :=
  let t := Text.ofNat n
  List.replicate (width - t.length) 48 ++ t

/-- Nanoseconds in a second. -/
def second : Int := 1000000000

/-- The nanoseconds since the last full second. -/
def fraction (time : Int) : Nat := (Int.fmod time second).toNat

/-- The seconds since the beginning of the day. -/
def secondOfDay (time : Int) : Nat := (Int.fmod (Int.fdiv time second) 86400).toNat

/-- The time of day to the second. -/
def clock (time : Int) : Text :=
  let s := secondOfDay time
  digits 2 (s / 3600) ++ ":" ++ digits 2 (s / 60 % 60) ++ ":" ++ digits 2 (s % 60)

/-- The time of day to the millisecond; what is finer is cut off. -/
def clockMillis (time : Int) : Text := clock time ++ "." ++ digits 3 (fraction time / 1000000)

/-- A decimal fraction of `width` digits behind its point, without zeros at its end; nothing if
it is zero. -/
def fractionDigits (width n : Nat) : Text :=
  match Text.trimEnd (· = 48) (digits width n) with
  | [] => []
  | ds => 46 :: ds

/-- A year with at least four digits. -/
def yearDigits (year : Int) : Text :=
  if year < 0 then 45 :: digits 4 year.natAbs else digits 4 year.natAbs

/-- The full written form, as fine as needed. -/
def stamp (time : Int) : Text :=
  let date := dateOfDay (Int.fdiv (Int.fdiv time second) 86400)
  yearDigits date.year ++ "-" ++ digits 2 date.month ++ "-" ++ digits 2 date.day ++ "T" ++ clock time
    ++ fractionDigits 9 (fraction time) ++ "Z"

end TokenLint.Time
