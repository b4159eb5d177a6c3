/-
Dates.

A point in time is a number of nanoseconds since the year 1970 began, in
universal time. Years are counted from the first of March, so that
the day that leap years add is the last one; four hundred years always
have the same number of days.
-/
namespace TimedOverlay.Calendar

/-- The days from the March in which the year 0 began to 1970. -/
def daysBefore1970 : Nat := 719468

/-- The days of four hundred years. -/
def daysOfEra : Nat := 146097

/-- A day as year, month and day of the month. -/
structure Date where
  year : Nat
  month : Nat
  day : Nat
deriving DecidableEq

/-- The date of a day, counted from the first one of 1970. -/
def Date.ofDay (n : Nat) : Date :=
  let d := n + daysBefore1970
  let inEra := d % daysOfEra
  let year := (inEra - inEra / 1460 + inEra / 36524 - inEra / 146096) / 365
  let inYear := inEra - (365 * year + year / 4 - year / 100)
  let march := (5 * inYear + 2) / 153
  let day := inYear - (153 * march + 2) / 5 + 1
  let month := if march < 10 then march + 3 else march - 9
  ⟨year + d / daysOfEra * 400 + (if month ≤ 2 then 1 else 0), month, day⟩

/-- A number with at least `width` digits. -/
def padded (width n : Nat) : String :=
  let digits := Nat.toDigits 10 n
  String.ofList (List.replicate (width - digits.length) '0' ++ digits)

/-- What stands behind the seconds: nothing, or as many places as are
needed, three at a time. -/
def fractionText (nanoseconds : Nat) : String :=
  if nanoseconds = 0 then ""
  else if nanoseconds % 10 ^ 6 = 0 then "." ++ padded 3 (nanoseconds / 10 ^ 6)
  else if nanoseconds % 10 ^ 3 = 0 then "." ++ padded 6 (nanoseconds / 10 ^ 3)
  else "." ++ padded 9 nanoseconds

/-- A point in time as text. -/
def text (nanoseconds : Nat) : String :=
  let seconds := nanoseconds / 10 ^ 9
  let date := Date.ofDay (seconds / 86400)
  let sign := if 9999 < date.year then "+" else ""
  let fraction := fractionText (nanoseconds % 10 ^ 9)
  sign ++ padded 4 date.year ++ "-" ++ padded 2 date.month ++ "-"
    ++ padded 2 date.day ++ "T" ++ padded 2 (seconds / 3600 % 24) ++ ":"
    ++ padded 2 (seconds / 60 % 60) ++ ":" ++ padded 2 (seconds % 60)
    ++ fraction ++ "Z"

end TimedOverlay.Calendar
