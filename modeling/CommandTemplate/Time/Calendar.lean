/-!
# The calendar

Dates of the Gregorian calendar, extended to all years, and moments of local time. Day 1 is the
first of January of year 1, a Monday.
-/
namespace CommandTemplate

structure Date where
  year : Int
  month : Nat
  day : Nat
  deriving DecidableEq, Repr

namespace Date

def isLeapYear (year : Int) : Bool := year % 4 == 0 && (year % 100 != 0 || year % 400 == 0)

def monthLengths (year : Int) : List Nat :=
  [31, if isLeapYear year then 29 else 28, 31, 30, 31, 30, 31, 31, 30, 31, 30, 31]

/-- The number of the day in its year, from 1 on. -/
def dayOfYear (d : Date) : Nat :=
  ((monthLengths d.year).take (d.month - 1)).foldl (· + ·) 0 + d.day

def daysBeforeYear (year : Int) : Int :=
  let y := year - 1
  365 * y + y / 4 - y / 100 + y / 400

def dayNumber (d : Date) : Int := daysBeforeYear d.year + d.dayOfYear

/-- The number of 1 January 1970. -/
def epochDay : Int := 719163

example : dayNumber ⟨1970, 1, 1⟩ = epochDay := by decide

/-- The day of the week, from 0 for Sunday to 6 for Saturday. -/
def weekday (d : Date) : Nat := (d.dayNumber % 7).toNat

/-- The year in which a day lies. -/
def yearOf (n : Int) : Int :=
  let y := 400 * (n - 1) / 146097 + 1
  if n ≤ daysBeforeYear y then y - 1
  else if daysBeforeYear (y + 1) < n then y + 1
  else y

/-- The month and the day in it of the `n`-th day of a year whose months have these lengths. -/
def monthAndDay : List Nat → Nat → Nat × Nat
  | [], n => (1, n)
  | length :: lengths, n =>
    if n ≤ length then (1, n)
    else
      let (month, day) := monthAndDay lengths (n - length)
      (month + 1, day)

def ofDayNumber (n : Int) : Date :=
  let year := yearOf n
  let (month, day) := monthAndDay (monthLengths year) (n - daysBeforeYear year).toNat
  ⟨year, month, day⟩

example : ofDayNumber epochDay = ⟨1970, 1, 1⟩ := by decide
example : ofDayNumber (dayNumber ⟨2000, 12, 31⟩) = ⟨2000, 12, 31⟩ := by decide
example : ofDayNumber (dayNumber ⟨2024, 2, 29⟩) = ⟨2024, 2, 29⟩ := by decide

end Date

def weekdayNames : List String :=
  ["Sunday", "Monday", "Tuesday", "Wednesday", "Thursday", "Friday", "Saturday"]

def monthNames : List String :=
  ["January", "February", "March", "April", "May", "June", "July", "August", "September",
   "October", "November", "December"]

def weekdayName (n : Nat) : String := weekdayNames[n]?.getD ""

def monthName (n : Nat) : String := monthNames[n - 1]?.getD ""

/-- A local time and its distance from UTC in seconds. A leap second is second 59 with a
nanosecond count of a milliard or more. -/
structure Moment where
  date : Date
  hour : Nat
  minute : Nat
  second : Nat
  nanosecond : Nat
  offset : Int
  deriving DecidableEq, Repr

namespace Moment

/-- The second as it is shown, 60 in a leap second. -/
def shownSecond (m : Moment) : Nat := m.second + m.nanosecond / 1000000000

def millisecond (m : Moment) : Nat := m.nanosecond % 1000000000 / 1000000

/-- The hour from 1 to 12. -/
def hour12 (m : Moment) : Nat := if m.hour % 12 = 0 then 12 else m.hour % 12

/-- Seconds since the first moment of 1970 in UTC. -/
def timestamp (m : Moment) : Int :=
  (m.date.dayNumber - Date.epochDay) * 86400 + m.hour * 3600 + m.minute * 60 + m.second - m.offset

/-- The local time, at an offset, of a number of seconds since the first moment of 1970 in UTC. -/
def ofTimestamp (seconds : Int) (nanosecond : Nat) (offset : Int) : Moment :=
  let shifted := seconds + offset
  let inDay := (shifted % 86400).toNat
  ⟨.ofDayNumber (shifted / 86400 + Date.epochDay), inDay / 3600, inDay / 60 % 60, inDay % 60,
    nanosecond, offset⟩

/-- Whole minutes of the offset without its sign, half a minute rounded up. -/
def offsetMinutes (m : Moment) : Nat := (m.offset.natAbs + 30) / 60

end Moment
end CommandTemplate
