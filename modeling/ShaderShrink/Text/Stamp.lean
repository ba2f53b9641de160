import ShaderShrink.Text.Decimal

/-!
# Time stamps

A point of time in one word, such as `20260101T000000Z`: year, month and day in the Gregorian
calendar, then hour, minute and second, all in Coordinated Universal Time.
-/

namespace ShaderShrink.Text

/-- A day of the Gregorian calendar. -/
structure CalendarDay where
  year : Nat
  month : Nat
  day : Nat
  deriving DecidableEq, Repr

/-- The number of days in a cycle of 400 years, after which the calendar repeats. -/
def daysPerCycle : Nat := 146097

/-- The number of days from 1 March of year 0 to 1 January 1970. -/
def epochOffset : Nat := 719468

/-- The day that comes `days` days after 1 January 1970. Years are counted from March here, so that
the leap day is the last day of its year. -/
def CalendarDay.ofDays (days : Nat) : CalendarDay :=
  let shifted := days + epochOffset
  let dayOfCycle := shifted % daysPerCycle
  let yearOfCycle :=
    (dayOfCycle - dayOfCycle / 1460 + dayOfCycle / 36524 - dayOfCycle / 146096) / 365
  let dayOfYear := dayOfCycle - (365 * yearOfCycle + yearOfCycle / 4 - yearOfCycle / 100)
  let monthFromMarch := (5 * dayOfYear + 2) / 153
  let month := if monthFromMarch < 10 then monthFromMarch + 3 else monthFromMarch - 9
  let year := yearOfCycle + 400 * (shifted / daysPerCycle)
  { year := if month ≤ 2 then year + 1 else year
    month
    day := dayOfYear - (153 * monthFromMarch + 2) / 5 + 1 }

/-- The stamp of the point of time that comes `seconds` seconds after the start of 1970. -/
def stamp (seconds : Nat) : String :=
  let date := CalendarDay.ofDays (seconds / 86400)
  padded 4 date.year ++ padded 2 date.month ++ padded 2 date.day ++ "T"
    ++ padded 2 (seconds / 3600 % 24) ++ padded 2 (seconds / 60 % 60) ++ padded 2 (seconds % 60)
    ++ "Z"

end ShaderShrink.Text
