import CrayAssembler.Text.Digits

namespace CrayAssembler

/-- Texts of the date and time micros. -/
structure Clock where
  /-- Month, day and year of the century. -/
  date : String
  /-- Hours, minutes and seconds. -/
  time : String
  /-- Year of the century and day of the year. -/
  julian : String
deriving DecidableEq, Repr, Inhabited

namespace Clock

structure CivilDate where
  year : Nat
  month : Nat
  day : Nat
deriving DecidableEq, Repr

def isLeapYear (year : Nat) : Bool :=
  (year % 4 = 0 && year % 100 ≠ 0) || year % 400 = 0

/-- Days of the year before the first of each month of a common year. -/
def daysBefore : List Nat :=
  [0, 31, 59, 90, 120, 151, 181, 212, 243, 273, 304, 334]

def dayOfYear (date : CivilDate) : Nat :=
  daysBefore.getD (date.month - 1) 0 + date.day +
    if 2 < date.month && isLeapYear date.year then 1 else 0

/-- Date of a day counted from the first of January 1970. Years are taken to begin in March, so
that a leap day is the last of its year, and are counted in cycles of 400. -/
def civilDate (day : Nat) : CivilDate :=
  let shifted := day + 719468
  let cycle := shifted / 146097
  let dayOfCycle := shifted % 146097
  let yearOfCycle :=
    (dayOfCycle - dayOfCycle / 1460 + dayOfCycle / 36524 - dayOfCycle / 146096) / 365
  let dayOfShiftedYear :=
    dayOfCycle - (365 * yearOfCycle + yearOfCycle / 4 - yearOfCycle / 100)
  let shiftedMonth := (5 * dayOfShiftedYear + 2) / 153
  let month := if shiftedMonth < 10 then shiftedMonth + 3 else shiftedMonth - 9
  { year := cycle * 400 + yearOfCycle + if month ≤ 2 then 1 else 0
    month
    day := dayOfShiftedYear - (153 * shiftedMonth + 2) / 5 + 1 }

def two (n : Nat) : String :=
  Text.padLeft '0' 2 (Text.decimal n)

def ofSeconds (seconds : Nat) : Clock :=
  let date := civilDate (seconds / 86400)
  let second := seconds % 86400
  let year := two (date.year % 100)
  { date := two date.month ++ "/" ++ two date.day ++ "/" ++ year
    time := two (second / 3600) ++ ":" ++ two (second / 60 % 60) ++ ":" ++ two (second % 60)
    julian := year ++ Text.padLeft '0' 3 (Text.decimal (dayOfYear date)) }

end Clock

end CrayAssembler
