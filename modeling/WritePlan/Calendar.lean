namespace WritePlan.Calendar

def isLeap (year : Int) : Bool := year % 4 == 0 && (year % 100 != 0 || year % 400 == 0)

def daysBeforeYear (year : Int) : Int :=
  365 * (year - 1) + (year - 1) / 4 - (year - 1) / 100 + (year - 1) / 400

def monthLength (leap : Bool) : Nat → Nat
  | 2 => if leap then 29 else 28
  | 4 => 30
  | 6 => 30
  | 9 => 30
  | 11 => 30
  | _ => 31

/-- The days of a year before the first of a month; months count from one. -/
def daysBeforeMonth (leap : Bool) : Nat → Nat
  | 0 => 0
  | 1 => 0
  | earlier + 2 => daysBeforeMonth leap (earlier + 1) + monthLength leap (earlier + 1)

structure Date where
  year : Int
  month : Nat
  day : Nat
deriving DecidableEq

def Date.isValid (date : Date) : Bool :=
  1 ≤ date.month && date.month ≤ 12 && 1 ≤ date.day &&
    date.day ≤ monthLength (isLeap date.year) date.month

/-- Day 0 is the first of January of the year 1. -/
def Date.dayNumber (date : Date) : Int :=
  daysBeforeYear date.year + daysBeforeMonth (isLeap date.year) date.month + (date.day - 1)

/-- The year that holds a day. Periods of 400, 100, 4 and 1 years are taken off in turn;
the last day of the longest year of a period would open a fifth one, so the counts of
centuries and of single years stop at three. -/
def yearOf (dayNumber : Int) : Int :=
  let inCycle := dayNumber % 146097
  let centuries := min (inCycle / 36524) 3
  let inCentury := inCycle - 36524 * centuries
  let inQuadrennium := inCentury % 1461
  let years := min (inQuadrennium / 365) 3
  400 * (dayNumber / 146097) + 100 * centuries + 4 * (inCentury / 1461) + years + 1

/-- The last month that begins no later than the given day of the year, counted from 0. -/
def monthOf (leap : Bool) (dayOfYear : Nat) : Nat :=
  ((List.range 12).map (· + 1)).countP fun month => daysBeforeMonth leap month ≤ dayOfYear

def Date.ofDayNumber (dayNumber : Int) : Date :=
  let year := yearOf dayNumber
  let dayOfYear := (dayNumber - daysBeforeYear year).toNat
  let month := monthOf (isLeap year) dayOfYear
  ⟨year, month, dayOfYear - daysBeforeMonth (isLeap year) month + 1⟩

end WritePlan.Calendar
