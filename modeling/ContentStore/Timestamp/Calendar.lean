/-!
# The calendar

Days of the Gregorian calendar, extended to all years, and their numbers: day zero is the first of
January 1970.  The year of a day number is estimated from the mean length of a year and set right
by a year at most.
-/

namespace ContentStore

/-- A day of the calendar. -/
structure Date where
  year : Int
  month : Nat
  day : Nat
deriving DecidableEq, Repr

namespace Date

/-- A year of 366 days. -/
def isLeapYear (year : Int) : Bool :=
  year % 4 == 0 && (year % 100 != 0 || year % 400 == 0)

/-- The days of a month. -/
def daysInMonth (leap : Bool) : Nat → Nat
  | 2 => if leap then 29 else 28
  | 4 => 30
  | 6 => 30
  | 9 => 30
  | 11 => 30
  | _ => 31

/-- The days of the months of a year before a month. -/
def daysBeforeMonth (leap : Bool) : Nat → Nat
  | 0 => 0
  | 1 => 0
  | m + 2 => daysBeforeMonth leap (m + 1) + daysInMonth leap (m + 1)

/-- The days from the first of January of the year 0 to the first of January of a year. -/
def daysBeforeYear (year : Int) : Int :=
  365 * year + (year + 3) / 4 - (year + 99) / 100 + (year + 399) / 400

/-- The number of the first of January 1970, counted from the first of January of the year 0. -/
def epochDays : Int := 719528

/-- The date is a day of the calendar. -/
def IsValid (d : Date) : Prop :=
  1 ≤ d.month ∧ d.month ≤ 12 ∧ 1 ≤ d.day ∧ d.day ≤ daysInMonth (isLeapYear d.year) d.month

instance (d : Date) : Decidable d.IsValid :=
  inferInstanceAs (Decidable (_ ∧ _))

/-- The number of a day, counted from the first of January 1970. -/
def number (d : Date) : Int :=
  daysBeforeYear d.year + daysBeforeMonth (isLeapYear d.year) d.month + d.day - 1 - epochDays

/-- The year in which a day counted from the first of January of the year 0 lies. -/
def yearOf (days : Int) : Int :=
  let guess := days * 400 / 146097
  if days < daysBeforeYear guess then guess - 1
  else if daysBeforeYear (guess + 1) ≤ days then guess + 1
  else guess

/-- The month in which a day of a year lies, the days of a year counted from zero. -/
def monthOf (leap : Bool) (dayOfYear : Nat) : Nat :=
  ((List.range 11).filter fun m => daysBeforeMonth leap (m + 2) ≤ dayOfYear).length + 1

/-- The day of a number. -/
def ofNumber (n : Int) : Date :=
  let days := n + epochDays
  let year := yearOf days
  let dayOfYear := (days - daysBeforeYear year).toNat
  let leap := isLeapYear year
  let month := monthOf leap dayOfYear
  ⟨year, month, dayOfYear - daysBeforeMonth leap month + 1⟩

example : number ⟨1970, 1, 1⟩ = 0 ∧ ofNumber 0 = ⟨1970, 1, 1⟩ := by decide
example : ofNumber (number ⟨2000, 2, 29⟩) = ⟨2000, 2, 29⟩ := by decide
example : ofNumber (number ⟨-1, 12, 31⟩) = ⟨-1, 12, 31⟩ := by decide

end Date

end ContentStore
