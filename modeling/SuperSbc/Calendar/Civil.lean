import Mathlib.Tactic

/-!
The Gregorian calendar, carried on without end in both directions, and its days
counted from 1 January 1970. Years are counted from March here and there, so
that a leap day is the last day of one.
-/

namespace SuperSbc.Calendar

structure Date where
  year : ℤ
  month : ℕ
  day : ℕ
deriving DecidableEq

def isLeap (year : ℤ) : Bool := year % 4 = 0 && (year % 100 ≠ 0 || year % 400 = 0)

def daysIn (month : ℕ) (year : ℤ) : ℕ :=
  if month = 2 then if isLeap year then 29 else 28
  else if month = 4 ∨ month = 6 ∨ month = 9 ∨ month = 11 then 30
  else 31

/-- Days from 1 March of the year zero to 1 March of a year. -/
def marches (year : ℤ) : ℤ := 365 * year + year / 4 - year / 100 + year / 400

/-- The days since 1 January 1970. -/
def Date.number (d : Date) : ℤ :=
  marches (if d.month ≤ 2 then d.year - 1 else d.year) +
    ((153 * ((d.month + 9) % 12) + 2) / 5 + d.day - 1 : ℕ) - 719468

/-- The year counted from March that a day falls in, from its number since
1 March of the year zero. -/
def marchYear (days : ℤ) : ℤ :=
  let year := days * 400 / 146097
  if marches (year + 1) ≤ days then year + 1 else year

/-- A date by the days since 1 March of a year counted from March. -/
def dateInYear (year : ℤ) (dayOfYear : ℕ) : Date :=
  let month := (5 * dayOfYear + 2) / 153
  { year := if month < 10 then year else year + 1
    month := if month < 10 then month + 3 else month - 9
    day := dayOfYear - (153 * month + 2) / 5 + 1 }

def date (number : ℤ) : Date :=
  let days := number + 719468
  let year := marchYear days
  dateInYear year (days - marches year).toNat

example : date 20454 = ⟨2026, 1, 1⟩ ∧ date (-1) = ⟨1969, 12, 31⟩ ∧ date 11016 = ⟨2000, 2, 29⟩ := by
  decide

end SuperSbc.Calendar
