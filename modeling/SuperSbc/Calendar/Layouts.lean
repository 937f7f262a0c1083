import SuperSbc.Calendar.Civil
import SuperSbc.Text.Decimal

/-!
Times written and read as Go's `time` package does it in the layouts of RFC 3339
and in the same without the zone or without the time of day. What is read may
have a fraction of a second that no layout asks for; what is written never has
one.
-/

namespace SuperSbc.Calendar

open Text

def second : ℤ := 1000000000

/-- A `time.Time`: nanoseconds since 1970, and the seconds its zone is ahead of
UTC. -/
@[ext]
structure Moment where
  nanos : ℤ
  offset : ℤ
deriving DecidableEq

def Moment.utc (m : Moment) : Moment := { m with offset := 0 }

/-- What comes before the fraction. -/
def Moment.seconds (m : Moment) : ℤ := m.nanos / second

section Writing

/-- The year of a date in four digits or as many as it takes. -/
def yearText (year : ℤ) : List Char :=
  (if year < 0 then ['-'] else []) ++ padded 4 year.natAbs

def zoneText (offset : ℤ) : List Char :=
  if offset = 0 then ['Z']
  else
    let minutes := offset.natAbs / 60
    (if offset < 0 then '-' else '+') ::
      (padded 2 (minutes / 60) ++ ':' :: padded 2 (minutes % 60))

def dateText (d : Date) : List Char :=
  yearText d.year ++ '-' :: (padded 2 d.month ++ '-' :: padded 2 d.day)

def clockText (secondOfDay : ℕ) : List Char :=
  padded 2 (secondOfDay / 3600) ++ ':' ::
    (padded 2 (secondOfDay / 60 % 60) ++ ':' :: padded 2 (secondOfDay % 60))

def Moment.date (m : Moment) : Date := Calendar.date ((m.seconds + m.offset) / 86400)

/-- `Format(time.RFC3339)`. -/
def Moment.rfc3339 (m : Moment) : List Char :=
  dateText m.date ++ 'T' ::
    (clockText ((m.seconds + m.offset) % 86400).toNat ++ zoneText m.offset)

end Writing

section Reading

def readLiteral (c : Char) : List Char → Option (List Char)
  | [] => none
  | d :: rest => if d = c then some rest else none

/-- A space of a layout stands for any number of them. -/
def readSpace (s : List Char) : Option (List Char) :=
  if s.head?.all (· = ' ') then some (s.dropWhile (· = ' ')) else none

/-- An hour may have one digit. -/
def readHour (s : List Char) : Option (ℕ × List Char) :=
  match readDigits 2 s with
  | some hour => some hour
  | none => readDigits 1 s

def readDate (s : List Char) : Option (Date × List Char) := do
  let year ← readDigits 4 s
  let month ← readDigits 2 (← readLiteral '-' year.2)
  let day ← readDigits 2 (← readLiteral '-' month.2)
  if 1 ≤ month.1 ∧ month.1 ≤ 12 ∧ 1 ≤ day.1 ∧ day.1 ≤ daysIn month.1 year.1 then
    some (⟨year.1, month.1, day.1⟩, day.2)
  else none

/-- The nanoseconds of a fraction; digits after the ninth are dropped. -/
def readFraction (s : List Char) : ℕ × List Char :=
  match s with
  | [] => (0, s)
  | point :: rest =>
    let digits := rest.takeWhile Char.isDigit
    if (point = '.' ∨ point = ',') ∧ digits ≠ [] then
      (Nat.ofDigitChars 10 (digits.take 9) 0 * 10 ^ (9 - (digits.take 9).length),
        rest.dropWhile Char.isDigit)
    else (0, s)

/-- A time of day in nanoseconds. -/
def readClock (s : List Char) : Option (ℤ × List Char) := do
  let hour ← readHour s
  let minute ← readDigits 2 (← readLiteral ':' hour.2)
  let sec ← readDigits 2 (← readLiteral ':' minute.2)
  if hour.1 < 24 ∧ minute.1 < 60 ∧ sec.1 < 60 then
    let fraction := readFraction sec.2
    some ((hour.1 * 3600 + minute.1 * 60 + sec.1 : ℕ) * second + fraction.1, fraction.2)
  else none

/-- Seconds ahead of UTC. -/
def readZone : List Char → Option (ℤ × List Char)
  | [] => none
  | sign :: rest =>
    if sign = 'Z' then some (0, rest)
    else do
      let hour ← readDigits 2 rest
      let minute ← readDigits 2 (← readLiteral ':' hour.2)
      if (sign = '+' ∨ sign = '-') ∧ hour.1 ≤ 24 ∧ minute.1 ≤ 60 then
        some ((if sign = '-' then -1 else 1) * ((hour.1 * 60 + minute.1) * 60 : ℕ), minute.2)
      else none

inductive Layout where
  | rfc3339
  /-- `2006-01-02T15:04:05` -/
  | dateTime
  /-- `2006-01-02 15:04:05` -/
  | spaced
  /-- `2006-01-02` -/
  | dateOnly

/-- A date, a time of day on it and the zone both are in. -/
def moment (d : Date) (nanosOfDay offset : ℤ) : Moment where
  nanos := (d.number * 86400 - offset) * second + nanosOfDay
  offset := offset

def readEnd {α : Type} (x : α) (rest : List Char) : Option α := if rest = [] then some x else none

/-- `time.Parse`. -/
def parse (layout : Layout) (s : List Char) : Option Moment := do
  let d ← readDate s
  match layout with
  | .dateOnly => readEnd (moment d.1 0 0) d.2
  | .spaced =>
    let clock ← readClock (← readSpace d.2)
    readEnd (moment d.1 clock.1 0) clock.2
  | .dateTime =>
    let clock ← readClock (← readLiteral 'T' d.2)
    readEnd (moment d.1 clock.1 0) clock.2
  | .rfc3339 =>
    let clock ← readClock (← readLiteral 'T' d.2)
    let zone ← readZone clock.2
    readEnd (moment d.1 clock.1 zone.1) zone.2

end Reading

example : parse .rfc3339 (⟨500000000, 0⟩ : Moment).rfc3339 = some ⟨0, 0⟩ := by decide

end SuperSbc.Calendar
