import Mathlib.Tactic

/-!
The week as a circle of minutes. A span starts at a minute of a listed day and
runs to a minute of that day, or of the next day when the end is before the
start; Saturday is followed by Sunday. The test a program makes with the
weekday and the minute of the day is compared with membership in the spans.
-/

namespace SuperSbc.TimeWindow

inductive Weekday where
  | sunday
  | monday
  | tuesday
  | wednesday
  | thursday
  | friday
  | saturday
deriving DecidableEq

namespace Weekday

def number : Weekday → ℕ
  | .sunday => 0
  | .monday => 1
  | .tuesday => 2
  | .wednesday => 3
  | .thursday => 4
  | .friday => 5
  | .saturday => 6

/-- `(d + 1) % 7`. -/
def next : Weekday → Weekday
  | .sunday => .monday
  | .monday => .tuesday
  | .tuesday => .wednesday
  | .wednesday => .thursday
  | .thursday => .friday
  | .friday => .saturday
  | .saturday => .sunday

/-- `(d + 6) % 7`. -/
def previous : Weekday → Weekday
  | .sunday => .saturday
  | .monday => .sunday
  | .tuesday => .monday
  | .wednesday => .tuesday
  | .thursday => .wednesday
  | .friday => .thursday
  | .saturday => .friday

theorem number_lt (d : Weekday) : d.number < 7 := by
  cases d <;> decide

theorem number_inj {d e : Weekday} (h : d.number = e.number) : d = e := by
  cases d <;> cases e <;> first | rfl | exact absurd h (by decide)

theorem previous_eq_iff {d e : Weekday} : d.previous = e ↔ d.number = (e.number + 1) % 7 := by
  cases d <;> cases e <;> decide

/-- How many days after the first the second comes next. -/
def upTo (first last : Weekday) : ℕ := (last.number + 7 - first.number) % 7

/-- The days from one to another, both included. -/
def Between (first last d : Weekday) : Prop := ∃ k ≤ upTo first last, d = next^[k] first

theorem upTo_eq_zero_iff {first last : Weekday} : upTo first last = 0 ↔ first = last := by
  cases first <;> cases last <;> decide

theorem upTo_next {first last : Weekday} (h : first ≠ last) :
    upTo first last = upTo first.next last + 1 := by
  revert h
  cases first <;> cases last <;> decide

end Weekday

/-- A weekday and a minute of the day, as a clock shows them. -/
structure LocalMinute where
  weekday : Weekday
  minute : ℕ
  minute_lt : minute < 1440

/-- The minute of the week. -/
def LocalMinute.ofWeek (t : LocalMinute) : ℕ := t.weekday.number * 1440 + t.minute

/-- Listed days, and the minutes from which and up to which they count. -/
structure Span where
  days : Weekday → Prop
  start : ℕ
  stop : ℕ

/-- How long a span is. -/
def Span.length (s : Span) : ℕ :=
  if s.start < s.stop then s.stop - s.start else s.stop + 1440 - s.start

/-- A listed day's interval has the minute, around the end of the week. -/
def Span.Has (s : Span) (t : LocalMinute) : Prop :=
  ∃ d, s.days d ∧ ∃ k < s.length, t.ofWeek = (d.number * 1440 + s.start + k) % 10080

section Test

variable {s : Span} {t : LocalMinute}

theorem Span.has_iff_of_lt (hlt : s.start < s.stop) (hstop : s.stop ≤ 1440) :
    s.Has t ↔ s.days t.weekday ∧ s.start ≤ t.minute ∧ t.minute < s.stop := by
  have hlength : s.length = s.stop - s.start := if_pos hlt
  constructor
  · rintro ⟨d, hd, k, hk, hweek⟩
    rw [hlength] at hk
    have hday := d.number_lt
    have hminute := t.minute_lt
    unfold LocalMinute.ofWeek at hweek
    obtain rfl : t.weekday = d := Weekday.number_inj (by omega)
    exact ⟨hd, by omega, by omega⟩
  · rintro ⟨hd, hstart, hminute⟩
    have hday := t.weekday.number_lt
    refine ⟨t.weekday, hd, t.minute - s.start, by omega, ?_⟩
    unfold LocalMinute.ofWeek
    omega

/-- A span past midnight: the part after its start belongs to a listed day, the
part before its end to the day after one. -/
theorem Span.has_iff_of_ge (hge : s.stop ≤ s.start) (hstart : s.start ≤ 1440) :
    s.Has t ↔ (s.days t.weekday ∧ s.start ≤ t.minute) ∨
      (s.days t.weekday.previous ∧ t.minute < s.stop) := by
  have hlength : s.length = s.stop + 1440 - s.start := if_neg (not_lt.mpr hge)
  have hminute := t.minute_lt
  constructor
  · rintro ⟨d, hd, k, hk, hweek⟩
    rw [hlength] at hk
    have hday := d.number_lt
    have hweekday := t.weekday.number_lt
    unfold LocalMinute.ofWeek at hweek
    rcases lt_or_ge (s.start + k) 1440 with hsame | hafter
    · obtain rfl : t.weekday = d := Weekday.number_inj (by omega)
      exact .inl ⟨hd, by omega⟩
    · have hnext : t.weekday.number = (d.number + 1) % 7 := by omega
      rw [Weekday.previous_eq_iff.mpr hnext]
      exact .inr ⟨hd, by omega⟩
  · have hweekday := t.weekday.number_lt
    rintro (⟨hd, hle⟩ | ⟨hd, hlt⟩)
    · refine ⟨t.weekday, hd, t.minute - s.start, by omega, ?_⟩
      unfold LocalMinute.ofWeek
      omega
    · have hnext := Weekday.previous_eq_iff.mp (rfl : t.weekday.previous = _)
      have hday := t.weekday.previous.number_lt
      refine ⟨t.weekday.previous, hd, t.minute + 1440 - s.start, by omega, ?_⟩
      unfold LocalMinute.ofWeek
      omega

end Test

end SuperSbc.TimeWindow
