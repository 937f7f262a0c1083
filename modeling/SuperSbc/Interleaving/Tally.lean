import Mathlib.Data.List.ReduceOption

/-!
Counters of failures in a row, kept where several writers reach them. A failure
increments the counter, and any other event clears it. It may also be cleared
with nothing being recorded, as when it expires.
-/

namespace SuperSbc.Interleaving

variable {α : Type} {fails : α → Bool}

/-- The failures at the head of a history, the newest event first. -/
def streak (fails : α → Bool) (events : List α) : ℕ := (events.takeWhile fails).length

theorem streak_cons (a : α) (events : List α) :
    streak fails (a :: events) = if fails a then streak fails events + 1 else 0 := by
  unfold streak
  rw [List.takeWhile_cons]
  split <;> simp

/-- A streak only gets longer when the events that recorded nothing are left out. -/
theorem streak_any_le (events : List (Option α)) :
    streak (Option.any fails) events ≤ streak fails events.reduceOption := by
  induction events with
  | nil => exact Nat.le_refl 0
  | cons e rest ih =>
    cases e with
    | none => simp [streak_cons]
    | some a =>
      rw [List.reduceOption_cons_of_some, streak_cons, streak_cons, Option.any_some]
      split
      · exact Nat.succ_le_succ ih
      · exact Nat.le_refl 0

/-- A counter with what has happened to it; `none` stands where it was cleared
and nothing recorded. -/
structure Tally (fails : α → Bool) where
  count : ℕ
  events : List (Option α)
  counts : count = streak (Option.any fails) events

namespace Tally

def start : Tally fails := ⟨0, [], rfl⟩

theorem counts_record (t : Tally fails) (a : α) :
    (if fails a then t.count + 1 else 0) = streak (Option.any fails) (some a :: t.events) := by
  rw [streak_cons, Option.any_some, ← t.counts]

def record (t : Tally fails) (a : α) : Tally fails :=
  ⟨if fails a then t.count + 1 else 0, some a :: t.events, t.counts_record a⟩

def clear (t : Tally fails) : Tally fails := ⟨0, none :: t.events, rfl⟩

/-- What was recorded, the newest first. -/
def recorded (t : Tally fails) : List α := t.events.reduceOption

@[simp] theorem recorded_record (t : Tally fails) (a : α) :
    (t.record a).recorded = a :: t.recorded := rfl

@[simp] theorem recorded_clear (t : Tally fails) : t.clear.recorded = t.recorded := rfl

theorem count_le_streak (t : Tally fails) : t.count ≤ streak fails t.recorded :=
  t.counts ▸ streak_any_le t.events

end Tally

end SuperSbc.Interleaving
