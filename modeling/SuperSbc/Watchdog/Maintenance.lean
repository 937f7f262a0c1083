import SuperSbc.Interleaving.Trace
import SuperSbc.Watchdog.Decide

/-!
A maintenance window holds alerts back. The state file says until when; the
`-mute` and `-unmute` flags write it and do nothing else, and every pass reads
it. What the watchdog remembers is frozen while passes run in a window, so the
first pass after it compares its report with the state of the moment at which
the window was opened.
-/

namespace SuperSbc.Watchdog

open Interleaving

def State.mute (s : State) (now : Instant) (length : Duration) (reason : String) : State :=
  { s with mutedUntil := now + length, muteReason := reason, mutedAlerts := 0 }

def State.unmute (s : State) : State := { s with mutedUntil := 0, muteReason := "" }

/-- What happens to the state file, one invocation after the other. -/
inductive Event
  | pass (report : Report) (policy : Policy) (now : Instant)
  | mute (now : Instant) (length : Duration) (reason : String)
  | unmute

def Event.apply (zone : Zone) (s : State) : Event → State
  | .pass report policy now => (report.decide zone s policy now).2
  | .mute now length reason => s.mute now length reason
  | .unmute => s.unmute

/-- Every invocation runs to its end: the state file is loaded and saved. -/
def invoke (zone : Zone) (e : Event) (s : State) : Option State := some (e.apply zone s)

/-- A pass is held back by the window; the flags may be used at any time. -/
def Event.Held : Event → State → Prop
  | .pass _ _ now, s => s.muted now = true
  | _, _ => True

instance : ∀ e s, Decidable (Event.Held e s)
  | .pass _ _ now, s => inferInstanceAs (Decidable (s.muted now = true))
  | .mute .., _ => inferInstanceAs (Decidable True)
  | .unmute, _ => inferInstanceAs (Decidable True)

section Window

variable {zone : Zone} {s s' : State} {e : Event}

/-- What was remembered when a window was opened is what is remembered now. -/
structure Frozen (opened s : State) : Prop where
  failing : s.failing = opened.failing
  lastAlert : s.lastAlert = opened.lastAlert

theorem Frozen.refl (s : State) : Frozen s s := ⟨rfl, rfl⟩

/-- One invocation: a held pass counts the alerts it swallows and notes that
it ran, and the flags write the window. -/
theorem Frozen.invoke {opened : State} (hfrozen : Frozen opened s) (hheld : e.Held s)
    (hstep : invoke zone e s = some s') : Frozen opened s' := by
  cases hstep
  cases e with
  | pass report policy now =>
    have hmuted : s.muted now = true := hheld
    constructor
    · simpa [Event.apply, Report.decide, hmuted] using hfrozen.failing
    · simpa [Event.apply, Report.decide, hmuted] using hfrozen.lastAlert
  | mute now length reason | unmute => exact ⟨hfrozen.failing, hfrozen.lastAlert⟩

theorem frozen_window {inside : List Event} (hheld : Along (invoke zone) Event.Held inside s)
    (hrun : trace (invoke zone) inside s = some s') : Frozen s s' :=
  invariant_of_along (fun _ _ _ hfrozen => hfrozen.invoke) (Frozen.refl s) hheld hrun

theorem Report.Fresh.congr {r : Report} {p : Policy} (h : s.failing = s'.failing) :
    r.Fresh s p ↔ r.Fresh s' p := by
  unfold Report.Fresh
  rw [h]

variable {r : Report} {p : Policy} {now : Instant}

theorem sendAlert_live (hlive : s.muted now = false) (hwarn : p.alertOnWarn = true)
    (hrepeat : 0 < p.repeatAfter) (hproblem : r.problems ≠ []) :
    (r.decide zone s p now).1.sendAlert = true ↔
      r.Fresh s p ∨ p.repeatAfter ≤ sub now s.lastAlert ∨ r.rebooted s = true := by
  rw [decide_live hlive]
  simp only [compare_sendAlert, repeatDue_iff hwarn, hproblem, hrepeat, ne_eq, not_false_eq_true,
    true_and]

/-- The first pass after a window alerts about its problems exactly when one
of them was not remembered at its level when the window was opened, when the
last alert from before the window is old enough to be repeated, or when the
machine has restarted since the pass before. -/
theorem alert_after_window (inside : List Event) {opening : Instant} {length : Duration}
    {reason : String} {closed : State}
    (hheld : Along (invoke zone) Event.Held inside (s.mute opening length reason))
    (hrun : trace (invoke zone) inside (s.mute opening length reason) = some closed)
    (hlive : closed.muted now = false) (hwarn : p.alertOnWarn = true)
    (hrepeat : 0 < p.repeatAfter) (hproblem : r.problems ≠ []) :
    (r.decide zone closed p now).1.sendAlert = true ↔
      r.Fresh s p ∨ p.repeatAfter ≤ sub now s.lastAlert ∨ r.rebooted closed = true := by
  have hfrozen := frozen_window hheld hrun
  rw [sendAlert_live hlive hwarn hrepeat hproblem, hfrozen.lastAlert,
    Report.Fresh.congr hfrozen.failing]
  exact Iff.rfl

end Window

section Spacing

variable {zone : Zone} {s s' : State} {t : Instant}

/-- A pass runs no earlier than `t`; the flags may be used at any time. -/
def Event.Since (t : Instant) : Event → State → Prop
  | .pass _ _ now, _ => t ≤ now
  | _, _ => True

/-- An alert was sent at `t` or later. -/
def AlertedSince (t : Instant) (s : State) : Prop := t ≤ s.lastAlert

/-- One invocation: the time of the last alert only moves to the time of a
later pass, and a window leaves it alone. -/
theorem AlertedSince.invoke {e : Event} (hle : AlertedSince t s) (hsince : e.Since t s)
    (hstep : invoke zone e s = some s') : AlertedSince t s' := by
  cases hstep
  cases e with
  | pass report policy now =>
    have hnow : t ≤ now := hsince
    unfold AlertedSince Event.apply Report.decide
    dsimp only
    split_ifs <;> assumption
  | mute now length reason | unmute => exact hle

theorem sendAlert_decide {r : Report} {p : Policy} {now : Instant} :
    (r.decide zone s p now).1.sendAlert = true ↔
      s.muted now = false ∧ (r.compare zone s p now).sendAlert = true := by
  unfold Report.decide
  dsimp only
  split <;> simp_all

theorem le_of_le_sub {d u : ℤ} (hpos : 0 < d) (h : d ≤ sub t u) : d ≤ t - u := by
  rcases le_max_iff.mp h with hmin | hle
  · exact absurd (hpos.trans_le hmin) (by decide)
  · exact hle.trans (min_le_right _ _)

/-- The same problems are not mailed again before `RepeatAfter` has passed,
whatever windows are opened and closed in between. -/
theorem alerts_spaced (zone : Zone) (s s' : State) (r r' : Report) (p p' : Policy)
    (t t' : Instant) (between : List Event) (hsent : (r.decide zone s p t).1.sendAlert = true)
    (hsince : Along (invoke zone) (Event.Since t) between (r.decide zone s p t).2)
    (hrun : trace (invoke zone) between (r.decide zone s p t).2 = some s')
    (hagain : (r'.decide zone s' p' t').1.sendAlert = true) (hsame : ¬ r'.Fresh s' p')
    (hup : r'.rebooted s' = false) : p'.repeatAfter ≤ t' - t := by
  have hfirst : AlertedSince t (r.decide zone s p t).2 := by
    obtain ⟨hlive, hsend⟩ := sendAlert_decide.mp hsent
    simp [AlertedSince, Report.decide, hlive, hsend]
  have hlast : AlertedSince t s' :=
    invariant_of_along (fun _ _ _ h => h.invoke) hfirst hsince hrun
  have hdue : r'.repeatDue s' p' t' = true := by
    simpa [hsame, hup] using compare_sendAlert.mp (sendAlert_decide.mp hagain).2
  simp only [Report.repeatDue, Bool.and_eq_true, decide_eq_true_eq] at hdue
  exact (le_of_le_sub hdue.1.2 hdue.2).trans (Int.sub_le_sub_left hlast _)

end Spacing

section Samples

def sampleZone : Zone where
  hourOf t := t / hour % 24
  clock _ := ""
  stamp _ := ""

def samplePolicy : Policy where
  repeatAfter := 30 * minute
  reportHour := 8
  force := false
  alertOnWarn := true

def sampleApiDown : Check where
  group := "Containers"
  name := "api"
  level := .fail
  status := "not running"

def sampleBoot : Instant := 63000000000 * 1000000000

def sampleStart : Instant := sampleBoot + 24 * hour

def sampleDown : Report := ⟨[sampleApiDown], sampleBoot⟩

def sampleClear : Report := ⟨[{ sampleApiDown with level := .ok, status := "running" }], sampleBoot⟩

/-- Everything is fine, and a window of five minutes is opened. -/
def sampleBefore : State :=
  (sampleClear.decide sampleZone State.empty samplePolicy sampleStart).2

/-- The component goes down inside the window. -/
def sampleInside : List Event := [.pass sampleDown samplePolicy (sampleStart + 3 * minute)]

/-- What breaks inside a window is mailed when it closes. -/
theorem alert_after_window_sampleInside :
    (sampleDown.decide sampleZone
      ((sampleDown.decide sampleZone (sampleBefore.mute (sampleStart + minute) (5 * minute) "")
        samplePolicy (sampleStart + 3 * minute)).2)
      samplePolicy (sampleStart + 7 * minute)).1.sendAlert = true :=
  (alert_after_window sampleInside (by decide +kernel) rfl (by decide +kernel)
    rfl (by decide +kernel) (by decide +kernel)).mpr
    (.inl ⟨sampleApiDown.key, sampleApiDown, by decide +kernel, by decide +kernel⟩)

/-- The component is down and mailed, and then a window is opened. -/
def sampleRun : List Event :=
  [.pass sampleDown samplePolicy sampleStart, .mute (sampleStart + minute) (5 * minute) "upgrade",
    .pass sampleDown samplePolicy (sampleStart + 3 * minute)]

def sampleClosed : State := sampleRun.foldl (Event.apply sampleZone) State.empty

/-- The component is still down when the window has closed, and the first
pass after it says nothing: the mail from before the window is not yet half an
hour old and the problem is remembered. -/
theorem window_swallows_alert :
    trace (invoke sampleZone) sampleRun State.empty = some sampleClosed ∧
      (sampleDown.decide sampleZone State.empty samplePolicy sampleStart).1.sendAlert = true ∧
      sampleClosed.muted (sampleStart + 3 * minute) = true ∧
      sampleClosed.muted (sampleStart + 7 * minute) = false ∧
      sampleDown.problems ≠ [] ∧
      (sampleDown.decide sampleZone sampleClosed samplePolicy
        (sampleStart + 7 * minute)).1.justUnmuted = true ∧
      (sampleDown.decide sampleZone sampleClosed samplePolicy
        (sampleStart + 7 * minute)).1.sendAlert = false := by
  refine ⟨rfl, ?_⟩
  decide +kernel

/-- A window of five minutes, and a pass in it. -/
def sampleWindow : List Event :=
  [.mute (sampleStart + 10 * minute) (5 * minute) "upgrade",
    .pass sampleDown samplePolicy (sampleStart + 12 * minute)]

/-- A component that stays down is mailed again after half an hour. -/
theorem alerts_spaced_sampleWindow : ∃ s',
    trace (invoke sampleZone) sampleWindow
        (sampleDown.decide sampleZone State.empty samplePolicy sampleStart).2 = some s' ∧
      s'.muted (sampleStart + 12 * minute) = true ∧
      (sampleDown.decide sampleZone s' samplePolicy (sampleStart + 30 * minute)).1.sendAlert =
        true ∧
      samplePolicy.repeatAfter ≤ sampleStart + 30 * minute - sampleStart := by
  refine ⟨_, rfl, by decide +kernel, by decide +kernel, ?_⟩
  refine alerts_spaced sampleZone State.empty _ sampleDown sampleDown samplePolicy samplePolicy
    sampleStart _ sampleWindow (by decide +kernel) ?_ rfl (by decide +kernel) ?_ rfl
  · exact ⟨trivial, fun _ _ => ⟨(by decide : sampleStart ≤ sampleStart + 12 * minute),
      fun _ _ => trivial⟩⟩
  · rw [← newProblems_ne_nil, not_not]
    decide +kernel

end Samples

end SuperSbc.Watchdog
