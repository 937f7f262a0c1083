import Mathlib.Data.List.AList
import Mathlib.Data.List.Sort
import Mathlib.Data.List.TakeWhile
import Mathlib.Data.Int.Order.Basic

/-!
The watchdog looks at every part of a live system every few minutes and mails
what it finds. Between two passes it keeps a state file with the problems it
has already reported, so that a problem is mailed once and not on every pass.

This module models one pass as far as the decision what to send. A pass is
`Report.compare`, which sets the report against the remembered state, followed
by what `Report.decide` remembers, which depends on the maintenance window.
-/

namespace SuperSbc.Watchdog

/-- Nanoseconds since Go's zero time, so that `IsZero` is being zero. -/
abbrev Instant := ℤ

/-- Nanoseconds. -/
abbrev Duration := ℤ

def minute : Duration := 60000000000

def hour : Duration := 60 * minute

/-- `Time.Sub`, which saturates at the ends of a 64-bit duration. -/
def sub (t u : Instant) : Duration :=
  max (-9223372036854775808) (min 9223372036854775807 (t - u))

/-- The local time zone, as far as a pass reads it: the hour of the day, and
the layouts `15:04` and `15:04 on 2 Jan 2006`. -/
structure Zone where
  hourOf : Instant → ℤ
  clock : Instant → String
  stamp : Instant → String

inductive Level
  | ok
  | warn
  | fail
  deriving DecidableEq, Repr

def Level.rank : Level → ℕ
  | .ok => 0
  | .warn => 1
  | .fail => 2

def Level.text : Level → String
  | .fail => "FAIL"
  | .warn => "WARN"
  | .ok => "OK"

structure Check where
  group : String
  name : String
  level : Level := .ok
  status : String
  detail : String := ""
  deriving DecidableEq, Repr

def Check.key (c : Check) : String := c.group ++ "/" ++ c.name

structure Report where
  checks : List Check
  reboot : Instant

/-- The checks that are not fine, worst first. -/
def Report.problems (r : Report) : List Check :=
  (r.checks.filter fun c => c.level ≠ .ok).insertionSort fun a b => b.level.rank ≤ a.level.rank

theorem Report.mem_problems {r : Report} {c : Check} :
    c ∈ r.problems ↔ c ∈ r.checks ∧ c.level ≠ .ok := by
  simp [problems, List.mem_insertionSort]

/-- What the state file holds between two passes. -/
structure State where
  failing : AList fun _ : String => String
  lastAlert : Instant
  lastReport : Instant
  lastBoot : Instant
  lastRun : Instant
  consecutive : ℕ
  mutedUntil : Instant
  muteReason : String
  mutedAlerts : ℕ

/-- The state of a watchdog that has no state file, or one it cannot read. -/
def State.empty : State where
  failing := ∅
  lastAlert := 0
  lastReport := 0
  lastBoot := 0
  lastRun := 0
  consecutive := 0
  mutedUntil := 0
  muteReason := ""
  mutedAlerts := 0

def State.muted (s : State) (now : Instant) : Bool := now < s.mutedUntil

structure Policy where
  repeatAfter : Duration
  reportHour : ℤ
  force : Bool
  alertOnWarn : Bool

structure Decision where
  sendAlert : Bool
  sendRecovery : Bool
  sendReport : Bool
  reason : String
  new : List Check
  fixed : List Check
  muted : Bool := false
  mutedUntil : Instant := 0
  justUnmuted : Bool := false

section Compare

/-- A warning, where warnings are not worth an alert. -/
def Policy.ignores (p : Policy) (c : Check) : Bool := c.level = .warn && !p.alertOnWarn

/-- The problems of a pass by key. Of two checks with one key the later in
the order of `problems` stays, as it overwrites the other in the map. -/
def Report.current (r : Report) (p : Policy) : AList fun _ : String => Check :=
  r.problems.foldl (fun m c => if p.ignores c then m else m.insert c.key c) ∅

/-- The problems that are not remembered at the level they now have. -/
def newProblems (current : AList fun _ : String => Check)
    (failing : AList fun _ : String => String) : List Check :=
  ((current.entries.filter fun e => failing.lookup e.1 ≠ some e.2.level.text).map fun e => e.2)
    |>.insertionSort fun a b => b.level.rank ≤ a.level.rank

/-- The check a remembered key stands for, cut at its first slash. -/
def backToNormal (key : String) : Check :=
  match key.toList.dropWhile (· != '/') with
  | [] => { group := "", name := key, status := "back to normal" }
  | _ :: name =>
    { group := String.ofList (key.toList.takeWhile (· != '/'))
      name := String.ofList name
      status := "back to normal" }

/-- The remembered problems that are gone. -/
def fixedProblems (current : AList fun _ : String => Check)
    (failing : AList fun _ : String => String) : List Check :=
  ((failing.keys.filter fun key => key ∉ current).map backToNormal)
    |>.insertionSort fun a b => a.name ≤ b.name

def ago (d : Duration) : String :=
  if d < minute then "just now"
  else if d < hour then toString (d / minute) ++ " min ago"
  else if d < 48 * hour then toString (d / hour) ++ " h ago"
  else toString (d / hour / 24) ++ " days ago"

/-- The machine has restarted since the boot the last pass saw. -/
def Report.rebooted (r : Report) (s : State) : Bool :=
  r.reboot ≠ 0 && s.lastBoot ≠ 0 && minute < sub r.reboot s.lastBoot

def Report.rebootCheck (zone : Zone) (r : Report) (now : Instant) : Check where
  group := "Resources"
  name := "host reboot"
  level := .warn
  status := "rebooted " ++ ago (sub now r.reboot)
  detail := "the machine restarted at " ++ zone.stamp r.reboot ++ "; every service above came back"

/-- The same problems have been there for long enough to say so again. -/
def Report.repeatDue (r : Report) (s : State) (p : Policy) (now : Instant) : Bool :=
  (r.current p).keys ≠ [] && 0 < p.repeatAfter && p.repeatAfter ≤ sub now s.lastAlert

/-- The all clear is asked for, or it is the hour of the day for it. -/
def reportDue (zone : Zone) (s : State) (p : Policy) (now : Instant) : Bool :=
  p.force ||
    (0 ≤ p.reportHour && zone.hourOf now = p.reportHour && 23 * hour < sub now s.lastReport)

/-- What there is to send, before the maintenance window is looked at. -/
def Report.compare (zone : Zone) (r : Report) (s : State) (p : Policy) (now : Instant) :
    Decision :=
  let current := r.current p
  let new := newProblems current s.failing
  let alert := new ≠ [] || r.repeatDue s p now
  let reason :=
    if new ≠ [] then "a new problem appeared"
    else if r.repeatDue s p now then "the problem is still there" else ""
  let recovery := current.keys = [] && s.failing.keys ≠ []
  let reason := if recovery then "everything recovered" else reason
  let rebooted := r.rebooted s
  { sendAlert := alert || rebooted
    sendRecovery := recovery
    sendReport := reportDue zone s p now
    reason := if rebooted && reason = "" then "the host rebooted" else reason
    new := if rebooted then new ++ [r.rebootCheck zone now] else new
    fixed := fixedProblems current s.failing }

end Compare

/-- The levels a live pass remembers. -/
def levels (current : AList fun _ : String => Check) : AList fun _ : String => String where
  entries := current.entries.map fun e => ⟨e.1, e.2.level.text⟩
  nodupKeys := by
    have hkeys := current.keys_nodup
    simpa [List.NodupKeys, List.keys, AList.keys, Function.comp_def] using hkeys

/-- A pass: what to send and the state to save. In a maintenance window the
alert and the recovery are held back and the remembered problems left alone. -/
def Report.decide (zone : Zone) (r : Report) (s : State) (p : Policy) (now : Instant) :
    Decision × State :=
  let d := r.compare zone s p now
  let lastReport := if d.sendReport then now else s.lastReport
  if s.muted now then
    ({ d with
        sendAlert := false
        sendRecovery := false
        reason := "alerts are muted until " ++ zone.clock s.mutedUntil
        muted := true
        mutedUntil := s.mutedUntil },
     { s with
        mutedAlerts := if d.sendAlert || d.sendRecovery then s.mutedAlerts + 1 else s.mutedAlerts
        lastRun := now
        lastBoot := r.reboot
        lastReport := lastReport })
  else
    let unmuted := if s.mutedUntil ≠ 0 then
        { s with mutedUntil := 0, muteReason := "", mutedAlerts := 0 } else s
    ({ d with justUnmuted := s.mutedUntil ≠ 0 },
     { unmuted with
        failing := levels (r.current p)
        lastRun := now
        lastBoot := r.reboot
        consecutive := if (r.current p).keys ≠ [] then s.consecutive + 1 else 0
        lastAlert := if d.sendAlert || d.sendRecovery then now else s.lastAlert
        lastReport := lastReport })

section Maps

variable {β : String → Type}

theorem keys_eq_nil {m : AList β} : m.keys = [] ↔ ∀ key, key ∉ m :=
  List.eq_nil_iff_forall_not_mem

theorem mem_levels {current : AList fun _ : String => Check} {key : String} :
    key ∈ levels current ↔ key ∈ current := by
  simp [AList.mem_keys, AList.keys, levels, List.keys]

theorem lookup_levels (current : AList fun _ : String => Check) (key : String) :
    (levels current).lookup key = (current.lookup key).map fun c => c.level.text := by
  cases hlookup : current.lookup key with
  | none =>
    rw [Option.map_none, AList.lookup_eq_none, mem_levels]
    exact AList.lookup_eq_none.mp hlookup
  | some c =>
    have hentry := AList.mem_lookup_iff.mp hlookup
    exact AList.mem_lookup_iff.mpr (List.mem_map.mpr ⟨⟨key, c⟩, hentry, rfl⟩)

end Maps

section Current

variable {r : Report} {p : Policy} {key : String} {c : Check}

theorem mem_fold_problems {checks : List Check} {m : AList fun _ : String => Check} :
    key ∈ checks.foldl (fun m c => if p.ignores c then m else m.insert c.key c) m ↔
      key ∈ m ∨ ∃ c ∈ checks, p.ignores c = false ∧ c.key = key := by
  induction checks generalizing m with
  | nil => simp
  | cons c rest ih =>
    rw [List.foldl_cons, ih]
    cases hignored : p.ignores c
    · simp only [Bool.false_eq_true, if_false, AList.mem_insert, List.exists_mem_cons_iff,
        hignored]
      grind
    · simp [hignored]

theorem lookup_fold_problems {checks : List Check} {m : AList fun _ : String => Check}
    (h : (checks.foldl (fun m c => if p.ignores c then m else m.insert c.key c) m).lookup key =
      some c) : m.lookup key = some c ∨ c ∈ checks ∧ c.key = key := by
  induction checks generalizing m with
  | nil => exact .inl h
  | cons d rest ih =>
    rw [List.foldl_cons] at h
    rcases ih h with hm | ⟨hmem, hkey⟩
    · split_ifs at hm with hignored
      · exact .inl hm
      · by_cases hkey : key = d.key
        · subst hkey
          rw [AList.lookup_insert, Option.some.injEq] at hm
          subst hm
          exact .inr ⟨List.mem_cons_self, rfl⟩
        · rw [AList.lookup_insert_ne hkey] at hm
          exact .inl hm
    · exact .inr ⟨List.mem_cons_of_mem _ hmem, hkey⟩

theorem mem_current : key ∈ r.current p ↔ ∃ c ∈ r.problems, p.ignores c = false ∧ c.key = key := by
  simp [Report.current, mem_fold_problems]

theorem mem_current_of_alertOnWarn (hwarn : p.alertOnWarn = true) :
    key ∈ r.current p ↔ ∃ c ∈ r.problems, c.key = key := by
  simp [mem_current, Policy.ignores, hwarn]

theorem lookup_current (h : (r.current p).lookup key = some c) :
    c ∈ r.problems ∧ c.key = key := by
  rcases lookup_fold_problems h with hnone | hmem
  · cases hnone
  · exact hmem

theorem current_keys_ne_nil (hwarn : p.alertOnWarn = true) :
    (r.current p).keys ≠ [] ↔ r.problems ≠ [] := by
  rw [Ne, keys_eq_nil, Ne, List.eq_nil_iff_forall_not_mem]
  simp only [mem_current_of_alertOnWarn hwarn]
  grind

/-- Every key of a pass has the slash that separates group and name. -/
theorem slash_of_mem_current (h : key ∈ r.current p) : '/' ∈ key.toList := by
  obtain ⟨c, -, -, rfl⟩ := mem_current.mp h
  simp [Check.key]

/-- A key with a slash is the key of the check it is cut into. -/
theorem key_backToNormal (hslash : '/' ∈ key.toList) : (backToNormal key).key = key := by
  have hsplit := List.takeWhile_append_dropWhile (p := (· != '/')) (l := key.toList)
  unfold backToNormal
  cases hrest : key.toList.dropWhile (· != '/') with
  | nil =>
    have hall := List.dropWhile_eq_nil_iff.mp hrest '/' hslash
    simp at hall
  | cons slash name =>
    have hhead : slash = '/' := by
      have := List.head_dropWhile_not (· != '/') (l := key.toList) (by simp [hrest])
      simpa [hrest] using this
    rw [hrest, hhead] at hsplit
    apply String.toList_inj.mp
    simp [Check.key, hsplit]

end Current

section Specification

variable {zone : Zone} {r : Report} {s : State} {p : Policy} {now : Instant}

/-- A problem of the pass is not remembered at the level it now has. -/
def Report.Fresh (r : Report) (s : State) (p : Policy) : Prop :=
  ∃ key c, (r.current p).lookup key = some c ∧ s.failing.lookup key ≠ some c.level.text

theorem newProblems_ne_nil : newProblems (r.current p) s.failing ≠ [] ↔ r.Fresh s p := by
  unfold newProblems Report.Fresh
  rw [Ne, List.eq_nil_iff_forall_not_mem]
  push Not
  simp only [List.mem_insertionSort, List.mem_map, List.mem_filter, decide_eq_true_eq]
  constructor
  · rintro ⟨-, e, ⟨he, hnew⟩, rfl⟩
    exact ⟨e.1, e.2, AList.mem_lookup_iff.mpr he, hnew⟩
  · rintro ⟨key, c, hlookup, hnew⟩
    exact ⟨c, ⟨key, c⟩, ⟨AList.mem_lookup_iff.mp hlookup, hnew⟩, rfl⟩

theorem compare_sendAlert :
    (r.compare zone s p now).sendAlert = true ↔
      r.Fresh s p ∨ r.repeatDue s p now = true ∨ r.rebooted s = true := by
  simp [Report.compare, ← newProblems_ne_nil, or_assoc]

theorem compare_sendRecovery :
    (r.compare zone s p now).sendRecovery = true ↔
      (r.current p).keys = [] ∧ s.failing.keys ≠ [] := by
  simp [Report.compare]

theorem mem_compare_fixed {c : Check} :
    c ∈ (r.compare zone s p now).fixed ↔
      ∃ key ∈ s.failing, key ∉ r.current p ∧ backToNormal key = c := by
  simp [Report.compare, fixedProblems, List.mem_insertionSort, AList.mem_keys, and_assoc]

theorem repeatDue_iff (hwarn : p.alertOnWarn = true) :
    r.repeatDue s p now = true ↔
      r.problems ≠ [] ∧ 0 < p.repeatAfter ∧ p.repeatAfter ≤ sub now s.lastAlert := by
  simp [Report.repeatDue, ← current_keys_ne_nil hwarn, and_assoc]

theorem decide_live (hlive : s.muted now = false) :
    (r.decide zone s p now).1 =
      { r.compare zone s p now with justUnmuted := s.mutedUntil ≠ 0 } := by
  simp [Report.decide, hlive]

theorem failing_live (hlive : s.muted now = false) :
    (r.decide zone s p now).2.failing = levels (r.current p) := by
  simp [Report.decide, hlive]

end Specification

end SuperSbc.Watchdog
