import Mathlib.Data.Nat.Find
import SuperSbc.Watchdog.Maintenance

/-!
A pass as `main` runs it: load the state, decide, send, save. A mail that is
refused is logged and skipped, and the state is saved all the same, so what is
remembered is what was decided and not what was delivered.

A run is a sequence of passes from a missing state file. The module says when
a run loses nothing: every problem it remembers was mailed while it lasted,
and everything an alert named is named again once it is gone.
-/

namespace SuperSbc.Watchdog

inductive MailKind
  | alert
  | recovery
  | report
  deriving DecidableEq, Repr

/-- A mail, as far as the checks it lists: those shown with their level, and
those listed as back to normal. -/
structure Mail where
  kind : MailKind
  checks : List Check
  recovered : List Check
  deriving DecidableEq, Repr

def Mail.Names (m : Mail) (key : String) : Prop :=
  ∃ c ∈ m.checks, c.level ≠ .ok ∧ c.key = key

def Mail.NamesRecovered (m : Mail) (key : String) : Prop := ∃ c ∈ m.recovered, c.key = key

instance (m : Mail) (key : String) : Decidable (m.Names key) :=
  inferInstanceAs (Decidable (∃ c ∈ m.checks, c.level ≠ .ok ∧ c.key = key))

instance (m : Mail) (key : String) : Decidable (m.NamesRecovered key) :=
  inferInstanceAs (Decidable (∃ c ∈ m.recovered, c.key = key))

/-- The groups of a report in display order, the known ones first. -/
def Report.groups (r : Report) : List String :=
  let order := ["Services", "Containers", "Carriers", "Capture", "Resources", "Security"]
  let present := order.filter fun g => r.checks.any fun c => c.group = g
  present ++ ((r.checks.map Check.group).filter fun g => g ∉ present).eraseDups

def Report.inGroup (r : Report) (group : String) : List Check :=
  r.checks.filter fun c => c.group = group

def Report.alert (r : Report) (d : Decision) : Mail := ⟨.alert, r.problems, d.fixed⟩

def Report.recovery (d : Decision) : Mail := ⟨.recovery, [], d.fixed⟩

def Report.allClear (r : Report) : Mail := ⟨.report, r.groups.flatMap r.inGroup, []⟩

def Report.outgoing (r : Report) (d : Decision) : List Mail :=
  (if d.sendAlert then [r.alert d] else if d.sendRecovery then [Report.recovery d] else []) ++
    if d.sendReport then [r.allClear] else []

/-- The inputs of a pass; `delivers` says which of its mails the server takes. -/
structure Pass where
  report : Report
  policy : Policy
  now : Instant
  delivers : MailKind → Bool

namespace Pass

variable (zone : Zone) (p : Pass) (s : State)

def decision : Decision := (p.report.decide zone s p.policy p.now).1

/-- The state is saved whatever became of the mails. -/
def saved : State := (p.report.decide zone s p.policy p.now).2

def delivered : List Mail :=
  (p.report.outgoing (p.decision zone s)).filter fun m => p.delivers m.kind

/-- The problems of the pass that are worth an alert. -/
def found : AList fun _ : String => Check := p.report.current p.policy

end Pass

section Sending

variable {zone : Zone} {p : Pass} {s : State}

theorem delivered_alert (hlive : s.muted p.now = false) (htaken : p.delivers .alert = true)
    (halert : (p.report.compare zone s p.policy p.now).sendAlert = true) :
    p.report.alert (p.decision zone s) ∈ p.delivered zone s := by
  have hsend : (p.decision zone s).sendAlert = true := by
    rw [Pass.decision, decide_live hlive]
    exact halert
  unfold Pass.delivered Report.outgoing
  simp [hsend, Report.alert, htaken]

theorem delivered_fixed (hlive : s.muted p.now = false)
    (htaken : ∀ kind, kind ≠ .report → p.delivers kind = true)
    (hsend : (p.report.compare zone s p.policy p.now).sendAlert = true ∨
      (p.report.compare zone s p.policy p.now).sendRecovery = true) :
    ∃ m ∈ p.delivered zone s, m.recovered = (p.report.compare zone s p.policy p.now).fixed := by
  have hfixed : (p.decision zone s).fixed = (p.report.compare zone s p.policy p.now).fixed := by
    rw [Pass.decision, decide_live hlive]
  by_cases halert : (p.report.compare zone s p.policy p.now).sendAlert = true
  · exact ⟨_, delivered_alert hlive (htaken .alert (by decide)) halert, hfixed⟩
  · have hrecovery := hsend.resolve_left halert
    refine ⟨Report.recovery (p.decision zone s), ?_, hfixed⟩
    have hnoalert : (p.decision zone s).sendAlert = false := by
      rw [Pass.decision, decide_live hlive]
      simpa using halert
    have hsend : (p.decision zone s).sendRecovery = true := by
      rw [Pass.decision, decide_live hlive]
      exact hrecovery
    unfold Pass.delivered Report.outgoing
    simp [hnoalert, hsend, Report.recovery, htaken .recovery (by decide)]

/-- Only the problems of the pass are listed as such in its alert. -/
theorem found_of_alert {m : Mail} {key : String} (hmail : m ∈ p.delivered zone s)
    (hkind : m.kind = .alert) (hnames : m.Names key)
    (hcounted : ∀ c ∈ p.report.problems, p.policy.ignores c = false) : key ∈ p.found := by
  have hout := List.mem_of_mem_filter hmail
  have hchecks : m.checks = p.report.problems := by
    unfold Report.outgoing at hout
    rcases List.mem_append.mp hout with hfirst | hreport
    · split_ifs at hfirst
      · rw [List.mem_singleton.mp hfirst]
        rfl
      · rw [List.mem_singleton.mp hfirst] at hkind
        cases hkind
      · cases hfirst
    · split_ifs at hreport
      · rw [List.mem_singleton.mp hreport] at hkind
        cases hkind
      · cases hreport
  obtain ⟨c, hc, -, hkey⟩ := hnames
  rw [hchecks] at hc
  exact mem_current.mpr ⟨c, hc, hcounted c hc, hkey⟩

end Sending

section Runs

variable (zone : Zone) (passes : ℕ → Pass)

/-- The state a pass of a run loads. -/
def stateAt : ℕ → State
  | 0 => State.empty
  | n + 1 => (passes n).saved zone (stateAt n)

def deliveredAt (n : ℕ) : List Mail := (passes n).delivered zone (stateAt zone passes n)

/-- No maintenance window is open. -/
def LiveAt (n : ℕ) : Prop := (stateAt zone passes n).muted (passes n).now = false

instance (n : ℕ) : Decidable (LiveAt zone passes n) :=
  inferInstanceAs (Decidable ((stateAt zone passes n).muted (passes n).now = false))

/-- A problem is found at a level, given by its text. -/
def FoundAt (n : ℕ) (key text : String) : Prop :=
  ((passes n).found.lookup key).map (fun c => c.level.text) = some text

/-- Every problem remembered at a level has been named in a mail since it
last appeared at that level. -/
def MailedAt (n : ℕ) : Prop :=
  ∀ key text, (stateAt zone passes (n + 1)).failing.lookup key = some text →
    ∃ m ≤ n, (∃ mail ∈ deliveredAt zone passes m, mail.Names key) ∧
      ∀ i, m ≤ i → i ≤ n → FoundAt passes i key text

/-- A pass that leaves no problem, and in which a mail is delivered, comes
after everything an earlier alert named has been named as recovered, or is the
pass that names it. -/
def RecoveredAt (n : ℕ) : Prop :=
  (passes n).report.problems = [] → deliveredAt zone passes n ≠ [] →
    ∀ key, ∀ i < n, (∃ mail ∈ deliveredAt zone passes i, mail.kind = .alert ∧ mail.Names key) →
      ∃ m, i < m ∧ m ≤ n ∧ ∃ mail ∈ deliveredAt zone passes m, mail.NamesRecovered key

/-- What a pass needs so that nothing is lost: its alert and its recovery
notice are taken, no problem is ignored as a warning, and when a remembered
problem is gone while others remain there is some reason to alert. -/
structure Heard (n : ℕ) : Prop where
  taken : ∀ kind, kind ≠ .report → (passes n).delivers kind = true
  counted : ∀ c ∈ (passes n).report.problems, (passes n).policy.ignores c = false
  told : ∀ key ∈ (stateAt zone passes n).failing, key ∉ (passes n).found →
    (passes n).report.problems ≠ [] →
      (passes n).report.Fresh (stateAt zone passes n) (passes n).policy ∨
        (passes n).report.repeatDue (stateAt zone passes n) (passes n).policy (passes n).now =
          true ∨
        (passes n).report.rebooted (stateAt zone passes n) = true

variable {zone passes} {n : ℕ} {key text : String}

theorem failing_stateAt (hlive : LiveAt zone passes n) :
    (stateAt zone passes (n + 1)).failing = levels (passes n).found :=
  failing_live hlive

theorem foundAt_iff (hlive : LiveAt zone passes n) :
    FoundAt passes n key text ↔ (stateAt zone passes (n + 1)).failing.lookup key = some text := by
  rw [failing_stateAt hlive, lookup_levels, FoundAt]

/-- A problem found at a level at which it is not remembered is mailed. -/
theorem mailed_of_fresh (hlive : LiveAt zone passes n) (htaken : (passes n).delivers .alert = true)
    (hfound : FoundAt passes n key text)
    (hnew : (stateAt zone passes n).failing.lookup key ≠ some text) :
    ∃ mail ∈ deliveredAt zone passes n, mail.Names key := by
  obtain ⟨c, hlookup, rfl⟩ := Option.map_eq_some_iff.mp hfound
  obtain ⟨hproblem, hkey⟩ := lookup_current hlookup
  have hfresh : (passes n).report.Fresh (stateAt zone passes n) (passes n).policy :=
    ⟨key, c, hlookup, hnew⟩
  exact ⟨_, delivered_alert hlive htaken (compare_sendAlert.mpr (.inl hfresh)), c, hproblem,
    (Report.mem_problems.mp hproblem).2, hkey⟩

/-- Over a run: a problem is either new in the last pass, and then mailed
in it, or was remembered before and is still in the same spell. -/
theorem mailedAt_of_heard (hlive : ∀ i ≤ n, LiveAt zone passes i)
    (hheard : ∀ i ≤ n, Heard zone passes i) : MailedAt zone passes n := by
  induction n with
  | zero =>
    intro key text hsaved
    have hfound := (foundAt_iff (hlive 0 le_rfl)).mpr hsaved
    have hmail := mailed_of_fresh (hlive 0 le_rfl) ((hheard 0 le_rfl).taken .alert (by decide))
      hfound (by simp [stateAt, State.empty])
    refine ⟨0, le_rfl, hmail, fun i _ hi => ?_⟩
    rwa [Nat.le_zero.mp hi]
  | succ n ih =>
    intro key text hsaved
    have hfound := (foundAt_iff (hlive (n + 1) le_rfl)).mpr hsaved
    by_cases hbefore : (stateAt zone passes (n + 1)).failing.lookup key = some text
    · obtain ⟨m, hm, hmail, hspell⟩ := ih (fun i hi => hlive i (by omega))
        (fun i hi => hheard i (by omega)) key text hbefore
      refine ⟨m, by omega, hmail, fun i hmi hi => ?_⟩
      rcases Nat.le_succ_iff.mp hi with hi | rfl
      · exact hspell i hmi hi
      · exact hfound
    · have hmail := mailed_of_fresh (hlive (n + 1) le_rfl)
        ((hheard (n + 1) le_rfl).taken .alert (by decide)) hfound hbefore
      refine ⟨n + 1, le_rfl, hmail, fun i hmi hi => ?_⟩
      obtain rfl : i = n + 1 := by omega
      exact hfound

theorem named_recovered (hlive : LiveAt zone passes n) (hheard : Heard zone passes n)
    (hbefore : key ∈ (stateAt zone passes n).failing) (hslash : '/' ∈ key.toList)
    (hgone : key ∉ (passes n).found) :
    ∃ mail ∈ deliveredAt zone passes n, mail.NamesRecovered key := by
  have hsend : ((passes n).report.compare zone (stateAt zone passes n) (passes n).policy
        (passes n).now).sendAlert = true ∨
      ((passes n).report.compare zone (stateAt zone passes n) (passes n).policy
        (passes n).now).sendRecovery = true := by
    by_cases hproblems : (passes n).report.problems = []
    · -- Everything is fine again, so there is a recovery to send.
      refine .inr (compare_sendRecovery.mpr ⟨keys_eq_nil.mpr fun k hk => ?_, ?_⟩)
      · obtain ⟨c, hc, -⟩ := mem_current.mp hk
        rw [hproblems] at hc
        cases hc
      · exact List.ne_nil_of_mem (AList.mem_keys.mp hbefore)
    · exact .inl (compare_sendAlert.mpr (hheard.told key hbefore hgone hproblems))
  obtain ⟨mail, hmail, hrecovered⟩ := delivered_fixed hlive hheard.taken hsend
  refine ⟨mail, hmail, backToNormal key, ?_, key_backToNormal hslash⟩
  rw [hrecovered]
  exact mem_compare_fixed.mpr ⟨key, hbefore, hgone, rfl⟩

/-- Over a run: the first pass after the alert that does not find the
problem still remembers it from the pass before. -/
theorem recoveredAt_of_heard (hlive : ∀ i ≤ n, LiveAt zone passes i)
    (hheard : ∀ i ≤ n, Heard zone passes i) : RecoveredAt zone passes n := by
  rintro hclear - key i hi ⟨mail, hmail, hkind, hnames⟩
  have hnamed : key ∈ (passes i).found :=
    found_of_alert hmail hkind hnames (hheard i hi.le).counted
  have hgone : key ∉ (passes n).found := by
    intro hfound
    obtain ⟨c, hc, -⟩ := mem_current.mp hfound
    rw [hclear] at hc
    cases hc
  have hexists : ∃ m, i < m ∧ key ∉ (passes m).found := ⟨n, hi, hgone⟩
  let m := Nat.find hexists
  obtain ⟨him, hfirst⟩ : i < m ∧ key ∉ (passes m).found := Nat.find_spec hexists
  have hmn : m ≤ n := Nat.find_min' hexists ⟨hi, hgone⟩
  obtain ⟨last, hlast⟩ : ∃ last, m = last + 1 := ⟨m - 1, by omega⟩
  have hlastFound : key ∈ (passes last).found := by
    rcases Nat.eq_or_lt_of_le (Nat.lt_succ_iff.mp (hlast ▸ him)) with rfl | hlt
    · exact hnamed
    · by_contra hmissing
      exact Nat.find_min hexists (by omega : last < m) ⟨hlt, hmissing⟩
  have hremembered : key ∈ (stateAt zone passes m).failing := by
    rw [hlast, failing_stateAt (hlive last (by omega))]
    exact mem_levels.mpr hlastFound
  exact ⟨m, him, hmn, named_recovered (hlive m hmn) (hheard m hmn) hremembered
    (slash_of_mem_current hnamed) hfirst⟩

/-- In a run of passes that are all heard, neither an alert nor a recovery
is lost. -/
theorem nothing_lost (zone : Zone) (passes : ℕ → Pass) (n : ℕ)
    (hlive : ∀ i ≤ n, LiveAt zone passes i) (hheard : ∀ i ≤ n, Heard zone passes i) :
    MailedAt zone passes n ∧ RecoveredAt zone passes n :=
  ⟨mailedAt_of_heard hlive hheard, recoveredAt_of_heard hlive hheard⟩

end Runs

section Samples

def sampleCarrierDown : Check where
  group := "Carriers"
  name := "transit"
  level := .fail
  status := "unreachable"

def samplePass (report : Report) (delivers : MailKind → Bool) (n : ℕ) : Pass where
  report := report
  policy := samplePolicy
  now := sampleStart + n * (5 * minute)
  delivers := delivers

/-- A component is down for one pass. -/
def sampleOutage (n : ℕ) : Pass :=
  samplePass (if n = 0 then sampleDown else sampleClear) (fun _ => true) n

theorem nothing_lost_sampleOutage :
    MailedAt sampleZone sampleOutage 1 ∧ RecoveredAt sampleZone sampleOutage 1 := by
  refine nothing_lost sampleZone sampleOutage 1 (by decide +kernel) (fun i hi => ?_)
  refine ⟨fun _ _ => rfl, fun c _ => Bool.and_false _, fun key hkey _ hproblems => ?_⟩
  rcases Nat.le_one_iff_eq_zero_or_eq_one.mp hi with rfl | rfl
  · cases hkey
  · exact absurd (by decide +kernel) hproblems

/-- The same outage while no mail gets through. -/
def sampleRefused (n : ℕ) : Pass := samplePass sampleDown (fun _ => false) n

/-- Two problems, of which one is over before the other. -/
def samplePartial (n : ℕ) : Pass :=
  samplePass
    (if n = 0 then ⟨[sampleApiDown, sampleCarrierDown], sampleBoot⟩
      else if n = 1 then ⟨[sampleCarrierDown], sampleBoot⟩ else sampleClear)
    (fun _ => true) n

/-- A refused alert is remembered as sent, and a problem that is over while
another lasts is never named as recovered, although every mail gets through. -/
theorem mails_lost :
    (LiveAt sampleZone sampleRefused 0 ∧ ¬ MailedAt sampleZone sampleRefused 0) ∧
      (∀ i ≤ 2, LiveAt sampleZone samplePartial i) ∧
      (∀ i kind, (samplePartial i).delivers kind = true) ∧
      ¬ RecoveredAt sampleZone samplePartial 2 := by
  refine ⟨⟨by decide +kernel, ?_⟩, by decide +kernel, fun _ _ => rfl, ?_⟩
  · intro hmailed
    obtain ⟨m, hm, ⟨mail, hmail, -⟩, -⟩ := hmailed sampleApiDown.key "FAIL" (by decide +kernel)
    obtain rfl := Nat.le_zero.mp hm
    have hnone : deliveredAt sampleZone sampleRefused 0 = [] := by decide +kernel
    rw [hnone] at hmail
    cases hmail
  · intro hrecovered
    obtain ⟨m, hafter, hm, mail, hmail, hnamed⟩ := hrecovered (by decide +kernel)
      (by decide +kernel) sampleApiDown.key 0 (by decide) (by decide +kernel)
    have hnone : ∀ m ∈ [1, 2], ∀ mail ∈ deliveredAt sampleZone samplePartial m,
        ¬ mail.NamesRecovered sampleApiDown.key := by decide +kernel
    have hlisted : m ∈ [1, 2] := by
      simp only [List.mem_cons, List.not_mem_nil, or_false]
      omega
    exact hnone m hlisted mail hmail hnamed

end Samples

end SuperSbc.Watchdog
