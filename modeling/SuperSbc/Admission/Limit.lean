import SuperSbc.CallControl.Authorize
import SuperSbc.Interleaving.Trace

/-!
The concurrency limit of one customer, across the two stores that enforce it:
a counter in Redis and the open reservations in Postgres. Setups take the
counter first and insert their reservation later, bills delete the reservation
first and give the counter back later, and the reconciler overwrites the
counter with a count it read some time before.

Every participant is a small machine of its own, and each operation on one of
the stores is a step. The counter is missing until the first call and after
its key has expired.
-/

namespace SuperSbc.Admission

open CallControl Interleaving

/-- How far a call has got. -/
inductive Phase where
  | idle
  /-- Counted, over a limit, and still to be taken off the counter. -/
  | refused
  /-- Counted and within the limits. -/
  | admitted
  /-- Its reservation is in `active_calls`. -/
  | active
  /-- Without a reservation, and still to be taken off the counter. -/
  | leaving
  /-- Taken off a counter that went below zero and is to be reset. -/
  | underflow
  | done
deriving DecidableEq

/-- How far a pass of `syncCounters` has got. -/
inductive SyncPhase where
  | idle
  | counted (reservations : ℤ)
  | compared (reservations : ℤ) (current : Option ℤ)
deriving DecidableEq

structure LimitState (ι κ : Type) where
  counter : Option ℤ
  call : ι → Phase
  sync : κ → SyncPhase

/-- The operations on the stores. The calls of the current second are the
answer of another counter. -/
inductive LimitStep (ι κ : Type) where
  | admitCall (i : ι) (cps : ℤ)
  | undo (i : ι)
  | insertActive (i : ι)
  | turnAway (i : ι)
  | deleteActive (i : ι)
  | leave (i : ι)
  | reset (i : ι)
  | countActive (k : κ)
  | readCounter (k : κ)
  | writeCounter (k : κ)
  | expire
deriving DecidableEq

/-- What a pass writes: the count it read, when the counter it read differs
from it or is missing. -/
def syncWrite (reservations : ℤ) : Option ℤ → Option ℤ
  | some n => if reservations ≠ n then some reservations else none
  | none => if 0 < reservations then some reservations else none

def isActive (p : Phase) : Bool := p = .active

def isHeld (p : Phase) : Bool := p = .refused || p = .admitted || p = .active || p = .leaving

/-- Counted calls that were let through. -/
def isGranted (p : Phase) : Bool := p = .admitted || p = .active || p = .leaving

section Step

variable {ι κ : Type} [Fintype ι]

def LimitState.reservations (s : LimitState ι κ) : ℤ := population isActive s.call

def LimitState.held (s : LimitState ι κ) : ℤ := population isHeld s.call

def LimitState.granted (s : LimitState ι κ) : ℤ := population isGranted s.call

instance : Phased (LimitState ι κ) ι Phase :=
  ⟨LimitState.call, fun s call => { s with call := call }, fun _ _ => rfl⟩

/-- The verdict of `Admit` on the counters after its increments. -/
def admitPhase (scope : Scope) (limit maxCPS concurrent cps : ℤ) : Phase :=
  if (admitCall scope limit maxCPS ⟨some ⟨concurrent, cps⟩, true⟩).1.any (·.exceeded)
  then .refused else .admitted

def limitStep [DecidableEq ι] [DecidableEq κ] (scope : Scope) (limit maxCPS : ℤ) :
    LimitStep ι κ → LimitState ι κ → Option (LimitState ι κ)
  | .admitCall i cps, s =>
    if s.call i = .idle then
      let n := s.counter.getD 0 + 1
      some (enter { s with counter := some n } i (admitPhase scope limit maxCPS n cps))
    else none
  | .undo i, s =>
    if s.call i = .refused then
      some (enter { s with counter := some (s.counter.getD 0 - 1) } i .done)
    else none
  | .insertActive i, s => if s.call i = .admitted then some (enter s i .active) else none
  | .turnAway i, s => if s.call i = .admitted then some (enter s i .leaving) else none
  | .deleteActive i, s => if s.call i = .active then some (enter s i .leaving) else none
  | .leave i, s =>
    if s.call i = .leaving then
      let n := s.counter.getD 0 - 1
      some (enter { s with counter := some n } i (if n < 0 then .underflow else .done))
    else none
  | .reset i, s =>
    if s.call i = .underflow then some (enter { s with counter := some 0 } i .done) else none
  | .countActive k, s =>
    if s.sync k = .idle then
      some { s with sync := Function.update s.sync k (.counted s.reservations) }
    else none
  | .readCounter k, s =>
    match s.sync k with
    | .counted n => some { s with sync := Function.update s.sync k (.compared n s.counter) }
    | _ => none
  | .writeCounter k, s =>
    match s.sync k with
    | .compared n current =>
      some { s with
        counter := (syncWrite n current).or s.counter
        sync := Function.update s.sync k .idle }
    | _ => none
  | .expire, s => some { s with counter := none }

/-- The counter is not set below the calls that are counted: neither by a pass
that writes what it read, nor by its key expiring. -/
def Covers : LimitStep ι κ → LimitState ι κ → Prop
  | .writeCounter k, s =>
    match s.sync k with
    | .compared n current => ∀ written ∈ syncWrite n current, s.held ≤ written
    | _ => True
  | .expire, s => s.held = 0
  | _, _ => True

instance Covers.decidable : ∀ (l : LimitStep ι κ) (s : LimitState ι κ), Decidable (Covers l s)
  | .writeCounter k, s =>
    match hphase : s.sync k with
    | .compared n current =>
      decidable_of_iff (∀ written ∈ syncWrite n current, s.held ≤ written)
        (by simp [Covers, hphase])
    | .idle => isTrue (by simp [Covers, hphase])
    | .counted _ => isTrue (by simp [Covers, hphase])
  | .expire, s => inferInstanceAs (Decidable (s.held = 0))
  | .admitCall _ _, _ | .undo _, _ | .insertActive _, _ | .turnAway _, _ | .deleteActive _, _
  | .leave _, _ | .reset _, _ | .countActive _, _ | .readCounter _, _ => isTrue trivial

/-- Nobody has started, and the counter is not negative. -/
structure Starts (s : LimitState ι κ) : Prop where
  calls : ∀ i, s.call i = .idle
  syncs : ∀ k, s.sync k = .idle
  counter : 0 ≤ s.counter.getD 0

/-- The counter covers what is held, so it never goes below zero, and what was
let through is within the limit. -/
structure Within (limit : ℤ) (s : LimitState ι κ) : Prop where
  covered : s.held ≤ s.counter.getD 0
  granted : s.granted ≤ limit
  nonneg : ∀ i, s.call i ≠ .underflow

theorem granted_le_held (s : LimitState ι κ) : s.granted ≤ s.held := by
  refine population_le s.call (fun p hp => ?_)
  cases p <;> simp_all [isGranted, isHeld]

theorem Within.move [DecidableEq ι] {limit : ℤ} {s : LimitState ι κ} (h : Within limit s) {i : ι}
    {p q : Phase}
    (hphase : s.call i = p) {counter : Option ℤ}
    (hcounter : counter.getD 0 - s.counter.getD 0 =
      (if isHeld q then 1 else 0) - if isHeld p then 1 else 0)
    (hgranted : isGranted q → isGranted p ∨ counter.getD 0 ≤ limit) (hq : q ≠ .underflow) :
    Within limit (enter { s with counter := counter } i q) := by
  have hheld : (enter { s with counter := counter } i q).held =
      s.held - (if isHeld p then 1 else 0) + if isHeld q then 1 else 0 := by
    rw [← hphase]
    exact population_update isHeld s.call i q
  have hsum : (enter { s with counter := counter } i q).granted =
      s.granted - (if isGranted p then 1 else 0) + if isGranted q then 1 else 0 := by
    rw [← hphase]
    exact population_update isGranted s.call i q
  have hcovered : (enter { s with counter := counter } i q).held ≤ counter.getD 0 := by
    have := h.covered
    omega
  refine ⟨hcovered, ?_, forall_enter { s with counter := counter } (P := fun _ p => p ≠ .underflow)
    hq (fun j _ => h.nonneg j)⟩
  · by_cases hq : isGranted q = true
    · rcases hgranted hq with hp | hlimit
      · rw [hsum, if_pos hp, if_pos hq]
        have := h.granted
        omega
      · exact ((granted_le_held _).trans hcovered).trans hlimit
    · rw [hsum, if_neg hq]
      have := h.granted
      split_ifs <;> omega

theorem admitPhase_within {scope : Scope} {limit maxCPS concurrent cps : ℤ} (hlimit : 0 < limit)
    (h : isGranted (admitPhase scope limit maxCPS concurrent cps)) : concurrent ≤ limit := by
  by_contra hover
  have hexceeds : exceeds limit concurrent = true := by
    simp [exceeds, hlimit, not_le.mp hover]
  simp [admitPhase, admitCall, AdmitResult.exceeded, hexceeds, isGranted] at h

theorem isHeld_admitPhase (scope : Scope) (limit maxCPS concurrent cps : ℤ) :
    isHeld (admitPhase scope limit maxCPS concurrent cps) = true := by
  unfold admitPhase
  split_ifs <;> rfl

theorem Starts.within {limit : ℤ} {s : LimitState ι κ} (h : Starts s) (hlimit : 0 ≤ limit) :
    Within limit s := by
  have hheld : s.held = 0 := by
    simp [LimitState.held, population, h.calls, isHeld]
  refine ⟨hheld.le.trans h.counter, ?_, fun i => by simp [h.calls i]⟩
  exact (granted_le_held s).trans (hheld.le.trans hlimit)

variable [DecidableEq ι] [DecidableEq κ] {scope : Scope} {limit maxCPS : ℤ}

/-- One step keeps the counter above what is held, if it does not overwrite it
with less. -/
theorem Within.step (hlimit : 0 < limit) (l : LimitStep ι κ) (s s' : LimitState ι κ)
    (h : Within limit s) (hcovers : Covers l s)
    (hstep : limitStep scope limit maxCPS l s = some s') :
    Within limit s' := by
  cases l with
  | admitCall i cps =>
    obtain ⟨hphase, rfl⟩ := Option.ite_some_none_eq_some.mp hstep
    refine h.move hphase ?_ (fun hgranted => .inr (admitPhase_within hlimit hgranted)) ?_
    · rw [isHeld_admitPhase]
      simp [isHeld]
    · unfold admitPhase
      split_ifs <;> simp
  | undo i | insertActive i | turnAway i | deleteActive i =>
    obtain ⟨hphase, rfl⟩ := Option.ite_some_none_eq_some.mp hstep
    exact h.move hphase (by simp [isHeld]) (by simp [isGranted]) (by simp)
  | leave i =>
    obtain ⟨hphase, rfl⟩ := Option.ite_some_none_eq_some.mp hstep
    have hone : 1 ≤ s.held := one_le_population (i := i) (by rw [hphase]; rfl)
    have hcounter : ¬ s.counter.getD 0 - 1 < 0 := by
      have := h.covered
      omega
    rw [if_neg hcounter]
    exact h.move hphase (by simp [isHeld]) (by simp [isGranted]) (by simp)
  | reset i =>
    obtain ⟨hphase, -⟩ := Option.ite_none_right_eq_some.mp hstep
    exact absurd hphase (h.nonneg i)
  | countActive k =>
    obtain ⟨-, rfl⟩ := Option.ite_some_none_eq_some.mp hstep
    exact ⟨h.covered, h.granted, h.nonneg⟩
  | readCounter k =>
    simp only [limitStep] at hstep
    split at hstep
    · obtain rfl := Option.some.inj hstep
      exact ⟨h.covered, h.granted, h.nonneg⟩
    · cases hstep
  | writeCounter k =>
    simp only [limitStep] at hstep
    split at hstep
    · rename_i n current hphase
      obtain rfl := Option.some.inj hstep
      cases hwrite : syncWrite n current with
      | none => exact ⟨h.covered, h.granted, h.nonneg⟩
      | some written =>
        have hread : ∀ written ∈ syncWrite n current, s.held ≤ written := by
          simpa only [Covers, hphase] using hcovers
        exact ⟨hread written hwrite, h.granted, h.nonneg⟩
    · cases hstep
  | expire =>
    obtain rfl := Option.some.inj hstep
    exact ⟨(show s.held = 0 from hcovers).le, h.granted, h.nonneg⟩

/-- At most `limit` calls of a customer have a reservation at any time, in every
interleaving in which the counter is never set below the calls that are
counted. -/
theorem concurrency_limit_kept (scope : Scope) (limit maxCPS : ℤ) (hlimit : 0 < limit)
    (start s : LimitState ι κ) (hstart : Starts start) (labels : List (LimitStep ι κ))
    (hcovers : Along (limitStep scope limit maxCPS) Covers labels start)
    (hrun : trace (limitStep scope limit maxCPS) labels start = some s) :
    s.reservations ≤ limit := by
  have hwithin : Within limit s :=
    invariant_of_along (Within.step hlimit) (hstart.within hlimit.le) hcovers hrun
  have hactive : s.reservations ≤ s.granted := by
    refine population_le s.call (fun p hp => ?_)
    cases p <;> simp_all [isActive, isGranted]
  exact hactive.trans hwithin.granted

end Step

/-- Two calls, one reconciler, no counter yet. -/
def sampleLimit : LimitState (Fin 2) (Fin 1) where
  counter := none
  call _ := .idle
  sync _ := .idle

/-- Call one is refused while call zero is up, and the counter is right when the
reconciler compares it. -/
theorem concurrency_limit_kept_sampleLimit :
    ∃ s, trace (limitStep (.customer 7) 1 0)
        [.admitCall 0 1, .insertActive 0, .admitCall 1 2, .undo 1, .countActive 0,
          .readCounter 0, .writeCounter 0] sampleLimit = some s ∧
      s.reservations ≤ 1 := by
  have hrun : (trace (limitStep (.customer 7) 1 0) [.admitCall 0 1, .insertActive 0, .admitCall 1 2,
      .undo 1, .countActive 0, .readCounter 0, .writeCounter 0] sampleLimit).isSome = true := by
    decide +kernel
  obtain ⟨s, hs⟩ := Option.isSome_iff_exists.mp hrun
  exact ⟨s, hs, concurrency_limit_kept (.customer 7) 1 0 (by decide) sampleLimit s
    ⟨fun _ => rfl, fun _ => rfl, le_rfl⟩ _ (by decide +kernel) hs⟩

/-- The reconciler counts the reservations, call zero is admitted, the
reconciler finds the counter too high and resets it, call one is admitted: with
a limit of one both have a reservation. -/
theorem reconciler_lets_two_in :
    Starts sampleLimit ∧
    ∃ s, trace (limitStep (.customer 7) 1 0) [.countActive 0, .admitCall 0 1, .readCounter 0,
        .writeCounter 0, .admitCall 1 1, .insertActive 0, .insertActive 1] sampleLimit = some s ∧
      s.reservations = 2 := by
  refine ⟨⟨fun _ => rfl, fun _ => rfl, le_rfl⟩, ?_⟩
  have hrun : (trace (limitStep (.customer 7) 1 0) [.countActive 0, .admitCall 0 1, .readCounter 0,
      .writeCounter 0, .admitCall 1 1, .insertActive 0, .insertActive 1] sampleLimit).map
      LimitState.reservations = some 2 := by
    decide +kernel
  exact Option.map_eq_some_iff.mp hrun

end SuperSbc.Admission
