import SuperSbc.Interleaving.Tally
import SuperSbc.Interleaving.Trace
import SuperSbc.Model

/-!
The circuit breaker of one carrier. Its counters are keys in Redis that every
node changes, so a call of `Record` is a sequence of steps: the transaction
that counts the outcome, the two reads of the five-minute window, the two
writes of a trip. The steps of several calls come in any order, and each
command may fail, before or after it was carried out.

Minutes are those of one clock. A counter of a minute expires six minutes after
it was last written, so not before the clock is six minutes past it.
-/

namespace SuperSbc.CallControl.CircuitBreaker

open Interleaving

structure Breaker where
  consecutiveFaults : ℤ
  asrThresholdPercent : ℤ
  minSamples : ℤ

/-- What a call of `Record` counts, in the minute it has started in. -/
structure Outcome where
  minute : ℤ
  classification : Classification
deriving DecidableEq

def Outcome.isFault (o : Outcome) : Bool := o.classification = .carrierFault

inductive TripReason where
  | consecutiveFaults
  | lowASR
deriving DecidableEq

/-- A trip with the outcomes that were counted when it was decided, the newest
first. -/
structure Trip where
  reason : TripReason
  minute : ℤ
  seen : List Outcome

/-- How far a call of `Record` has got. -/
inductive RecordPhase where
  | idle
  | started (minute : ℤ)
  | recorded (minute : ℤ)
  | counted (minute : ℤ) (attempts : ℕ) (seen : List Outcome)
  | tripping (trip : Trip)
  | resetting
  | asking
  | done (degraded : Bool)

/-- The keys of the carrier; a missing counter is zero. -/
structure BreakerState (ι : Type) where
  now : ℤ
  consec : Tally Outcome.isFault
  attempts : ℤ → ℕ
  answered : ℤ → ℕ
  degraded : Option Trip
  call : ι → RecordPhase

/-- The commands of a call, each with what became of it: whether it was carried
out, whether its answer arrived. -/
inductive Command where
  | start
  | record (classification : Classification) (applied replied : Bool)
  | readAttempts (replied : Bool)
  | readAnswered (replied : Bool)
  | writeDegraded (applied : Bool)
  | resetConsec (applied : Bool)
  | ask (replied : Bool)

inductive BreakerStep (ι : Type) where
  | call (i : ι) (c : Command)
  | tick
  | expireConsec
  | expireAttempts (minute : ℤ)
  | expireAnswered (minute : ℤ)
  | expireDegraded

def incr (counter : ℤ → ℕ) (minute : ℤ) : ℤ → ℕ :=
  Function.update counter minute (counter minute + 1)

/-- The sum over the minute and the four before it. -/
def window (counter : ℤ → ℕ) (minute : ℤ) : ℕ :=
  ((List.range 5).map (fun i : ℕ => counter (minute - i))).sum

namespace BreakerState

variable {ι : Type} [DecidableEq ι]

def init (now : ℤ) : BreakerState ι := ⟨now, .start, fun _ => 0, fun _ => 0, none, fun _ => .idle⟩

/-- The outcomes that were counted, the newest first. -/
def log (s : BreakerState ι) : List Outcome := s.consec.recorded

instance : Phased (BreakerState ι) ι RecordPhase :=
  ⟨call, fun s call => { s with call := call }, fun _ _ => rfl⟩

/-- The transaction of `Record`. -/
def count (s : BreakerState ι) (o : Outcome) : BreakerState ι :=
  { s with
    consec := s.consec.record o
    attempts := incr s.attempts o.minute
    answered := if o.classification = .answered then incr s.answered o.minute else s.answered }

end BreakerState

section Step

variable {ι : Type} [DecidableEq ι] (b : Breaker)

/-- Where `Record` goes on after its transaction. -/
def afterRecord (o : Outcome) (consec : Tally Outcome.isFault) : RecordPhase :=
  if o.classification = .carrierFault ∧ 0 < b.consecutiveFaults ∧
      b.consecutiveFaults ≤ consec.count then
    .tripping ⟨.consecutiveFaults, o.minute, consec.recorded⟩
  else if 0 < b.asrThresholdPercent ∧ 0 < b.minSamples then .recorded o.minute
  else .asking

/-- Where it goes on when both counts of the window are read. -/
def afterWindow (minute : ℤ) (attempts answered : ℕ) (seen : List Outcome) : RecordPhase :=
  if b.minSamples ≤ attempts ∧ (answered : ℤ) * 100 < attempts * b.asrThresholdPercent then
    .tripping ⟨.lowASR, minute, seen⟩
  else .asking

/-- A command, in the only phase it is sent in, with the next phase. -/
def act (s : BreakerState ι) : Command → RecordPhase → Option (BreakerState ι × RecordPhase)
  | .start, .idle => some (s, .started s.now)
  | .record classification applied replied, .started minute =>
    let o : Outcome := ⟨minute, classification⟩
    if classification = .cancelled then some (s, .asking)
    else if !applied then some (s, .done false)
    else some (s.count o, if replied then afterRecord b o (s.count o).consec else .done false)
  | .readAttempts replied, .recorded minute =>
    some (s, .counted minute (if replied then window s.attempts minute else 0) s.log)
  | .readAnswered replied, .counted minute attempts seen =>
    some (s, afterWindow b minute attempts (if replied then window s.answered minute else 0) seen)
  | .writeDegraded applied, .tripping trip =>
    some ({ s with degraded := if applied then some trip else s.degraded }, .resetting)
  | .resetConsec applied, .resetting =>
    some ({ s with consec := if applied then s.consec.clear else s.consec }, .done true)
  | .ask replied, .asking => some (s, .done (replied && s.degraded.isSome))
  | _, _ => none

def breakerStep : BreakerStep ι → BreakerState ι → Option (BreakerState ι)
  | .call i c, s => (act b s c (s.call i)).map (fun next => enter next.1 i next.2)
  | .tick, s => some { s with now := s.now + 1 }
  | .expireConsec, s => some { s with consec := s.consec.clear }
  | .expireAttempts minute, s =>
    if minute + 6 ≤ s.now then some { s with attempts := Function.update s.attempts minute 0 }
    else none
  | .expireAnswered minute, s =>
    if minute + 6 ≤ s.now then some { s with answered := Function.update s.answered minute 0 }
    else none
  | .expireDegraded, s => some { s with degraded := none }

end Step

/-- The attempts of a minute that are in a log. -/
def attemptsAt (log : List Outcome) (minute : ℤ) : ℕ := log.countP (·.minute = minute)

def answeredAt (log : List Outcome) (minute : ℤ) : ℕ :=
  log.countP (fun o => o.minute = minute ∧ o.classification = .answered)

/-- The carrier deserved the trip: when it was decided, as many outcomes as it
takes had been faults in a row, or too few attempts of the window were
answered. -/
def Trip.Justified (b : Breaker) (t : Trip) : Prop :=
  match t.reason with
  | .consecutiveFaults =>
    0 < b.consecutiveFaults ∧ b.consecutiveFaults ≤ streak Outcome.isFault t.seen
  | .lowASR =>
    b.minSamples ≤ window (attemptsAt t.seen) t.minute ∧
      (window (answeredAt t.seen) t.minute : ℤ) * 100 <
        window (attemptsAt t.seen) t.minute * b.asrThresholdPercent

/-- The answered calls are read, and by the end of the next minute: a read that
fails counts none of them, and a late one misses those that have expired. -/
def Command.Prompt (now : ℤ) : Command → RecordPhase → Prop
  | .readAnswered replied, .counted minute _ _ => replied = true ∧ now ≤ minute + 1
  | _, _ => True

def Prompt {ι : Type} : BreakerStep ι → BreakerState ι → Prop
  | .call i c, s => c.Prompt s.now (s.call i)
  | _, _ => True

section Window

variable {f g : ℤ → ℕ} {log : List Outcome}

theorem window_le {minute : ℤ} (h : ∀ k, minute - 5 < k → f k ≤ g k) :
    window f minute ≤ window g minute := by
  refine List.sum_le_sum (fun i hi => h _ ?_)
  have := List.mem_range.mp hi
  omega

theorem incr_apply (f : ℤ → ℕ) (minute k : ℤ) :
    incr f minute k = f k + if minute = k then 1 else 0 := by
  unfold incr
  rw [Function.update_apply]
  split_ifs <;> simp_all

theorem attemptsAt_cons (o : Outcome) (k : ℤ) :
    attemptsAt (o :: log) k = attemptsAt log k + if o.minute = k then 1 else 0 := by
  simp [attemptsAt, List.countP_cons]

theorem answeredAt_cons (o : Outcome) (k : ℤ) : answeredAt (o :: log) k =
    answeredAt log k + if o.minute = k ∧ o.classification = .answered then 1 else 0 := by
  simp [answeredAt, List.countP_cons]

theorem answeredAt_mono {seen : List Outcome} (h : seen <:+ log) (k : ℤ) :
    answeredAt seen k ≤ answeredAt log k :=
  h.sublist.countP_le

end Window

section Run

variable {ι : Type} {b : Breaker} {s : BreakerState ι} {log log' : List Outcome}

/-- The trip was decided on outcomes of this run, and rightly. -/
def Trip.Sound (b : Breaker) (log : List Outcome) (t : Trip) : Prop :=
  t.seen <:+ log ∧ t.Justified b

def RecordPhase.Sound (b : Breaker) (log : List Outcome) : RecordPhase → Prop
  | .counted minute attempts seen => seen <:+ log ∧ attempts ≤ window (attemptsAt seen) minute
  | .tripping t => t.Sound b log
  | _ => True

/-- Attempts are never counted twice, and the answered ones are all there until
their key expires. -/
structure BreakerState.Sound (b : Breaker) (s : BreakerState ι) : Prop where
  attempts : ∀ k, s.attempts k ≤ attemptsAt s.log k
  answered : ∀ k, s.now < k + 6 → answeredAt s.log k ≤ s.answered k
  call : ∀ i, (s.call i).Sound b s.log
  degraded : ∀ t ∈ s.degraded, t.Sound b s.log

theorem Trip.Sound.mono {t : Trip} (h : t.Sound b log) (hlog : log <:+ log') : t.Sound b log' :=
  ⟨h.1.trans hlog, h.2⟩

theorem RecordPhase.Sound.mono {p : RecordPhase} (h : p.Sound b log) (hlog : log <:+ log') :
    p.Sound b log' := by
  cases p with
  | counted => exact ⟨h.1.trans hlog, h.2⟩
  | tripping t => exact Trip.Sound.mono h hlog
  | _ => trivial

theorem sound_init (now : ℤ) : (BreakerState.init now : BreakerState ι).Sound b where
  attempts _ := Nat.le_refl 0
  answered _ _ := Nat.le_refl 0
  call _ := trivial
  degraded _ h := by cases h

namespace BreakerState.Sound

theorem move [DecidableEq ι] (h : s.Sound b) (i : ι) {p : RecordPhase} (hp : p.Sound b s.log) :
    (enter s i p).Sound b where
  attempts := h.attempts
  answered := h.answered
  call := forall_enter s (P := fun _ q => q.Sound b s.log) hp (fun j _ => h.call j)
  degraded := h.degraded

/-- The transaction adds the outcome to the log and to the counters alike. -/
theorem count (h : s.Sound b) (o : Outcome) : (s.count o).Sound b where
  attempts k := by
    change incr s.attempts o.minute k ≤ attemptsAt (o :: s.log) k
    rw [incr_apply, attemptsAt_cons]
    exact Nat.add_le_add_right (h.attempts k) _
  answered k hk := by
    change answeredAt (o :: s.log) k ≤ _
    rw [answeredAt_cons]
    have hold := h.answered k hk
    unfold BreakerState.count
    dsimp only
    split_ifs <;> simp_all [incr_apply]
  call i := (h.call i).mono (List.suffix_cons o s.log)
  degraded t ht := (h.degraded t ht).mono (List.suffix_cons o s.log)

theorem clearConsec (h : s.Sound b) : { s with consec := s.consec.clear }.Sound b :=
  ⟨h.attempts, h.answered, h.call, h.degraded⟩

theorem afterRecord (o : Outcome) : (afterRecord b o s.consec).Sound b s.log := by
  unfold CircuitBreaker.afterRecord
  split_ifs with htrip
  · refine ⟨List.suffix_refl _, htrip.2.1, htrip.2.2.trans ?_⟩
    exact_mod_cast s.consec.count_le_streak
  · trivial
  · trivial

/-- The attempts are read before the answered ones, so what is answered in the
meantime can only speak for the carrier. -/
theorem afterWindow {minute : ℤ} {attempts : ℕ} {seen : List Outcome} (h : s.Sound b)
    (hcounted : (RecordPhase.counted minute attempts seen).Sound b s.log)
    (hnow : s.now ≤ minute + 1) :
    (afterWindow b minute attempts (window s.answered minute) seen).Sound b s.log := by
  unfold CircuitBreaker.afterWindow
  split_ifs with htrip
  · obtain ⟨hseen, hattempts⟩ := hcounted
    have hanswered : window (answeredAt seen) minute ≤ window s.answered minute :=
      window_le (fun k hk => (answeredAt_mono hseen k).trans (h.answered k (by omega)))
    have hpercent : 0 < b.asrThresholdPercent := by
      by_contra hnot
      have := mul_nonpos_of_nonneg_of_nonpos (Int.natCast_nonneg attempts) (not_lt.mp hnot)
      omega
    refine ⟨hseen, htrip.1.trans (Int.ofNat_le.mpr hattempts), ?_⟩
    calc (window (answeredAt seen) minute : ℤ) * 100
        ≤ window s.answered minute * 100 := by omega
      _ < attempts * b.asrThresholdPercent := htrip.2
      _ ≤ window (attemptsAt seen) minute * b.asrThresholdPercent :=
        mul_le_mul_of_nonneg_right (Int.ofNat_le.mpr hattempts) hpercent.le
  · trivial

theorem act [DecidableEq ι] {c : Command} {p : RecordPhase} {next : BreakerState ι × RecordPhase}
    (h : s.Sound b) (hp : p.Sound b s.log) (hprompt : c.Prompt s.now p)
    (hact : act b s c p = some next) : next.1.Sound b ∧ next.2.Sound b next.1.log := by
  unfold CircuitBreaker.act at hact
  split at hact
  · cases hact
    exact ⟨h, trivial⟩
  · dsimp only at hact
    split_ifs at hact <;> cases hact
    · exact ⟨h, trivial⟩
    · exact ⟨h, trivial⟩
    · exact ⟨h.count _, afterRecord _⟩
    · exact ⟨h.count _, trivial⟩
  · cases hact
    refine ⟨h, List.suffix_refl _, ?_⟩
    split_ifs
    · exact window_le (fun k _ => h.attempts k)
    · exact Nat.zero_le _
  · cases hact
    rw [if_pos hprompt.1]
    exact ⟨h, h.afterWindow hp hprompt.2⟩
  · cases hact
    refine ⟨⟨h.attempts, h.answered, h.call, ?_⟩, trivial⟩
    dsimp only
    split_ifs
    · exact fun t ht => Option.some.inj ht ▸ hp
    · exact h.degraded
  · cases hact
    dsimp only
    split_ifs
    · exact ⟨h.clearConsec, trivial⟩
    · exact ⟨h, trivial⟩
  · cases hact
    exact ⟨h, trivial⟩
  · cases hact

theorem step [DecidableEq ι] {l : BreakerStep ι} {s' : BreakerState ι} (h : s.Sound b)
    (hprompt : Prompt l s) (hstep : breakerStep b l s = some s') : s'.Sound b := by
  cases l with
  | call i c =>
    obtain ⟨next, hact, rfl⟩ := Option.map_eq_some_iff.mp hstep
    obtain ⟨hnext, hphase⟩ := h.act (h.call i) hprompt hact
    exact hnext.move i hphase
  | tick =>
    cases hstep
    exact ⟨h.attempts, fun k hk => h.answered k (by dsimp only at hk; omega), h.call, h.degraded⟩
  | expireConsec =>
    cases hstep
    exact h.clearConsec
  | expireAttempts minute =>
    obtain ⟨-, hs'⟩ := Option.ite_none_right_eq_some.mp hstep
    cases hs'
    refine ⟨fun k => ?_, h.answered, h.call, h.degraded⟩
    have := h.attempts k
    dsimp only
    rw [Function.update_apply]
    split_ifs
    · exact Nat.zero_le _
    · exact this
  | expireAnswered minute =>
    obtain ⟨hexpired, hs'⟩ := Option.ite_none_right_eq_some.mp hstep
    cases hs'
    refine ⟨h.attempts, fun k hk => ?_, h.call, h.degraded⟩
    dsimp only at hk ⊢
    rw [Function.update_of_ne (by omega)]
    exact h.answered k hk
  | expireDegraded =>
    cases hstep
    exact ⟨h.attempts, h.answered, h.call, fun t ht => by cases ht⟩

end BreakerState.Sound

/-- However the calls of several nodes interleave and whatever fails, a carrier
is degraded only for outcomes that it had when the trip was decided. -/
theorem degraded_justified [DecidableEq ι] (b : Breaker) (labels : List (BreakerStep ι)) (now : ℤ)
    (final : BreakerState ι) (hrun : trace (breakerStep b) labels (.init now) = some final)
    (hprompt : Along (breakerStep b) Prompt labels (.init now)) (t : Trip)
    (ht : final.degraded = some t) : t.seen <:+ final.log ∧ t.Justified b :=
  (invariant_of_along (fun _ _ _ h hok hstep => h.step hok hstep) (sound_init now) hprompt
    hrun).degraded t ht

/-- Two nodes that report a fault each at the same time. -/
def twoFaults : List (BreakerStep Bool) :=
  [.call false .start, .call true .start, .call true (.record .carrierFault true true),
    .call false (.record .carrierFault true true), .call false (.writeDegraded true)]

theorem degraded_justified_twoFaults : ∃ final t,
    trace (breakerStep ⟨2, 20, 20⟩) twoFaults (.init 0) = some final ∧ final.degraded = some t ∧
      t.seen <:+ final.log ∧ t.Justified ⟨2, 20, 20⟩ :=
  ⟨_, _, rfl, rfl, degraded_justified _ twoFaults 0 _ rfl
    ⟨trivial, fun _ _ => ⟨trivial, fun _ _ => ⟨trivial, fun _ _ => ⟨trivial, fun _ _ =>
      ⟨trivial, fun _ _ => trivial⟩⟩⟩⟩⟩ _ rfl⟩

end Run

end SuperSbc.CallControl.CircuitBreaker
