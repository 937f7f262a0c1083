import SuperSbc.ReadCommitted.Serial
import SuperSbc.Ledger.Effects

/-!
The end of a call may be reported any number of times: by the event socket, by
the CDR module, by the reconciler, by a release. Whatever the reports say and
however they interleave, the first that commits settles the call as if it had
been alone, and the others find it billed.

No delivery writes before it has locked the record, and `billed_at` never goes
back, so the guard it reads under the lock is the guard at its commit.
-/

namespace SuperSbc

open FixedPoint Rating ReadCommitted Transaction Store Billing CallControl Ledger

/-- The jobs that report the end of a call. -/
def Job.EndsCall (callUUID : UUID) : Job → Prop
  | .bill _ _ h => h.callUUID = callUUID
  | .reconcile _ _ call => call = callUUID
  | .releaseReservation _ _ call _ _ _ _ _ => call = callUUID
  | _ => False

/-- A call with a record nobody has billed and an open reservation. -/
structure InProgress (db : DB) (callUUID : UUID) : Prop where
  pending : ∃ cdr, db.row (.cdr callUUID) = some cdr ∧ cdr.billedAt = none
  reserved : db.row (.active callUUID) ≠ none

/-- A call with a billed record. -/
def RecordBilled (db : DB) (callUUID : UUID) : Prop :=
  ∃ cdr, db.row (.cdr callUUID) = some cdr ∧ cdr.billedAt.isSome

/-- A call whose record is billed and whose reservation is gone. -/
structure Settled (db : DB) (callUUID : UUID) : Prop where
  billed : RecordBilled db callUUID
  released : db.row (.active callUUID) = none

section Rows

variable {seen : DB → Prop} {db after : DB} {callUUID : UUID}

theorem Settled.of_closed {ac : Option ActiveCall} {row : CDR} {mid : DB}
    (hbilled : row.billedAt.isSome) (hfound : ac.isSome)
    (hcdr : after.row (.cdr callUUID) = (closed callUUID ac row mid).row (.cdr callUUID))
    (hactive : after.row (.active callUUID) =
      (closed callUUID ac row mid).row (.active callUUID)) :
    Settled after callUUID where
  billed := ⟨row, by rw [hcdr, closed, Database.row_set_self], hbilled⟩
  released := by simp [hactive, active_closed, hfound]

/-- The reservation row is found when every store seen is the one the call is
open in. -/
theorem InProgress.found (h : InProgress db callUUID) (honly : ∀ d, seen d → d = db)
    {ac : Option ActiveCall}
    (hmissed : ac = none → ∃ d, seen d ∧ d.row (.active callUUID) = none) : ac.isSome := by
  cases ac with
  | some a => rfl
  | none =>
    obtain ⟨d, hd, hnone⟩ := hmissed rfl
    exact absurd (honly d hd ▸ hnone) h.reserved

theorem InProgress.not_billed (h : InProgress db callUUID) {cdr : CDR}
    (hcdr : db.row (.cdr callUUID) = some cdr) : ¬ cdr.billedAt.isSome := by
  obtain ⟨found, hfound, hpending⟩ := h.pending
  obtain rfl := Option.some.inj (hfound.symm.trans hcdr)
  simp [hpending]

theorem InProgress.bill {now : Time} {h : HangupInfo} {out : Outcome}
    (hopen : InProgress db h.callUUID) (honly : ∀ d, seen d → d = db)
    (billed : Billed seen now h db after out) : Settled after h.callUUID := by
  cases billed with
  | noCDR _ _ d hd hmissing =>
    obtain ⟨cdr, hcdr, -⟩ := hopen.pending
    rw [honly d hd, hcdr] at hmissing
    cases hmissing
  | already cdr hcdr hbilled _ _ => exact absurd hbilled (hopen.not_billed hcdr)
  | settled cdr row ac price mid _ _ _ hmissed hrow _ _ _ _ hcosts hcustomer _ =>
    have hrows : ∀ key, (∀ id, key ≠ .account id) →
        after.row key = (closed h.callUUID ac row db).row key := by
      intro key hne
      rw [CustomerSettled.row_of_ne hcustomer hne, CostLines.row_of_ne hcosts hne]
    exact Settled.of_closed (by simp [hrow]) (hopen.found honly hmissed)
      (hrows _ (by simp)) (hrows _ (by simp))

theorem InProgress.release {now : Time} (hopen : InProgress db callUUID)
    (honly : ∀ d, seen d → d = db) (released : ReleasedCall seen now callUUID db after) :
    Settled after callUUID := by
  cases released with
  | already cdr hcdr hbilled _ => exact absurd hbilled (hopen.not_billed hcdr)
  | settled cdr row ac mid _ _ _ hmissed hrow _ hafter =>
    have hbilled : row.billedAt.isSome := by simp [hrow]
    subst hafter
    exact Settled.of_closed hbilled (hopen.found honly hmissed) rfl rfl

/-- The first delivery settles the call. -/
theorem InProgress.delivered {job : Job} {result : JobResult} (hopen : InProgress db callUUID)
    (hjob : job.EndsCall callUUID) (honly : ∀ d, seen d → d = db)
    (hdid : Job.Did seen db after job result) : Settled after callUUID := by
  cases hdid with
  | bill billed | reconcile billed =>
    obtain rfl := hjob
    exact hopen.bill honly billed.billed
  | releaseReservation released =>
    obtain rfl := hjob
    exact hopen.release honly (released.releasedCall (fun _ => rfl))
  | reserve _ | postMoney _ | topup _ _ _ _ | payment _ _ => exact hjob.elim

theorem RecordBilled.not_pending (h : RecordBilled db callUUID) {cdr : CDR}
    (hcdr : db.row (.cdr callUUID) = some cdr) : cdr.billedAt ≠ none := by
  obtain ⟨found, hfound, hbilled⟩ := h
  obtain rfl := Option.some.inj (hfound.symm.trans hcdr)
  simpa [Option.isSome_iff_ne_none] using hbilled

theorem RecordBilled.bill {now : Time} {h : HangupInfo} {out : Outcome}
    (hrecord : RecordBilled db h.callUUID) (hseen : ∀ d, seen d → d.row (.cdr h.callUUID) ≠ none)
    (billed : Billed seen now h db after out) : after = db ∧ out.alreadyBilled = true := by
  cases billed with
  | noCDR _ _ d hd hmissing => exact absurd hmissing (hseen d hd)
  | already _ _ _ hout hsame => exact ⟨hsame, hout⟩
  | settled cdr row ac price mid hcdr hpending _ _ _ _ _ _ _ _ _ _ =>
    exact absurd hpending (hrecord.not_pending hcdr)

theorem RecordBilled.delivered {job : Job} {result : JobResult}
    (hrecord : RecordBilled db callUUID) (hjob : job.EndsCall callUUID)
    (hseen : ∀ d, seen d → d.row (.cdr callUUID) ≠ none)
    (hdid : Job.Did seen db after job result) :
    after = db ∧ ∀ out, result = .billed out → out.alreadyBilled = true := by
  cases hdid with
  | bill billed | reconcile billed =>
    obtain rfl := hjob
    obtain ⟨hsame, hout⟩ := hrecord.bill hseen billed.billed
    exact ⟨hsame, fun out heq => JobResult.billed.inj heq ▸ hout⟩
  | releaseReservation released =>
    obtain rfl := hjob
    cases released with
    | already _ _ _ hsame => exact ⟨hsame, by simp⟩
    | settled cdr row ac mid hcdr hpending _ _ _ _ _ =>
      exact absurd hpending (hrecord.not_pending hcdr)
  | reserve _ | postMoney _ | topup _ _ _ _ | payment _ _ => exact hjob.elim

/-- Nothing that reports the end of a call touches a billed one again. -/
theorem RecordBilled.final {jobs : ℕ → Job} {σ : JobServer} (hrecord : RecordBilled db callUUID)
    (hjobs : ∀ t, (jobs t).EndsCall callUUID) (hrun : Runs jobs db σ) : σ.db = db := by
  refine hrun.invariant (fun _ d => d = db) rfl ?_
  rintro t history before after result - rfl hdid
  refine (hrecord.delivered (hjobs t) ?_ hdid).1
  rintro d ⟨-, -, rfl⟩
  obtain ⟨cdr, hcdr, -⟩ := hrecord
  simp [hcdr]

end Rows

/-- What a history of deliveries looks like. `first` is the oldest commit. -/
structure FirstWins (jobs : ℕ → Job) (start : DB) (callUUID : UUID)
    (later : List JobCommit) (first : JobCommit) (db : DB) : Prop where
  before_eq : first.before = start
  after_eq : first.after = db
  alone : (jobs first.id).tx.run start = .ok (first.value, db)
  settled : Settled db callUUID
  unchanged : ∀ c ∈ later, c.before = db ∧ c.after = db
  repeated : ∀ c ∈ later, ∀ out, c.value = .billed out → out.alreadyBilled = true

/-- The histories deliveries can have. -/
def DeliveredOnce (jobs : ℕ → Job) (start : DB) (callUUID : UUID) (history : List JobCommit)
    (db : DB) : Prop :=
  (history = [] ∧ db = start) ∨
  ∃ later first, history = later ++ [first] ∧ FirstWins jobs start callUUID later first db

theorem FirstWins.again {jobs : ℕ → Job} {start db : DB} {callUUID : UUID}
    {later : List JobCommit} {first : JobCommit} {t : ℕ} {result : JobResult}
    (h : FirstWins jobs start callUUID later first db)
    (hrepeat : ∀ out, result = .billed out → out.alreadyBilled = true) :
    FirstWins jobs start callUUID (⟨t, result, db, db⟩ :: later) first db where
  before_eq := h.before_eq
  after_eq := h.after_eq
  alone := h.alone
  settled := h.settled
  unchanged c hc := by
    rcases List.mem_cons.mp hc with rfl | hc
    · exact ⟨rfl, rfl⟩
    · exact h.unchanged c hc
  repeated c hc := by
    rcases List.mem_cons.mp hc with rfl | hc
    · exact hrepeat
    · exact h.repeated c hc

/-- In every interleaving of deliveries for one open call, either none has
committed and nothing has changed, or the store is the one the first committed
delivery leaves when it runs alone, and every later one changed nothing and,
when it was a bill, reported the call as already billed. -/
theorem first_delivery_wins (jobs : ℕ → Job) (db : DB) (callUUID : UUID) (σ : JobServer)
    (hopen : InProgress db callUUID) (hjobs : ∀ t, (jobs t).EndsCall callUUID)
    (hrun : Runs jobs db σ) :
    DeliveredOnce jobs db callUUID σ.history σ.db := by
  refine Reachable.invariant hrun (.inl ⟨rfl, rfl⟩) ?_
  intro t history before _ hinv
  rcases hinv with ⟨rfl, rfl⟩ | ⟨later, first, rfl, hfirst⟩
  · -- nothing has committed, so there is only one store to see
    refine wp_of_run ?_ (fun value q halone => .inr ⟨[], _, rfl, ?_⟩)
    · rintro d ⟨older, holder, ⟨-, rfl⟩ | ⟨later, first, rfl, -⟩⟩
      · rfl
      · simp at holder
    · obtain ⟨r, hr, hdid⟩ := run_of_wp (Job.wp_tx (jobs t) (fun result q hdid => hdid)) halone
      have hsettled := hopen.delivered (hjobs t) (fun d hd => hd) hdid
      exact ⟨rfl, rfl, halone, hr ▸ hsettled, by simp, by simp⟩
  · refine Job.wp_tx (jobs t) (fun result q hdid => .inr ⟨_ :: later, first, rfl, ?_⟩)
    have hseen : ∀ d, (∃ older, older <:+ later ++ [first] ∧
        DeliveredOnce jobs db callUUID older d) → d.row (.cdr callUUID) ≠ none := by
      rintro d ⟨older, -, ⟨-, rfl⟩ | ⟨_, _, -, hother⟩⟩
      · obtain ⟨cdr, hcdr, -⟩ := hopen.pending
        simp [hcdr]
      · obtain ⟨cdr, hcdr, -⟩ := hother.settled.billed
        simp [hcdr]
    obtain ⟨hsame, hrepeat⟩ := hfirst.settled.billed.delivered (hjobs t) hseen hdid
    rw [hsame]
    exact hfirst.again hrepeat

/-- A hangup, a release and an orphan report of one call. -/
def sampleDeliveries : ℕ → Job
  | 0 => sampleHangup 42 61
  | 1 => .releaseReservation sampleConfig 91000000000 42 503 "released" .failed "" ""
  | _ => .reconcile sampleEngine 95000000000 42

theorem first_delivery_wins_sampleDeliveries :
    ∃ db σ, InProgress db 42 ∧ Runs sampleDeliveries db σ ∧ σ.history.length = 3 ∧
      DeliveredOnce sampleDeliveries db 42 σ.history σ.db := by
  have hcommits : (runSerially (fun _ => sampleSetup 42 sampleRate) [0]
      (sampleStore ⟨10000000, by decide⟩)).map (fun setup =>
        ((setup.1.row (.cdr 42)).map (·.billedAt), (setup.1.row (.active 42)).isSome,
          (runSerially sampleDeliveries [0, 1, 2] setup.1).map (·.2.length))) =
      some (some none, true, some 3) := by
    decide +kernel
  obtain ⟨setup, -, hsetup⟩ := Option.map_eq_some_iff.mp hcommits
  obtain ⟨hcdr, hrest⟩ := Prod.mk.inj hsetup
  obtain ⟨hactive, hdelivered⟩ := Prod.mk.inj hrest
  obtain ⟨σ, hrun, hlength⟩ := runs_serially hdelivered
  have hopen : InProgress setup.1 42 :=
    ⟨Option.map_eq_some_iff.mp hcdr, Option.isSome_iff_ne_none.mp hactive⟩
  refine ⟨setup.1, σ, hopen, hrun, hlength, ?_⟩
  refine first_delivery_wins sampleDeliveries setup.1 42 σ hopen (fun t => ?_) hrun
  match t with
  | 0 => rfl
  | 1 => rfl
  | _ + 2 => rfl

end SuperSbc
