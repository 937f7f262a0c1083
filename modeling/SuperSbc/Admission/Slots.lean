import SuperSbc.CallControl.Served
import SuperSbc.Ledger.Overdraft
import SuperSbc.Ledger.Rows

/-!
The concurrency slots of a call: who takes them, who gives them back, and what
a setup leaves behind. Increments and decrements are counted as changes made
for the call, so a counter that is reset elsewhere does not matter here.

The engine and the pipeline of a node share one configuration, so both agree
on whether calls are counted globally.
-/

namespace SuperSbc

open FixedPoint Rating ReadCommitted Transaction Store Billing CallControl

/-- The slot of the carrier that answered. -/
def leaveAnswered (h : HangupInfo) (done : Scope → Bool) : List SlotOp :=
  match h.answeredCarrierId with
  | none => []
  | some id => leave (.carrier id) (done (.carrier id))

/-- The slots a bill gives back after its commit; `done` says which decrements
Redis serves. -/
def leaveBilled (cfg : Config) (h : HangupInfo) (out : Outcome) (done : Scope → Bool) :
    List SlotOp :=
  if out.noCDR || out.alreadyBilled then []
  else
    match out.customerId with
    | none => leaveAnswered h done
    | some id => leaveAdmission cfg id (done (.customer id)) (done .global) ++ leaveAnswered h done

/-- The slots given back by a commit that concerns the call; `left` says which
decrements Redis served. -/
def deliverySlots (cfg : Config) (jobs : ℕ → Job) (left : ℕ → Scope → Bool) (callUUID : UUID)
    (c : JobCommit) : List SlotOp :=
  match (jobs c.id).hangup, c.value with
  | some h, .billed out =>
    if h.callUUID = callUUID then leaveBilled cfg h out (left c.id) else []
  | _, _ => []

namespace CallControl

section Counting

variable {scope other : Scope} {ops rest : List SlotOp}

@[simp] theorem heldSlots_nil : heldSlots scope [] = 0 := rfl

@[simp] theorem heldSlots_append :
    heldSlots scope (ops ++ rest) = heldSlots scope ops + heldSlots scope rest := by
  simp only [heldSlots, List.count_append, Nat.cast_add]
  ring

theorem heldSlots_incr :
    heldSlots scope (.incr other :: ops) =
      heldSlots scope ops + if other = scope then 1 else 0 := by
  unfold heldSlots
  rw [List.count_cons, List.count_cons]
  by_cases h : other = scope
  · simp [h]
    ring
  · simp [h]

theorem heldSlots_decr :
    heldSlots scope (.decr other :: ops) =
      heldSlots scope ops - if other = scope then 1 else 0 := by
  unfold heldSlots
  rw [List.count_cons, List.count_cons]
  by_cases h : other = scope
  · simp [h]
    ring
  · simp [h]

theorem heldSlots_leave :
    heldSlots scope (leave other true) = -if other = scope then 1 else 0 := by
  rw [leave, if_pos rfl, heldSlots_decr, heldSlots_nil, zero_sub]

end Counting

section Admission

variable {cfg : Config} {r : AuthReplies} {cust : Customer} {scope : Scope}

/-- Every decrement of an authorisation is served. -/
structure Undoes (r : AuthReplies) : Prop where
  admitCustomer : r.admitCustomer.undone = true
  admitGlobal : r.admitGlobal.undone = true
  leaveCustomer : r.leaveCustomer = true

/-- An admission keeps its increment exactly when it stays within the limits. -/
theorem heldSlots_admitCall {taken : Scope} {maxConcurrent maxCPS : ℤ} {reply : AdmitReply}
    {result : Option AdmitResult} {ops : List SlotOp} (hundone : reply.undone = true)
    (h : admitCall taken maxConcurrent maxCPS reply = (result, ops)) :
    heldSlots scope ops =
      if taken = scope ∧ result.any (fun r => !r.exceeded) then 1 else 0 := by
  unfold admitCall at h
  cases hcounts : reply.counts with
  | none =>
    rw [hcounts] at h
    obtain ⟨rfl, rfl⟩ := Prod.mk.inj h
    simp
  | some n =>
    rw [hcounts] at h
    obtain ⟨rfl, rfl⟩ := Prod.mk.inj h
    rw [heldSlots_incr, hundone, Bool.and_true]
    by_cases hexceeded : AdmitResult.exceeded ⟨exceeds maxConcurrent n.concurrent,
        exceeds maxCPS n.cps, n.concurrent, n.cps⟩ = true
    · simp [hexceeded, heldSlots_decr]
    · simp [hexceeded]

def admittedSlots (cfg : Config) (customerId : UUID) (scope : Scope) : ℤ :=
  (if Scope.customer customerId = scope then 1 else 0) +
    if cfg.limitsGlobally ∧ Scope.global = scope then 1 else 0

theorem admittedSlots_nonneg (cfg : Config) (customerId : UUID) (scope : Scope) :
    0 ≤ admittedSlots cfg customerId scope := by
  unfold admittedSlots
  split_ifs <;> norm_num

theorem heldSlots_leaveAdmission (cfg : Config) (customerId : UUID) (scope : Scope) :
    heldSlots scope (leaveAdmission cfg customerId true true) =
      -admittedSlots cfg customerId scope := by
  unfold leaveAdmission admittedSlots
  rw [heldSlots_append, heldSlots_leave]
  by_cases hglobal : cfg.limitsGlobally = true
  · simp only [hglobal, if_true, heldSlots_leave, true_and]
    ring
  · simp [hglobal]

/-- A verdict with the slots that go with it: those of an admitted call, or
none. -/
def Balanced (cfg : Config) (scope : Scope) (held : ℤ) : AuthResult → Prop
  | .admitted cust => held = admittedSlots cfg cust.id scope
  | _ => held = 0

theorem authorizeGlobal_balanced (hundo : Undoes r) :
    Balanced cfg scope
      (heldSlots scope (authorizeGlobal cfg cust r).2 +
        if Scope.customer cust.id = scope then 1 else 0)
      (authorizeGlobal cfg cust r).1 := by
  unfold authorizeGlobal
  by_cases hglobal : cfg.limitsGlobally = true
  · rw [if_pos hglobal]
    cases hadmit : admitCall .global cfg.globalMaxChannels cfg.globalMaxCPS r.admitGlobal with
    | mk result ops =>
      have hheld := @heldSlots_admitCall scope _ _ _ _ _ _ hundo.admitGlobal hadmit
      -- turning the call away gives the customer's slot back
      have hback : heldSlots scope (ops ++ leave (.customer cust.id) r.leaveCustomer) +
          (if Scope.customer cust.id = scope then 1 else 0) = heldSlots scope ops := by
        rw [heldSlots_append, hundo.leaveCustomer, heldSlots_leave]
        ring
      cases result with
      | none => exact hback.trans (by simpa using hheld)
      | some g =>
        dsimp only
        by_cases hconcurrent : g.concurrentExceeded = true
        · rw [if_pos hconcurrent]
          exact hback.trans (by simpa [AdmitResult.exceeded, hconcurrent] using hheld)
        · rw [if_neg hconcurrent]
          by_cases hcps : g.cpsExceeded = true
          · rw [if_pos hcps]
            exact hback.trans (by simpa [AdmitResult.exceeded, hcps] using hheld)
          · rw [if_neg hcps]
            simp only [Balanced, admittedSlots, hglobal, true_and]
            rw [hheld]
            simp [AdmitResult.exceeded, hconcurrent, hcps, add_comm]
  · rw [if_neg hglobal]
    simp [Balanced, admittedSlots, hglobal]

theorem authorizeCustomer_balanced (hundo : Undoes r) :
    Balanced cfg scope (heldSlots scope (authorizeCustomer cfg cust r).2)
      (authorizeCustomer cfg cust r).1 := by
  unfold authorizeCustomer
  split_ifs with hactive
  · rfl
  · cases hadmit : admitCall (.customer cust.id) cust.maxConcurrentCalls cust.maxCPS
        r.admitCustomer with
    | mk result ops =>
      have hheld := @heldSlots_admitCall scope _ _ _ _ _ _ hundo.admitCustomer hadmit
      cases result with
      | none => simpa [Balanced] using hheld
      | some c =>
        dsimp only
        by_cases hconcurrent : c.concurrentExceeded = true
        · rw [if_pos hconcurrent]
          simpa [Balanced, AdmitResult.exceeded, hconcurrent] using hheld
        · rw [if_neg hconcurrent]
          by_cases hcps : c.cpsExceeded = true
          · rw [if_pos hcps]
            simpa [Balanced, AdmitResult.exceeded, hcps] using hheld
          · rw [if_neg hcps]
            have hkept : heldSlots scope ops =
                if Scope.customer cust.id = scope then 1 else 0 := by
              simpa [AdmitResult.exceeded, hconcurrent, hcps] using hheld
            rw [heldSlots_append, hkept, add_comm]
            exact authorizeGlobal_balanced hundo

/-- An authorisation that does not admit the call leaves the counters as it
found them. -/
theorem authorize_balanced {srcIP transport : String} {srcPort : ℤ} (hundo : Undoes r) :
    Balanced cfg scope (heldSlots scope (authorize cfg srcIP srcPort transport r).2)
      (authorize cfg srcIP srcPort transport r).1 := by
  unfold authorize
  split
  · rfl
  · rfl
  · exact authorizeCustomer_balanced hundo

end Admission

section Setup

variable {cfg : Config} {now : Time} {r : Replies} {req : SetupRequest} {callUUID : UUID} {db : DB}

variable {customerId : UUID}

/-- The counters a call is admitted on. -/
def Scope.OfAdmission : Scope → Prop
  | .carrier _ => False
  | _ => True

/-- No record of the call is waiting to be billed. -/
def NotOpen (db : DB) (callUUID : UUID) : Prop :=
  ∀ row, db.row (.cdr callUUID) = some row → row.billedAt.isSome

/-- Where a call stands: it holds nothing and nothing will be given back for
it, or billing its record gives back what it holds. -/
inductive SlotsStand (cfg : Config) (callUUID : UUID) (held : Scope → ℤ) (db : DB) : Prop where
  | free (hclosed : NotOpen db callUUID) (hzero : ∀ scope, scope.OfAdmission → held scope = 0)
  | taken (customerId : UUID) (row : CDR) (hrow : db.row (.cdr callUUID) = some row)
      (hpending : row.billedAt = none) (hcustomer : row.customerId = some customerId)
      (hheld : ∀ scope, scope.OfAdmission → held scope = admittedSlots cfg customerId scope)

theorem SlotsStand.zero {held : Scope → ℤ} (h : SlotsStand cfg callUUID held db)
    (hclosed : NotOpen db callUUID) {scope : Scope} (hscope : scope.OfAdmission) :
    held scope = 0 := by
  cases h with
  | free _ hzero => exact hzero scope hscope
  | taken _ row hrow hpending _ _ =>
    have hbilled := hclosed row hrow
    rw [hpending] at hbilled
    cases hbilled

/-- Nothing fails that a setup needs to give its slots back or to pass them on:
the decrements, the rate lookup and the reservation, and the release of a
reservation whose call is turned away. -/
structure SlotsServed (cfg : Config) (now : Time) (r : Replies) (req : SetupRequest) (db : DB) :
    Prop where
  undoes : Undoes r.toAuthReplies
  leaveGlobal : r.leaveGlobal = true
  rates : ∀ group called message, r.matchRate group called ≠ .error message
  reserve : r.reserveServed = true
  fits : ∀ cust s d sell, Quoted cfg now r req db cust s d sell →
    AmountsFit cfg cust.id sell d.cdr db
  release : r.releaseServed = true

/-- A rejection leaves no record open: it writes one that is billed, or none. -/
theorem reject_notOpen {j : Rejection} (hnew : db.row (.cdr callUUID) = none) :
    NotOpen (reject cfg now r callUUID j db).db callUUID := by
  intro found hfound
  unfold reject at hfound
  dsimp only at hfound
  split at hfound
  · rename_i after hexecute
    obtain ⟨effects, hexec, rfl⟩ := exec_of_run (execute_ok hexecute).2
    rw [exec_insertCDRSetup] at hexec
    cases hrow : setupRow (rejectedCDR cfg now j) with
    | none =>
      rw [hrow] at hexec
      cases hexec
    | some row =>
      rw [hrow] at hexec
      dsimp only at hexec
      rw [Database.apply_nil, hnew, if_pos Option.isNone_none] at hexec
      obtain rfl := (Prod.mk.inj (Except.ok.inj hexec)).2
      rw [Database.apply_set, Database.row_set_self] at hfound
      obtain rfl := Option.some.inj hfound
      rw [(setupRow_head hrow).2]
      rfl
  · rw [hnew] at hfound
    cases hfound

/-- The rows of a call whose reservation was executed alone and is new. -/
structure FreshRows (customerId callUUID : UUID) (after : DB) where
  record : CDR
  record_row : after.row (.cdr callUUID) = some record
  pending : record.billedAt = none
  customer : record.customerId = some customerId
  unbilled : Unbilled record
  active : ActiveCall
  active_row : after.row (.active callUUID) = some active
  amount_nonneg : 0 ≤ active.reservedAmount.val
  account : Account
  account_row : after.row (.account active.accountId) = some account

theorem freshRows_of_run {rate : RateRow} {cdr : CDR} {result : ReserveResult} {after : DB}
    (hcdr : db.row (.cdr callUUID) = none) (hactive : db.row (.active callUUID) = none)
    (hpending : cdr.billedAt = none) (hcustomer : cdr.customerId = some customerId)
    (hrun : (reserve cfg customerId rate callUUID cdr).run db = .ok (result, after)) :
    Nonempty (FreshRows customerId callUUID after) := by
  obtain ⟨granted⟩ := granted_of_run hrun
  obtain ⟨record, active, hrecord, hopens, hrecordRow, hactiveRow⟩ :=
    granted.first_rows (fun d hd => hd ▸ hcdr) (fun d hd => hd ▸ hactive)
  obtain ⟨hcustomerId, hbilledAt⟩ := setupRow_head hrecord
  refine ⟨⟨record, hrecordRow, hbilledAt.trans hpending, hcustomerId.trans hcustomer,
    unbilled_of_setupRow hrecord, active, hactiveRow, ?_, granted.moved.new, ?_⟩⟩
  · rw [hopens.amount_eq, granted.amount_eq]
    exact reserveAmount_nonneg _ (toRating_valid rate)
  · rw [hopens.account_eq]
    exact granted.moved.row_self

/-- A rejection after the reservation bills the record, once its release is
served. -/
theorem rejectReserved_notOpen {j : Rejection} (rows : FreshRows customerId callUUID db)
    (hserved : r.releaseServed = true) :
    NotOpen (rejectReserved cfg r customerId callUUID j db).db callUUID := by
  have haccount : ∀ ac, db.row (.active callUUID) = some ac → 0 ≤ ac.reservedAmount.val ∧
      ∃ a, db.row (.account ac.accountId) = some a := by
    intro ac hac
    obtain rfl := Option.some.inj (rows.active_row.symm.trans hac)
    exact ⟨rows.amount_nonneg, rows.account, rows.account_row⟩
  obtain ⟨⟨_, effects⟩, hexec⟩ := releaseReservation_commits cfg r.releasedAt j.reject.code
    j.reject.reason j.step j.detail j.disposition rows.record_row rows.unbilled haccount
  have hexecute := execute_of_exec hexec
  have hreleased := released_of_run (execute_ok hexecute).2
  rw [rejectReserved, hserved, hexecute]
  intro found hfound
  cases hreleased with
  | already cdr hcdr hbilled _ =>
    obtain rfl := Option.some.inj (rows.record_row.symm.trans hcdr)
    rw [rows.pending] at hbilled
    cases hbilled
  | settled _ row _ _ _ _ _ _ hrow _ hafter =>
    dsimp only at hfound
    rw [hafter, closed, Database.row_set_self] at hfound
    obtain rfl := Option.some.inj hfound
    rw [hrow]
    rfl

theorem heldSlots_auth {cust : Customer} (hserved : SlotsServed cfg now r req db)
    (hauth : (authOf cfg r req).1 = .admitted cust) (scope : Scope) :
    heldSlots scope (authOf cfg r req).2 = admittedSlots cfg cust.id scope := by
  have hbalanced : Balanced cfg scope (heldSlots scope (authOf cfg r req).2)
      (authOf cfg r req).1 := authorize_balanced hserved.undoes
  rw [hauth] at hbalanced
  exact hbalanced

theorem heldSlots_refused (hserved : SlotsServed cfg now r req db)
    (hauth : ∀ cust, (authOf cfg r req).1 ≠ .admitted cust) (scope : Scope)
    (_ : scope.OfAdmission) : heldSlots scope (authOf cfg r req).2 = 0 := by
  have hbalanced : Balanced cfg scope (heldSlots scope (authOf cfg r req).2)
      (authOf cfg r req).1 := authorize_balanced hserved.undoes
  cases hverdict : (authOf cfg r req).1 with
  | failed _ | rejected _ _ _ => rwa [hverdict] at hbalanced
  | admitted cust => exact absurd hverdict (hauth cust)

theorem heldSlots_left {cust : Customer} (hserved : SlotsServed cfg now r req db)
    (hauth : (authOf cfg r req).1 = .admitted cust) (scope : Scope) (_ : scope.OfAdmission) :
    heldSlots scope ((authOf cfg r req).2 ++
      leaveAdmission cfg cust.id r.leaveCustomer r.leaveGlobal) = 0 := by
  rw [heldSlots_append, heldSlots_auth hserved hauth, hserved.undoes.leaveCustomer,
    hserved.leaveGlobal, heldSlots_leaveAdmission, add_neg_cancel]

theorem execute_reserve_fault {rate : RateRow} {cdr : CDR} {fault : Option (Fault StoreError)}
    (hfits : AmountsFit cfg customerId rate cdr db)
    (hfault : execute true (reserve cfg customerId rate callUUID cdr) db = .error fault) :
    ∃ result, fault = some (.error (.insufficientFunds result)) := by
  unfold execute Transaction.run at hfault
  rw [if_pos rfl] at hfault
  cases hexec : (reserve cfg customerId rate callUUID cdr).exec db [] with
  | error found =>
    rw [hexec] at hfault
    obtain ⟨result, rfl⟩ := reserve_fault hfits hexec
    exact ⟨result, (Except.error.inj hfault).symm⟩
  | ok done =>
    rw [hexec] at hfault
    cases hfault

/-- After the setup of a new call its slots are free, or tied to its record. -/
theorem setup_slots (hcall : req.callUUID = some callUUID)
    (hcdr : db.row (.cdr callUUID) = none) (hactive : db.row (.active callUUID) = none)
    (hserved : SlotsServed cfg now r req db) :
    SlotsStand cfg callUUID (fun scope => heldSlots scope (setup cfg now r req db).slots)
      (setup cfg now r req db).db := by
  have hunopened : NotOpen db callUUID := by simp [NotOpen, hcdr]
  have hexit : SetupExit cfg now r req callUUID db (setup cfg now r req db) := setup_exit hcall
  generalize setup cfg now r req db = run at hexit ⊢
  cases hexit with
  | authFailed cust hauth =>
    exact .free hunopened (heldSlots_refused hserved (by simp [hauth]))
  | turnedAway cust verdict detail j hauth hfresh =>
    exact .free (reject_notOpen hcdr) (heldSlots_refused hserved (by simp [hauth]))
  | rejected cust j hauth hfresh =>
    exact .free (reject_notOpen hcdr) (heldSlots_left hserved hauth)
  | poor cust s d sell currency result hquoted hreserve =>
    exact .free (reject_notOpen hcdr) (heldSlots_left hserved hquoted.auth)
  | lookupFailed cust group called message hauth hlookup =>
    exact absurd hlookup (hserved.rates group called message)
  | storeFailed cust s d sell fault hquoted hreserve hfault =>
    rw [hserved.reserve] at hreserve
    obtain ⟨result, rfl⟩ := execute_reserve_fault (hserved.fits _ _ _ _ hquoted) hreserve
    exact absurd rfl (hfault result)
  | reserved cust s d sell rr after hquoted hreserve =>
    obtain ⟨rows⟩ := freshRows_of_run hcdr hactive hquoted.fresh.billedAt hquoted.fresh.customer
      (execute_ok hreserve).2
    have hrouted : RoutedExit cfg r callUUID after cust.id (withReservation rr d)
        (routeReserved cfg r callUUID cust s sell (withReservation rr d) after) :=
      routed_exit cust s sell _
    generalize routeReserved cfg r callUUID cust s sell (withReservation rr d) after = routed
      at hrouted ⊢
    cases hrouted with
    | failed message | dialled resp _ _ _ =>
      refine .taken cust.id rows.record rows.record_row rows.pending rows.customer ?_
      intro scope _
      rw [List.append_nil]
      exact heldSlots_auth hserved hquoted.auth scope
    | noRoute j _ =>
      exact .free (rejectReserved_notOpen rows hserved.release)
        (heldSlots_left hserved hquoted.auth)

end Setup

end CallControl

end SuperSbc
