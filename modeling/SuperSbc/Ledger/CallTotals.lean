import SuperSbc.CallControl.Dialling
import SuperSbc.CallControl.Served
import SuperSbc.Ledger.Frame
import SuperSbc.Ledger.LockOrder
import SuperSbc.Ledger.Rows
import SuperSbc.ReadCommitted.Schedule

/-!
A call's record against the call's ledger lines. The money columns of a record
are written by several functions, some of them on a copy in memory; the lines
are only ever appended. While a call goes through setup, attempts, and one of
the ways it can end, the two agree, as long as two things do not happen: a
reservation for a call that already has a record, and a rejection after the
reservation's transaction was rolled back, because the copy of the record in
memory keeps the amount.

A setup is at most two transactions, its reservation and its rejection or
release, so the runs here have an act for each. Operators may move money on
the accounts in between.
-/

namespace SuperSbc

open FixedPoint Rating ReadCommitted Transaction Store Billing CallControl

/-- What can happen to calls: a job, the record of a call that is turned away,
the report of an attempt. -/
inductive CallAct where
  | job (j : Job)
  | reject (cfg : Config) (now : Time) (callUUID : UUID) (j : Rejection)
  | report (callUUID : UUID) (record : AttemptRecord)

abbrev CallCommit := Commit ℕ Key Row LedgerEntry Unit

abbrev CallServer := Server ℕ Key Row LedgerEntry StoreError Unit

namespace CallAct

def tx : CallAct → Tx Unit
  | .job j => do
      let _ ← j.tx
      pure ()
  | .reject cfg now callUUID j => insertCDRSetup callUUID (rejectedCDR cfg now j)
  | .report callUUID record => appendAttempt callUUID record

def reserves : CallAct → Option UUID
  | .job (.reserve _ _ _ callUUID _) => some callUUID
  | _ => none

def records : CallAct → Option UUID
  | .job (.reserve _ _ _ callUUID _) => some callUUID
  | .reject _ _ callUUID _ => some callUUID
  | _ => none

inductive Did (seen : DB → Prop) (db after : DB) : CallAct → Prop where
  | job {j result} (did : Job.Did seen db after j result) : Did seen db after (.job j)
  | reject {cfg now callUUID j}
      (inserted : Inserted seen (.cdr callUUID)
        (fun row => setupRow (rejectedCDR cfg now j) = some row) db after) :
      Did seen db after (.reject cfg now callUUID j)
  | report {callUUID record} (cdr : CDR) (hcdr : db.row (.cdr callUUID) = some cdr)
      (hafter : after = db.set (.cdr callUUID) (some { cdr with
        attempts := cdr.attempts ++ [record], failoverDepth := cdr.attempts.length })) :
      Did seen db after (.report callUUID record)
  | unreported {callUUID record} (d : DB) (hseen : seen d)
      (hmissing : d.row (.cdr callUUID) = none) (hsame : after = db) :
      Did seen db after (.report callUUID record)

theorem wp_tx {seen : DB → Prop} {db : DB} (act : CallAct)
    {post : Unit → Progress Key Row LedgerEntry → Prop}
    (h : ∀ q, Did seen db (db.apply q.effects) act → post () q) :
    act.tx.wp seen db .start post := by
  cases act with
  | job j => exact (wp_bind _ _ _).mpr (Job.wp_tx j (fun _ q did => h q (.job did)))
  | reject cfg now callUUID j =>
    exact wp_insertedCDR rfl (fun q inserted _ => h q (.reject inserted))
  | report callUUID record =>
    unfold tx appendAttempt
    rw [wp_bind, wp_updateRow]
    refine ⟨fun cdr row hcdr hput => ?_, fun d hd _ hskip => h _ (.unreported d hd ?_ rfl)⟩
    · obtain rfl := Change.put.inj hput
      exact h _ (.report cdr hcdr rfl)
    · cases hrow : d.row (.cdr callUUID) with
      | none => rfl
      | some row => cases hskip row hrow

end CallAct

/-- The states every interleaving of the acts can reach. -/
def CallRuns (acts : ℕ → CallAct) (db : DB) (σ : CallServer) : Prop :=
  Reachable (fun t => (acts t).tx) db σ

theorem CallRuns.invariant {acts : ℕ → CallAct} {db : DB} {σ : CallServer}
    (hrun : CallRuns acts db σ) (Inv : List CallCommit → DB → Prop) (hinit : Inv [] db)
    (hcommit : ∀ t history before after, Inv history before →
      CallAct.Did (fun d => ∃ older, older <:+ history ∧ Inv older d) before after (acts t) →
      Inv (⟨t, (), before, after⟩ :: history) after) :
    Inv σ.history σ.db := by
  refine Reachable.invariant hrun hinit (fun t history before _ hinv => ?_)
  exact CallAct.wp_tx (acts t) (fun q hdid => hcommit t history before _ hinv hdid)

namespace Ledger

/-- `SUM(amount)` over a call's ledger lines of one type. -/
def posted (log : List LedgerEntry) (callUUID : UUID) (kind : LedgerKind) : Decimal :=
  (log.map (fun e => if e.callUUID = some callUUID ∧ e.kind = kind then e.amount.val else 0)).sum

/-- A record whose columns are the sums of the call's lines. -/
structure Agrees (log : List LedgerEntry) (callUUID : UUID) (cdr : CDR) : Prop where
  reserved : cdr.reservedAmount = -posted log callUUID .reserve
  released : cdr.releasedAmount = posted log callUUID .release
  returned : cdr.releasedAmount = cdr.reservedAmount
  charged : cdr.chargedAmount = cdr.sellPrice
  price : cdr.sellPrice = -posted log callUUID .charge
  cost : cdr.cost = -posted log callUUID .cost

/-- A record nobody has billed, its open reservation, and the one line posted
for them. -/
structure Held (log : List LedgerEntry) (callUUID : UUID) (cdr : CDR) (ac : ActiveCall) : Prop where
  pending : cdr.billedAt = none
  unbilled : Unbilled cdr
  amount : ac.reservedAmount.val = cdr.reservedAmount
  sellFX : 0 ≤ cdr.sellFX
  lines : ∀ kind, posted log callUUID kind = if kind = .reserve then -cdr.reservedAmount else 0

/-- Where a call stands: unknown, in progress with money reserved, or over. -/
inductive CallState (db : DB) (callUUID : UUID) : Prop where
  | unknown (hcdr : db.row (.cdr callUUID) = none) (hactive : db.row (.active callUUID) = none)
      (hlines : ∀ kind, posted db.log callUUID kind = 0)
  | pending (cdr : CDR) (ac : ActiveCall) (hcdr : db.row (.cdr callUUID) = some cdr)
      (hactive : db.row (.active callUUID) = some ac) (hheld : Held db.log callUUID cdr ac)
  | billed (cdr : CDR) (hcdr : db.row (.cdr callUUID) = some cdr) (hbilled : cdr.billedAt.isSome)
      (hagrees : Agrees db.log callUUID cdr)

theorem CallState.of_unrecorded {db : DB} {call : UUID} (h : CallState db call)
    (hnone : db.row (.cdr call) = none) :
    db.row (.active call) = none ∧ ∀ kind, posted db.log call kind = 0 := by
  cases h with
  | unknown _ hactive hlines => exact ⟨hactive, hlines⟩
  | pending _ _ hfound _ _ | billed _ hfound _ _ =>
    rw [hnone] at hfound
    cases hfound

section Postings

variable {db after : DB} {callUUID accountId : UUID}

theorem posted_append (log : List LedgerEntry) (e : LedgerEntry) (call : UUID)
    (kind : LedgerKind) :
    posted (log ++ [e]) call kind =
      posted log call kind +
        if e.callUUID = some call ∧ e.kind = kind then e.amount.val else 0 := by
  simp [posted]

theorem posted_moved {owner : Option UUID} {kind : LedgerKind} {change : Account → Change Account}
    {amount : Decimal} (moved : Moved accountId owner kind change amount db after)
    (hscale : OnScale scale amount) (call : UUID) (other : LedgerKind) :
    posted after.log call other =
      posted db.log call other + if owner = some call ∧ kind = other then amount else 0 := by
  rw [moved.log_eq, posted_append, moved.entry_call, moved.entry_kind,
    Numeric.val_assign_of_onScale moved.entry_amount hscale]

theorem posted_released {amount : Decimal} (h : Released callUUID accountId amount db after)
    (hscale : OnScale scale amount) (call : UUID) (kind : LedgerKind) :
    posted after.log call kind =
      posted db.log call kind + if callUUID = call ∧ .release = kind then amount else 0 := by
  unfold Released at h
  split_ifs at h with hzero
  · rw [h, hzero, ite_self, add_zero]
  · obtain ⟨moved⟩ := h
    rw [posted_moved moved hscale]
    simp

theorem posted_charged {price : Decimal} (h : Charged callUUID accountId price db after)
    (hscale : OnScale scale price) (hnonneg : 0 ≤ price) (call : UUID) (kind : LedgerKind) :
    posted after.log call kind =
      posted db.log call kind + if callUUID = call ∧ .charge = kind then -price else 0 := by
  unfold Charged at h
  split_ifs at h with hpositive
  · obtain ⟨moved⟩ := h
    rw [posted_moved moved hscale.neg]
    simp
  · obtain rfl : price = 0 := le_antisymm (not_lt.mp hpositive) hnonneg
    rw [h, neg_zero, ite_self, add_zero]

theorem posted_inserted {seen : DB → Prop} {key : Key} {ok : Row key → Prop}
    (h : Inserted seen key ok db after) (call : UUID) (kind : LedgerKind) :
    posted after.log call kind = posted db.log call kind := by
  cases h with
  | fresh _ _ _ hafter => rw [hafter, Database.log_set]
  | conflict _ _ _ hafter => rw [hafter]

theorem posted_closed (ac : Option ActiveCall) (row : CDR) (call : UUID) (kind : LedgerKind) :
    posted (closed callUUID ac row db).log call kind = posted db.log call kind := by
  cases ac <;> rfl

end Postings

section Carriers

variable {seen : DB → Prop} {db d after : DB}

theorem posted_costs {callUUID : UUID} {lines : List (UUID × Decimal)}
    (h : CostsPosted seen db callUUID lines d after) (hseen : ∀ d, seen d → Frame db d)
    (hframe : Frame db d)
    (howned : ∀ line ∈ lines, (Store.findAccount db ⟨.carrier, line.1⟩).isSome)
    (hscale : ∀ line ∈ lines, OnScale scale line.2) (call : UUID) (kind : LedgerKind) :
    posted after.log call kind = posted d.log call kind +
      if callUUID = call ∧ .cost = kind then -(lines.map (·.2)).sum else 0 := by
  induction h with
  | done d => simp
  | @posted carrierId _ amount _ lines _ _ _ _ _ _ moved _ ih =>
    rw [ih (hframe.trans (.posted moved)) (fun line hline => howned line (.tail _ hline))
      (fun line hline => hscale line (.tail _ hline)),
      posted_moved moved (hscale (carrierId, amount) (.head _)).neg]
    simp only [Option.some.injEq, List.map_cons, List.sum_cons]
    split_ifs
    · ring
    · ring
  | @skipped carrierId amount _ _ source effects hsource hnone _ _ =>
    have hfound : (Store.findAccount source ⟨.carrier, carrierId⟩).isSome :=
      (hseen source hsource).isSome_findAccount (howned (carrierId, amount) (.head _))
    have happlied := ((hseen source hsource).apply hframe).isSome_findAccount hfound
    rw [hnone] at happlied
    cases happlied

end Carriers

section Reads

variable {seen : DB → Prop} {e : Engine} {h : HangupInfo} {c : CDR} {db : DB}

/-- The carriers a settlement owes are carriers of the store: the one that
answered, and those that charge for failed attempts. -/
theorem carrierLines_known {routed : CDR} {priced : CDR × Decimal × Decimal}
    {fees : List AttemptRecord × List AttemptFee} (hseen : ∀ d, seen d → Frame db d)
    (hanswered : ∀ id, h.answeredCarrierId = some id → (db.row (.carrier id)).isSome)
    (hread : MoneyRead seen e h c priced) (hrouted : (withTransport priced.1).Yields seen routed)
    (hfees : (failedAttemptFees e 1 [] routed.attempts).Yields seen fees) :
    ∀ line ∈ carrierLines routed.carrierId priced.2.2 fees.2,
      (db.row (.carrier line.1)).isSome := by
  intro line hline
  rcases List.mem_append.mp hline with hline | hline
  · split_ifs at hline with hcost
    · obtain ⟨carrierId, -, hcarrier, hrow⟩ := hread.carrier hcost
      obtain ⟨transport, rfl⟩ := withTransport_yields hrouted
      obtain ⟨id, hid, rfl⟩ := List.mem_map.mp hline
      obtain rfl : id = carrierId := by simpa [hrow] using hid
      exact hanswered id hcarrier
    · cases hline
  · obtain ⟨f, hf, rfl⟩ := List.mem_map.mp hline
    obtain ⟨list, hlist, hresult⟩ := failedAttemptFees_yields _
      (fun d hd => (hseen d hd).sameTariffs) (by simp [KnownBy]) hfees
    have hmem : f.carrierId ∈ (fees.2.map (·.carrierId)) := List.mem_map_of_mem hf
    rw [hresult, carriers_of_feeRead hlist] at hmem
    obtain ⟨a, ha, hcarrier⟩ := List.mem_map.mp hmem
    have hcharges := (List.mem_filter.mp ha).2
    simp only [chargesFee, Bool.and_eq_true, Option.any_eq_true] at hcharges
    obtain ⟨-, _, -, ⟨carrier, hrow, -⟩, -⟩ := hcharges
    rw [← hcarrier, hrow]
    rfl

end Reads

/-- What a transaction sees of calls: each stands somewhere, and those it sees
a record of still have one when it commits. -/
structure Behind (db d : DB) : Prop where
  frame : Frame db d
  recorded : ∀ call, d.row (.cdr call) ≠ none → db.row (.cdr call) ≠ none
  state : ∀ call, CallState d call

/-- Two stores that say the same about a call. -/
structure SameCall (db after : DB) (call : UUID) : Prop where
  record : after.row (.cdr call) = db.row (.cdr call)
  reservation : after.row (.active call) = db.row (.active call)
  lines : ∀ kind, posted after.log call kind = posted db.log call kind

section States

variable {seen : DB → Prop} {db after : DB} {call callUUID : UUID} {cdr : CDR}

variable {ac : Option ActiveCall} {row : CDR}

theorem CallState.of_same (h : CallState db call) (hsame : SameCall db after call) :
    CallState after call := by
  have hlines := hsame.lines
  cases h with
  | unknown hcdr hactive hposted =>
    exact .unknown (hsame.record.trans hcdr) (hsame.reservation.trans hactive)
      (fun kind => (hlines kind).trans (hposted kind))
  | pending cdr ac hcdr hactive hheld =>
    refine .pending cdr ac (hsame.record.trans hcdr) (hsame.reservation.trans hactive) ?_
    exact ⟨hheld.pending, hheld.unbilled, hheld.amount, hheld.sellFX,
      fun kind => (hlines kind).trans (hheld.lines kind)⟩
  | billed cdr hcdr hbilled hagrees =>
    refine .billed cdr (hsame.record.trans hcdr) hbilled ⟨?_, ?_, hagrees.returned,
      hagrees.charged, ?_, ?_⟩
    · rw [hlines, hagrees.reserved]
    · rw [hlines, hagrees.released]
    · rw [hlines, hagrees.price]
    · rw [hlines, hagrees.cost]

/-- Whoever locks the record of a call in progress finds its reservation. -/
theorem CallState.found (hstate : CallState db callUUID) (hseen : ∀ d, seen d → Behind db d)
    (hcdr : db.row (.cdr callUUID) = some cdr) (hpending : cdr.billedAt = none)
    (hactive : ∀ a, ac = some a → db.row (.active callUUID) = some a)
    (hmissed : ac = none → ∃ d, seen d ∧ d.row (.cdr callUUID) = some cdr ∧
      d.row (.active callUUID) = none) : ∃ a, ac = some a ∧ Held db.log callUUID cdr a := by
  have hsome : ac.isSome := by
    cases ac with
    | some a => rfl
    | none =>
      obtain ⟨d, hd, hrow, hmissing⟩ := hmissed rfl
      cases (hseen d hd).state callUUID with
      | unknown hnone _ _ =>
        rw [hnone] at hrow
        cases hrow
      | pending _ _ _ hopen _ =>
        rw [hmissing] at hopen
        cases hopen
      | billed found hfound hbilled _ =>
        obtain rfl := Option.some.inj (hrow.symm.trans hfound)
        rw [hpending] at hbilled
        cases hbilled
  obtain ⟨a, rfl⟩ := Option.isSome_iff_exists.mp hsome
  refine ⟨a, rfl, ?_⟩
  cases hstate with
  | unknown hnone _ _ =>
    rw [hnone] at hcdr
    cases hcdr
  | pending found open_ hfound hopen hheld =>
    obtain rfl := Option.some.inj (hcdr.symm.trans hfound)
    obtain rfl := Option.some.inj ((hactive a rfl).symm.trans hopen)
    exact hheld
  | billed found hfound hbilled _ =>
    obtain rfl := Option.some.inj (hcdr.symm.trans hfound)
    rw [hpending] at hbilled
    cases hbilled

/-- A settled call: its record holds what was posted for it. -/
theorem Held.agrees {ac : ActiveCall} {log : List LedgerEntry} (hheld : Held db.log callUUID cdr ac)
    (price cost : Decimal)
    (hlines : ∀ kind, posted log callUUID kind = posted db.log callUUID kind +
      (if .cost = kind then -cost else 0) +
      ((if .release = kind then ac.reservedAmount.val else 0) +
        if .charge = kind then -price else 0)) (hreserved : row.reservedAmount = cdr.reservedAmount)
    (hreleased : row.releasedAmount = ac.reservedAmount.val) (hprice : row.sellPrice = price)
    (hcharged : row.chargedAmount = price) (hcost : row.cost = cost) :
    Agrees log callUUID row where
  reserved := by
    rw [hlines, hheld.lines, hreserved]
    simp
  released := by
    rw [hlines, hheld.lines, hreleased]
    simp
  returned := by rw [hreleased, hreserved, hheld.amount]
  charged := hcharged.trans hprice.symm
  price := by
    rw [hlines, hheld.lines, hprice]
    simp
  cost := by
    rw [hlines, hheld.lines, hcost]
    simp

theorem states_of_settled (row : CDR) (hstates : ∀ call, CallState db call)
    (hrecord : after.row (.cdr callUUID) = some row) (hbilled : row.billedAt.isSome)
    (hagrees : Agrees after.log callUUID row)
    (hothers : ∀ other, other ≠ callUUID → SameCall db after other) (call : UUID) :
    CallState after call := by
  by_cases hcall : call = callUUID
  · subst hcall
    exact .billed row hrecord hbilled hagrees
  · exact (hstates call).of_same (hothers call hcall)

theorem sameCall_closed {mid : DB}
    (hrows : ∀ key : Key, (∀ id, key ≠ .account id) → mid.row key = db.row key)
    (hafter : ∀ key : Key, (∀ id, key ≠ .account id) →
      after.row key = (closed callUUID ac row mid).row key)
    (hlines : ∀ call kind, call ≠ callUUID → posted after.log call kind = posted db.log call kind)
    (other : UUID) (hother : other ≠ callUUID) : SameCall db after other where
  record := by
    rw [hafter _ (by simp), closed, Database.row_set_of_ne _ _ (by simpa using hother),
      ← hrows _ (by simp)]
    cases ac with
    | none => rfl
    | some a => rw [withoutActive, Database.row_set_of_ne _ _ (by simp)]
  reservation := by
    rw [hafter _ (by simp), active_closed, if_neg (fun h => hother h.1), hrows _ (by simp)]
  lines kind := hlines other kind hother

theorem states_released {finish : CDR → CDR} {now : Time}
    (released : ReleasedAs seen finish callUUID db after)
    (hstates : ∀ call, CallState db call) (hseen : ∀ d, seen d → Behind db d)
    (hfinish : ∀ c, (finish c).billedAt = some now ∧ (finish c).sellPrice = c.sellPrice ∧
      (finish c).cost = c.cost ∧ (finish c).chargedAmount = c.chargedAmount ∧
      (finish c).releasedAmount = c.releasedAmount) :
    ∀ call, CallState after call := by
  cases released with
  | already _ _ _ hsame => exact hsame ▸ hstates
  | settled cdr row ac mid hcdr hpending hactive hmissed hrow hmid hafter =>
    obtain ⟨a, rfl, hheld⟩ := (hstates callUUID).found hseen hcdr hpending hactive hmissed
    have hscale : OnScale scale a.reservedAmount.val := a.reservedAmount.val_onScale
    have hlines : ∀ call kind, posted after.log call kind = posted db.log call kind +
        if callUUID = call ∧ .release = kind then a.reservedAmount.val else 0 := by
      intro call kind
      rw [hafter, posted_closed, posted_released hmid hscale]
    obtain ⟨hbilledAt, hprice, hcost, hcharged, hreleased⟩ := hfinish (returned (some a) cdr)
    have hhead := finalizedRow_some hrow
    have hmoney := finalizedRow_money hrow
    refine states_of_settled row hstates ?_ ?_ ?_ (sameCall_closed
      (fun key hkey => GaveBack.row_of_ne hmid hkey) (fun key _ => by rw [hafter])
      (fun call kind hcall => ?_))
    · rw [hafter, closed, Database.row_set_self]
    · rw [hhead.billedAt_eq, hbilledAt]
      rfl
    · refine hheld.agrees 0 0 (fun kind => ?_) hmoney.reservedAmount_eq ?_ ?_ ?_ ?_
      · rw [hlines]
        simp
      · rw [hmoney.releasedAmount_eq, hreleased]
        exact hscale
      · rw [hhead.sellPrice_eq, hprice, returned, hheld.unbilled.sellPrice_eq]
        exact OnScale.zero scale
      · rw [hmoney.chargedAmount_eq, hcharged, returned, hheld.unbilled.chargedAmount_eq]
        exact OnScale.zero scale
      · rw [hmoney.cost_eq, hcost, returned, hheld.unbilled.cost_eq]
        exact OnScale.zero scale
    · rw [hlines, if_neg (fun h => hcall h.1.symm), add_zero]

def CarriersOwn (db : DB) : Prop :=
  ∀ id, (db.row (.carrier id)).isSome → (findAccount db ⟨.carrier, id⟩).isSome

theorem posted_settled {a : ActiveCall} {price : Decimal} {mid : DB} {lines : List (UUID × Decimal)}
    (hseen : ∀ d, seen d → Frame db d)
    (hcosts : CostsPosted seen db callUUID lines (closed callUUID (some a) row db) mid)
    (hcustomer : CustomerSettled callUUID price mid after (some a))
    (howned : ∀ line ∈ lines, (findAccount db ⟨.carrier, line.1⟩).isSome)
    (hscales : ∀ line ∈ lines, OnScale scale line.2) (hscale : OnScale scale price)
    (hprice : 0 ≤ price) (call : UUID) (kind : LedgerKind) :
    posted after.log call kind = posted db.log call kind +
      (if callUUID = call ∧ .cost = kind then -(lines.map (·.2)).sum else 0) +
      ((if callUUID = call ∧ .release = kind then a.reservedAmount.val else 0) +
        if callUUID = call ∧ .charge = kind then -price else 0) := by
  obtain ⟨released, hreleased, hcharged⟩ := hcustomer
  rw [posted_charged hcharged hscale hprice, posted_released hreleased a.reservedAmount.val_onScale,
    posted_costs hcosts hseen .closed howned hscales, posted_closed, add_assoc]

theorem settled_cost {routed : CDR} {price : Decimal} {priced : CDR × Decimal × Decimal}
    {fees : List AttemptRecord × List AttemptFee}
    (hrouted : (withTransport priced.1).Yields seen routed)
    (hrow : finalizedRow (reservationClosed ac price (withFees fees routed)) cdr = some row)
    (hcost : priced.1.cost = priced.2.2) (hcostScale : OnScale scale priced.2.2)
    (hfees : ∀ f ∈ fees.2, OnScale scale f.amount) :
    row.cost = priced.2.2 + (fees.2.map (·.amount)).sum := by
  obtain ⟨transport, rfl⟩ := withTransport_yields hrouted
  have hsum : OnScale scale (priced.2.2 + (fees.2.map (·.amount)).sum) := by
    refine hcostScale.add (OnScale.sum (fun x hx => ?_))
    obtain ⟨f, hf, rfl⟩ := List.mem_map.mp hx
    exact hfees f hf
  have hwritten : (reservationClosed ac price
      (withFees fees { priced.1 with transportOut := transport })).cost =
      priced.1.cost + (fees.2.map (·.amount)).sum := by
    cases ac <;> rfl
  rw [(finalizedRow_money hrow).cost_eq, hwritten, hcost]
  exact hsum

theorem settled_columns {a : ActiveCall} {c routed : CDR} {priced : CDR × Decimal × Decimal}
    {fees : List AttemptRecord × List AttemptFee}
    (hrouted : (withTransport priced.1).Yields seen routed)
    (hrow : finalizedRow (reservationClosed (some a) priced.2.1 (withFees fees routed)) cdr =
      some row) (hpriced : Priced c priced) (hcharged : c.chargedAmount = 0)
    (hprice : 0 ≤ priced.2.1) (hscale : OnScale scale priced.2.1) :
    row.releasedAmount = a.reservedAmount.val ∧ row.sellPrice = priced.2.1 ∧
      row.chargedAmount = priced.2.1 := by
  obtain ⟨transport, rfl⟩ := withTransport_yields hrouted
  have hmoney := finalizedRow_money hrow
  have hnoted : (if 0 < priced.2.1 then priced.2.1 else priced.1.chargedAmount) = priced.2.1 := by
    split_ifs with hpositive
    · rfl
    · rw [hpriced.charged, hcharged, le_antisymm (not_lt.mp hpositive) hprice]
  refine ⟨?_, ?_, ?_⟩
  · rw [hmoney.releasedAmount_eq]
    exact a.reservedAmount.val_onScale
  · rw [(finalizedRow_some hrow).sellPrice_eq]
    exact (congrArg (roundTo scale) hpriced.price).trans hscale
  · rw [hmoney.chargedAmount_eq]
    exact (congrArg (roundTo scale) hnoted).trans hscale

theorem states_billed {e : Engine} {now : Time} {h : HangupInfo} {out : Outcome}
    (billed : BilledAs seen e now h db after out) (hstates : ∀ call, CallState db call)
    (hseen : ∀ d, seen d → Behind db d) (hrates : e.RatesNonneg) (hcarriers : CarriersOwn db)
    (hanswered : ∀ id, h.answeredCarrierId = some id → (db.row (.carrier id)).isSome) :
    ∀ call, CallState after call := by
  cases billed with
  | noCDR _ hsame _ _ _ | already _ _ _ _ hsame => exact hsame ▸ hstates
  | settled cdr row routed ac priced fees mid hcdr hpending hactive hmissed hyields hrouted hfees
      hrow hcosts hcustomer hout =>
      obtain ⟨a, rfl, hheld⟩ := (hstates h.callUUID).found hseen hcdr hpending hactive hmissed
      have hframe : ∀ d, seen d → Frame db d := fun d hd => (hseen d hd).frame
      have hread := moneyRead_of_yields hyields
      obtain ⟨hpriceScale, hcostScale⟩ := hread.onScale
      obtain ⟨hprice, hcost⟩ := hread.nonneg hrates hheld.sellFX
      have hfeeScale := failedAttemptFees_onScale _ hfees
      have hknown := carrierLines_known hframe hanswered hread hrouted hfees
      have hlines := posted_settled hframe hcosts hcustomer
        (fun line hline => hcarriers _ (hknown line hline))
        (carrierLines_onScale _ hcostScale hfeeScale) hpriceScale hprice
      have hsum : ((carrierLines routed.carrierId priced.2.2 fees.2).map (·.2)).sum =
          priced.2.2 + (fees.2.map (·.amount)).sum := by
        refine sum_carrierLines hcost (fun hpositive => ?_)
        obtain ⟨_, -, -, hcarrier⟩ := hread.carrier hpositive
        obtain ⟨transport, rfl⟩ := withTransport_yields hrouted
        simp [hcarrier]
      have hrows : ∀ key : Key, (∀ id, key ≠ .account id) →
          after.row key = (closed h.callUUID (some a) row db).row key := by
        intro key hkey
        rw [CustomerSettled.row_of_ne hcustomer hkey, CostsPosted.row_of_ne hcosts hkey]
      have hpriced := hread.priced hheld.unbilled.sellPrice_eq hheld.unbilled.cost_eq
      obtain ⟨hreleased, hsell, hcharged⟩ := settled_columns hrouted hrow hpriced
        hheld.unbilled.chargedAmount_eq hprice hpriceScale
      refine states_of_settled row hstates ?_ ?_ ?_ (sameCall_closed (fun _ _ => rfl) hrows
        (fun call kind hcall => ?_))
      · rw [hrows _ (by simp), closed, Database.row_set_self]
      · rw [(finalizedRow_some hrow).billedAt_eq,
          (sameSale_closed hrouted (some a) priced.2.1 fees).billedAt_eq, hread.kept.2]
        rfl
      · refine hheld.agrees _ _ (fun kind => ?_) (finalizedRow_money hrow).reservedAmount_eq
          hreleased hsell hcharged (settled_cost hrouted hrow hpriced.cost hcostScale hfeeScale)
        rw [hlines, hsum]
        simp
      · have hne : h.callUUID ≠ call := fun h => hcall h.symm
        rw [hlines]
        simp [hne]

theorem states_reserved {cfg : Config} {customerId : UUID} {rate : RateRow}
    {result : ReserveResult}
    (granted : Granted seen cfg customerId rate callUUID cdr db after result)
    (hstates : ∀ call, CallState db call) (hseen : ∀ d, seen d → Behind db d)
    (hnew : db.row (.cdr callUUID) = none) (hpending : cdr.billedAt = none)
    (hfx : 0 ≤ cdr.sellFX) : ∀ call, CallState after call := by
  have hscale : OnScale scale result.reservedAmount := by
    rw [granted.amount_eq]
    exact reserveAmount_onScale _ _
  have hlines : ∀ call kind, posted after.log call kind = posted db.log call kind +
      if callUUID = call ∧ .reserve = kind then -result.reservedAmount else 0 := by
    intro call kind
    rw [posted_moved granted.moved hscale.neg, posted_inserted granted.insertedActive,
      posted_inserted granted.insertedCDR]
    simp
  have hunseen : ∀ d, seen d → d.row (.cdr callUUID) = none := by
    intro d hd
    by_contra hsome
    exact (hseen d hd).recorded callUUID hsome hnew
  intro call
  by_cases hcall : call = callUUID
  · subst hcall
    obtain ⟨row, ac, hrow, hopens, hrecordRow, hactiveRow⟩ := granted.first_rows hunseen
      (fun d hd => (((hseen d hd).state call).of_unrecorded (hunseen d hd)).1)
    have hreserved : row.reservedAmount = result.reservedAmount :=
      (setupRow_reserved hrow).trans hscale
    have hzero := ((hstates call).of_unrecorded hnew).2
    refine .pending row ac hrecordRow hactiveRow
      ⟨?_, unbilled_of_setupRow hrow, ?_, ?_, fun kind => ?_⟩
    · rw [(setupRow_head hrow).2]
      exact hpending
    · rw [hopens.amount_eq, hreserved]
    · rw [asFX_eq (setupRow_some hrow).2.1]
      refine roundTo_nonneg _ ?_
      unfold storedFX
      split_ifs
      · exact zero_le_one
      · exact hfx
    · rw [hlines, hzero, hreserved]
      simp [eq_comm]
  · have hne : callUUID ≠ call := fun h => hcall h.symm
    refine (hstates call).of_same ⟨record_granted_other granted hcall,
      active_granted_other granted hcall, fun kind => ?_⟩
    rw [hlines]
    simp [hne]

/-- The record of a call that was turned away before anything was reserved. -/
theorem states_rejected {c : CDR}
    (inserted : Inserted seen (.cdr callUUID) (fun row => setupRow c = some row) db after)
    (hstates : ∀ call, CallState db call) (hbilled : c.billedAt.isSome)
    (hreserved : c.reservedAmount = 0) : ∀ call, CallState after call := by
  have hlines := posted_inserted inserted
  cases inserted with
  | conflict _ _ _ hsame => exact hsame ▸ hstates
  | fresh row hrow hnone hset =>
    have hzero : ∀ kind, posted after.log callUUID kind = 0 := by
      intro kind
      rw [hlines]
      exact ((hstates callUUID).of_unrecorded hnone).2 kind
    have hunbilled := unbilled_of_setupRow hrow
    have hamount : row.reservedAmount = 0 := by
      rw [setupRow_reserved hrow, hreserved]
      exact OnScale.zero scale
    have hrecord : after.row (.cdr callUUID) = some row := by rw [hset, Database.row_set_self]
    refine states_of_settled row hstates hrecord ?_ ?_
      (fun other hother => ⟨?_, ?_, hlines other⟩)
    · rw [(setupRow_head hrow).2]
      exact hbilled
    · constructor
      · rw [hamount, hzero, neg_zero]
      · rw [hunbilled.releasedAmount_eq, hzero]
      · rw [hunbilled.releasedAmount_eq, hamount]
      · rw [hunbilled.chargedAmount_eq, hunbilled.sellPrice_eq]
      · rw [hunbilled.sellPrice_eq, hzero, neg_zero]
      · rw [hunbilled.cost_eq, hzero, neg_zero]
    · rw [hset, Database.row_set_of_ne _ _ (by simpa using hother)]
    · rw [hset, Database.row_set_of_ne _ _ (by simp)]

/-- An attempt is noted on the record, billed or not, next to the money. -/
theorem states_reported {record : AttemptRecord} (hstates : ∀ call, CallState db call)
    (hcdr : db.row (.cdr callUUID) = some cdr)
    (hafter : after = db.set (.cdr callUUID) (some { cdr with
      attempts := cdr.attempts ++ [record], failoverDepth := cdr.attempts.length })) :
    ∀ call, CallState after call := by
  subst hafter
  intro call
  by_cases hcall : call = callUUID
  · subst hcall
    cases hstates call with
    | unknown hnone _ _ =>
      rw [hnone] at hcdr
      cases hcdr
    | pending found ac hfound hactive hheld =>
      obtain rfl := Option.some.inj (hcdr.symm.trans hfound)
      have hunbilled := hheld.unbilled
      exact .pending _ ac (Database.row_set_self _ _ _) hactive
        ⟨hheld.pending, ⟨hunbilled.1, hunbilled.2, hunbilled.3, hunbilled.4, hunbilled.5,
          hunbilled.6⟩, hheld.amount, hheld.sellFX, hheld.lines⟩
    | billed found hfound hbilled hagrees =>
      obtain rfl := Option.some.inj (hcdr.symm.trans hfound)
      exact .billed _ (Database.row_set_self _ _ _) hbilled ⟨hagrees.reserved, hagrees.released,
        hagrees.returned, hagrees.charged, hagrees.price, hagrees.cost⟩
  · exact (hstates call).of_same ⟨Database.row_set_of_ne _ _ (by simpa using hcall), rfl,
      fun _ => rfl⟩

theorem states_posted {accountId : UUID} {kind : LedgerKind} {amount : Decimal}
    (moved : Moved accountId none kind (postChange amount) amount db after)
    (hstates : ∀ call, CallState db call) : ∀ call, CallState after call := by
  refine fun call => (hstates call).of_same ⟨moved.row_of_ne (by simp), moved.row_of_ne (by simp),
    fun other => ?_⟩
  rw [moved.log_eq, posted_append, moved.entry_call]
  simp

end States

end Ledger

namespace CallControl

/-- What setups reject with: a draft for which nothing is reserved yet, or the
one of a call whose reservation failed. -/
inductive Rejection.OfSetup (cfg : Config) : Rejection → Prop where
  | early {customerId : Option UUID} {j : Rejection} (hfresh : j.draft.Fresh customerId) :
      Rejection.OfSetup cfg j
  | unpaid {customerId : Option UUID} {d : Draft} {currency : String} {sell : RateRow}
      {result : Option ReserveResult} (hfresh : d.Fresh customerId) :
      Rejection.OfSetup cfg (noFunds cfg currency sell result d)

/-- The rejection of a call that could pay when its account was read, and
could not when the account was updated. -/
def Rejection.LostRace (cfg : Config) (j : Rejection) : Prop :=
  ∃ currency sell rr d, rr.account = none ∧ j = noFunds cfg currency sell (some rr) d

theorem Rejection.OfSetup.reserved {cfg : Config} {j : Rejection} (h : j.OfSetup cfg)
    (hrace : ¬ j.LostRace cfg) : j.draft.cdr.reservedAmount = 0 := by
  cases h with
  | early hfresh => exact hfresh.reserved
  | @unpaid _ d currency sell result hfresh =>
    cases result with
    | none => exact hfresh.reserved
    | some rr =>
      have haccount : rr.account ≠ none := fun hnone => hrace ⟨_, _, rr, _, hnone, rfl⟩
      unfold noFunds
      dsimp only
      rw [if_neg haccount]
      exact hfresh.reserved

end CallControl

/-- Acts as the system produces them: a reservation is for a draft, exchange
rates are not negative, and the carriers that answer are carriers. -/
def CallAct.WellFormed (start : DB) : CallAct → Prop
  | .job (.reserve _ _ _ _ cdr) => cdr.billedAt = none ∧ 0 ≤ cdr.sellFX
  | .job (.bill e _ h) => e.RatesNonneg ∧
      ∀ id, h.answeredCarrierId = some id → (start.row (.carrier id)).isSome
  | .job (.reconcile e _ _) => e.RatesNonneg
  | .reject cfg _ _ j => j.OfSetup cfg
  | _ => True

/-- A commit that is not the rejection of a call that lost its race, and not a
reservation for a call that has a record. -/
structure CallCommit.Regular (acts : ℕ → CallAct) (c : CallCommit) : Prop where
  race : ∀ cfg now callUUID j, acts c.id = .reject cfg now callUUID j → ¬ j.LostRace cfg
  first : ∀ callUUID, (acts c.id).reserves = some callUUID → c.before.row (.cdr callUUID) = none

/-- A store that has seen no call yet. -/
structure NoCalls (db : DB) : Prop where
  records : ∀ callUUID, db.row (.cdr callUUID) = none
  reservations : ∀ callUUID, db.row (.active callUUID) = none
  lines : ∀ e ∈ db.log, e.callUUID = none

namespace Ledger

/-- Between commits: the frame of the start, a record for every call that was
set up, and every call somewhere. -/
structure Booked (acts : ℕ → CallAct) (start : DB) (history : List CallCommit) (db : DB) :
    Prop where
  frame : Frame start db
  recorded : ∀ call, db.row (.cdr call) ≠ none ↔ ∃ c ∈ history, (acts c.id).records = some call
  state : ∀ call, CallState db call

section Run

variable {acts : ℕ → CallAct} {start db after : DB} {history : List CallCommit}
  {seen : DB → Prop} {act : CallAct}

theorem booked_start (h : NoCalls start) : Booked acts start [] start where
  frame := .refl start
  recorded call := by simp [h.records call]
  state call := by
    refine .unknown (h.records call) (h.reservations call) (fun kind => ?_)
    refine List.sum_eq_zero (fun x hx => ?_)
    obtain ⟨e, he, rfl⟩ := List.mem_map.mp hx
    simp [h.lines e he]

theorem Booked.behind {older : List CallCommit} {d : DB} (h : Booked acts start history db)
    (hd : Booked acts start older d) (holder : older <:+ history) : Behind db d where
  frame := h.frame.symm.trans hd.frame
  recorded call hsome := by
    obtain ⟨c, hc, hrecords⟩ := (hd.recorded call).mp hsome
    exact (h.recorded call).mpr ⟨c, holder.subset hc, hrecords⟩
  state := hd.state

theorem frame_callAct (hdid : CallAct.Did seen db after act) : Frame db after := by
  cases hdid with
  | job did => exact .did did
  | reject inserted => exact .inserted inserted (by simp) (by simp [IsStatic])
  | report cdr _ hafter =>
    rw [hafter]
    exact .set (by simp) (by simp [IsStatic])
  | unreported _ _ _ hsame => exact hsame ▸ .refl db

/-- An inserted record, or the one that was in the way, is there. -/
theorem recorded_inserted {callUUID : UUID} {ok : CDR → Prop}
    (inserted : Inserted seen (.cdr callUUID) ok db after) (hseen : ∀ d, seen d → Behind db d)
    (call : UUID) :
    after.row (.cdr call) ≠ none ↔ db.row (.cdr call) ≠ none ∨ callUUID = call := by
  cases inserted with
  | fresh row _ _ hset =>
    by_cases hcall : call = callUUID
    · subst hcall
      simp [hset]
    · rw [hset, Database.row_set_of_ne _ _ (by simpa using hcall)]
      simp [Ne.symm hcall]
  | conflict d hd hsome hsame =>
    rw [hsame]
    refine ⟨.inl, fun h => h.elim id ?_⟩
    rintro rfl
    exact (hseen d hd).recorded callUUID hsome

/-- Records appear with the act that leaves one and do not disappear. -/
theorem recorded_callAct (hdid : CallAct.Did seen db after act)
    (hseen : ∀ d, seen d → Behind db d) (call : UUID) :
    after.row (.cdr call) ≠ none ↔ db.row (.cdr call) ≠ none ∨ act.records = some call := by
  have hsame : after.row (.cdr call) = db.row (.cdr call) →
      (after.row (.cdr call) ≠ none ↔ db.row (.cdr call) ≠ none ∨ none = some call) := by
    intro hrow
    simp [hrow]
  cases hdid with
  | job did =>
    have hrecord := record_did did call
    cases did with
    | reserve granted =>
      rw [granted.record_row, recorded_inserted granted.insertedCDR hseen]
      simp [CallAct.records]
    | _ =>
      rcases hrecord with hrow | hnone | ⟨⟨row, hrow, -⟩, hsome, -⟩
      · exact hsame hrow
      · cases hnone
      · simp [hrow, hsome]
  | reject inserted =>
    rw [recorded_inserted inserted hseen]
    simp [CallAct.records]
  | @report callUUID _ cdr hcdr hafter =>
    by_cases hcall : call = callUUID
    · subst hcall
      simp [hafter, hcdr]
    · exact hsame (by rw [hafter, Database.row_set_of_ne _ _ (by simpa using hcall)])
  | unreported _ _ _ hafter => exact hsame (by rw [hafter])

theorem states_callAct (hdid : CallAct.Did seen db after act)
    (hseen : ∀ d, seen d → Behind db d) (hstates : ∀ call, CallState db call)
    (hframe : Frame start db) (hcarriers : CarriersOwn start) (hact : act.WellFormed start)
    (hrace : ∀ cfg now callUUID j, act = .reject cfg now callUUID j → ¬ j.LostRace cfg)
    (hfirst : ∀ callUUID, act.reserves = some callUUID → db.row (.cdr callUUID) = none) :
    ∀ call, CallState after call := by
  have hcarrier : ∀ id, db.row (.carrier id) = start.row (.carrier id) :=
    fun id => hframe.static_eq (.carrier id) trivial
  have hown : CarriersOwn db := by
    intro id hid
    rw [hcarrier] at hid
    exact hframe.isSome_findAccount (hcarriers id hid)
  cases hdid with
  | job did =>
    cases did with
    | reserve granted =>
      exact states_reserved granted hstates hseen (hfirst _ rfl) hact.1 hact.2
    | bill billed =>
      refine states_billed billed hstates hseen hact.1 hown (fun id hid => ?_)
      rw [hcarrier]
      exact hact.2 id hid
    | reconcile billed => exact states_billed billed hstates hseen hact hown (by simp [orphanHangup])
    | releaseReservation released =>
      exact states_released released hstates hseen (fun c => ⟨rfl, rfl, rfl, rfl, rfl⟩)
    | postMoney moved | topup _ _ _ moved => exact states_posted moved hstates
    | payment _ hsame => exact hsame ▸ hstates
  | reject inserted =>
    exact states_rejected inserted hstates rfl (hact.reserved (hrace _ _ _ _ rfl))
  | report cdr hcdr hafter => exact states_reported hstates hcdr hafter
  | unreported _ _ _ hsame => exact hsame ▸ hstates

theorem Booked.step {t : ℕ} (h : Booked acts start history db)
    (hdid : CallAct.Did seen db after (acts t)) (hseen : ∀ d, seen d → Behind db d)
    (hcarriers : CarriersOwn start) (hacts : ∀ t, (acts t).WellFormed start)
    (hregular : CallCommit.Regular acts ⟨t, (), db, after⟩) :
    Booked acts start (⟨t, (), db, after⟩ :: history) after where
  frame := h.frame.trans (frame_callAct hdid)
  recorded call := by
    rw [recorded_callAct hdid hseen call, h.recorded call, List.exists_mem_cons_iff, or_comm]
  state := states_callAct hdid hseen h.state h.frame hcarriers (hacts t) hregular.race
    hregular.first

end Run

end Ledger

open Ledger in
/-- The records of calls that are over agree with the ledger, in every run of
regular commits. -/
theorem billed_records_agree (acts : ℕ → CallAct) (start : DB) (σ : CallServer)
    (hstart : NoCalls start) (hcarriers : CarriersOwn start)
    (hacts : ∀ t, (acts t).WellFormed start)
    (hrun : CallRuns acts start σ)
    (hregular : ∀ c ∈ σ.history, CallCommit.Regular acts c) (callUUID : UUID) (cdr : CDR)
    (hcdr : σ.db.row (.cdr callUUID) = some cdr) (hbilled : cdr.billedAt.isSome) :
    Agrees σ.db.log callUUID cdr := by
  have hbooked : (∀ c ∈ σ.history, CallCommit.Regular acts c) →
      Booked acts start σ.history σ.db := by
    refine hrun.invariant (fun history db => (∀ c ∈ history, CallCommit.Regular acts c) →
      Booked acts start history db) (fun _ => booked_start hstart) ?_
    intro t history before after hinv hdid hregular
    have hearlier : ∀ c ∈ history, CallCommit.Regular acts c :=
      fun c hc => hregular c (List.mem_cons_of_mem _ hc)
    refine (hinv hearlier).step hdid ?_ hcarriers hacts (hregular _ List.mem_cons_self)
    rintro d ⟨older, holder, hd⟩
    exact (hinv hearlier).behind (hd (fun c hc => hearlier c (holder.subset hc))) holder
  cases (hbooked hregular).state callUUID with
  | unknown hnone _ _ =>
    rw [hnone] at hcdr
    cases hcdr
  | pending found _ hfound _ hheld =>
    obtain rfl := Option.some.inj (hcdr.symm.trans hfound)
    rw [hheld.pending] at hbilled
    cases hbilled
  | billed found hfound _ hagrees =>
    obtain rfl := Option.some.inj (hcdr.symm.trans hfound)
    exact hagrees

def sampleDraft (callUUID : UUID) : Draft where
  resp := (startDraft sampleConfig 0 (sampleRequest callUUID)).resp
  cdr := { calledNumber := "4930123456", sellRateId := some 9, sellFX := 1 }

theorem sampleDraft_fresh (callUUID : UUID) : (sampleDraft callUUID).Fresh none :=
  ⟨rfl, rfl, rfl, rfl⟩

/-- Call 42 fails at carrier 21 and is answered at 22; call 43 is turned
away. -/
def sampleCalls : ℕ → CallAct
  | 0 => .job (sampleSetup 42 sampleRate)
  | 1 => .report 42 (Ledger.sampleAttempt 21 .carrierFault)
  | 2 => .report 42 (Ledger.sampleAttempt 22 .answered)
  | 3 => .reject sampleConfig 0 43
      ⟨"rate", ⟨403, "Destination not allowed"⟩, .rejectedRoute, "", sampleDraft 43⟩
  | _ => .job (.bill sampleEngine 90000000000 (Ledger.sampleAnswered 42 22))

theorem sampleEngine_rates : sampleEngine.RatesNonneg := by
  intro fx _ _ _ _ hfx
  cases hfx

theorem noCalls_sampleCarriers : NoCalls Ledger.sampleCarriers :=
  ⟨fun _ => rfl, fun _ => rfl, by simp [Ledger.sampleCarriers, sampleStore, Database.empty]⟩

theorem carriersOwn_sampleCarriers : Ledger.CarriersOwn Ledger.sampleCarriers := by
  intro id hid
  by_cases h21 : id = 21
  · subst h21
    rfl
  · by_cases h22 : id = 22
    · subst h22
      rfl
    · have hrow : Ledger.sampleCarriers.row (.carrier id) = none := by
        rw [Ledger.sampleCarriers, Database.row_set_of_ne _ _ (by simp),
          Database.row_set_of_ne _ _ (by simp), Database.row_set_of_ne _ _ (by simp),
          Database.row_set_of_ne _ _ (by simp), Database.row_set_of_ne _ _ (by simpa using h22),
          Database.row_set_of_ne _ _ (by simpa using h21), Database.row_set_of_ne _ _ (by simp)]
        rfl
      rw [hrow] at hid
      cases hid

theorem wellFormed_sampleCalls (t : ℕ) : (sampleCalls t).WellFormed Ledger.sampleCarriers := by
  match t with
  | 0 => exact ⟨rfl, zero_le_one⟩
  | 1 => trivial
  | 2 => trivial
  | 3 => exact .early (sampleDraft_fresh 43)
  | _ + 4 =>
    refine ⟨sampleEngine_rates, fun id hid => ?_⟩
    obtain rfl := Option.some.inj hid
    rfl

/-- No commit of the sample run is a lost race, and the one reservation finds
no record. -/
def sampleRegular (c : CallCommit) : Bool :=
  (sampleCalls c.id).reserves.all (fun callUUID => (c.before.row (.cdr callUUID)).isNone)

theorem regular_sampleCalls {c : CallCommit} (h : sampleRegular c = true) :
    CallCommit.Regular sampleCalls c where
  race := by
    rintro cfg now callUUID j hact ⟨currency, sell, rr, d, -, rfl⟩
    have hstep : ∀ t, sampleCalls t ≠ .reject cfg now callUUID
        (noFunds cfg currency sell (some rr) d) := by
      intro t ht
      match t with
      | 0 | 1 | 2 => cases ht
      | 3 =>
        injection ht with _ _ _ hj
        have hname : "rate" = "balance" := congrArg Rejection.step hj
        exact absurd hname (by decide)
      | _ + 4 => cases ht
    exact hstep c.id hact
  first callUUID hreserves := by
    unfold sampleRegular at h
    rw [hreserves] at h
    simpa using h

theorem billed_records_agree_sampleCalls :
    ∃ σ, CallRuns sampleCalls Ledger.sampleCarriers σ ∧
      (∃ cdr, σ.db.row (.cdr 42) = some cdr ∧ cdr.cost = 6 / 100 ∧
        Ledger.Agrees σ.db.log 42 cdr) ∧
      ∃ cdr, σ.db.row (.cdr 43) = some cdr ∧ Ledger.Agrees σ.db.log 43 cdr := by
  obtain ⟨σ, hrun, hfinal⟩ := reachable_serial
    (by decide +kernel : (serial (fun t => (sampleCalls t).tx) [0, 1, 2, 3, 4]
      Ledger.sampleCarriers).map (fun f => (f.2.all sampleRegular,
        (f.1.row (.cdr 42)).map (fun c => (c.cost, c.billedAt.isSome)),
        (f.1.row (.cdr 43)).map (fun c => c.billedAt.isSome))) =
      some (true, some (6 / 100, true), some true))
  obtain ⟨hregular, hbilled, hrejected⟩ : _ ∧ _ ∧ _ := by
    simpa only [Prod.mk.injEq] using hfinal
  obtain ⟨cdr, hcdr, hcolumns⟩ := Option.map_eq_some_iff.mp hbilled
  obtain ⟨hcost, hcdrBilled⟩ := Prod.mk.inj hcolumns
  obtain ⟨turned, hturned, hturnedBilled⟩ := Option.map_eq_some_iff.mp hrejected
  have hcommits : ∀ c ∈ σ.history, CallCommit.Regular sampleCalls c :=
    fun c hc => regular_sampleCalls (List.all_eq_true.mp hregular c hc)
  exact ⟨σ, hrun,
    ⟨cdr, hcdr, hcost, billed_records_agree sampleCalls _ σ noCalls_sampleCarriers
      carriersOwn_sampleCarriers wellFormed_sampleCalls hrun hcommits 42 cdr hcdr hcdrBilled⟩,
    turned, hturned, billed_records_agree sampleCalls _ σ noCalls_sampleCarriers
      carriersOwn_sampleCarriers wellFormed_sampleCalls hrun hcommits 43 turned hturned
      hturnedBilled⟩

/-- What the second of two reservations reports that the account can pay only
one of. -/
def sampleLost : ReserveResult := ⟨none, 3 / 10, 3 / 10, 300⟩

/-- Two setups on one account and the rejection of the second. -/
def sampleRace : ℕ → CallAct
  | 0 => .job (sampleSetup 42 sampleRate)
  | 1 => .job (sampleSetup 43 sampleRate)
  | _ => .reject sampleConfig 0 43
      (noFunds sampleConfig "EUR" sampleRate (some sampleLost) (sampleDraft 43))

theorem sampleTight_bound : |(300000 : ℤ)| < 10 ^ 18 := by decide

/-- Enough for one reservation. -/
def sampleTight : DB := sampleStore ⟨300000, sampleTight_bound⟩

/-- The second setup has read the account before the first updates it. -/
def sampleLosing : CallServer :=
  Server.play (fun t => (sampleRace t).tx) sampleTight ([1, 1] ++ List.replicate 8 0 ++ [1, 1, 1])

/-- The fields of a failed reservation: `ReserveResult` has no decidable
equality. -/
def lostFields : StoreError → Option (Option Account × Decimal × Decimal × ℤ)
  | .insufficientFunds (some rr) =>
    some (rr.account, rr.available, rr.reservedAmount, rr.maxCallSeconds)
  | _ => none

theorem sampleLosing_failure :
    sampleLosing.failure 1 = some (.insufficientFunds (some sampleLost)) := by
  obtain ⟨error, hfailure, hreport⟩ := Option.map_eq_some_iff.mp
    (by decide +kernel : (sampleLosing.failure 1).map lostFields =
      some (some (none, 3 / 10, 3 / 10, 300)))
  rw [hfailure]
  unfold lostFields at hreport
  split at hreport
  · rename_i rr
    obtain ⟨account, available, reserved, seconds⟩ := rr
    simp only [Option.some.injEq, Prod.mk.injEq] at hreport
    obtain ⟨rfl, rfl, rfl, rfl⟩ := hreport
    rfl
  · cases hreport

theorem noCalls_sampleTight : NoCalls sampleTight :=
  ⟨fun _ => rfl, fun _ => rfl, by simp [sampleTight, sampleStore, Database.empty]⟩

theorem carriersOwn_sampleTight : Ledger.CarriersOwn sampleTight := by
  intro id hid
  have hrow : sampleTight.row (.carrier id) = none := rfl
  rw [hrow] at hid
  cases hid

theorem wellFormed_sampleRace (t : ℕ) : (sampleRace t).WellFormed sampleTight := by
  match t with
  | 0 => exact ⟨rfl, zero_le_one⟩
  | 1 => exact ⟨rfl, zero_le_one⟩
  | _ + 2 => exact .unpaid (sampleDraft_fresh 43)

/-- The second reservation is rolled back for want of funds, and the rejection
that follows records an amount for which nothing was posted. -/
theorem lost_race_disagrees :
    ∃ σ cdr, NoCalls sampleTight ∧ Ledger.CarriersOwn sampleTight ∧
      (∀ t, (sampleRace t).WellFormed sampleTight) ∧
      CallRuns sampleRace sampleTight sampleLosing ∧
      sampleLosing.failure 1 = some (.insufficientFunds (some sampleLost)) ∧
      CallRuns sampleRace sampleTight σ ∧ σ.db.row (.cdr 43) = some cdr ∧ cdr.billedAt.isSome ∧
      cdr.reservedAmount = 3 / 10 ∧ Ledger.posted σ.db.log 43 .reserve = 0 ∧
      ¬ Ledger.Agrees σ.db.log 43 cdr := by
  have hlosing : CallRuns sampleRace sampleTight sampleLosing := reachable_play _ _ _
  obtain ⟨effects, hstatus⟩ := Server.status_of_failure sampleLosing_failure
  have hrun : CallRuns sampleRace sampleTight
      ([2, 2, 2].foldl (Server.tick (fun t => (sampleRace t).tx)) (sampleLosing.abort 1)) :=
    Reachable.play (Relation.ReflTransGen.tail hlosing (.abort 1 hstatus)) _
  obtain ⟨cdr, hcdr, hcolumns⟩ := Option.map_eq_some_iff.mp
    (by decide +kernel :
      (([2, 2, 2].foldl (Server.tick (fun t => (sampleRace t).tx))
        (sampleLosing.abort 1)).db.row (.cdr 43)).map
          (fun c => (c.billedAt.isSome, c.reservedAmount)) = some (true, 3 / 10))
  obtain ⟨hbilled, hreserved⟩ := Prod.mk.inj hcolumns
  have hlines : Ledger.posted ([2, 2, 2].foldl (Server.tick (fun t => (sampleRace t).tx))
      (sampleLosing.abort 1)).db.log 43 .reserve = 0 := by decide +kernel
  refine ⟨_, cdr, noCalls_sampleTight, carriersOwn_sampleTight, wellFormed_sampleRace, hlosing,
    sampleLosing_failure, hrun, hcdr, hbilled, hreserved, hlines, fun hagrees => ?_⟩
  have hamount := hagrees.reserved
  rw [hlines, hreserved] at hamount
  norm_num at hamount

end SuperSbc
