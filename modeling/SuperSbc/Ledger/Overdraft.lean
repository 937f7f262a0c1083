import SuperSbc.Ledger.Frame
import SuperSbc.Ledger.Reservations

/-!
How far below zero an account can be driven. A reservation is only granted out
of money that is there, and a release and a charge take it out together, so all
a call can overdraw is the part of its price that its reservation did not
cover. This bound holds in every interleaving, however many calls of the
account are open at once.
-/

namespace SuperSbc

open FixedPoint Rating ReadCommitted Store Billing CallControl Ledger

/-- `balance + allowed_credit` of an account. -/
def funds (db : DB) (id : UUID) : Decimal :=
  match db.row (.account id) with
  | none => 0
  | some a => a.balance.val + a.allowedCredit.val

def Job.bills : Job → Option UUID
  | .bill _ _ h => some h.callUUID
  | .reconcile _ _ callUUID => some callUUID
  | _ => none

/-- The call a commit billed, with the reservation it closed on an account. -/
def billedOn (jobs : ℕ → Job) (id : UUID) (c : JobCommit) : Option (UUID × ActiveCall) := do
  let callUUID ← (jobs c.id).bills
  let a ← c.before.row (.active callUUID)
  if c.after.row (.active callUUID) = none ∧ a.accountId = id then some (callUUID, a) else none

/-- By how much the price of the call a commit billed exceeds its reservation. -/
def overrun (jobs : ℕ → Job) (id : UUID) (c : JobCommit) : Decimal :=
  match billedOn jobs id c, c.value with
  | some (_, a), .billed out => max (out.price - a.reservedAmount.val) 0
  | _, _ => 0

/-- Nobody lowers a balance by hand. -/
def NeverLowered (jobs : ℕ → Job) : Prop := ∀ t r, jobs t = .postMoney r → 0 ≤ r.amount

namespace Ledger

variable {jobs : ℕ → Job} {history : List JobCommit} {start db after : DB} {id : UUID} {t : ℕ}
  {result : JobResult}

theorem overrun_nonneg (jobs : ℕ → Job) (id : UUID) (c : JobCommit) : 0 ≤ overrun jobs id c := by
  unfold overrun
  split
  · exact le_max_right _ _
  · exact le_rfl

theorem overruns_nonneg (jobs : ℕ → Job) (id : UUID) (history : List JobCommit) :
    0 ≤ (history.map (overrun jobs id)).sum := by
  refine List.sum_nonneg (fun x hx => ?_)
  obtain ⟨c, -, rfl⟩ := List.mem_map.mp hx
  exact overrun_nonneg jobs id c

theorem funds_of_row {a : Account} (hrow : db.row (.account id) = some a) :
    funds db id = a.available + (reconcile db id).reserved := by
  simp only [funds, hrow, Account.available, (reconcile_of_row hrow).2]
  ring

theorem funds_sub (id : UUID) (h : Frame db after) :
    funds after id - funds db id = (reconcile after id).balance - (reconcile db id).balance := by
  have hterms := h.terms_eq id
  unfold funds reconcile
  cases hdb : db.row (.account id) with
  | none =>
    rw [hdb] at hterms
    cases hafter : after.row (.account id) with
    | none => simp
    | some b => simp [hafter] at hterms
  | some a =>
    rw [hdb] at hterms
    obtain ⟨b, hafter, hsame⟩ := Option.map_eq_some_iff.mp hterms
    have hcredit : b.allowedCredit = a.allowedCredit := congrArg (·.2.2) hsame
    simp [hafter, hcredit]

theorem funds_posted {accountId : UUID} {call : Option UUID} {kind : LedgerKind}
    {amount : Decimal} (moved : Moved accountId call kind (postChange amount) amount db after)
    (hamount : 0 ≤ amount) : funds db id ≤ funds after id := by
  have hsub := funds_sub id (Frame.posted moved)
  have hbalance : (reconcile db id).balance ≤ (reconcile after id).balance := by
    by_cases hid : id = accountId
    · subst hid
      rw [reconcile_moved moved, (reconcile_of_row moved.old_row).1]
      simp only [(setBalance_put moved.put).1]
      calc moved.old.balance.val = roundTo 6 moved.old.balance.val :=
            moved.old.balance.val_onScale.symm
        _ ≤ roundTo 6 (moved.old.balance.val + amount) := roundTo_mono _ (by linarith)
    · rw [reconcile_moved_of_ne moved hid]
  linarith

theorem reserved_posted {accountId : UUID} {call : Option UUID} {kind : LedgerKind}
    {amount : Decimal} (moved : Moved accountId call kind (postChange amount) amount db after) :
    (reconcile after id).reserved = (reconcile db id).reserved := by
  by_cases hid : id = accountId
  · subst hid
    rw [reconcile_moved moved, (reconcile_of_row moved.old_row).2]
    simp only [(setBalance_put moved.put).2.1]
  · rw [reconcile_moved_of_ne moved hid]

theorem Consistent.openOf_nonneg (h : Consistent jobs start history db) {callUUID : UUID}
    {ac : Option ActiveCall} (hactive : ∀ a, ac = some a → db.row (.active callUUID) = some a)
    (id : UUID) : 0 ≤ openOf id ac := by
  cases ac with
  | none => exact le_rfl
  | some a =>
    by_cases hid : id = a.accountId
    · simpa [openOf, hid] using h.amount_nonneg _ a (hactive a rfl)
    · simp [openOf, hid]

theorem billedOn_of_other (hjob : (jobs t).bills = none) (id : UUID) :
    billedOn jobs id ⟨t, result, db, after⟩ = none := by
  simp [billedOn, hjob]

theorem billedOn_of_closed {callUUID : UUID} (ac : Option ActiveCall)
    (hjob : (jobs t).bills = some callUUID)
    (hactive : ∀ a, ac = some a → db.row (.active callUUID) = some a)
    (hrow : after.row (.active callUUID) =
      if ac.isSome then none else db.row (.active callUUID)) (id : UUID) :
    billedOn jobs id ⟨t, result, db, after⟩ =
      (ac.filter (·.accountId = id)).map (fun a => (callUUID, a)) := by
  cases ac with
  | none =>
    have hsame : after.row (.active callUUID) = db.row (.active callUUID) := by simpa using hrow
    cases hdb : db.row (.active callUUID) with
    | none => simp [billedOn, hjob, hdb]
    | some a => simp [billedOn, hjob, hdb, hsame]
  | some a =>
    have hgone : after.row (.active callUUID) = none := by simpa using hrow
    by_cases hid : a.accountId = id
    · simp [billedOn, hjob, hactive a rfl, hgone, hid]
    · simp [billedOn, hjob, hactive a rfl, hgone, hid]

def IsCustomers (db : DB) (id : UUID) : Prop :=
  ∃ a, db.row (.account id) = some a ∧ a.owner.kind = .customer

theorem Frame.isCustomers (h : Frame db after) (hcustomer : IsCustomers db id) :
    IsCustomers after id := by
  obtain ⟨a, hrow, hkind⟩ := hcustomer
  have hterms := h.terms_eq id
  rw [hrow] at hterms
  obtain ⟨b, hb, hsame⟩ := Option.map_eq_some_iff.mp hterms
  have howner : b.owner = a.owner := congrArg Prod.fst hsame
  exact ⟨b, hb, howner ▸ hkind⟩

/-- What billing takes from a customer's account, and what it gives free. -/
structure TakesFrom (id : UUID) (db after : DB) (callUUID : UUID) (ac : Option ActiveCall)
    (price : Decimal) : Prop where
  found : ∀ a, ac = some a → db.row (.active callUUID) = some a
  rows : ∀ other, after.row (.active other) =
    if other = callUUID ∧ ac.isSome then none else db.row (.active other)
  reserved_eq : (reconcile after id).reserved =
    max ((reconcile db id).reserved - openOf id ac) 0
  funds_eq : funds after id =
    funds db id - if ac.map (·.accountId) = some id then max price 0 else 0

/-- The price of a settlement comes from the record it found pending. -/
def PricedBy (seen : DB → Prop) (h : HangupInfo) (db : DB) (price : Decimal) : Prop :=
  ∃ cdr billed, db.row (.cdr h.callUUID) = some cdr ∧ cdr.billedAt = none ∧
    Quoted seen h cdr (if h.billsec < 0 then 0 else h.billsec) billed price

/-- A billing commit that changed nothing, or settled the call. -/
theorem takesFrom_of_billed {seen : DB → Prop} {now : Time} {h : HangupInfo} {out : Outcome}
    (hframe : ∀ d, seen d → Frame db d) (hcustomer : IsCustomers db id)
    (billed : Billed seen now h db after out) :
    after = db ∨ ∃ ac, TakesFrom id db after h.callUUID ac out.price ∧
      PricedBy seen h db out.price := by
  have hsub := funds_sub id (Frame.billed billed)
  cases billed with
  | noCDR _ hsame _ _ _ | already _ _ _ _ hsame => exact .inl hsame
  | settled cdr row ac price mid hcdr hpending hactive _ _ _ _ hquoted hscale hcosts hsettled
      hout =>
      obtain ⟨paid, hbooks, hpaid⟩ := reconcile_settled hactive hcosts hsettled hscale
      obtain ⟨a, hrow, hkind⟩ := hcustomer
      have hprice := hpaid (fun d hd => (hframe d hd).sameOwners) id a hrow hkind
      have hbalance : (reconcile after id).balance = (reconcile db id).balance - paid id := by
        rw [hbooks id]
      refine .inr ⟨ac, ⟨hactive, fun other => ?_, by rw [hbooks id], ?_⟩, cdr, _, hcdr, hpending,
        hout.2.2.1 ▸ hquoted⟩
      · exact CustomerSettled.active hsettled (CostLines.row_of_ne hcosts (by simp))
      · rw [hout.2.2.1, ← hprice]
        linarith

/-- The invariant behind the bound: what is reserved is covered by the funds
and the overruns so far. An account that starts below zero stays where it is
until money arrives. -/
structure Solvent (jobs : ℕ → Job) (start : DB) (id : UUID) (history : List JobCommit)
    (db : DB) : Prop where
  frame : Frame start db
  books : Consistent jobs start history db
  covered : min (funds start id) 0 + (reconcile db id).reserved ≤
    funds db id + (history.map (overrun jobs id)).sum

section Bound

variable {c : JobCommit}

theorem covered_of_step (amount : Decimal)
    (h : min (funds start id) 0 + (reconcile db id).reserved ≤
      funds db id + (history.map (overrun jobs id)).sum)
    (hreserved : (reconcile after id).reserved = (reconcile db id).reserved - amount)
    (hfunds : funds db id - amount ≤ funds after id + overrun jobs id c) :
    min (funds start id) 0 + (reconcile after id).reserved ≤
      funds after id + ((c :: history).map (overrun jobs id)).sum := by
  rw [List.map_cons, List.sum_cons, hreserved]
  linarith

/-- A reservation is granted out of funds that are not reserved. -/
theorem covered_of_granted {seen : DB → Prop} {cfg : Config} {customerId callUUID : UUID}
    {rate : RateRow} {cdr : CDR} {granting : ReserveResult}
    (h : min (funds start id) 0 + (reconcile db id).reserved ≤
      funds db id + (history.map (overrun jobs id)).sum)
    (granted : Granted seen cfg customerId rate callUUID cdr db after granting)
    (hframe : Frame db after) :
    min (funds start id) 0 + (reconcile after id).reserved ≤
      funds after id + ((c :: history).map (overrun jobs id)).sum := by
  have hrow := granted_account_row granted id
  have hreserved : (reconcile granted.withActive id).reserved = (reconcile db id).reserved := by
    simp only [reconcile, hrow]
  have hbalance : (reconcile granted.withActive id).balance = (reconcile db id).balance := by
    simp only [reconcile, hrow]
  have hfunds : funds after id = funds db id := by
    have hsub := funds_sub id hframe
    rw [reconcile_reserved granted] at hsub
    simp only [hbalance] at hsub
    linarith
  have hafter : (reconcile after id).reserved = (reconcile db id).reserved +
      if id = granted.accountId then granting.reservedAmount else 0 := by
    rw [reconcile_reserved granted, ← hreserved]
  have hmore := overruns_nonneg jobs id (c :: history)
  have hlast := overrun_nonneg jobs id c
  rw [hafter, hfunds]
  by_cases hid : id = granted.accountId
  · subst hid
    have hold := (granted_account_row granted _).symm.trans granted.moved.old_row
    have hafford := (granted_affordable granted).2
    have hfree := funds_of_row hold
    have hneg : min (funds start granted.accountId) 0 ≤ 0 := min_le_right _ _
    rw [if_pos rfl]
    linarith
  · rw [if_neg hid, List.map_cons, List.sum_cons]
    linarith

end Bound

theorem covered_of_quiet {c : JobCommit}
    (h : min (funds start id) 0 + (reconcile db id).reserved ≤
      funds db id + (history.map (overrun jobs id)).sum)
    (hreserved : (reconcile after id).reserved = (reconcile db id).reserved)
    (hfunds : funds db id ≤ funds after id) :
    min (funds start id) 0 + (reconcile after id).reserved ≤
      funds after id + ((c :: history).map (overrun jobs id)).sum := by
  have hlast := overrun_nonneg jobs id c
  refine covered_of_step 0 h (by rw [hreserved, sub_zero]) ?_
  linarith

/-- A settlement charges at most the reservation and the overrun. -/
theorem Solvent.settled (h : Solvent jobs start id history db) {callUUID : UUID}
    {ac : Option ActiveCall} {out : Outcome} (hjob : (jobs t).bills = some callUUID)
    (htakes : TakesFrom id db after callUUID ac out.price) :
    min (funds start id) 0 + (reconcile after id).reserved ≤
      funds after id +
        ((⟨t, .billed out, db, after⟩ :: history).map (overrun jobs id)).sum := by
  have hle := h.books.openOf_le htakes.found id
  have hbilled : billedOn jobs id ⟨t, .billed out, db, after⟩ = _ :=
    billedOn_of_closed ac hjob htakes.found (by simpa using htakes.rows callUUID) id
  refine covered_of_step (openOf id ac) h.covered ?_ ?_
  · rw [htakes.reserved_eq, max_eq_left (sub_nonneg.mpr hle)]
  · have hfunds := htakes.funds_eq
    cases ac with
    | none =>
      have hlast := overrun_nonneg jobs id ⟨t, .billed out, db, after⟩
      simp [openOf] at hfunds ⊢
      linarith
    | some a =>
      have hamount := h.books.amount_nonneg callUUID a (htakes.found a rfl)
      by_cases hid : a.accountId = id
      · have hfound : billedOn jobs id ⟨t, .billed out, db, after⟩ = some (callUUID, a) := by
          rw [hbilled]
          simp [Option.filter, hid]
        have hover : overrun jobs id ⟨t, .billed out, db, after⟩ =
            max (out.price - a.reservedAmount.val) 0 := by
          simp only [overrun, hfound]
        have hcharge : max out.price 0 ≤
            a.reservedAmount.val + max (out.price - a.reservedAmount.val) 0 := by
          refine max_le ?_ ?_
          · linarith [le_max_left (out.price - a.reservedAmount.val) 0]
          · linarith [le_max_right (out.price - a.reservedAmount.val) 0]
        rw [hover]
        simp only [Option.map_some, hid, if_true, openOf] at hfunds ⊢
        linarith
      · have hlast := overrun_nonneg jobs id ⟨t, .billed out, db, after⟩
        simp [openOf, hid, Ne.symm hid] at hfunds ⊢
        linarith

theorem Solvent.billed (h : Solvent jobs start id history db) {seen : DB → Prop} {now : Time}
    {info : HangupInfo} {out : Outcome} (hjob : (jobs t).bills = some info.callUUID)
    (hframe : ∀ d, seen d → Frame db d) (hcustomer : IsCustomers db id)
    (billed : Billed seen now info db after out) :
    min (funds start id) 0 + (reconcile after id).reserved ≤
      funds after id +
        ((⟨t, .billed out, db, after⟩ :: history).map (overrun jobs id)).sum := by
  rcases takesFrom_of_billed hframe hcustomer billed with rfl | ⟨ac, htakes, -⟩
  · exact covered_of_quiet h.covered rfl le_rfl
  · exact h.settled hjob htakes

theorem Solvent.released (h : Solvent jobs start id history db) {c : JobCommit}
    {seen : DB → Prop} {now : Time} {callUUID : UUID}
    (released : ReleasedCall seen now callUUID db after) (hframe : Frame db after) :
    min (funds start id) 0 + (reconcile after id).reserved ≤
      funds after id + ((c :: history).map (overrun jobs id)).sum := by
  cases released with
  | already _ _ _ hsame =>
    rw [hsame]
    exact covered_of_quiet h.covered rfl le_rfl
  | settled _ _ ac _ _ _ hactive _ _ hmid hafter =>
    have hbooks : reconcile after id = _ := reconcile_gaveBack hactive hmid hafter
    have hle := h.books.openOf_le hactive id
    have hlast := overrun_nonneg jobs id c
    have hamount := h.books.openOf_nonneg hactive id
    have hsub := funds_sub id hframe
    rw [hbooks] at hsub
    refine covered_of_step (openOf id ac) h.covered ?_ ?_
    · rw [hbooks, max_eq_left (sub_nonneg.mpr hle)]
    · simp only [sub_self] at hsub
      linarith

theorem Solvent.did (h : Solvent jobs start id history db) {seen : DB → Prop}
    (hraised : NeverLowered jobs) (hcustomer : IsCustomers start id)
    (hnodup : (setUps jobs (⟨t, result, db, after⟩ :: history)).Nodup)
    (hknown : ∀ d, seen d → ∀ callUUID, d.row (.active callUUID) ≠ none →
      callUUID ∈ setUps jobs history)
    (hseen : ∀ d, seen d → Frame start d) (hdid : Job.Did seen db after (jobs t) result) :
    Solvent jobs start id (⟨t, result, db, after⟩ :: history) after := by
  have hstep : Frame db after := Frame.did hdid
  have hframe : ∀ d, seen d → Frame db d := fun d hd => h.frame.symm.trans (hseen d hd)
  have hhere := h.frame.isCustomers hcustomer
  refine ⟨h.frame.trans hstep, h.books.did hnodup hknown hdid, ?_⟩
  generalize hjob : jobs t = job at hdid
  cases hdid with
  | reserve granted => exact covered_of_granted h.covered granted hstep
  | bill billed | reconcile billed => exact h.billed (by rw [hjob]; rfl) hframe hhere billed.billed
  | releaseReservation released => exact h.released (released.releasedCall (fun _ => rfl)) hstep
  | @postMoney r _ _ moved =>
    exact covered_of_quiet h.covered (reserved_posted moved)
      (funds_posted moved (roundTo_nonneg _ (hraised t r hjob)))
  | topup hpositive _ _ moved =>
    exact covered_of_quiet h.covered (reserved_posted moved)
      (funds_posted moved hpositive.le)
  | payment _ hsame =>
    rw [hsame]
    exact covered_of_quiet h.covered rfl le_rfl

theorem Solvent.initial (h : NoReservations db) : Solvent jobs db id [] db where
  frame := .refl db
  books := .initial h
  covered := by simp [h.reserved_zero id]

end Ledger

end SuperSbc
