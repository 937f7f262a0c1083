import SuperSbc.CallControl.Served

/-!
The record a setup leaves. A rejection inserts a final record, a reservation a
pending one next to its open reservation, and the release of a call that found
no route turns the second kind into the first. Two exits write neither: the
one for counters Redis does not answer, and the one for a reservation that
fails for another reason than missing funds. With Postgres serving, the latter
means that the column of the reserved money is full.
-/

namespace SuperSbc.CallControl

open FixedPoint Rating ReadCommitted Transaction Store Billing

variable {cfg : Config} {now : Time} {r : Replies} {req : SetupRequest} {customerId callUUID : UUID}
  {rate : RateRow} {cdr : CDR} {db : DB}

/-- One record, which is pending exactly while the call holds a reservation. -/
def LeavesRecord (callUUID : UUID) (after : DB) : Prop :=
  ∃ row, after.row (.cdr callUUID) = some row ∧
    (row.disposition = .pending ↔ (after.row (.active callUUID)).isSome)

/-- Redis answers the admissions an authorisation asks for: that of the
customer, and that of all calls if the customer's own limits let the call
pass. -/
def AdmissionServed (cfg : Config) (r : AuthReplies) : Prop :=
  ∀ cust, findCustomer r = .ok cust → cust.status = .active →
    ∃ n, r.admitCustomer.counts = some n ∧
      (exceeds cust.maxConcurrentCalls n.concurrent = false → exceeds cust.maxCPS n.cps = false →
        cfg.limitsGlobally = true → r.admitGlobal.counts.isSome)

/-- Postgres answers every lookup and serves every write. -/
structure PostgresServes (r : Replies) : Prop where
  customerByIP : ∀ error, r.customerByIP = .error error → error = .notFound
  matchRate : ∀ group called message, r.matchRate group called ≠ .error message
  recordServed : r.recordServed = true
  reserveServed : r.reserveServed = true
  releaseServed : r.releaseServed = true

/-- The account a reservation reads can pay for it. -/
structure CanPay (cfg : Config) (customerId : UUID) (rate : RateRow) (db : DB)
    (accountId : UUID) (a : Account) : Prop where
  found : findAccount db ⟨.customer, customerId⟩ = some (accountId, a)
  positive : 0 < a.available
  affordable : reserveAmount cfg.reserveMinutes (toRating rate) ≤ a.available

def pendingCDR (cfg : Config) (rate : RateRow) (cdr : CDR) : CDR :=
  { cdr with
    reservedAmount := reserveAmount cfg.reserveMinutes (toRating rate)
    disposition := .pending }

/-- The inserts into `cdrs` succeed: that of the rejection of a quoted call,
and that of its reservation if the account can pay. -/
def RecordsFit (cfg : Config) (now : Time) (r : Replies) (req : SetupRequest) (db : DB) : Prop :=
  ∀ cust s d sell, Quoted cfg now r req db cust s d sell → (setupRow d.cdr).isSome ∧
    ∀ accountId a, CanPay cfg cust.id sell db accountId a →
      (setupRow (pendingCDR cfg sell d.cdr)).isSome

/-- `accounts.reserved` can hold the reservation of a quoted call its account
can pay for. -/
def ReservationFits (cfg : Config) (now : Time) (r : Replies) (req : SetupRequest) (db : DB) :
    Prop :=
  ∀ cust s d sell accountId a, Quoted cfg now r req db cust s d sell →
    CanPay cfg cust.id sell db accountId a → (Numeric.assign 18 6
      (a.reserved.val + reserveAmount cfg.reserveMinutes (toRating sell))).isSome

section Admission

variable {r : AuthReplies}

theorem authorizeGlobal_failed_iff {cust : Customer} :
    (∃ c, (authorizeGlobal cfg cust r).1 = .failed c) ↔
      cfg.limitsGlobally = true ∧ r.admitGlobal.counts = none := by
  unfold authorizeGlobal admitCall
  by_cases hlimits : cfg.limitsGlobally = true
  · rw [if_pos hlimits]
    cases hcounts : r.admitGlobal.counts with
    | none => simp [hlimits]
    | some n =>
      dsimp only
      split_ifs <;> simp
  · rw [if_neg hlimits]
    simp [hlimits]

theorem authorizeCustomer_failed_iff {cust : Customer} (hactive : cust.status = .active) :
    (∃ c, (authorizeCustomer cfg cust r).1 = .failed c) ↔
      ∀ n, r.admitCustomer.counts = some n →
        exceeds cust.maxConcurrentCalls n.concurrent = false ∧ exceeds cust.maxCPS n.cps = false ∧
          cfg.limitsGlobally = true ∧ r.admitGlobal.counts = none := by
  unfold authorizeCustomer admitCall
  rw [if_neg (by simp [hactive])]
  cases hcounts : r.admitCustomer.counts with
  | none => simp
  | some n =>
    dsimp only
    by_cases hconcurrent : exceeds cust.maxConcurrentCalls n.concurrent = true
    · simp [hconcurrent]
    by_cases hcps : exceeds cust.maxCPS n.cps = true
    · simp [hconcurrent, hcps]
    rw [if_neg hconcurrent, if_neg hcps]
    dsimp only
    rw [authorizeGlobal_failed_iff]
    simp [hconcurrent, hcps]

/-- With Postgres serving, an authorisation fails with Redis only. -/
theorem authorize_failed_iff {srcIP transport : String} {srcPort : ℤ}
    (hlookup : ∀ error, r.customerByIP = .error error → error = .notFound) :
    (∃ c, (authorize cfg srcIP srcPort transport r).1 = .failed c) ↔ ¬ AdmissionServed cfg r := by
  unfold authorize AdmissionServed
  cases hfind : findCustomer r with
  | error e =>
    cases e with
    | notFound => simp [notAuthorized]
    | failed =>
      have hfailed : findCustomer r ≠ .error .failed := by
        unfold findCustomer
        split
        · simp
        · split
          · simp
          · exact fun h => by cases hlookup _ h
        · exact fun h => by cases hlookup _ h
        · exact fun h => by cases hlookup _ h
      exact absurd hfind hfailed
  | ok cust =>
    dsimp only
    by_cases hactive : cust.status = .active
    · rw [authorizeCustomer_failed_iff hactive]
      cases hcounts : r.admitCustomer.counts with
      | none => simp [hactive]
      | some n =>
        simp [hactive, Option.isSome_iff_ne_none]
    · simp [authorizeCustomer, hactive]

end Admission

section Rejections

variable {cust : Customer} {d : Draft} {s : Screened}

structure Fits (c : CDR) : Prop where
  rate : (asMoney? c.sellRatePerMin).isSome
  reserved : (asMoney c.reservedAmount).isSome
  fx : (asFX (storedFX c.sellFX)).isSome

theorem setupRow_isSome_iff {c : CDR} : (setupRow c).isSome ↔ Fits c := by
  constructor
  · intro hsome
    obtain ⟨row, hrow⟩ := Option.isSome_iff_exists.mp hsome
    simp only [setupRow, Option.bind_eq_bind, Option.bind_eq_some_iff] at hrow
    obtain ⟨_, hrate, _, hreserved, _, hfx, -⟩ := hrow
    exact ⟨by simp [hrate], by simp [hreserved], by simp [hfx]⟩
  · rintro ⟨hrate, hreserved, hfx⟩
    obtain ⟨_, hrate⟩ := Option.isSome_iff_exists.mp hrate
    obtain ⟨_, hreserved⟩ := Option.isSome_iff_exists.mp hreserved
    obtain ⟨_, hfx⟩ := Option.isSome_iff_exists.mp hfx
    simp [setupRow, hrate, hreserved, hfx]

theorem setupRow_disposition {c row : CDR} (h : setupRow c = some row) :
    row.disposition = c.disposition := by
  simp only [setupRow, Option.bind_eq_bind, Option.bind_eq_some_iff] at h
  obtain ⟨_, -, _, -, _, -, hrow⟩ := h
  obtain rfl := Option.some.inj hrow
  rfl

/-- A rejection whose record can be inserted and is final. -/
structure Rejection.Final (j : Rejection) : Prop where
  disposition : j.disposition ≠ .pending
  fits : Fits j.draft.cdr

/-- A step that goes on with a record that can be inserted, or gives up with
a final one. -/
def Recordable {α : Type} (draft : α → Draft) : Except Rejection α → Prop
  | .error j => j.Final
  | .ok a => Fits (draft a).cdr

theorem Recordable.bind {α β : Type} {f : α → Draft} {g : β → Draft} {x : Except Rejection α}
    {k : α → Except Rejection β} (hx : Recordable f x)
    (hk : ∀ a, Fits (f a).cdr → Recordable g (k a)) : Recordable g (x >>= k) := by
  cases x with
  | error j => exact hx
  | ok a => exact hk a hx

theorem checkPolicy_recordable (hd : Fits d.cdr) : Recordable id (checkPolicy req cust d) := by
  unfold checkPolicy
  dsimp only
  split_ifs
  · exact ⟨by simp, hd.rate, hd.reserved, hd.fx⟩
  · exact ⟨by simp, hd.rate, hd.reserved, hd.fx⟩
  · exact ⟨hd.rate, hd.reserved, hd.fx⟩
  · exact ⟨hd.rate, hd.reserved, hd.fx⟩

theorem Fits.withArea (hd : Fits d.cdr) (called : String) : Fits (withArea r called d).cdr := by
  unfold CallControl.withArea
  split
  · exact hd
  · exact ⟨hd.rate, hd.reserved, hd.fx⟩

theorem normalizeNumbers_recordable (hd : Fits d.cdr) :
    Recordable Screened.draft (normalizeNumbers r req cust d) := by
  unfold normalizeNumbers
  dsimp only
  split
  · exact ⟨by simp, hd⟩
  · refine Fits.withArea (r := r) (d := _) ?_ _
    exact ⟨hd.rate, hd.reserved, hd.fx⟩

theorem verifyIdentity_recordable (hs : Fits s.draft.cdr) :
    Recordable Screened.draft (verifyIdentity cfg r cust s) := by
  unfold verifyIdentity
  split
  · exact hs
  · exact hs
  · dsimp only
    split_ifs
    · exact ⟨by simp, hs.rate, hs.reserved, hs.fx⟩
    · exact ⟨by simp, hs.rate, hs.reserved, hs.fx⟩
    · exact ⟨hs.rate, hs.reserved, hs.fx⟩
    · exact ⟨hs.rate, hs.reserved, hs.fx⟩

theorem checkBlocklist_recordable (hs : Fits s.draft.cdr) :
    Recordable Screened.draft (checkBlocklist r cust s) := by
  unfold checkBlocklist
  split_ifs
  · split
    · exact hs
    · exact ⟨by simp, hs⟩
  · exact hs

theorem screen_recordable (hd : Fits d.cdr) :
    Recordable Screened.draft (screen cfg r req cust d) := by
  unfold screen
  refine (checkPolicy_recordable hd).bind (fun d₁ hd₁ => ?_)
  refine (normalizeNumbers_recordable hd₁).bind (fun s₁ hs₁ => ?_)
  exact (verifyIdentity_recordable hs₁).bind (fun s₂ hs₂ => checkBlocklist_recordable hs₂)

theorem startDraft_fits (cfg : Config) (now : Time) (req : SetupRequest) :
    Fits (startDraft cfg now req).cdr := by
  have hzero : (asMoney 0).isSome := by decide +kernel
  have hone : (asFX (storedFX 0)).isSome := by decide +kernel
  exact ⟨rfl, hzero, hone⟩

theorem Fits.withCustomer (hd : Fits d.cdr) (cust : Customer) :
    Fits (withCustomer cust d).cdr := ⟨hd.rate, hd.reserved, hd.fx⟩

theorem quoteSell_final {j : Rejection} (hs : Fits s.draft.cdr)
    (hquote : quoteSell cfg r cust s db = .error (.rejected j)) : j.Final := by
  unfold quoteSell at hquote
  dsimp only at hquote
  split at hquote
  · cases hquote
  · obtain rfl := NoQuote.rejected.inj (Except.error.inj hquote)
    exact ⟨by simp, hs⟩
  · split at hquote
    · obtain rfl := NoQuote.rejected.inj (Except.error.inj hquote)
      exact ⟨by simp, hs⟩
    · cases hquote

/-- A rejection leaves its record, when Postgres serves the insert. -/
theorem reject_leaves {j : Rejection} (hj : j.Final) (hserved : r.recordServed = true)
    (hcdr : db.row (.cdr callUUID) = none) (hactive : db.row (.active callUUID) = none) :
    LeavesRecord callUUID (reject cfg now r callUUID j db).db := by
  have hfits : Fits (rejectedCDR cfg now j) := ⟨hj.fits.rate, hj.fits.reserved, hj.fits.fx⟩
  obtain ⟨row, hrow⟩ := Option.isSome_iff_exists.mp (setupRow_isSome_iff.mpr hfits)
  have hexec : (insertCDRSetup callUUID (rejectedCDR cfg now j)).exec db [] =
      .ok ((), [.set (.cdr callUUID) (some row)]) := by
    rw [exec_insertCDRSetup, hrow, Database.apply_nil, hcdr]
    rfl
  have hdb : (reject cfg now r callUUID j db).db = db.set (.cdr callUUID) (some row) := by
    unfold reject
    rw [hserved, execute_of_exec hexec]
    rfl
  refine ⟨row, by rw [hdb, Database.row_set_self], ?_⟩
  rw [hdb, Database.row_set_of_ne _ _ (by simp), hactive, setupRow_disposition hrow]
  have hfinal : (rejectedCDR cfg now j).disposition ≠ .pending := hj.disposition
  simp [hfinal]

end Rejections

section Reservation

variable {accountId : UUID} {a : Account} {f : Fault StoreError} {d : Draft}

/-- A movement whose update finds its row fails on a column only. -/
theorem moveMoney_fault {call : Option UUID} {kind : LedgerKind} {change : Account → Change Account}
    {missing : StoreError} {amount : Decimal} {description : String} {createdBy : Option String}
    {effects : List (Effect Key Row LedgerEntry)}
    (hrow : (db.apply effects).row (.account accountId) = some a) (hchange : change a ≠ .skip)
    (hexec : (moveMoney accountId call kind change missing amount description createdBy).exec
      db effects = .error f) : f = .constraint ∨ f = .error .numericOverflow := by
  unfold moveMoney at hexec
  rw [exec_bind, exec_updateRow, hrow] at hexec
  dsimp only at hexec
  cases hnew : change a with
  | skip => exact absurd hnew hchange
  | violate =>
    rw [hnew] at hexec
    exact .inl (Except.error.inj hexec).symm
  | put a' =>
    rw [hnew] at hexec
    simp only [Except.bind] at hexec
    rw [exec_bind, exec_numeric] at hexec
    cases hassign : Numeric.assign 18 6 amount with
    | none =>
      rw [hassign] at hexec
      exact .inr (Except.error.inj hexec).symm
    | some m =>
      rw [hassign] at hexec
      cases hexec

theorem CanPay.unique {accountId' : UUID} {a' : Account}
    (h : CanPay cfg customerId rate db accountId a)
    (h' : CanPay cfg customerId rate db accountId' a') : accountId' = accountId ∧ a' = a :=
  Prod.mk.inj (Option.some.inj (h'.found.symm.trans h.found))

/-- The reservation of an account that can pay begins its transaction. -/
theorem CanPay.exec_reserve (h : CanPay cfg customerId rate db accountId a) :
    (reserve cfg customerId rate callUUID cdr).exec db [] =
      (reserveTx cfg customerId accountId callUUID cdr
        ⟨none, a.available, reserveAmount cfg.reserveMinutes (toRating rate),
          maxCallSeconds a.available (toRating rate) cfg.capSeconds⟩).exec db [] := by
  unfold reserve accountByOwner
  rw [exec_bind, exec_select, Database.apply_nil]
  simp only [Except.bind, h.found]
  rw [if_neg (by rw [not_or, not_not, not_lt]; exact ⟨h.positive, h.affordable⟩)]

/-- An account that can pay is not short of funds under its lock either, when
nothing else runs. -/
theorem CanPay.fault (h : CanPay cfg customerId rate db accountId a)
    (hexec : (reserve cfg customerId rate callUUID cdr).exec db [] = .error f) :
    f = .constraint ∨ f = .error .numericOverflow := by
  have hrow := (findAccount_some h.found).1
  have hchange : reserveChange (reserveAmount cfg.reserveMinutes (toRating rate)) a ≠ .skip := by
    unfold reserveChange setReserved
    rw [if_pos ⟨h.positive, h.affordable⟩]
    split
    · simp
    · split_ifs <;> simp
  rw [h.exec_reserve] at hexec
  unfold reserveTx at hexec
  rw [exec_bind_error_iff, exec_insertCDRSetup] at hexec
  rcases hexec with hrecord | ⟨inserted, hrecord, hexec⟩
  · split at hrecord
    · exact .inr (Except.error.inj hrecord).symm
    · cases hrecord
  have hkept : (db.apply inserted.2).row (.account accountId) = some a := by
    split at hrecord
    · cases hrecord
    · obtain rfl := Except.ok.inj hrecord
      rw [account_row_insert (by simp)]
      exact hrow
  rw [exec_bind_error_iff, exec_insertActiveCall] at hexec
  rcases hexec with hopen | ⟨opened, hopen, hexec⟩
  · split at hopen
    · exact .inr (Except.error.inj hopen).symm
    · cases hopen
  have hstill : (db.apply opened.2).row (.account accountId) = some a := by
    split at hopen
    · cases hopen
    · obtain rfl := Except.ok.inj hopen
      rw [account_row_insert (by simp)]
      exact hkept
  rw [exec_bind_error_iff] at hexec
  rcases hexec with hmove | ⟨_, _, hdone⟩
  · exact moveMoney_fault hstill hchange hmove
  · cases hdone

/-- Without such an account the call is refused for want of funds, and the
record it gets reserves nothing. -/
theorem reserve_unfunded (callUUID : UUID) (cdr : CDR)
    (hpoor : ∀ accountId a, ¬ CanPay cfg customerId rate db accountId a) :
    ∃ result, (reserve cfg customerId rate callUUID cdr).exec db [] =
      .error (.error (.insufficientFunds result)) ∧ ∀ rr, result = some rr → rr.account ≠ none := by
  unfold reserve accountByOwner
  rw [exec_bind, exec_select, Database.apply_nil]
  simp only [Except.bind]
  cases hfound : findAccount db ⟨.customer, customerId⟩ with
  | none => exact ⟨none, rfl, by simp⟩
  | some found =>
    obtain ⟨accountId, a⟩ := found
    dsimp only
    split_ifs with hshort
    · exact ⟨_, rfl, by simp⟩
    · rw [not_or, not_not, not_lt] at hshort
      exact absurd ⟨hfound, hshort.1, hshort.2⟩ (hpoor accountId a)

theorem reserved_leaves {result : ReserveResult} {after : DB}
    (hcdr : db.row (.cdr callUUID) = none) (hactive : db.row (.active callUUID) = none)
    (hrun : (reserve cfg customerId rate callUUID cdr).run db = .ok (result, after)) :
    ∃ record, after.row (.cdr callUUID) = some record ∧ record.disposition = .pending ∧
      (cdr.billedAt = none → record.billedAt = none) ∧ (after.row (.active callUUID)).isSome := by
  obtain ⟨granted⟩ := granted_of_run hrun
  obtain ⟨record, active, hrecord, -, hrecordRow, hactiveRow⟩ :=
    granted.first_rows (fun d hd => hd ▸ hcdr) (fun d hd => hd ▸ hactive)
  refine ⟨record, hrecordRow, setupRow_disposition hrecord, fun hpending => ?_, ?_⟩
  · rw [(setupRow_head hrecord).2]
    exact hpending
  · rw [hactiveRow]
    rfl

theorem finalizedRow_disposition {c row row' : CDR} (h : finalizedRow c row = some row') :
    row'.disposition = c.disposition := by
  simp only [finalizedRow, Option.bind_eq_bind, Option.bind_eq_some_iff] at h
  obtain ⟨_, _, _, _, _, _, _, _, _, _, _, _, hrow⟩ := h
  obtain rfl := Option.some.inj hrow
  rfl

theorem released_leaves {sipCode : ℤ} {reason step detail : String} {disposition : Disposition}
    {after : DB} (hfinal : disposition ≠ .pending) (hcdr : db.row (.cdr callUUID) = some cdr)
    (hpending : cdr.billedAt = none) (hactive : (db.row (.active callUUID)).isSome)
    (hrun : (releaseReservation cfg now callUUID sipCode reason disposition step detail).run db =
      .ok ((), after)) : LeavesRecord callUUID after := by
  have hwp : (releaseReservation cfg now callUUID sipCode reason disposition step detail).wp
      (fun d => d = db) db .start (fun _ q => ReleasedAs (fun d => d = db)
        (releasedCDR cfg now sipCode reason disposition step detail) callUUID db
        (db.apply q.effects)) := wp_releasedAs (fun _ released => released)
  obtain ⟨q, rfl, hreleased⟩ := run_of_wp hwp hrun
  cases hreleased with
  | already found hfound hbilled _ =>
    obtain rfl := Option.some.inj (hcdr.symm.trans hfound)
    rw [hpending] at hbilled
    cases hbilled
  | settled found row ac mid _ _ _ hmissed hrow _ hafter =>
    cases ac with
    | none =>
      obtain ⟨d, rfl, -, hmissing⟩ := hmissed rfl
      rw [hmissing] at hactive
      cases hactive
    | some a =>
      refine ⟨row, by rw [hafter, closed, Database.row_set_self], ?_⟩
      have hdisposition : row.disposition = disposition := finalizedRow_disposition hrow
      rw [hafter, closed, Database.row_set_of_ne _ _ (by simp), withoutActive,
        Database.row_set_self, hdisposition]
      simp [hfinal]

/-- Routing leaves the reserved call as it is, or releases it with a final
disposition. -/
theorem routeReserved_db (cfg : Config) (r : Replies) (callUUID : UUID) (cust : Customer)
    (s : Screened) (sell : RateRow) (d : Draft) (db : DB) :
    (routeReserved cfg r callUUID cust s sell d db).db = db ∨
      ∃ j : Rejection, j.disposition = .rejectedRoute ∧
        (routeReserved cfg r callUUID cust s sell d db).db =
          (rejectReserved cfg r cust.id callUUID j db).db := by
  unfold routeReserved
  split
  · exact .inl rfl
  · dsimp only
    split
    · split_ifs
      · exact .inr ⟨_, rfl, rfl⟩
      · exact .inl rfl
    · exact .inr ⟨_, rfl, rfl⟩

theorem routeReserved_leaves {cust : Customer} {s : Screened}
    (hcdr : db.row (.cdr callUUID) = some cdr) (hpending : cdr.disposition = .pending)
    (hbilled : cdr.billedAt = none) (hactive : (db.row (.active callUUID)).isSome) :
    LeavesRecord callUUID (routeReserved cfg r callUUID cust s rate d db).db := by
  have hkept : LeavesRecord callUUID db := ⟨cdr, hcdr, by simp [hpending, hactive]⟩
  rcases routeReserved_db cfg r callUUID cust s rate d db with hdb | ⟨j, hj, hdb⟩
  · rwa [hdb]
  · rw [hdb, rejectReserved]
    dsimp only
    split
    · rename_i after hexecute
      have hfinal : j.disposition ≠ .pending := by simp [hj]
      exact released_leaves hfinal hcdr hbilled hactive (execute_ok hexecute).2
    · exact hkept

theorem execute_of_fault {α : Type} {tx : Tx α} (h : tx.exec db [] = .error f) :
    execute true tx db = .error (some f) := by
  simp [execute, Transaction.run, h, Except.mapError]

theorem noFunds_final {currency : String} {sell : RateRow} {result : Option ReserveResult}
    (hd : Fits d.cdr) (hread : ∀ rr, result = some rr → rr.account ≠ none) :
    (noFunds cfg currency sell result d).Final := by
  cases result with
  | none => exact ⟨by simp [noFunds], hd⟩
  | some rr =>
    refine ⟨by simp [noFunds], ?_⟩
    simp only [noFunds, if_neg (hread rr rfl)]
    exact hd

theorem not_leavesRecord (hcdr : db.row (.cdr callUUID) = none) : ¬ LeavesRecord callUUID db := by
  rintro ⟨row, hrow, -⟩
  rw [hcdr] at hrow
  cases hrow

theorem reserveQuoted_leaves_iff {cust : Customer} {s : Screened} {sell : RateRow}
    (hserves : PostgresServes r) (hcdr : db.row (.cdr callUUID) = none)
    (hactive : db.row (.active callUUID) = none) (hbilled : d.cdr.billedAt = none)
    (hfits : Fits d.cdr) (hrecord : ∀ accountId a, CanPay cfg cust.id sell db accountId a →
      (setupRow (pendingCDR cfg sell d.cdr)).isSome) :
    LeavesRecord callUUID (reserveQuoted cfg now r callUUID cust s sell d db).db ↔
      ∀ accountId a, CanPay cfg cust.id sell db accountId a → (Numeric.assign 18 6
        (a.reserved.val + reserveAmount cfg.reserveMinutes (toRating sell))).isSome := by
  unfold reserveQuoted
  rw [hserves.reserveServed]
  by_cases hpay : ∃ accountId a, CanPay cfg cust.id sell db accountId a
  · obtain ⟨accountId, a, hpay⟩ := hpay
    by_cases hroom : (Numeric.assign 18 6
        (a.reserved.val + reserveAmount cfg.reserveMinutes (toRating sell))).isSome
    · obtain ⟨⟨rr, effects⟩, hexec⟩ : ∃ done,
          (reserve cfg cust.id sell callUUID d.cdr).exec db [] = .ok done :=
        reserve_commits_iff.mpr ⟨accountId, a, hpay.found, hpay.positive, hpay.affordable,
          hrecord accountId a hpay, hroom⟩
      have hexecute := execute_of_exec hexec
      obtain ⟨record, hrow, hpending, hunbilled, hopen⟩ :=
        reserved_leaves hcdr hactive (execute_ok hexecute).2
      rw [hexecute]
      refine iff_of_true (routeReserved_leaves hrow hpending (hunbilled hbilled) hopen) ?_
      intro other b hother
      obtain ⟨rfl, rfl⟩ := hpay.unique hother
      exact hroom
    · have hstuck : ¬ ∃ done, (reserve cfg cust.id sell callUUID d.cdr).exec db [] = .ok done := by
        rw [reserve_commits_iff]
        rintro ⟨other, b, hcan⟩
        obtain ⟨rfl, rfl⟩ := hpay.unique ⟨hcan.found, hcan.positive, hcan.affordable⟩
        exact hroom hcan.reserved_fits
      refine iff_of_false ?_ (fun hall => hroom (hall accountId a hpay))
      cases hexec : (reserve cfg cust.id sell callUUID d.cdr).exec db [] with
      | ok done => exact absurd ⟨done, hexec⟩ hstuck
      | error fault =>
        rw [execute_of_fault hexec]
        rcases hpay.fault hexec with rfl | rfl
        · exact not_leavesRecord hcdr
        · exact not_leavesRecord hcdr
  · have hpoor : ∀ accountId a, ¬ CanPay cfg cust.id sell db accountId a := by
      intro accountId a hcan
      exact hpay ⟨accountId, a, hcan⟩
    obtain ⟨result, hexec, hread⟩ := reserve_unfunded callUUID d.cdr hpoor
    rw [execute_of_fault hexec]
    refine iff_of_true ?_ (fun accountId a hcan => absurd hcan (hpoor accountId a))
    exact reject_leaves (noFunds_final hfits hread) hserves.recordServed hcdr hactive

end Reservation

theorem setupAdmitted_leaves_iff {cust : Customer} (hserves : PostgresServes r)
    (hcdr : db.row (.cdr callUUID) = none) (hactive : db.row (.active callUUID) = none)
    (hauth : (authOf cfg r req).1 = .admitted cust) (hrecords : RecordsFit cfg now r req db) :
    LeavesRecord callUUID (setupAdmitted cfg now r req callUUID cust
      (withCustomer cust (startDraft cfg now req)) db).db ↔ ReservationFits cfg now r req db := by
  have hrecordable : Recordable Screened.draft
      (screen cfg r req cust (withCustomer cust (startDraft cfg now req))) :=
    screen_recordable ((startDraft_fits cfg now req).withCustomer cust)
  -- a call that gets no quote reserves nothing
  have hvacuous : (∀ cust s d sell, ¬ Quoted cfg now r req db cust s d sell) →
      ReservationFits cfg now r req db :=
    fun hnone cust s d sell _ _ hquoted _ => absurd hquoted (hnone cust s d sell)
  unfold setupAdmitted
  cases hscreen : screen cfg r req cust (withCustomer cust (startDraft cfg now req)) with
  | error j =>
    rw [hscreen] at hrecordable
    refine iff_of_true (reject_leaves hrecordable hserves.recordServed hcdr hactive)
      (hvacuous (fun cust' s d sell hquoted => ?_))
    obtain rfl := AuthResult.admitted.inj (hauth.symm.trans hquoted.auth)
    cases hscreen.symm.trans hquoted.screened
  | ok s =>
    rw [hscreen] at hrecordable
    dsimp only
    cases hquote : quoteSell cfg r cust s db with
    | error missing =>
      cases missing with
      | failed message =>
        obtain ⟨group, hlookup⟩ := quoteSell_failed hquote
        exact absurd hlookup (hserves.matchRate group s.called message)
      | rejected j =>
        refine iff_of_true (reject_leaves (quoteSell_final hrecordable hquote)
          hserves.recordServed hcdr hactive) (hvacuous (fun cust' s' d sell hquoted => ?_))
        obtain rfl := AuthResult.admitted.inj (hauth.symm.trans hquoted.auth)
        obtain rfl := Except.ok.inj (hscreen.symm.trans hquoted.screened)
        cases hquote.symm.trans hquoted.quoted
    | ok quote =>
      obtain ⟨d, sell⟩ := quote
      have hquoted : Quoted cfg now r req db cust s d sell := ⟨hauth, hscreen, hquote⟩
      obtain ⟨hfits, hpending⟩ := hrecords cust s d sell hquoted
      dsimp only
      rw [reserveQuoted_leaves_iff hserves hcdr hactive hquoted.fresh.billedAt
        (setupRow_isSome_iff.mp hfits) hpending]
      constructor
      · intro hroom cust' s' d' sell' accountId a hquoted' hpay
        obtain ⟨rfl, rfl, rfl, rfl⟩ := hquoted.unique hquoted'
        exact hroom accountId a hpay
      · exact fun hroom accountId a hpay => hroom cust s d sell accountId a hquoted hpay

theorem postgresServes_sample (rate : RateRow) : PostgresServes (sampleReplies rate) where
  customerByIP := by simp [sampleReplies]
  matchRate := by simp [sampleReplies]
  recordServed := rfl
  reserveServed := rfl
  releaseServed := rfl

theorem noReservation_sample (balance : Money) (callUUID : UUID) :
    (sampleStore balance).row (.active callUUID) = none := by
  rw [sampleStore, Database.row_set_of_ne _ _ (by simp), Database.row_set_of_ne _ _ (by simp),
    Database.row_set_of_ne _ _ (by simp)]
  rfl

theorem recordsFit_sample : RecordsFit sampleConfig 0 (sampleReplies sampleRate)
    (sampleRequest 42) (sampleStore ⟨10000000, by decide⟩) := by
  intro cust s d sell hquoted
  have hcheck : ((screen sampleConfig (sampleReplies sampleRate) (sampleRequest 42) sampleCustomer
      (withCustomer sampleCustomer (startDraft sampleConfig 0 (sampleRequest 42)))).toOption.any
    fun s => (quoteSell sampleConfig (sampleReplies sampleRate) sampleCustomer s
      (sampleStore ⟨10000000, by decide⟩)).toOption.any
    fun quoted => (setupRow quoted.1.cdr).isSome &&
      (setupRow (pendingCDR sampleConfig quoted.2 quoted.1.cdr)).isSome) = true := by
    decide +kernel
  obtain rfl : sampleCustomer = cust := AuthResult.admitted.inj hquoted.auth
  rw [hquoted.screened, Except.toOption, Option.any_some, hquoted.quoted, Except.toOption,
    Option.any_some, Bool.and_eq_true] at hcheck
  exact ⟨hcheck.1, fun _ _ _ => hcheck.2⟩

def uncountedReplies : Replies :=
  { sampleReplies sampleRate with admitCustomer := ⟨none, true⟩ }

end SuperSbc.CallControl
