import SuperSbc.CallControl.Exits
import SuperSbc.Ledger.Deliveries

/-!
A setup that is delivered again. The record and the reservation row are
inserted with `ON CONFLICT DO NOTHING`, but the account update and its ledger
line are not tied to them, so a repeated setup leaves reservations alone
exactly when it is turned away before it reserves. What it reserves for a call
that was billed meanwhile can no longer be released.
-/

namespace SuperSbc.CallControl

open FixedPoint Rating ReadCommitted Transaction Store Billing

variable {cfg : Config} {customerId callUUID : UUID} {rate : RateRow} {cdr : CDR} {db : DB}

/-- When a reservation commits: the account is there and can pay, and the
amounts fit their columns. -/
structure CanReserve (cfg : Config) (customerId : UUID) (rate : RateRow) (cdr : CDR) (db : DB)
    (accountId : UUID) (a : Account) : Prop where
  found : findAccount db ⟨.customer, customerId⟩ = some (accountId, a)
  positive : 0 < a.available
  affordable : reserveAmount cfg.reserveMinutes (toRating rate) ≤ a.available
  record_fits : (setupRow { cdr with
    reservedAmount := reserveAmount cfg.reserveMinutes (toRating rate)
    disposition := .pending }).isSome
  reserved_fits : (Numeric.assign 18 6
    (a.reserved.val + reserveAmount cfg.reserveMinutes (toRating rate))).isSome

theorem reserveChange_put_iff {a : Account} {amount : Decimal} (hpositive : 0 < a.available)
    (haffordable : amount ≤ a.available) (hamount : 0 ≤ amount) :
    (∃ a', reserveChange amount a = .put a') ↔
      (Numeric.assign 18 6 (a.reserved.val + amount)).isSome := by
  have hsum : 0 ≤ a.reserved.val + amount :=
    add_nonneg ((Numeric.val_nonneg _).mpr a.reserved_nonneg) hamount
  unfold reserveChange
  rw [if_pos ⟨hpositive, haffordable⟩]
  unfold setReserved
  cases hassign : Numeric.assign 18 6 (a.reserved.val + amount) with
  | none => simp
  | some m =>
    have hunits : 0 ≤ m.units := by
      rw [Numeric.units_assign hassign]
      exact halfAway_nonneg (by positivity)
    simp [hunits]

theorem reserveTx_commits_iff {accountId : UUID} {a : Account} {report : ReserveResult}
    (hrow : db.row (.account accountId) = some a) (hpositive : 0 < a.available)
    (haffordable : report.reservedAmount ≤ a.available) (hamount : 0 ≤ report.reservedAmount) :
    (∃ done, (reserveTx cfg customerId accountId callUUID cdr report).exec db [] = .ok done) ↔
      (setupRow { cdr with
        reservedAmount := report.reservedAmount, disposition := .pending }).isSome ∧
      (Numeric.assign 18 6 (a.reserved.val + report.reservedAmount)).isSome := by
  have hreserved : 0 ≤ a.reserved.val := (Numeric.val_nonneg _).mpr a.reserved_nonneg
  unfold reserveTx
  rw [exec_bind_ok_iff, exec_insertCDRSetup]
  cases setupRow { cdr with reservedAmount := report.reservedAmount, disposition := .pending } with
  | none => simp
  | some row =>
    simp only [Except.ok.injEq, exists_eq_left', Option.isSome_some, true_and]
    rw [exec_bind_ok_iff, exec_insertActiveCall]
    cases hsmall : Numeric.assign 18 6 report.reservedAmount with
    | none =>
      constructor
      · rintro ⟨_, ⟨⟩, _⟩
      · intro hfits
        have hsome := Numeric.assign_isSome_of_le hamount (le_add_of_nonneg_left hreserved)
          hfits
        rw [hsmall] at hsome
        cases hsome
    | some m =>
      simp only [Except.ok.injEq, exists_eq_left']
      rw [exec_bind_ok_iff]
      simp only [exec_pure, Except.ok.injEq, exists_eq', and_true]
      unfold Store.reserve
      rw [exec_moveMoney, reserveChange_put_iff hpositive haffordable hamount,
        Numeric.assign_neg_isSome, hsmall]
      · simp
      · rw [account_row_insert (by simp), account_row_insert (by simp)]
        exact hrow

theorem reserve_commits_iff :
    (∃ done, (reserve cfg customerId rate callUUID cdr).exec db [] = .ok done) ↔
      ∃ accountId a, CanReserve cfg customerId rate cdr db accountId a := by
  have hamount := reserveAmount_nonneg cfg.reserveMinutes (toRating_valid rate)
  unfold reserve accountByOwner
  rw [exec_bind, exec_select]
  simp only [Except.bind, Database.apply_nil]
  cases hfound : findAccount db ⟨.customer, customerId⟩ with
  | none =>
    constructor
    · rintro ⟨_, ⟨⟩⟩
    · rintro ⟨_, _, h⟩
      rw [h.found] at hfound
      cases hfound
  | some found =>
    obtain ⟨accountId, a⟩ := found
    have hone : ∀ {id b}, CanReserve cfg customerId rate cdr db id b → id = accountId ∧ b = a :=
      fun h => Prod.mk.inj (Option.some.inj (h.found.symm.trans hfound))
    dsimp only
    by_cases hpoor : ¬ 0 < a.available ∨
        a.available < reserveAmount cfg.reserveMinutes (toRating rate)
    · rw [if_pos hpoor]
      constructor
      · rintro ⟨_, ⟨⟩⟩
      · rintro ⟨_, _, h⟩
        obtain ⟨rfl, rfl⟩ := hone h
        rcases hpoor with hnone | hless
        · exact absurd h.positive hnone
        · exact absurd h.affordable (not_le.mpr hless)
    · rw [if_neg hpoor]
      have hpositive : 0 < a.available := by
        by_contra hnot
        exact hpoor (.inl hnot)
      have haffordable : reserveAmount cfg.reserveMinutes (toRating rate) ≤ a.available :=
        not_lt.mp (fun h => hpoor (.inr h))
      refine (reserveTx_commits_iff (findAccount_some hfound).1 hpositive ?_ ?_).trans ?_
      · exact haffordable
      · exact hamount
      constructor
      · rintro ⟨hrecord, hfits⟩
        exact ⟨accountId, a, hfound, hpositive, haffordable, hrecord, hfits⟩
      · rintro ⟨_, _, h⟩
        obtain ⟨rfl, rfl⟩ := hone h
        exact ⟨h.record_fits, h.reserved_fits⟩

/-- Two stores with the same reservations: on accounts, in the ledger, open. -/
structure SameReservations (db after : DB) : Prop where
  reserved_eq : ∀ id, (reconcile after id).reserved = (reconcile db id).reserved
  log_eq : after.log = db.log
  active_eq : ∀ call, after.row (.active call) = db.row (.active call)

/-- A setup that gets as far as a reservation that commits. -/
def ReservesAgain (cfg : Config) (now : Time) (r : Replies) (req : SetupRequest) (db : DB) :
    Prop :=
  ∃ cust s d sell accountId a, Quoted cfg now r req db cust s d sell ∧
    r.reserveServed = true ∧ CanReserve cfg cust.id sell d.cdr db accountId a

section Run

variable {α : Type} {tx : Tx α} {value : α}

theorem execute_of_exec {effects : List (Effect Key Row LedgerEntry)}
    (h : tx.exec db [] = .ok (value, effects)) :
    execute true tx db = .ok (value, db.apply effects) := by
  simp [execute, Transaction.run, h, Except.mapError]

end Run

theorem Inserted.log_eq {seen : DB → Prop} {key : Key} {ok : Row key → Prop} {before after : DB}
    (h : Inserted seen key ok before after) : after.log = before.log := by
  cases h with
  | fresh row _ _ hafter => rw [hafter, Database.log_set]
  | conflict _ _ _ hafter => rw [hafter]

theorem granted_of_run {result : ReserveResult} {after : DB}
    (hrun : (reserve cfg customerId rate callUUID cdr).run db = .ok (result, after)) :
    Nonempty (Granted (fun d => d = db) cfg customerId rate callUUID cdr db after result) := by
  have hwp : (reserve cfg customerId rate callUUID cdr).wp (fun d => d = db) db .start
      (fun result q => Nonempty (Granted (fun d => d = db) cfg customerId rate callUUID cdr db
        (db.apply q.effects) result)) :=
    wp_reserve (fun _ _ granted => ⟨granted⟩)
  obtain ⟨q, rfl, hgranted⟩ := run_of_wp hwp hrun
  exact hgranted

theorem reserve_log {result : ReserveResult} {after : DB}
    (hrun : (reserve cfg customerId rate callUUID cdr).run db = .ok (result, after)) :
    db.log.length < after.log.length := by
  obtain ⟨granted⟩ := granted_of_run hrun
  rw [granted.moved.log_eq, granted.insertedActive.log_eq, granted.insertedCDR.log_eq]
  simp

theorem routeReserved_log (cfg : Config) (r : Replies) (callUUID : UUID) (cust : Customer)
    (s : Screened) (sell : RateRow) (d : Draft) (db : DB) :
    db.log.length ≤ (routeReserved cfg r callUUID cust s sell d db).db.log.length := by
  have hexit : RoutedExit cfg r callUUID db cust.id d
      (routeReserved cfg r callUUID cust s sell d db) :=
    routed_exit cust s sell d
  generalize routeReserved cfg r callUUID cust s sell d db = run at hexit ⊢
  cases hexit with
  | failed message | dialled resp _ _ _ => exact le_rfl
  | noRoute j _ =>
    unfold rejectReserved
    dsimp only
    split
    · rename_i after hexecute
      exact (log_isPrefix_run (execute_ok hexecute).2).length_le
    · exact le_rfl

/-- A setup of a known call that does not get to reserve changes nothing. -/
theorem setup_db_of_not_reserves {now : Time} {r : Replies} {req : SetupRequest}
    (hcall : req.callUUID = some callUUID) (hknown : db.row (.cdr callUUID) ≠ none)
    (hnot : ¬ ReservesAgain cfg now r req db) : (setup cfg now r req db).db = db := by
  have hexit : SetupExit cfg now r req callUUID db (setup cfg now r req db) := setup_exit hcall
  generalize setup cfg now r req db = run at hexit ⊢
  cases hexit with
  | authFailed _ _ => rfl
  | turnedAway _ _ _ j _ _ | rejected _ j _ _ | poor => exact reject_db hknown
  | lookupFailed => rfl
  | storeFailed => rfl
  | reserved cust s d sell rr after hquoted hreserve =>
    obtain ⟨hserved, hrun⟩ := execute_ok hreserve
    obtain ⟨effects, hexec, -⟩ := exec_of_run hrun
    obtain ⟨accountId, a, hcan⟩ := reserve_commits_iff.mp ⟨_, hexec⟩
    exact absurd ⟨cust, s, d, sell, accountId, a, hquoted, hserved, hcan⟩ hnot

/-- A repeated setup leaves the reservations alone exactly when it does not get
to reserve, and then it leaves everything alone. -/
theorem setup_again_unchanged_iff (cfg : Config) (now : Time) (r : Replies) (req : SetupRequest)
    (callUUID : UUID) (db : DB) (hcall : req.callUUID = some callUUID)
    (hknown : db.row (.cdr callUUID) ≠ none) :
    (SameReservations db (setup cfg now r req db).db ↔ ¬ ReservesAgain cfg now r req db) ∧
    (¬ ReservesAgain cfg now r req db → (setup cfg now r req db).db = db) := by
  refine ⟨⟨?_, fun hnot => ?_⟩, setup_db_of_not_reserves hcall hknown⟩
  · rintro hsame ⟨cust, s, d, sell, accountId, a, hquoted, hserved, hcan⟩
    obtain ⟨⟨rr, effects⟩, hexec⟩ := reserve_commits_iff.mpr ⟨accountId, a, hcan⟩
    have hexecute := execute_of_exec hexec
    rw [← hserved] at hexecute
    have hgrown := reserve_log (execute_ok hexecute).2
    have hkept := routeReserved_log cfg r callUUID cust s sell (withReservation rr d)
      (db.apply effects)
    rw [← setup_of_reserved hcall hquoted hexecute, hsame.log_eq] at hkept
    omega
  · rw [setup_db_of_not_reserves hcall hknown hnot]
    exact ⟨fun _ => rfl, rfl, fun _ => rfl⟩

/-- The sample call, set up and billed. -/
def sampleBilled : Option DB :=
  (runSerially sampleCall [0, 1] (sampleStore ⟨10000000, sampleBalance_bound⟩)).map (·.1)

theorem setup_again_unchanged_iff_sampleBilled :
    ∃ db, sampleBilled = some db ∧ db.row (.cdr 42) ≠ none ∧
      (SameReservations db
        (setup sampleConfig 0 (sampleReplies sampleRate) (sampleRequest 42) db).db ↔
        ¬ ReservesAgain sampleConfig 0 (sampleReplies sampleRate) (sampleRequest 42) db) ∧
      (¬ ReservesAgain sampleConfig 0 (sampleReplies sampleRate) (sampleRequest 42) db →
        (setup sampleConfig 0 (sampleReplies sampleRate) (sampleRequest 42) db).db = db) := by
  have hbilled : sampleBilled.map (fun db => (db.row (.cdr 42)).isSome) = some true := by
    decide +kernel
  obtain ⟨db, hdb, hknown⟩ := Option.map_eq_some_iff.mp hbilled
  have hrecord : db.row (.cdr 42) ≠ none := Option.isSome_iff_ne_none.mp hknown
  exact ⟨db, hdb, hrecord, setup_again_unchanged_iff sampleConfig 0 (sampleReplies sampleRate)
    (sampleRequest 42) 42 db rfl hrecord⟩

/-- Setting the billed sample call up again takes thirty cents that no
delivery for the call gives back. -/
theorem setup_again_reserves_for_good :
    ∃ db after, sampleBilled = some db ∧
      after = (setup sampleConfig 0 (sampleReplies sampleRate) (sampleRequest 42) db).db ∧
      (reconcile db 1).reserved = 0 ∧ db.row (.active 42) = none ∧
      (reconcile after 1).reserved = 3 / 10 ∧ after.row (.active 42) ≠ none ∧
      after.log.length = db.log.length + 1 ∧
      ∀ jobs σ, (∀ t, (jobs t).EndsCall 42) → Runs jobs after σ → σ.db = after := by
  have hruns : sampleBilled.map (fun db =>
      let after := (setup sampleConfig 0 (sampleReplies sampleRate) (sampleRequest 42) db).db
      ((reconcile db 1).reserved, (db.row (.active 42)).isSome, (reconcile after 1).reserved,
        (after.row (.active 42)).isSome, decide (after.log.length = db.log.length + 1),
        (after.row (.cdr 42)).any (·.billedAt.isSome))) =
      some (0, false, 3 / 10, true, true, true) := by
    decide +kernel
  obtain ⟨db, hdb, hresult⟩ := Option.map_eq_some_iff.mp hruns
  simp only [Prod.mk.injEq] at hresult
  obtain ⟨hbefore, hnone, hreserved, hopen, hlog, hbilled⟩ := hresult
  have hrecord : RecordBilled
      (setup sampleConfig 0 (sampleReplies sampleRate) (sampleRequest 42) db).db 42 := by
    simpa [RecordBilled, Option.any_eq_true_iff_get, Option.eq_some_iff_get_eq] using hbilled
  exact ⟨db, _, hdb, rfl, hbefore, by simpa using hnone, hreserved,
    Option.isSome_iff_ne_none.mp hopen, by simpa using hlog,
    fun jobs σ hjobs hrun => hrecord.final hjobs hrun⟩

end SuperSbc.CallControl
