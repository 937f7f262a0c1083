import SuperSbc.CallControl.Redelivery

/-!
What the transactions of a setup do when Postgres serves them and nothing else
runs: a reservation whose amounts fit their columns fails for want of funds
only, and the release of a fresh reservation succeeds.
-/

namespace SuperSbc.CallControl

open FixedPoint Rating ReadCommitted Transaction Store Billing

variable {cfg : Config} {customerId callUUID : UUID} {rate : RateRow} {cdr : CDR} {db : DB}

structure AmountsFit (cfg : Config) (customerId : UUID) (rate : RateRow) (cdr : CDR) (db : DB) :
    Prop where
  record : (setupRow { cdr with
    reservedAmount := reserveAmount cfg.reserveMinutes (toRating rate)
    disposition := .pending }).isSome
  reserved : ∀ accountId a, findAccount db ⟨.customer, customerId⟩ = some (accountId, a) →
    (Numeric.assign 18 6
      (a.reserved.val + reserveAmount cfg.reserveMinutes (toRating rate))).isSome

theorem reserve_fault {fault : Fault StoreError} (hfits : AmountsFit cfg customerId rate cdr db)
    (hexec : (reserve cfg customerId rate callUUID cdr).exec db [] = .error fault) :
    ∃ result, fault = .error (.insufficientFunds result) := by
  by_cases hcan : ∃ accountId a, CanReserve cfg customerId rate cdr db accountId a
  · obtain ⟨done, hdone⟩ : ∃ done, (reserve cfg customerId rate callUUID cdr).exec db [] =
        .ok done := reserve_commits_iff.mpr hcan
    rw [hexec] at hdone
    cases hdone
  · unfold reserve accountByOwner at hexec
    rw [exec_bind, exec_select] at hexec
    simp only [Except.bind, Database.apply_nil] at hexec
    cases hfound : findAccount db ⟨.customer, customerId⟩ with
    | none =>
      rw [hfound] at hexec
      exact ⟨none, (Except.error.inj hexec).symm⟩
    | some found =>
      obtain ⟨accountId, a⟩ := found
      rw [hfound] at hexec
      dsimp only at hexec
      by_cases hpoor : ¬ 0 < a.available ∨
          a.available < reserveAmount cfg.reserveMinutes (toRating rate)
      · rw [if_pos hpoor] at hexec
        exact ⟨_, (Except.error.inj hexec).symm⟩
      · rw [not_or, not_not, not_lt] at hpoor
        exact absurd ⟨accountId, a, hfound, hpoor.1, hpoor.2, hfits.record,
          hfits.reserved accountId a hfound⟩ hcan

section Release

variable {effects : List (Effect Key Row LedgerEntry)}

theorem lockAccount_commits {accountId : UUID} {a : Account}
    (hrow : (db.apply effects).row (.account accountId) = some a) :
    (lockAccount accountId).exec db effects = .ok (a, effects) := by
  unfold lockAccount
  rw [exec_bind, exec_lockRow, hrow]
  rfl

theorem release_commits {accountId : UUID} {a : Account} (callUUID : UUID) (amount : Money)
    (description : String) (hamount : 0 ≤ amount.val)
    (hrow : (db.apply effects).row (.account accountId) = some a) :
    ∃ done, (release accountId callUUID amount.val description).exec db effects = .ok done := by
  unfold release
  split_ifs with hzero
  · exact ⟨_, lockAccount_commits hrow⟩
  · rw [exec_moveMoney hrow]
    have hreserved : 0 ≤ a.reserved.val := (Numeric.val_nonneg _).mpr a.reserved_nonneg
    have hfits : (Numeric.assign 18 6 (max (a.reserved.val - amount.val) 0)).isSome :=
      Numeric.assign_isSome_of_le (le_max_right _ _)
        (max_le (sub_le_self _ hamount) hreserved) (by simp)
    obtain ⟨m, hm⟩ := Option.isSome_iff_exists.mp hfits
    have hunits : 0 ≤ m.units := by
      rw [Numeric.units_assign hm]
      exact halfAway_nonneg (by positivity)
    refine ⟨⟨{ a with reserved := m, reserved_nonneg := hunits }, ?_⟩, by simp⟩
    unfold releaseChange setReserved
    rw [hm]
    exact dif_pos hunits

theorem deleteActiveCall_commits (callUUID : UUID) (db : DB)
    (effects : List (Effect Key Row LedgerEntry)) :
    ∃ done, (deleteActiveCall callUUID).exec db effects = .ok done :=
  ⟨_, exec_deleteRow db effects (Key.active callUUID)⟩

/-- A record nobody has billed: what a setup leaves in the columns that billing
writes. -/
structure Unbilled (c : CDR) : Prop where
  sellPrice_eq : c.sellPrice = 0
  buyRatePerMin_eq : c.buyRatePerMin = none
  cost_eq : c.cost = 0
  chargedAmount_eq : c.chargedAmount = 0
  releasedAmount_eq : c.releasedAmount = 0
  buyFX_eq : c.buyFX = 1

theorem unbilled_of_setupRow {c row : CDR} (h : setupRow c = some row) : Unbilled row := by
  unfold setupRow at h
  simp only [Option.bind_eq_bind, Option.bind_eq_some_iff] at h
  obtain ⟨_, -, _, -, _, -, hrow⟩ := h
  obtain rfl := Option.some.inj hrow
  exact ⟨rfl, rfl, rfl, rfl, rfl, rfl⟩

theorem finalizeChange_of_fits {c row : CDR} (hfits : (finalizedRow c row).isSome) :
    ∃ row', finalizeChange c row = .put row' := by
  unfold finalizeChange
  cases hrow : finalizedRow c row with
  | none =>
    rw [hrow] at hfits
    cases hfits
  | some row' => exact ⟨row', rfl⟩

theorem finalizeCDR_commits {c : CDR} (hfits : ∀ row, (finalizedRow c row).isSome) :
    ∃ done, (finalizeCDR callUUID c).exec db effects = .ok done := by
  unfold finalizeCDR
  rw [exec_bind_ok_iff, exec_updateRow]
  cases (db.apply effects).row (Key.cdr callUUID) with
  | none => exact ⟨(none, effects), rfl, ((), effects), rfl⟩
  | some row =>
    obtain ⟨row', hrow'⟩ := finalizeChange_of_fits (hfits row)
    dsimp only
    rw [hrow']
    exact ⟨(some row', _), rfl, ((), _), rfl⟩

/-- Releasing changes no billed column but the released amount. -/
theorem finalizedRow_released {now : Time} {sipCode : ℤ} {reason step detail : String}
    {disposition : Disposition} {released : Decimal} (hunbilled : Unbilled cdr)
    (hreleased : (asMoney released).isSome) (row : CDR) :
    (finalizedRow (releasedCDR cfg now sipCode reason disposition step detail
      { cdr with releasedAmount := released }) row).isSome := by
  obtain ⟨amount, hamount⟩ := Option.isSome_iff_exists.mp hreleased
  have hzero : asMoney 0 = some 0 := by decide +kernel
  have hone : asFX (storedFX 1) = some 1 := by decide +kernel
  simp [finalizedRow, releasedCDR, hunbilled.sellPrice_eq, hunbilled.buyRatePerMin_eq,
    hunbilled.cost_eq, hunbilled.chargedAmount_eq, hunbilled.buyFX_eq, hzero, hone, hamount,
    asMoney?]

/-- A record nobody has billed can be released, if the account of its open
reservation is there. -/
theorem releaseReservation_commits (cfg : Config) (now : Time) (sipCode : ℤ)
    (reason step detail : String) (disposition : Disposition)
    (hcdr : db.row (.cdr callUUID) = some cdr)
    (hunbilled : Unbilled cdr)
    (haccount : ∀ ac, db.row (.active callUUID) = some ac →
      0 ≤ ac.reservedAmount.val ∧ ∃ a, db.row (.account ac.accountId) = some a) :
    ∃ done, (releaseReservation cfg now callUUID sipCode reason disposition step detail).exec
      db [] = .ok done := by
  unfold releaseReservation lockCDR
  rw [exec_bind, exec_lockRow, Database.apply_nil, hcdr]
  simp only [Except.bind]
  split_ifs
  · exact ⟨_, rfl⟩
  · unfold lockActiveCall
    rw [exec_bind, exec_lockRow, Database.apply_nil]
    simp only [Except.bind]
    rw [exec_bind_ok_iff]
    cases hactive : db.row (.active callUUID) with
    | none =>
      have hzero : (asMoney cdr.releasedAmount).isSome := by
        rw [hunbilled.releasedAmount_eq]
        decide +kernel
      exact ⟨(cdr, []), rfl, finalizeCDR_commits (finalizedRow_released hunbilled hzero)⟩
    | some ac =>
      obtain ⟨hamount, a, hrow⟩ := haccount ac hactive
      have hgiven : ∃ done, (giveBack callUUID (some ac) reason cdr).exec db [] = .ok done ∧
          done.1 = { cdr with releasedAmount := ac.reservedAmount.val } := by
        have hfound : (db.apply []).row (.account ac.accountId) = some a := hrow
        obtain ⟨⟨locked, moved⟩, hreleased⟩ :=
          release_commits callUUID ac.reservedAmount ("release: " ++ reason) hamount hfound
        obtain ⟨⟨_, deleted⟩, hdeleted⟩ := deleteActiveCall_commits callUUID db moved
        refine ⟨({ cdr with releasedAmount := ac.reservedAmount.val }, deleted), ?_, rfl⟩
        unfold giveBack
        rw [exec_bind, lockAccount_commits hfound]
        simp only [Except.bind]
        rw [exec_bind, hreleased]
        simp only [Except.bind]
        rw [exec_bind, hdeleted]
        rfl
      obtain ⟨done, hexec, hdone⟩ := hgiven
      refine ⟨done, hexec, ?_⟩
      rw [hdone]
      exact finalizeCDR_commits (finalizedRow_released hunbilled (by simp [asMoney]))

theorem released_of_run {now : Time} {sipCode : ℤ} {reason step detail : String}
    {disposition : Disposition} {after : DB}
    (hrun : (releaseReservation cfg now callUUID sipCode reason disposition step detail).run db =
      .ok ((), after)) : ReleasedCall (fun d => d = db) now callUUID db after := by
  have hwp : (releaseReservation cfg now callUUID sipCode reason disposition step detail).wp
      (fun d => d = db) db .start
      (fun _ q => ReleasedCall (fun d => d = db) now callUUID db (db.apply q.effects)) :=
    wp_releaseReservation (fun _ released => released)
  obtain ⟨q, rfl, hreleased⟩ := run_of_wp hwp hrun
  exact hreleased

end Release

end SuperSbc.CallControl
