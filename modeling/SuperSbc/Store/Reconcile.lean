import SuperSbc.CallControl.Reservation

/-!
The reconciliation report of an account: its balance against its ledger, its
`reserved` column against the open reservations and against the ledger. The
lemmas say what each write of the call path does to the report.
-/

namespace SuperSbc.Store

open FixedPoint Rating ReadCommitted Billing

/-- One account's line of the report. -/
@[ext]
structure ReconcileRow where
  balance : Decimal
  ledgerBalance : Decimal
  reserved : Decimal
  openReserved : Decimal
  ledgerReserved : Decimal
deriving DecidableEq

/-- `type IN ('reserve', 'release')`; the other types move the balance. -/
def LedgerKind.isReservation : LedgerKind → Bool
  | .reserve | .release => true
  | _ => false

/-- `SUM(amount)` over an account's ledger lines of some types. -/
def ledgerSum (log : List LedgerEntry) (accountId : UUID) (reservation : Bool) : Decimal :=
  (log.map (fun e =>
    if e.accountId = accountId ∧ LedgerKind.isReservation e.kind = reservation
    then e.amount.val else 0)).sum

/-- What a row contributes to an account's open reservations. -/
def openAmount (accountId : UUID) : (key : Key) → Row key → Decimal
  | .active _, a => if a.accountId = accountId then a.reservedAmount.val else 0
  | _, _ => 0

/-- The report of an account; an account that does not exist has no money. -/
def reconcile (db : DB) (accountId : UUID) : ReconcileRow where
  balance := ((db.row (.account accountId)).map (·.balance.val)).getD 0
  ledgerBalance := ledgerSum db.log accountId false
  reserved := ((db.row (.account accountId)).map (·.reserved.val)).getD 0
  openReserved := db.total (openAmount accountId)
  ledgerReserved := -ledgerSum db.log accountId true

section Lemmas

variable {db : DB} {accountId other : UUID}

theorem ledgerSum_append (log : List LedgerEntry) (e : LedgerEntry) (accountId : UUID)
    (reservation : Bool) :
    ledgerSum (log ++ [e]) accountId reservation = ledgerSum log accountId reservation +
      if e.accountId = accountId ∧ LedgerKind.isReservation e.kind = reservation
      then e.amount.val else 0 := by
  simp [ledgerSum]

theorem reconcile_set_of_ne (db : DB) (accountId : UUID) (key : Key) (value : Option (Row key))
    (haccount : Key.account accountId ≠ key) (hactive : ∀ row, openAmount accountId key row = 0) :
    reconcile (db.set key value) accountId = reconcile db accountId := by
  have hcell : ∀ cell : Option (Row key), Database.cell (openAmount accountId) key cell = 0 := by
    intro cell
    cases cell with
    | none => rfl
    | some row => exact hactive row
  unfold reconcile
  rw [Database.row_set_of_ne _ _ haccount, Database.log_set, Database.total_set, hcell, hcell,
    sub_zero, add_zero]

theorem reconcile_set_cdr (callUUID : UUID) (value : Option CDR) :
    reconcile (db.set (.cdr callUUID) value) accountId = reconcile db accountId :=
  reconcile_set_of_ne db accountId (.cdr callUUID) value (by simp) (fun _ => rfl)

theorem reconcile_set_active (callUUID : UUID) (value : Option ActiveCall) :
    reconcile (db.set (.active callUUID) value) accountId =
      { reconcile db accountId with
        openReserved := (reconcile db accountId).openReserved -
          Database.cell (openAmount accountId) (.active callUUID) (db.row (.active callUUID)) +
          Database.cell (openAmount accountId) (.active callUUID) value } := by
  unfold reconcile
  rw [Database.row_set_of_ne _ _ (by simp), Database.log_set, Database.total_set]

variable {callUUID : Option UUID} {kind : LedgerKind} {change : Account → Change Account}
  {amount : Decimal} {after : DB}

theorem reconcile_moved_of_ne (h : Moved accountId callUUID kind change amount db after)
    (hne : other ≠ accountId) : reconcile after other = reconcile db other := by
  have hlog : ∀ reservation, ledgerSum after.log other reservation =
      ledgerSum db.log other reservation := by
    intro reservation
    rw [h.log_eq, ledgerSum_append, h.entry_account,
      if_neg (fun hand => hne hand.1.symm), add_zero]
  have hset := reconcile_set_of_ne db other (.account accountId) (some h.new)
    (by simpa using hne) (fun _ => rfl)
  have hrow : after.row (.account other) = db.row (.account other) :=
    h.row_of_ne (by simpa using hne)
  have htotal : after.total (openAmount other) = db.total (openAmount other) := by
    have hopen := congrArg ReconcileRow.openReserved hset
    rw [h.after_eq, Database.total_push]
    exact hopen
  unfold reconcile
  rw [hlog, hlog, hrow, htotal]

theorem reconcile_moved (h : Moved accountId callUUID kind change amount db after) :
    reconcile after accountId =
      { balance := h.new.balance.val
        ledgerBalance := (reconcile db accountId).ledgerBalance +
          if LedgerKind.isReservation kind then 0 else roundTo 6 amount
        reserved := h.new.reserved.val
        openReserved := (reconcile db accountId).openReserved
        ledgerReserved := (reconcile db accountId).ledgerReserved -
          if LedgerKind.isReservation kind then roundTo 6 amount else 0 } := by
  have hstored := Numeric.val_assign h.entry_amount
  have htotal : after.total (openAmount accountId) = db.total (openAmount accountId) := by
    rw [h.after_eq, Database.total_push, Database.total_set, h.old_row]
    simp [openAmount]
  have hlog : ∀ reservation, ledgerSum after.log accountId reservation =
      ledgerSum db.log accountId reservation +
        if LedgerKind.isReservation kind = reservation then roundTo 6 amount else 0 := by
    intro reservation
    rw [h.log_eq, ledgerSum_append, h.entry_account, h.entry_kind, hstored]
    simp
  unfold reconcile
  rw [hlog, hlog, h.row_self, htotal]
  cases LedgerKind.isReservation kind <;> simp [sub_eq_add_neg, add_comm]

theorem reconcile_of_row {a : Account} (hrow : db.row (.account accountId) = some a) :
    (reconcile db accountId).balance = a.balance.val ∧
      (reconcile db accountId).reserved = a.reserved.val := by
  simp [reconcile, hrow]

end Lemmas

end SuperSbc.Store
