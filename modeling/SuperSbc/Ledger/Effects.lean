import SuperSbc.Jobs

/-!
What a committed job does to the reconciliation report of every account, one
lemma for each kind of movement and one for each job. Results about runs use
these and never look at statements again.
-/

namespace SuperSbc.Ledger

open FixedPoint Rating ReadCommitted Store Billing CallControl

variable {db after : DB} {callUUID accountId id : UUID} {amount price : Decimal}

variable {stable : Prop} {ac : Option ActiveCall} {row : CDR} {mid : DB} {key : Key}

theorem reconcile_reserved_nonneg (db : DB) (id : UUID) : 0 ≤ (reconcile db id).reserved := by
  unfold reconcile
  cases db.row (.account id) with
  | none => simp
  | some a => simpa using (Numeric.val_nonneg a.reserved).mpr a.reserved_nonneg

theorem reconcile_posted {call : Option UUID} {kind : LedgerKind}
    (h : Moved accountId call kind (postChange amount) amount db after)
    (hkind : LedgerKind.isReservation kind = false) (hscale : OnScale scale amount) :
    reconcile after id =
      { reconcile db id with
        balance := (reconcile db id).balance + if id = accountId then amount else 0
        ledgerBalance := (reconcile db id).ledgerBalance +
          if id = accountId then amount else 0 } := by
  by_cases hid : id = accountId
  · subst hid
    obtain ⟨hbalance, hreserved, -, -⟩ := setBalance_put h.put
    obtain ⟨hold, holdReserved⟩ := reconcile_of_row h.old_row
    have hexact : roundTo 6 (h.old.balance.val + amount) = h.old.balance.val + amount :=
      h.old.balance.val_onScale.add hscale
    have hline : roundTo 6 amount = amount := hscale
    rw [reconcile_moved h]
    ext
    · simp [hbalance, hexact, hold]
    · simp [hkind, hline]
    · simp [hreserved, holdReserved]
    · rfl
    · simp [hkind]
  · rw [reconcile_moved_of_ne h hid]
    simp [hid]

theorem reconcile_released (h : Released callUUID accountId amount db after)
    (hscale : OnScale scale amount) :
    reconcile after id =
      { reconcile db id with
        reserved := if id = accountId then max ((reconcile db id).reserved - amount) 0
          else (reconcile db id).reserved
        ledgerReserved := (reconcile db id).ledgerReserved -
          if id = accountId then amount else 0 } := by
  have hnonneg := reconcile_reserved_nonneg db id
  unfold Released at h
  split_ifs at h with hzero
  · subst hzero h
    ext <;> simp [hnonneg]
  · obtain ⟨moved⟩ := h
    by_cases hid : id = accountId
    · subst hid
      obtain ⟨hold, holdReserved⟩ := reconcile_of_row moved.old_row
      obtain ⟨hreserved, hbalance, -, -⟩ := releaseChange_put moved.put hscale
      have hline : roundTo 6 amount = amount := hscale
      rw [reconcile_moved moved]
      ext
      · simp [hbalance, hold]
      · simp [LedgerKind.isReservation]
      · simp [hreserved, holdReserved]
      · rfl
      · simp [LedgerKind.isReservation, hline]
    · rw [reconcile_moved_of_ne moved hid]
      simp [hid]

theorem reconcile_charged (h : Charged callUUID accountId price db after)
    (hscale : OnScale scale price) :
    reconcile after id =
      { reconcile db id with
        balance := (reconcile db id).balance - if id = accountId then max price 0 else 0
        ledgerBalance := (reconcile db id).ledgerBalance -
          if id = accountId then max price 0 else 0 } := by
  unfold Charged at h
  split_ifs at h with hpositive
  · obtain ⟨moved⟩ := h
    rw [reconcile_posted moved rfl hscale.neg, max_eq_left hpositive.le]
    by_cases hid : id = accountId <;> simp [hid, sub_eq_add_neg]
  · subst h
    rw [max_eq_right (not_lt.mp hpositive)]
    simp

/-- Cost lines lower balances and ledgers of some accounts alike, and no
customer's. -/
theorem reconcile_costLines (h : CostLines callUUID stable db after) :
    ∃ cost : UUID → Decimal,
      (∀ id, reconcile after id =
        { reconcile db id with
          balance := (reconcile db id).balance - cost id
          ledgerBalance := (reconcile db id).ledgerBalance - cost id }) ∧
      (stable → ∀ id a, db.row (.account id) = some a → a.owner.kind = .customer →
        cost id = 0) := by
  induction h with
  | none d => exact ⟨fun _ => 0, by simp, by simp⟩
  | @more d d' d'' accountId amount hscale moved hcarrier rest ih =>
    obtain ⟨cost, hcost, hcustomer⟩ := ih
    refine ⟨fun id => cost id + if id = accountId then amount else 0, ?_, ?_⟩
    · intro id
      rw [hcost id, reconcile_posted moved rfl hscale.neg]
      by_cases hid : id = accountId
      · simp only [hid, if_true]
        ext <;> simp <;> ring
      · simp [hid]
    · intro hstable id a hrow hkind
      have hid : id ≠ accountId := by
        rintro rfl
        obtain rfl := Option.some.inj (hrow.symm.trans moved.old_row)
        rw [hcarrier hstable] at hkind
        cases hkind
      have hrow' : d'.row (.account id) = some a := by
        rw [moved.row_of_ne (by simpa using hid), hrow]
      simp [hid, hcustomer hstable id a hrow' hkind]

/-- What an open reservation adds to an account. -/
def openOf (id : UUID) : Option ActiveCall → Decimal
  | none => 0
  | some a => if id = a.accountId then a.reservedAmount.val else 0

theorem cell_openAmount (id callUUID : UUID) (ac : Option ActiveCall) :
    Database.cell (openAmount id) (.active callUUID) ac = openOf id ac := by
  cases ac with
  | none => rfl
  | some a =>
    by_cases hid : id = a.accountId
    · simp [openOf, openAmount, hid]
    · simp [openOf, openAmount, hid, Ne.symm hid]

theorem reconcile_closed (hactive : ∀ a, ac = some a → db.row (.active callUUID) = some a) :
    reconcile (closed callUUID ac row db) id =
      { reconcile db id with
        openReserved := (reconcile db id).openReserved - openOf id ac } := by
  unfold closed
  rw [reconcile_set_cdr]
  cases ac with
  | none => simp [withoutActive, openOf]
  | some a =>
    rw [withoutActive, reconcile_set_active, hactive a rfl, cell_openAmount]
    simp

/-- The report after a settled call: the reservation is gone from all three
places that show it, and the charge and the costs are on balance and ledger. -/
theorem reconcile_settled (hactive : ∀ a, ac = some a → db.row (.active callUUID) = some a)
    (hcosts : CostLines callUUID stable (closed callUUID ac row db) mid)
    (hcustomer : CustomerSettled callUUID price mid after ac) (hscale : OnScale scale price) :
    ∃ paid : UUID → Decimal,
      (∀ id, reconcile after id =
        { balance := (reconcile db id).balance - paid id
          ledgerBalance := (reconcile db id).ledgerBalance - paid id
          reserved := max ((reconcile db id).reserved - openOf id ac) 0
          openReserved := (reconcile db id).openReserved - openOf id ac
          ledgerReserved := (reconcile db id).ledgerReserved - openOf id ac }) ∧
      (stable → ∀ id a, db.row (.account id) = some a → a.owner.kind = .customer →
        paid id = if (ac.map (·.accountId)) = some id then max price 0 else 0) := by
  obtain ⟨cost, hcost, hcarrier⟩ := reconcile_costLines hcosts
  have hclosedRow : ∀ id, (closed callUUID ac row db).row (.account id) =
      db.row (.account id) := by
    intro id
    unfold closed
    rw [Database.row_set_of_ne _ _ (by simp)]
    cases ac with
    | none => rfl
    | some a => rw [withoutActive, Database.row_set_of_ne _ _ (by simp)]
  cases ac with
  | none =>
    obtain rfl : after = mid := hcustomer
    refine ⟨cost, fun id => ?_, fun hstable id a hrow hkind => ?_⟩
    · rw [hcost id, reconcile_closed hactive]
      simp [openOf, reconcile_reserved_nonneg]
    · rw [hcarrier hstable id a ((hclosedRow id).trans hrow) hkind]
      simp
  | some a =>
    obtain ⟨released, hreleased, hcharged⟩ := hcustomer
    refine ⟨fun id => cost id + if id = a.accountId then max price 0 else 0,
      fun id => ?_, fun hstable id b hrow hkind => ?_⟩
    · rw [reconcile_charged hcharged hscale,
        reconcile_released hreleased a.reservedAmount.val_onScale, hcost id,
        reconcile_closed hactive]
      have hnonneg := reconcile_reserved_nonneg db id
      by_cases hid : id = a.accountId
      · simp only [openOf, hid, if_true]
        ext <;> simp <;> ring
      · simp [openOf, hid, hnonneg]
    · have hzero := hcarrier hstable id b ((hclosedRow id).trans hrow) hkind
      by_cases hid : id = a.accountId
      · subst hid
        simp [hzero]
      · simp [hid, Ne.symm hid, hzero]

theorem reconcile_gaveBack (hactive : ∀ a, ac = some a → db.row (.active callUUID) = some a)
    (hmid : GaveBack callUUID db mid ac) (hafter : after = closed callUUID ac row mid) :
    reconcile after id =
      { balance := (reconcile db id).balance
        ledgerBalance := (reconcile db id).ledgerBalance
        reserved := max ((reconcile db id).reserved - openOf id ac) 0
        openReserved := (reconcile db id).openReserved - openOf id ac
        ledgerReserved := (reconcile db id).ledgerReserved - openOf id ac } := by
  have hnonneg := reconcile_reserved_nonneg db id
  subst hafter
  cases ac with
  | none =>
    obtain rfl : mid = db := hmid
    rw [reconcile_closed hactive]
    simp [openOf, hnonneg]
  | some a =>
    have hreleased : Released callUUID a.accountId a.reservedAmount.val db mid := hmid
    have hactive' : ∀ b, some a = some b → mid.row (.active callUUID) = some b := by
      intro b hb
      rw [hreleased.row_of_ne (by simp), hactive b hb]
    rw [reconcile_closed hactive',
      reconcile_released hreleased a.reservedAmount.val_onScale]
    by_cases hid : id = a.accountId <;> simp [openOf, hid, hnonneg]

/-- Reservation rows after a call was closed: its own is gone if it was found,
the others are untouched. -/
theorem active_closed (other : UUID) :
    (closed callUUID ac row db).row (.active other) =
      if other = callUUID ∧ ac.isSome then none else db.row (.active other) := by
  unfold closed
  rw [Database.row_set_of_ne _ _ (by simp)]
  cases ac with
  | none => simp [withoutActive]
  | some a =>
    by_cases hother : other = callUUID
    · subst hother
      simp [withoutActive]
    · rw [withoutActive, Database.row_set_of_ne _ _ (by simpa using hother)]
      simp [hother]

theorem CostLines.row_of_ne {stable : Prop} (h : CostLines callUUID stable db after) {key : Key}
    (hne : ∀ id, key ≠ .account id) : after.row key = db.row key := by
  induction h with
  | none d => rfl
  | more _ moved _ _ ih => rw [ih, moved.row_of_ne (hne _)]

theorem Charged.row_of_ne (h : Charged callUUID accountId price db after)
    (hne : key ≠ .account accountId) : after.row key = db.row key := by
  unfold Charged at h
  split_ifs at h
  · obtain ⟨moved⟩ := h
    exact moved.row_of_ne hne
  · rw [h]

theorem CustomerSettled.row_of_ne (h : CustomerSettled callUUID price db after ac)
    (hne : ∀ id, key ≠ .account id) : after.row key = db.row key := by
  cases ac with
  | none =>
    obtain rfl : after = db := h
    rfl
  | some a =>
    obtain ⟨d, hreleased, hcharged⟩ := h
    rw [Charged.row_of_ne hcharged (hne _), hreleased.row_of_ne (hne _)]

theorem CustomerSettled.record (h : CustomerSettled callUUID price mid after ac)
    (hmid : mid.row (.cdr callUUID) = (closed callUUID ac row db).row (.cdr callUUID)) :
    after.row (.cdr callUUID) = some row := by
  rw [CustomerSettled.row_of_ne h (by simp), hmid, closed, Database.row_set_self]

theorem CustomerSettled.active {other : UUID} (h : CustomerSettled callUUID price mid after ac)
    (hmid : mid.row (.active other) = (closed callUUID ac row db).row (.active other)) :
    after.row (.active other) =
      if other = callUUID ∧ ac.isSome then none else db.row (.active other) := by
  rw [CustomerSettled.row_of_ne h (by simp), hmid, active_closed]

theorem GaveBack.row_of_ne (h : GaveBack callUUID db after ac) (hne : ∀ id, key ≠ .account id) :
    after.row key = db.row key := by
  cases ac with
  | none =>
    obtain rfl : after = db := h
    rfl
  | some a => exact Released.row_of_ne h (hne _)

section Reserve

variable {seen : DB → Prop} {cfg : Config} {customerId : UUID} {rate : RateRow} {cdr : CDR}
  {result : ReserveResult}

theorem reconcile_inserted {key : Key} {ok : Row key → Prop}
    (h : Inserted seen key ok db after) (haccount : Key.account id ≠ key)
    (hopen : ∀ row, openAmount id key row = 0) : reconcile after id = reconcile db id := by
  cases h with
  | fresh row _ _ hafter => rw [hafter, reconcile_set_of_ne db id key _ haccount hopen]
  | conflict _ _ _ hafter => rw [hafter]

theorem reconcile_reserved
    (granted : Granted seen cfg customerId rate callUUID cdr db after result) :
    reconcile after id =
      { reconcile granted.withActive id with
        reserved := (reconcile granted.withActive id).reserved +
          if id = granted.accountId then result.reservedAmount else 0
        ledgerReserved := (reconcile granted.withActive id).ledgerReserved +
          if id = granted.accountId then result.reservedAmount else 0 } := by
  have hscale : OnScale scale result.reservedAmount := by
    rw [granted.amount_eq]
    exact reserveAmount_onScale _ _
  by_cases hid : id = granted.accountId
  · subst hid
    obtain ⟨hold, holdReserved⟩ := reconcile_of_row granted.moved.old_row
    have hput := granted.moved.put
    unfold reserveChange at hput
    split_ifs at hput
    obtain ⟨hreserved, hbalance, -, -⟩ := setReserved_put hput
      (granted.moved.old.reserved.val_onScale.add hscale)
    have hline : roundTo 6 (-result.reservedAmount) = -result.reservedAmount := hscale.neg
    rw [reconcile_moved granted.moved]
    ext
    · simp [hbalance, hold]
    · simp [LedgerKind.isReservation]
    · simp [hreserved, holdReserved]
    · rfl
    · simp [LedgerKind.isReservation, hline]
  · rw [reconcile_moved_of_ne granted.moved hid]
    simp [hid]

/-- The account had the money when the reservation was granted. -/
theorem granted_affordable
    (granted : Granted seen cfg customerId rate callUUID cdr db after result) :
    0 < granted.moved.old.available ∧ result.reservedAmount ≤ granted.moved.old.available := by
  have hput := granted.moved.put
  unfold reserveChange at hput
  split_ifs at hput with hwhere
  exact hwhere

theorem granted_account_row
    (granted : Granted seen cfg customerId rate callUUID cdr db after result) (id : UUID) :
    granted.withActive.row (.account id) = db.row (.account id) := by
  rw [granted.insertedActive.row_of_ne (by simp), granted.insertedCDR.row_of_ne (by simp)]

end Reserve

end SuperSbc.Ledger
