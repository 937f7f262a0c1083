import SuperSbc.Ledger.Effects

/-!
The reservation ledger over whole runs. In every interleaving of setups,
hangups, releases, reconciliation passes and manual postings, each account's
`reserved` column equals the reservations that are open and equals what the
ledger says is reserved, as long as no call is set up twice.

What carries the induction is that a reservation row can only be there if the
call was set up, so that the insert of a setup never meets a row, and that
every row is part of its account's `reserved`, so that a release takes away
exactly what the setup added.
-/

namespace SuperSbc

open FixedPoint Rating ReadCommitted Store Billing CallControl Ledger

def Job.setsUp : Job → Option UUID
  | .reserve _ _ _ callUUID _ => some callUUID
  | _ => none

def setUps (jobs : ℕ → Job) (history : List JobCommit) : List UUID :=
  history.filterMap (fun c => (jobs c.id).setsUp)

/-- No reservation on any account and none open. -/
structure NoReservations (db : DB) : Prop where
  reserved_zero : ∀ id, (reconcile db id).reserved = 0
  none_open : ∀ callUUID, db.row (.active callUUID) = none

/-- A commit that closed a reservation lowered `reserved` by its amount. The
lower bound of zero in the release statement made no difference. -/
def ReleasesExactly (c : JobCommit) : Prop :=
  ∀ callUUID a, c.before.row (.active callUUID) = some a →
    c.after.row (.active callUUID) = none →
    a.reservedAmount.val ≤ (reconcile c.before a.accountId).reserved ∧
    (reconcile c.after a.accountId).reserved =
      (reconcile c.before a.accountId).reserved - a.reservedAmount.val

namespace Ledger

variable {t : ℕ} {result : JobResult} {seen : DB → Prop}

/-- The invariant behind the reservation ledger. Ledger lines from before the
run, in `start`, do not count. -/
structure Consistent (jobs : ℕ → Job) (start : DB) (history : List JobCommit) (db : DB) :
    Prop where
  open_eq : ∀ id, (reconcile db id).reserved = (reconcile db id).openReserved
  ledger_eq : ∀ id, (reconcile db id).reserved =
    (reconcile db id).ledgerReserved - (reconcile start id).ledgerReserved
  amount_nonneg : ∀ callUUID a, db.row (.active callUUID) = some a → 0 ≤ a.reservedAmount.val
  known : ∀ callUUID, db.row (.active callUUID) ≠ none → callUUID ∈ setUps jobs history
  exact : ∀ c ∈ history, ReleasesExactly c

variable {jobs : ℕ → Job} {history : List JobCommit} {start db after : DB} {callUUID : UUID}

theorem Consistent.initial (h : NoReservations db) : Consistent jobs db [] db where
  open_eq id := by
    have hnone : ∀ key ∈ db.keys, Database.cell (openAmount id) key (db.row key) = 0 := by
      intro key _
      cases key with
      | active callUUID => simp [h.none_open callUUID]
      | account other => cases db.row (.account other) <;> rfl
      | accountOf owner => cases db.row (.accountOf owner) <;> rfl
      | cdr other => cases db.row (.cdr other) <;> rfl
      | rate other => cases db.row (.rate other) <;> rfl
      | rateGroup other => cases db.row (.rateGroup other) <;> rfl
      | carrier other => cases db.row (.carrier other) <;> rfl
    rw [h.reserved_zero id]
    exact (Finset.sum_eq_zero hnone).symm
  ledger_eq id := by rw [h.reserved_zero id, sub_self]
  amount_nonneg callUUID a ha := by simp [h.none_open callUUID] at ha
  known callUUID hsome := absurd (h.none_open callUUID) hsome
  exact := by simp

theorem Consistent.openOf_le (h : Consistent jobs start history db) {ac : Option ActiveCall}
    (hactive : ∀ a, ac = some a → db.row (.active callUUID) = some a) (id : UUID) :
    openOf id ac ≤ (reconcile db id).reserved := by
  cases ac with
  | none => exact reconcile_reserved_nonneg db id
  | some a =>
    have hweights : ∀ key row, db.row key = some row → 0 ≤ openAmount id key row := by
      intro key row hrow
      cases key with
      | active other =>
        change 0 ≤ if row.accountId = id then row.reservedAmount.val else 0
        split_ifs
        · exact h.amount_nonneg other row hrow
        · exact le_rfl
      | _ => exact le_rfl
    have hle := Database.weight_le_total db (openAmount id) hweights (.active callUUID) a
      (hactive a rfl)
    have hcell := cell_openAmount id callUUID (some a)
    rw [Database.cell_some] at hcell
    rw [h.open_eq id, ← hcell]
    exact hle

/-- A commit that closes at most one reservation keeps the invariant. -/
theorem Consistent.close (h : Consistent jobs start history db) (callUUID : UUID)
    (ac : Option ActiveCall) (hactive : ∀ a, ac = some a → db.row (.active callUUID) = some a)
    (hreserved : ∀ id, (reconcile after id).reserved =
      max ((reconcile db id).reserved - openOf id ac) 0)
    (hopen : ∀ id, (reconcile after id).openReserved =
      (reconcile db id).openReserved - openOf id ac)
    (hledger : ∀ id, (reconcile after id).ledgerReserved =
      (reconcile db id).ledgerReserved - openOf id ac) (hrows : ∀ other, after.row (.active other) =
      if other = callUUID ∧ ac.isSome then none else db.row (.active other)) :
    Consistent jobs start (⟨t, result, db, after⟩ :: history) after := by
  -- the clamp does nothing, because the reservation is part of `reserved`
  have hexact : ∀ id, (reconcile after id).reserved =
      (reconcile db id).reserved - openOf id ac := by
    intro id
    rw [hreserved id, max_eq_left (sub_nonneg.mpr (h.openOf_le hactive id))]
  have hkept : ∀ other, after.row (.active other) ≠ none →
      after.row (.active other) = db.row (.active other) := by
    intro other hsome
    rw [hrows other] at hsome ⊢
    split_ifs at hsome ⊢ with hclosed
    · exact absurd rfl hsome
    · rfl
  have hmore : setUps jobs history ⊆ setUps jobs (⟨t, result, db, after⟩ :: history) :=
    List.Sublist.subset ((List.sublist_cons_self _ _).filterMap _)
  refine ⟨fun id => ?_, fun id => ?_, fun other a ha => ?_, fun other hsome => ?_, ?_⟩
  · rw [hexact id, hopen id, h.open_eq id]
  · rw [hexact id, hledger id, h.ledger_eq id]
    ring
  · rw [hkept other (by simp [ha])] at ha
    exact h.amount_nonneg other a ha
  · rw [hkept other hsome] at hsome
    exact hmore (h.known other hsome)
  · intro c hc
    rcases List.mem_cons.mp hc with rfl | hc
    · intro other a hbefore hgone
      -- the row that went away is the one that was closed
      have hself : other = callUUID ∧ ac = some a := by
        have hrow : after.row (.active other) = none := hgone
        have hold : db.row (.active other) = some a := hbefore
        rw [hrows other] at hrow
        split_ifs at hrow with hclosed
        · obtain ⟨rfl, hsome⟩ := hclosed
          obtain ⟨b, rfl⟩ := Option.isSome_iff_exists.mp hsome
          exact ⟨rfl, (hactive b rfl).symm.trans hold⟩
        · rw [hold] at hrow
          cases hrow
      obtain ⟨rfl, rfl⟩ := hself
      have hle := h.openOf_le hactive a.accountId
      have hafter := hexact a.accountId
      simp only [openOf, if_true] at hle hafter
      exact ⟨hle, hafter⟩
    · exact h.exact c hc

theorem Consistent.keep (h : Consistent jobs start history db)
    (hbooks : ∀ id, (reconcile after id).reserved = (reconcile db id).reserved ∧
      (reconcile after id).openReserved = (reconcile db id).openReserved ∧
      (reconcile after id).ledgerReserved = (reconcile db id).ledgerReserved)
    (hrows : ∀ other, after.row (.active other) = db.row (.active other)) :
    Consistent jobs start (⟨t, result, db, after⟩ :: history) after := by
  refine h.close 0 none (by simp) (fun id => ?_) (fun id => ?_)
    (fun id => ?_) (fun other => by simp [hrows other])
  · rw [(hbooks id).1]
    simp [openOf, reconcile_reserved_nonneg]
  · rw [(hbooks id).2.1]
    simp [openOf]
  · rw [(hbooks id).2.2]
    simp [openOf]

theorem Consistent.posted (h : Consistent jobs start history db) {accountId : UUID}
    {call : Option UUID} {kind : LedgerKind} {amount : Decimal}
    (hkind : LedgerKind.isReservation kind = false)
    (moved : Moved accountId call kind (postChange amount) amount db after) :
    Consistent jobs start (⟨t, result, db, after⟩ :: history) after := by
  refine h.keep (fun id => ?_) (fun other => moved.row_of_ne (by simp))
  by_cases hid : id = accountId
  · subst hid
    obtain ⟨-, hreserved, -, -⟩ := setBalance_put moved.put
    rw [reconcile_moved moved]
    simp [hkind, hreserved, (reconcile_of_row moved.old_row).2]
  · rw [reconcile_moved_of_ne moved hid]
    simp

theorem Consistent.billed (h : Consistent jobs start history db) {now : Time} {info : HangupInfo}
    {out : Outcome} (billed : Billed seen now info db after out) :
    Consistent jobs start (⟨t, result, db, after⟩ :: history) after := by
  cases billed with
  | noCDR _ hsame | already _ _ _ _ hsame => exact h.keep (by simp [hsame]) (by simp [hsame])
  | settled cdr row ac price mid _ _ hactive _ _ _ _ _ hscale hcosts hcustomer _ =>
    obtain ⟨paid, hbooks, -⟩ := reconcile_settled hactive hcosts hcustomer hscale
    refine h.close info.callUUID ac hactive (fun id => by rw [hbooks id])
      (fun id => by rw [hbooks id]) (fun id => by rw [hbooks id]) (fun other => ?_)
    exact CustomerSettled.active hcustomer (CostLines.row_of_ne hcosts (by simp))

theorem Consistent.released (h : Consistent jobs start history db) {now : Time}
    (released : ReleasedCall seen now callUUID db after) :
    Consistent jobs start (⟨t, result, db, after⟩ :: history) after := by
  cases released with
  | already _ _ _ hsame => exact h.keep (by simp [hsame]) (by simp [hsame])
  | settled cdr row ac mid _ _ hactive _ _ hmid hafter =>
    have hbooks : ∀ id, reconcile after id = _ :=
      fun id => reconcile_gaveBack hactive hmid hafter
    refine h.close callUUID ac hactive (fun id => by rw [hbooks id])
      (fun id => by rw [hbooks id]) (fun id => by rw [hbooks id]) (fun other => ?_)
    rw [hafter, active_closed, GaveBack.row_of_ne hmid (by simp)]

/-- A setup of a call that was never set up before. -/
theorem Consistent.granted (h : Consistent jobs start history db) {cfg : Config} {customerId : UUID}
    {rate : RateRow} {cdr : CDR} {result : ReserveResult} (hjob : (jobs t).setsUp = some callUUID)
    (hnew : callUUID ∉ setUps jobs history)
    (hseen : ∀ d, seen d → d.row (.active callUUID) ≠ none → callUUID ∈ setUps jobs history)
    (granted : Granted seen cfg customerId rate callUUID cdr db after result) :
    Consistent jobs start (⟨t, .reserved result, db, after⟩ :: history) after := by
  have hsetUps : setUps jobs (⟨t, .reserved result, db, after⟩ :: history) =
      callUUID :: setUps jobs history := by
    simp [setUps, hjob]
  cases granted.insertedActive with
  | conflict d hd hsome => exact absurd (hseen d hd hsome) hnew
  | fresh row hopens hnone hafter =>
    have hcdr : ∀ id, reconcile granted.withCDR id = reconcile db id := fun id =>
      reconcile_inserted granted.insertedCDR (by simp) (fun _ => rfl)
    have hopenOf : ∀ id, openOf id (some row) =
        if id = granted.accountId then result.reservedAmount else 0 := by
      intro id
      rw [openOf, hopens.account_eq, hopens.amount_eq]
    have hbooks : ∀ id, reconcile after id = _ := fun id => reconcile_reserved granted
    have hactive : ∀ id, reconcile granted.withActive id = _ := fun id => by
      rw [hafter, reconcile_set_active, hnone, cell_openAmount, cell_openAmount, hcdr id,
        hopenOf id]
    have hothers : ∀ other, other ≠ callUUID →
        after.row (.active other) = db.row (.active other) := by
      intro other hother
      rw [granted.moved.row_of_ne (by simp),
        granted.insertedActive.row_of_ne (by simpa using hother),
        granted.insertedCDR.row_of_ne (by simp)]
    have hself : after.row (.active callUUID) = some row := by
      rw [granted.moved.row_of_ne (by simp), hafter, Database.row_set_self]
    refine ⟨fun id => ?_, fun id => ?_, fun other a ha => ?_, fun other hsome => ?_, ?_⟩
    · rw [hbooks id, hactive id]
      simp [h.open_eq id, openOf]
    · rw [hbooks id, hactive id]
      simp only [h.ledger_eq id]
      ring
    · by_cases hother : other = callUUID
      · subst hother
        obtain rfl := Option.some.inj (hself.symm.trans ha)
        rw [hopens.amount_eq, granted.amount_eq]
        exact reserveAmount_nonneg _ (toRating_valid rate)
      · rw [hothers other hother] at ha
        exact h.amount_nonneg other a ha
    · rw [hsetUps]
      by_cases hother : other = callUUID
      · simp [hother]
      · rw [hothers other hother] at hsome
        exact List.mem_cons_of_mem _ (h.known other hsome)
    · intro c hc
      rcases List.mem_cons.mp hc with rfl | hc
      · intro other a hbefore hgone
        -- a setup closes nothing
        have hrow : after.row (.active other) = none := hgone
        have hold : db.row (.active other) = some a := hbefore
        by_cases hother : other = callUUID
        · rw [hother, hself] at hrow
          cases hrow
        · rw [hothers other hother, hold] at hrow
          cases hrow
      · exact h.exact c hc

theorem Consistent.did (h : Consistent jobs start history db)
    (hnodup : (setUps jobs (⟨t, result, db, after⟩ :: history)).Nodup)
    (hseen : ∀ d, seen d → ∀ callUUID, d.row (.active callUUID) ≠ none →
      callUUID ∈ setUps jobs history) (hdid : Job.Did seen db after (jobs t) result) :
    Consistent jobs start (⟨t, result, db, after⟩ :: history) after := by
  generalize hjob : jobs t = job at hdid
  cases hdid with
  | @reserve cfg customerId rate callUUID cdr result granted =>
    have hsets : (jobs t).setsUp = some callUUID := by rw [hjob]; rfl
    have hnew : callUUID ∉ setUps jobs history := by
      have hcons : (callUUID :: setUps jobs history).Nodup := by
        simpa [setUps, hsets] using hnodup
      exact (List.nodup_cons.mp hcons).1
    exact h.granted hsets hnew (fun d hd => hseen d hd callUUID) granted
  | bill billed | reconcile billed => exact h.billed billed.billed
  | releaseReservation released => exact h.released (released.releasedCall (fun _ => rfl))
  | @postMoney r accountId account moved =>
    refine h.posted ?_ moved
    cases r.kind <;> rfl
  | topup _ _ _ moved => exact h.posted rfl moved
  | payment _ hsame => exact h.keep (by simp [hsame]) (by simp [hsame])

theorem setUps_sublist (jobs : ℕ → Job) {older history : List JobCommit}
    (h : older <:+ history) : (setUps jobs older).Sublist (setUps jobs history) :=
  h.sublist.filterMap _

end Ledger

/-- After every commit of every interleaving in which no call was set up
twice, the three records of what is reserved agree on every account, and no
release was ever cut off at zero. Ledger lines count from the start of the run,
so for an account without earlier ones it is the whole ledger. -/
theorem reserved_reconciles (jobs : ℕ → Job) (db : DB) (σ : JobServer)
    (hrun : Runs jobs db σ) (hstart : NoReservations db)
    (honce : (setUps jobs σ.history).Nodup) :
    (∀ id, (reconcile σ.db id).reserved = (reconcile σ.db id).openReserved ∧
      (reconcile σ.db id).reserved =
        (reconcile σ.db id).ledgerReserved - (reconcile db id).ledgerReserved ∧
      0 ≤ (reconcile σ.db id).reserved) ∧
    (∀ c ∈ σ.history, ReleasesExactly c) := by
  have hinv : (setUps jobs σ.history).Nodup → Consistent jobs db σ.history σ.db := by
    refine hrun.invariant
      (fun history d => (setUps jobs history).Nodup → Consistent jobs db history d)
      (fun _ => .initial hstart) ?_
    intro t history before after result _ hinv hdid hnodup
    have hnodup' := hnodup.sublist (setUps_sublist jobs (List.suffix_cons _ history))
    refine (hinv hnodup').did hnodup ?_ hdid
    rintro d ⟨older, holder, hd⟩ callUUID hsome
    have hsub := setUps_sublist jobs holder
    exact hsub.subset ((hd (hnodup'.sublist hsub)).known callUUID hsome)
  have hconsistent := hinv honce
  exact ⟨fun id => ⟨hconsistent.open_eq id, hconsistent.ledger_eq id,
    reconcile_reserved_nonneg σ.db id⟩, hconsistent.exact⟩

theorem sampleStore_noReservations (balance : Money) : NoReservations (sampleStore balance) where
  reserved_zero id := by
    cases hfound : (sampleStore balance).row (.account id) with
    | none => simp [reconcile, hfound]
    | some a => simp [reconcile, hfound, sampleStore_account hfound, sampleAccount]
  none_open callUUID := by
    rw [sampleStore, Database.row_set_of_ne _ _ (by simp), Database.row_set_of_ne _ _ (by simp),
      Database.row_set_of_ne _ _ (by simp)]
    rfl

theorem reserved_reconciles_sampleCall :
    ∃ σ, Runs sampleCall (sampleStore ⟨10000000, by decide⟩) σ ∧ σ.history.length = 2 ∧
      (∀ id, (reconcile σ.db id).reserved = (reconcile σ.db id).openReserved ∧
        (reconcile σ.db id).reserved = (reconcile σ.db id).ledgerReserved -
          (reconcile (sampleStore ⟨10000000, by decide⟩) id).ledgerReserved ∧
        0 ≤ (reconcile σ.db id).reserved) ∧
      (∀ c ∈ σ.history, ReleasesExactly c) := by
  have hcalls : (runSerially sampleCall [0, 1] (sampleStore ⟨10000000, by decide⟩)).map
      (fun final => (final.2.length, setUps sampleCall final.2)) = some (2, [42]) := by
    decide +kernel
  obtain ⟨σ, hrun, hfinal⟩ := runs_serially hcalls
  obtain ⟨hlength, hsetUps⟩ := Prod.mk.inj hfinal
  refine ⟨σ, hrun, hlength, ?_⟩
  exact reserved_reconciles sampleCall _ σ hrun (sampleStore_noReservations _)
    (by rw [hsetUps]; simp)

end SuperSbc
