import SuperSbc.Ledger.Frame

/-!
Balance against ledger over whole runs. `Post` rounds twice, the sum on the
account and the amount on the ledger line, so the two stay together exactly as
long as every amount has six decimals or rounds the same way in both places.
Billing and the top-up endpoint hand over six decimals. The payment endpoint
hands over what was entered; `RoundsApart` is when that goes wrong.
-/

namespace SuperSbc

open FixedPoint Rating ReadCommitted Store Billing CallControl Admin Ledger

/-- A payment whose amount lies exactly between two millionths, posted to an
account that stays below zero: the balance is rounded down and the ledger line
up. -/
def Job.RoundsApart (before : DB) : Job → Prop
  | .createPayment r => r.topup = true ∧ IsTie (r.amount * 10 ^ 6) ∧
      ∃ id a, findAccount before r.owner = some (id, a) ∧ a.balance.val + r.amount < 0
  | _ => False

namespace Ledger

variable {seen : DB → Prop} {db after : DB} {accountId : UUID}

/-- By how much the ledger is ahead of the balance. -/
def gap (db : DB) (id : UUID) : Decimal :=
  (reconcile db id).ledgerBalance - (reconcile db id).balance

theorem gap_eq_of_paid {paid : UUID → Decimal}
    (hbalance : ∀ id, (reconcile after id).balance = (reconcile db id).balance - paid id)
    (hledger : ∀ id, (reconcile after id).ledgerBalance =
      (reconcile db id).ledgerBalance - paid id) (id : UUID) : gap after id = gap db id := by
  rw [gap, gap, hbalance id, hledger id]
  ring

theorem gap_posted {call : Option UUID} {kind : LedgerKind} {amount : Decimal}
    (moved : Moved accountId call kind (postChange amount) amount db after)
    (hkind : LedgerKind.isReservation kind = false) (hscale : OnScale scale amount) (id : UUID) :
    gap after id = gap db id := by
  rw [gap, gap, reconcile_posted moved hkind hscale]
  ring

theorem gap_billed {now : Time} {h : HangupInfo} {out : Outcome}
    (billed : Billed seen now h db after out) (id : UUID) : gap after id = gap db id := by
  cases billed with
  | noCDR _ hsame _ _ _ | already _ _ _ _ hsame => rw [hsame]
  | settled _ _ _ _ _ _ _ hactive _ _ _ _ _ hscale hcosts hcustomer _ =>
    obtain ⟨paid, hbooks, -⟩ := reconcile_settled hactive hcosts hcustomer hscale
    exact gap_eq_of_paid (fun id => by rw [hbooks id]) (fun id => by rw [hbooks id]) id

theorem gap_released {now : Time} {callUUID : UUID}
    (released : ReleasedCall seen now callUUID db after) (id : UUID) :
    gap after id = gap db id := by
  cases released with
  | already _ _ _ hsame => rw [hsame]
  | settled _ _ _ _ _ _ hactive _ _ hmid hafter =>
    rw [gap, gap, reconcile_gaveBack hactive hmid hafter]

theorem gap_granted {cfg : Config} {customerId : UUID} {rate : RateRow} {callUUID : UUID}
    {cdr : CDR} {result : ReserveResult}
    (granted : Granted seen cfg customerId rate callUUID cdr db after result) (id : UUID) :
    gap after id = gap db id := by
  have hcdr : reconcile granted.withCDR id = reconcile db id :=
    reconcile_inserted granted.insertedCDR (by simp) (fun _ => rfl)
  have hactive : gap granted.withActive id = gap granted.withCDR id := by
    cases granted.insertedActive with
    | fresh row _ _ hset => rw [gap, gap, hset, reconcile_set_active]
    | conflict _ _ _ hsame => rw [hsame]
  rw [gap, reconcile_reserved granted, ← gap, hactive, gap, gap, hcdr]

theorem gap_topup {amount : Decimal}
    (moved : Moved accountId none .topup (postChange amount) amount db after)
    (hpositive : 0 < amount) (id : UUID) :
    gap after id = gap db id +
      if id = accountId ∧ IsTie (amount * 10 ^ 6) ∧ moved.old.balance.val + amount < 0
      then 1 / 10 ^ 6 else 0 := by
  by_cases hid : id = accountId
  · subst hid
    obtain ⟨hbalance, -⟩ := setBalance_put moved.put
    have hsum := roundTo_add_of_onScale moved.old.balance.val_onScale hpositive.le
    rw [gap, gap, reconcile_moved moved, (reconcile_of_row moved.old_row).1]
    simp only [hbalance, hsum, LedgerKind.isReservation, true_and]
    simp only [Bool.false_eq_true, if_false]
    ring
  · rw [gap, gap, reconcile_moved_of_ne moved hid, if_neg (fun h => hid h.1), add_zero]

/-- What one commit does to the books of all accounts. -/
theorem gap_did {job : Job} {result : JobResult} (hframe : ∀ d, seen d → Frame db d)
    (hdid : Job.Did seen db after job result) :
    (¬ job.RoundsApart db ∧ ∀ id, gap after id = gap db id) ∨
    (job.RoundsApart db ∧ (∀ id, gap db id ≤ gap after id) ∧ ∃ id, gap db id < gap after id) := by
  cases hdid with
  | reserve granted => exact .inl ⟨id, gap_granted granted⟩
  | bill billed | reconcile billed => exact .inl ⟨id, gap_billed billed.billed⟩
  | releaseReservation released => exact .inl ⟨id, gap_released (released.releasedCall (fun _ => rfl))⟩
  | @postMoney r _ _ moved =>
    have hkind : LedgerKind.isReservation r.kind.ledgerKind = false := by
      cases r.kind <;> rfl
    exact .inl ⟨id, gap_posted moved hkind (roundTo_onScale _ _)⟩
  | payment hplain hsame =>
    refine .inl ⟨fun h => ?_, fun id => by rw [hsame]⟩
    exact absurd h.1 (by simp [hplain])
  | @topup r accountId _ hpositive htopup hfound moved =>
    obtain ⟨d, b, hd, hfind⟩ := hfound
    -- the account that was looked up is the account that was moved
    obtain ⟨a, ha, -⟩ := (hframe d hd).findAccount hfind
    have hold : a = moved.old :=
      Option.some.inj ((findAccount_some ha).1.symm.trans moved.old_row)
    subst hold
    have hstep := gap_topup moved hpositive
    by_cases happart : IsTie (r.amount * 10 ^ 6) ∧ moved.old.balance.val + r.amount < 0
    · refine .inr ⟨⟨htopup, happart.1, accountId, _, ha, happart.2⟩, fun id => ?_,
        accountId, ?_⟩
      · rw [hstep id]
        split_ifs <;> norm_num
      · rw [hstep accountId, if_pos ⟨rfl, happart⟩]
        norm_num
    · refine .inl ⟨?_, fun id => ?_⟩
      · rintro ⟨-, htie, other, c, hc, hneg⟩
        obtain ⟨-, rfl⟩ := Prod.mk.inj (Option.some.inj (ha.symm.trans hc))
        exact happart ⟨htie, hneg⟩
      · rw [hstep id, if_neg (fun h => happart h.2), add_zero]

end Ledger

/-- Every account's balance is what its ledger adds up to. -/
def BooksAgree (db : DB) : Prop :=
  ∀ id, (reconcile db id).balance = (reconcile db id).ledgerBalance

theorem booksAgree_iff_gap {db : DB} : BooksAgree db ↔ ∀ id, gap db id = 0 :=
  forall_congr' (fun _ => ⟨fun h => sub_eq_zero.mpr h.symm, fun h => (sub_eq_zero.mp h).symm⟩)

/-- In every interleaving of jobs on books that agree, the books agree exactly
as long as no committed payment rounded apart. The ledger only ever gets ahead,
so no later movement closes the gap again. -/
theorem balance_reconciles_iff (jobs : ℕ → Job) (db : DB) (σ : JobServer)
    (hrun : Runs jobs db σ) (hstart : BooksAgree db) :
    BooksAgree σ.db ↔ ∀ c ∈ σ.history, ¬ (jobs c.id).RoundsApart c.before := by
  have hinv : Frame db σ.db ∧ (∀ id, 0 ≤ gap σ.db id) ∧
      (BooksAgree σ.db ↔ ∀ c ∈ σ.history, ¬ (jobs c.id).RoundsApart c.before) := by
    refine hrun.invariant (fun history d => Frame db d ∧ (∀ id, 0 ≤ gap d id) ∧
      (BooksAgree d ↔ ∀ c ∈ history, ¬ (jobs c.id).RoundsApart c.before)) ?_ ?_
    · exact ⟨.refl db, fun id => (booksAgree_iff_gap.mp hstart id).ge, by simp [hstart]⟩
    · rintro t history before after result - ⟨hframe, hahead, hbooks⟩ hdid
      have hseen : ∀ d, (∃ older, older <:+ history ∧ Frame db d ∧ (∀ id, 0 ≤ gap d id) ∧
          (BooksAgree d ↔ ∀ c ∈ older, ¬ (jobs c.id).RoundsApart c.before)) →
          Frame before d := by
        rintro d ⟨-, -, hd, -⟩
        exact hframe.symm.trans hd
      refine ⟨hframe.trans (.did hdid), ?_⟩
      rcases gap_did hseen hdid with ⟨hgood, hsame⟩ | ⟨hbad, hgrows, id, hgap⟩
      · refine ⟨fun id => (hsame id).symm ▸ hahead id, ?_⟩
        rw [booksAgree_iff_gap, List.forall_mem_cons, ← hbooks, booksAgree_iff_gap]
        simp only [hsame]
        exact ⟨fun h => ⟨hgood, h⟩, fun h => h.2⟩
      · refine ⟨fun other => (hahead other).trans (hgrows other), ?_⟩
        rw [booksAgree_iff_gap, List.forall_mem_cons]
        refine ⟨fun h => ?_, fun h => absurd hbad h.1⟩
        exact absurd (h id) ((hahead id).trans_lt hgap).ne'
  exact hinv.2.2

theorem sampleStore_booksAgree : BooksAgree (sampleStore 0) := by
  intro id
  have hledger : (reconcile (sampleStore 0) id).ledgerBalance = 0 := rfl
  rw [hledger]
  cases hfound : (sampleStore 0).row (.account id) with
  | none => simp [reconcile, hfound]
  | some a => simp [reconcile, hfound, sampleStore_account hfound, sampleAccount]

/-- An adjustment of minus one, then a payment credited to the account. -/
def samplePayment (amount : Decimal) : ℕ → Job
  | 0 => .postMoney ⟨⟨.customer, 7⟩, .adjustment, -1, "correction", "operator"⟩
  | _ => .createPayment ⟨⟨.customer, 7⟩, amount, "", true, "operator", "1", true⟩

theorem balance_reconciles_iff_samplePayment :
    ∃ σ, Runs (samplePayment (5 / 2)) (sampleStore 0) σ ∧ σ.history.length = 2 ∧
      (BooksAgree σ.db ↔
        ∀ c ∈ σ.history, ¬ (samplePayment (5 / 2) c.id).RoundsApart c.before) := by
  have hcommits : (runSerially (samplePayment (5 / 2)) [0, 1] (sampleStore 0)).map
      (·.2.length) = some 2 := by
    decide +kernel
  obtain ⟨σ, hrun, hlength⟩ := runs_serially hcommits
  exact ⟨σ, hrun, hlength,
    balance_reconciles_iff (samplePayment (5 / 2)) _ σ hrun sampleStore_booksAgree⟩

/-- Half a millionth on a balance of minus one: the balance does not move and
the ledger gains a millionth. -/
theorem half_unit_payment_breaks_books :
    ∃ σ, Runs (samplePayment (5 / 10 ^ 7)) (sampleStore 0) σ ∧ BooksAgree (sampleStore 0) ∧
      (reconcile σ.db 1).balance = -1 ∧
      (reconcile σ.db 1).ledgerBalance = -1 + 1 / 10 ^ 6 := by
  have hbooks : (runSerially (samplePayment (5 / 10 ^ 7)) [0, 1] (sampleStore 0)).map
      (fun final => ((reconcile final.1 1).balance, (reconcile final.1 1).ledgerBalance)) =
      some (-1, -1 + 1 / 10 ^ 6) := by
    decide +kernel
  obtain ⟨σ, hrun, hfinal⟩ := runs_serially hbooks
  exact ⟨σ, hrun, sampleStore_booksAgree, Prod.mk.inj hfinal⟩

end SuperSbc
