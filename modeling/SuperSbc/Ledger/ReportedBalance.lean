import SuperSbc.Ledger.Frame

/-!
What a bill says about the customer's account when it is done: the available
amount of its outcome, and the notification that the balance is low. Both come
from an account value that is threaded through the transaction. The charge
replaces it by the row it leaves, the release does not, so the amount of a call
that costs nothing is the one before its reservation was given back.
-/

namespace SuperSbc

open FixedPoint Rating ReadCommitted Transaction Store Billing CallControl

/-- A row of `notifications` of kind `low_balance`. -/
structure Billing.LowBalanceNotice where
  ownerId : UUID
  available : Decimal

/-- The notification that is written once a bill has committed. -/
def Billing.notification (out : Outcome) : Option LowBalanceNotice :=
  if out.noCDR ∨ out.alreadyBilled then none
  else out.lowBalance.map (fun a => ⟨a.owner.id, a.available⟩)

def Job.billing : Job → Option (Engine × HangupInfo)
  | .bill e _ h => some (e, h)
  | .reconcile e now callUUID => some (e, orphanHangup now callUUID)
  | _ => none

namespace Ledger

/-- An outcome that agrees with the account row as it was committed. -/
structure Reports (e : Engine) (out : Outcome) (after : DB) (accountId : UUID) : Prop where
  available : out.available =
    (after.row (.account accountId)).map (fun a : Account => a.available)
  notified : (notification out).isSome ↔ ∃ (threshold : Decimal) (a : Account),
    e.lowBalanceThreshold = some threshold ∧ 0 < threshold ∧
      after.row (.account accountId) = some a ∧ a.available < threshold

/-- What a call costs by the rates of a store. -/
def callPrice (db : DB) (h : HangupInfo) (cdr : CDR) : Decimal :=
  match h.answerTime, cdr.sellRateId with
  | some _, some sellId =>
    match db.row (.rate sellId) with
    | none => 0
    | some sell =>
      (price (if h.billsec < 0 then 0 else h.billsec) (toRatingFX sell cdr.sellFX)).2
  | _, _ => 0

/-- Giving the reservation back leaves the account as it is. -/
def NothingHeld (ac : ActiveCall) (a : Account) : Prop :=
  ac.reservedAmount.val = 0 ∨ (a.reserved.val = 0 ∧ 0 ≤ ac.reservedAmount.val)

section Commit

variable {seen : DB → Prop} {e : Engine} {now : Time} {h : HangupInfo} {db after : DB}
  {out : Outcome} {callUUID accountId : UUID}

theorem callPrice_of_quoted (hseen : ∀ d, seen d → Frame db d) {cdr : CDR} {billed : ℤ}
    {price : Decimal}
    (hquoted : Quoted seen h cdr (if h.billsec < 0 then 0 else h.billsec) billed price) :
    price = callPrice db h cdr := by
  unfold callPrice
  rcases hquoted with ⟨sellId, d, sell, hanswered, hsold, hd, hsell, hprice⟩ | ⟨hunsold, rfl⟩
  · obtain ⟨t, ht⟩ := Option.isSome_iff_exists.mp hanswered
    rw [(hseen d hd).static_eq (.rate sellId) trivial] at hsell
    rw [ht, hsold]
    dsimp only
    rw [hsell]
    exact congrArg Prod.snd hprice
  · rcases hunsold with hnone | hnone
    · rw [hnone]
    · rw [hnone]
      cases h.answerTime <;> rfl

theorem reserved_costsPosted {d : DB} {lines : List (UUID × Decimal)}
    (hcosts : CostsPosted seen db callUUID lines d after) (id : UUID) :
    (after.row (.account id)).map Account.reserved =
      (d.row (.account id)).map Account.reserved := by
  induction hcosts with
  | done d => rfl
  | @posted _ accountId _ _ _ _ _ _ _ _ _ moved _ ih =>
    rw [ih]
    by_cases hid : id = accountId
    · subst hid
      rw [moved.row_self, moved.old_row, Option.map_some, Option.map_some,
        (setBalance_put moved.put).2.1]
    · rw [moved.row_of_ne (by simpa using hid)]
  | skipped _ _ _ ih => exact ih

theorem available_released {amount : Money} {a a' : Account}
    (hreleased : Released callUUID accountId amount.val db after)
    (hbefore : db.row (.account accountId) = some a)
    (hafter : after.row (.account accountId) = some a') :
    a'.available = a.available + a.reserved.val - max (a.reserved.val - amount.val) 0 := by
  have hnonneg : 0 ≤ a.reserved.val := (Numeric.val_nonneg a.reserved).mpr a.reserved_nonneg
  unfold Released at hreleased
  split_ifs at hreleased with hzero
  · subst hreleased
    obtain rfl := Option.some.inj (hbefore.symm.trans hafter)
    rw [hzero, sub_zero, max_eq_left hnonneg]
    ring
  · obtain ⟨moved⟩ := hreleased
    obtain rfl := Option.some.inj (moved.old_row.symm.trans hbefore)
    obtain rfl := Option.some.inj (moved.row_self.symm.trans hafter)
    obtain ⟨hreserved, hbalance, hcredit, -⟩ :=
      releaseChange_put moved.put amount.val_onScale
    unfold Account.available
    rw [hreserved, hbalance, hcredit]
    ring

theorem available_released_iff {ac : ActiveCall} {a a' : Account}
    (hreleased : Released callUUID accountId ac.reservedAmount.val db after)
    (hbefore : db.row (.account accountId) = some a)
    (hafter : after.row (.account accountId) = some a') :
    a.available = a'.available ↔ NothingHeld ac a := by
  have hnonneg : 0 ≤ a.reserved.val := (Numeric.val_nonneg a.reserved).mpr a.reserved_nonneg
  rw [available_released hreleased hbefore hafter]
  unfold NothingHeld
  constructor
  · intro hsame
    rcases max_cases (a.reserved.val - ac.reservedAmount.val) 0 with ⟨hmax, -⟩ | ⟨hmax, hless⟩
    · left
      rw [hmax] at hsame
      linarith
    · right
      rw [hmax] at hsame
      constructor <;> linarith
  · rintro (hzero | ⟨hzero, hamount⟩)
    · rw [hzero, sub_zero, max_eq_left hnonneg]
      ring
    · rw [hzero, max_eq_right (by linarith)]
      ring

theorem notification_iff {acc : Account} (hlow : out.lowBalance = lowBalance e (some acc))
    (hdone : out.noCDR = false ∧ out.alreadyBilled = false) :
    (notification out).isSome ↔ ∃ threshold : Decimal, e.lowBalanceThreshold = some threshold ∧
      0 < threshold ∧ acc.available < threshold := by
  unfold notification lowBalance at *
  rw [hdone.1, hdone.2, hlow]
  cases e.lowBalanceThreshold with
  | none => simp
  | some threshold => simp [Option.filter]

/-- A bill that settles an open reservation reports the committed account
exactly when it charges something or has nothing to give back. -/
theorem reports_iff {cdr : CDR} {ac : ActiveCall} {a : Account}
    (hseen : ∀ d, seen d → Frame db d) (billed : BilledAs seen e now h db after out)
    (tells : Tells seen e h db after out) (hcdr : db.row (.cdr h.callUUID) = some cdr)
    (hopen : db.row (.active h.callUUID) = some ac)
    (hsettled : after.row (.active h.callUUID) = none)
    (haccount : db.row (.account ac.accountId) = some a) :
    Reports e out after ac.accountId ↔ 0 < callPrice db h cdr ∨ NothingHeld ac a := by
  cases tells with
  | nothing hkept =>
    rw [hkept, hopen] at hsettled
    cases hsettled
  | account found row lines mid acc hactive hcosts hcustomer hacc havailable hlow =>
    obtain rfl := Option.some.inj (hopen.symm.trans hactive)
    obtain ⟨hprice, hdone⟩ : out.price = callPrice db h cdr ∧
        out.noCDR = false ∧ out.alreadyBilled = false := by
      cases billed.billed with
      | noCDR _ hsame _ _ _ | already _ _ _ _ hsame =>
        rw [hsame, hopen] at hsettled
        cases hsettled
      | settled found _ _ _ _ hfound _ _ _ _ _ _ hquoted _ _ _ hout =>
        obtain rfl := Option.some.inj (hcdr.symm.trans hfound)
        obtain ⟨hfirst, hknown, hprice, -⟩ := hout
        exact ⟨hprice.trans (callPrice_of_quoted hseen hquoted), hknown, hfirst⟩
    rw [← hprice]
    by_cases hcharged : 0 < out.price
    · rw [if_pos hcharged] at hacc
      refine ⟨fun _ => .inl hcharged, fun _ => ⟨?_, ?_⟩⟩
      · rw [havailable, hacc]
        rfl
      · rw [notification_iff hlow hdone, hacc]
        simp
    · rw [if_neg hcharged] at hacc
      have hheld : NothingHeld ac acc ↔ NothingHeld ac a := by
        have hkept := reserved_costsPosted hcosts ac.accountId
        rw [hacc, closed, withoutActive, Database.row_set_of_ne _ _ (by simp),
          Database.row_set_of_ne _ _ (by simp), haccount] at hkept
        have hreserved : acc.reserved = a.reserved := Option.some.inj hkept
        unfold NothingHeld
        rw [hreserved]
      obtain ⟨d, hreleased, hunpaid⟩ := hcustomer
      obtain rfl : after = d := by simpa [Charged, hcharged] using hunpaid
      obtain ⟨a', ha'⟩ : ∃ a', after.row (.account ac.accountId) = some a' := by
        unfold Released at hreleased
        split_ifs at hreleased
        · exact ⟨acc, hreleased ▸ hacc⟩
        · obtain ⟨moved⟩ := hreleased
          exact ⟨moved.new, moved.row_self⟩
      have hsame := available_released_iff hreleased hacc ha'
      rw [← hheld, ← hsame]
      constructor
      · intro hreports
        have havailable' := hreports.available
        rw [havailable, ha'] at havailable'
        exact .inr (Option.some.inj havailable')
      · rintro (hpos | hequal)
        · exact absurd hpos hcharged
        · refine ⟨?_, ?_⟩
          · rw [havailable, ha', hequal]
            rfl
          · rw [notification_iff hlow hdone, ha', hequal]
            simp

end Commit

end Ledger

/-- The rule for a job, with what the outcome of a bill tells. -/
theorem Job.wp_tells {seen : DB → Prop} {db : DB} (job : Job)
    {post : JobResult → Progress Key Row LedgerEntry → Prop}
    (h : ∀ result q, Did seen db (db.apply q.effects) job result →
      (∀ e hangup out, job.billing = some (e, hangup) → result = .billed out → ∃ now,
        BilledAs seen e now hangup db (db.apply q.effects) out ∧
          Tells seen e hangup db (db.apply q.effects) out) → post result q) :
    job.tx.wp seen db .start post := by
  cases job with
  | bill e now hangup =>
    refine (wp_bind _ _ _).mpr (wp_billTells (fun out q billed tells => ?_))
    refine h _ q (.bill billed) (fun e' hangup' out' hjob hresult => ⟨now, ?_⟩)
    obtain ⟨rfl, rfl⟩ := Prod.mk.inj (Option.some.inj hjob)
    obtain rfl := JobResult.billed.inj hresult
    exact ⟨billed, tells⟩
  | reconcile e now callUUID =>
    refine (wp_bind _ _ _).mpr (wp_billTells (fun out q billed tells => ?_))
    refine h _ q (.reconcile billed) (fun e' hangup' out' hjob hresult => ⟨now, ?_⟩)
    obtain ⟨rfl, rfl⟩ := Prod.mk.inj (Option.some.inj hjob)
    obtain rfl := JobResult.billed.inj hresult
    exact ⟨billed, tells⟩
  | reserve _ _ _ _ _ | releaseReservation _ _ _ _ _ _ _ _ | postMoney _ | createPayment _ =>
    exact Job.wp_tx _ (fun result q hdid => h result q hdid (fun _ _ _ hjob => by cases hjob))

namespace Ledger

/-- The bills of a run so far, with what their outcomes told. -/
structure Told (jobs : ℕ → Job) (start : DB) (history : List JobCommit) (db : DB) : Prop where
  frame : Frame start db
  bills : ∀ c ∈ history, ∀ e h out, (jobs c.id).billing = some (e, h) → c.value = .billed out →
    ∃ seen now, (∀ d, seen d → Frame c.before d) ∧
      BilledAs seen e now h c.before c.after out ∧ Tells seen e h c.before c.after out

theorem told_of_runs {jobs : ℕ → Job} {start : DB} {σ : JobServer} (hrun : Runs jobs start σ) :
    Told jobs start σ.history σ.db := by
  refine Reachable.invariant hrun ⟨.refl start, by simp⟩ (fun t history before _ htold => ?_)
  refine Job.wp_tells (jobs t) (fun result q hdid htells => ⟨htold.frame.trans (.did hdid), ?_⟩)
  intro c hc e h out hjob hvalue
  rcases List.mem_cons.mp hc with rfl | hearlier
  · obtain ⟨now, billed, tells⟩ := htells e h out hjob hvalue
    refine ⟨_, now, ?_, billed, tells⟩
    rintro d ⟨older, -, hd⟩
    exact htold.frame.symm.trans hd.frame
  · exact htold.bills c hearlier e h out hjob hvalue

/-- In every interleaving of jobs, a bill that settles an open reservation
reports the account as it committed it, and notifies accordingly, exactly when
the call costs something or its reservation holds nothing. -/
theorem bill_reports_committed_iff (jobs : ℕ → Job) (start : DB) (σ : JobServer)
    (hrun : Runs jobs start σ) (c : JobCommit) (hc : c ∈ σ.history) (e : Engine) (h : HangupInfo)
    (out : Outcome) (hjob : (jobs c.id).billing = some (e, h)) (hvalue : c.value = .billed out)
    (cdr : CDR) (ac : ActiveCall) (a : Account) (hcdr : c.before.row (.cdr h.callUUID) = some cdr)
    (hopen : c.before.row (.active h.callUUID) = some ac)
    (hsettled : c.after.row (.active h.callUUID) = none)
    (haccount : c.before.row (.account ac.accountId) = some a) :
    Reports e out c.after ac.accountId ↔ 0 < callPrice c.before h cdr ∨ NothingHeld ac a := by
  obtain ⟨seen, now, hseen, billed, tells⟩ := (told_of_runs hrun).bills c hc e h out hjob hvalue
  exact reports_iff hseen billed tells hcdr hopen hsettled haccount

def sampleWarning : Engine := { sampleEngine with lowBalanceThreshold := some (98 / 10) }

def sampleEnd (answer : Option Time) : HangupInfo where
  callUUID := 42
  answerTime := answer
  endTime := 90000000000
  billsec := 61
  hangupCause := "NORMAL_CLEARING"
  source := .esl

def sampleEnding (answer : Option Time) : ℕ → Job
  | 0 => sampleSetup 42 sampleRate
  | _ => .bill sampleWarning 90000000000 (sampleEnd answer)

/-- A bill as an observer of the sample sees it: what the store had before,
what the outcome tells, and the amount that was committed. -/
structure BillView where
  price : Option Decimal
  held : Option (UUID × Decimal × Decimal)
  available : Option Decimal
  notified : Bool
  committed : Option Decimal
deriving DecidableEq

def billView (h : HangupInfo) (c : JobCommit) : Option BillView :=
  match c.value with
  | .billed out => some
      { price := (c.before.row (.cdr h.callUUID)).map (callPrice c.before h)
        held := (c.before.row (.active h.callUUID)).bind (fun ac : ActiveCall =>
          (c.before.row (.account ac.accountId)).map (fun a : Account =>
            (ac.accountId, ac.reservedAmount.val, a.reserved.val)))
        available := out.available
        notified := (notification out).isSome
        committed := (c.after.row (.account 1)).map (fun a : Account => a.available) }
  | _ => none

/-- A bill of the sample call that settles its reservation. -/
structure SampleBill (answer : Option Time) (view : BillView) where
  server : JobServer
  commit : JobCommit
  out : Outcome
  cdr : CDR
  ac : ActiveCall
  account : Account
  run : Runs (sampleEnding answer) (sampleStore ⟨10000000, by decide⟩) server
  mem : commit ∈ server.history
  job : (sampleEnding answer commit.id).billing = some (sampleWarning, sampleEnd answer)
  value : commit.value = .billed out
  record : commit.before.row (.cdr 42) = some cdr
  opened : commit.before.row (.active 42) = some ac
  settled : commit.after.row (.active 42) = none
  row : commit.before.row (.account ac.accountId) = some account
  seen : billView (sampleEnd answer) commit = some view

theorem sampleBill (answer : Option Time) (view : BillView) (hserial :
      (runSerially (sampleEnding answer) [0, 1] (sampleStore ⟨10000000, by decide⟩)).map
        (fun final => final.2.head?.map (fun c => (c.id, billView (sampleEnd answer) c,
          (c.after.row (.active 42)).isNone))) = some (some (1, some view, true)))
    (hprice : view.price.isSome) (hheld : view.held.isSome) :
    Nonempty (SampleBill answer view) := by
  obtain ⟨σ, hrun, hhead⟩ := runs_serially hserial
  obtain ⟨c, hc, hview⟩ := Option.map_eq_some_iff.mp hhead
  obtain ⟨hid, hview, hsettled⟩ : _ ∧ _ ∧ _ := by simpa only [Prod.mk.injEq] using hview
  have hseen := hview
  unfold billView at hview
  cases hvalue : c.value with
  | billed out =>
    rw [hvalue] at hview
    obtain rfl := Option.some.inj hview
    dsimp only at hprice hheld
    rw [Option.isSome_map] at hprice
    obtain ⟨cdr, hcdr⟩ := Option.isSome_iff_exists.mp hprice
    obtain ⟨held, hheld⟩ := Option.isSome_iff_exists.mp hheld
    obtain ⟨ac, hac, hheld⟩ := Option.bind_eq_some_iff.mp hheld
    obtain ⟨a, ha, -⟩ := Option.map_eq_some_iff.mp hheld
    exact ⟨⟨σ, c, out, cdr, ac, a, hrun, List.mem_of_head? hc, hid ▸ rfl, hvalue,
      hcdr, hac, Option.isNone_iff_eq_none.mp hsettled, ha, hseen⟩⟩
  | _ =>
    rw [hvalue] at hview
    cases hview

theorem SampleBill.view {answer : Option Time} {view : BillView} (b : SampleBill answer view) :
    view =
      { price := some (callPrice b.commit.before (sampleEnd answer) b.cdr)
        held := some (b.ac.accountId, b.ac.reservedAmount.val, b.account.reserved.val)
        available := b.out.available
        notified := (notification b.out).isSome
        committed := (b.commit.after.row (.account 1)).map (fun a : Account => a.available) } := by
  have hseen := b.seen
  unfold billView at hseen
  rw [b.value] at hseen
  dsimp only [sampleEnd] at hseen
  rw [b.record, b.opened] at hseen
  dsimp only [Option.bind_some, Option.map_some] at hseen
  rw [b.row] at hseen
  exact (Option.some.inj hseen).symm

theorem bill_reports_sampleAnswered :
    ∃ σ c out, Runs (sampleEnding (some 1000000000)) (sampleStore ⟨10000000, by decide⟩) σ ∧
      c ∈ σ.history ∧ c.value = .billed out ∧ out.available = some (988 / 100) ∧
      Reports sampleWarning out c.after 1 := by
  obtain ⟨b⟩ := sampleBill (some 1000000000)
    ⟨some (12 / 100), some (1, 3 / 10, 3 / 10), some (988 / 100), false, some (988 / 100)⟩
    (by decide +kernel) rfl rfl
  obtain ⟨hprice, hheld, havailable, -, -⟩ : _ ∧ _ ∧ _ ∧ _ ∧ _ := by
    simpa only [BillView.mk.injEq, Option.some.injEq] using b.view
  obtain ⟨haccount, -⟩ := Prod.mk.inj hheld
  have hreports := (bill_reports_committed_iff _ _ b.server b.run b.commit b.mem _ _ b.out b.job
    b.value b.cdr b.ac b.account b.record b.opened b.settled b.row).mpr
      (.inl (by rw [← hprice]; norm_num))
  rw [← haccount] at hreports
  exact ⟨b.server, b.commit, b.out, b.run, b.mem, b.value, havailable.symm, hreports⟩

/-- Nobody answers: the outcome still counts the reservation that was given
back, and warns of a balance the account does not have. -/
theorem unanswered_bill_misreports :
    ∃ σ c out cdr ac a, Runs (sampleEnding none) (sampleStore ⟨10000000, by decide⟩) σ ∧
      c ∈ σ.history ∧ c.value = .billed out ∧
      (sampleEnding none c.id).billing = some (sampleWarning, sampleEnd none) ∧
      c.before.row (.cdr 42) = some cdr ∧ c.before.row (.active 42) = some ac ∧
      c.after.row (.active 42) = none ∧ c.before.row (.account ac.accountId) = some a ∧
      out.available = some (97 / 10) ∧
      (c.after.row (.account 1)).map (fun a : Account => a.available) = some 10 ∧
      (notification out).isSome ∧ sampleWarning.lowBalanceThreshold = some (98 / 10) ∧
      ¬ Reports sampleWarning out c.after 1 := by
  obtain ⟨b⟩ := sampleBill none
    ⟨some 0, some (1, 3 / 10, 3 / 10), some (97 / 10), true, some 10⟩ (by decide +kernel) rfl rfl
  obtain ⟨-, -, havailable, hnotified, hcommitted⟩ : _ ∧ _ ∧ _ ∧ _ ∧ _ := by
    simpa only [BillView.mk.injEq] using b.view
  refine ⟨b.server, b.commit, b.out, b.cdr, b.ac, b.account, b.run, b.mem, b.value, b.job,
    b.record, b.opened, b.settled, b.row, havailable.symm, hcommitted.symm, hnotified.symm, rfl,
    fun hreports => ?_⟩
  have hsame := hreports.available
  rw [← havailable, ← hcommitted] at hsame
  exact absurd (Option.some.inj hsame) (by norm_num)

end Ledger

end SuperSbc
