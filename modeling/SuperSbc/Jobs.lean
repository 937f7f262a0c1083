import SuperSbc.Admin.Money
import SuperSbc.Billing.Orphans
import SuperSbc.ReadCommitted.Schedule
import SuperSbc.ReadCommitted.Soundness
import SuperSbc.Store.Reconcile

/-!
The transactions the system runs against the money tables, under one type, and
what each of them can do when it commits. A run is an interleaving of any
number of jobs; a delivery that is repeated is a job that occurs twice.

Every job carries its own configuration and clock reading, so the nodes of a
cluster need not agree on either.
-/

namespace SuperSbc

open FixedPoint Rating ReadCommitted Transaction Store Billing CallControl Admin

inductive Job where
  | reserve (cfg : Config) (customerId : UUID) (rate : RateRow) (callUUID : UUID) (cdr : CDR)
  | bill (e : Engine) (now : Time) (h : HangupInfo)
  | reconcile (e : Engine) (now : Time) (callUUID : UUID)
  | releaseReservation (cfg : Config) (now : Time) (callUUID : UUID) (sipCode : ℤ)
      (reason : String) (disposition : Disposition) (step detail : String)
  | postMoney (r : MoneyRequest)
  | createPayment (r : PaymentRequest)

inductive JobResult where
  | reserved (result : ReserveResult)
  | billed (out : Outcome)
  | released
  | posted (account : Account)
  | paid (account : Option Account)

namespace Job

def hangup : Job → Option HangupInfo
  | .bill _ _ h => some h
  | .reconcile _ now callUUID => some (orphanHangup now callUUID)
  | _ => none

def releases : Job → Option UUID
  | .releaseReservation _ _ callUUID _ _ _ _ _ => some callUUID
  | _ => none

def tx : Job → Tx JobResult
  | .reserve cfg customerId rate callUUID cdr => do
      let result ← CallControl.reserve cfg customerId rate callUUID cdr
      pure (.reserved result)
  | .bill e now h => do
      let out ← Billing.bill e now h
      pure (.billed out)
  | .reconcile e now callUUID => do
      let out ← Billing.bill e now (orphanHangup now callUUID)
      pure (.billed out)
  | .releaseReservation cfg now callUUID sipCode reason disposition step detail => do
      CallControl.releaseReservation cfg now callUUID sipCode reason disposition step detail
      pure .released
  | .postMoney r => do
      let account ← Admin.postMoney r
      pure (.posted account)
  | .createPayment r => do
      let account ← Admin.createPayment r
      pure (.paid account)

inductive Did (seen : DB → Prop) (db after : DB) : Job → JobResult → Prop where
  | reserve {cfg customerId rate callUUID cdr result}
      (granted : Granted seen cfg customerId rate callUUID cdr db after result) :
      Did seen db after (.reserve cfg customerId rate callUUID cdr) (.reserved result)
  | bill {e now h out} (billed : BilledAs seen e now h db after out) :
      Did seen db after (.bill e now h) (.billed out)
  | reconcile {e now callUUID out}
      (billed : BilledAs seen e now (orphanHangup now callUUID) db after out) :
      Did seen db after (.reconcile e now callUUID) (.billed out)
  | releaseReservation {cfg now callUUID sipCode reason disposition step detail}
      (released : ReleasedAs seen (releasedCDR cfg now sipCode reason disposition step detail)
        callUUID db after) :
      Did seen db after
        (.releaseReservation cfg now callUUID sipCode reason disposition step detail) .released
  | postMoney {r accountId account}
      (moved : Moved accountId none r.kind.ledgerKind (postChange (roundTo 6 r.amount))
        (roundTo 6 r.amount) db after) :
      Did seen db after (.postMoney r) (.posted account)
  | topup {r accountId account} (hpositive : 0 < r.amount) (htopup : r.topup = true)
      (hfound : ∃ d a, seen d ∧ findAccount d r.owner = some (accountId, a))
      (moved : Moved accountId none .topup (postChange r.amount) r.amount db after) :
      Did seen db after (.createPayment r) (.paid account)
  | payment {r} (hplain : r.topup = false) (hsame : after = db) :
      Did seen db after (.createPayment r) (.paid none)

theorem wp_tx {seen : DB → Prop} {db : DB} (job : Job)
    {post : JobResult → Progress Key Row LedgerEntry → Prop}
    (h : ∀ result q, Did seen db (db.apply q.effects) job result → post result q) :
    job.tx.wp seen db .start post := by
  cases job with
  | reserve cfg customerId rate callUUID cdr =>
    refine (wp_bind _ _ _).mpr (wp_reserve (fun result q granted => ?_))
    exact h _ q (.reserve granted)
  | bill e now hangup =>
    refine (wp_bind _ _ _).mpr (wp_billedAs (fun out q billed => ?_))
    exact h _ q (.bill billed)
  | reconcile e now callUUID =>
    refine (wp_bind _ _ _).mpr (wp_billedAs (fun out q billed => ?_))
    exact h _ q (.reconcile billed)
  | releaseReservation cfg now callUUID sipCode reason disposition step detail =>
    refine (wp_bind _ _ _).mpr (wp_releasedAs (fun q released => ?_))
    exact h _ q (.releaseReservation released)
  | postMoney r =>
    refine (wp_bind _ _ _).mpr (wp_postMoney (fun accountId q moved => ?_))
    exact h _ q (.postMoney moved)
  | createPayment r =>
    refine (wp_bind _ _ _).mpr (wp_createPayment
      (fun accountId q hpos htop hfound moved => ?_) ?_)
    · exact h _ q (.topup hpos htop hfound moved)
    · exact fun hplain => h _ _ (.payment hplain rfl)

end Job

abbrev JobCommit := Commit ℕ Key Row LedgerEntry JobResult

abbrev JobServer := Server ℕ Key Row LedgerEntry StoreError JobResult

/-- The states every interleaving of the jobs can reach. -/
def Runs (jobs : ℕ → Job) (db : DB) (σ : JobServer) : Prop :=
  Reachable (fun t => (jobs t).tx) db σ

/-- The invariant rule for runs: look at one commit at a time, with everything
it may have seen on the way. -/
theorem Runs.invariant {jobs : ℕ → Job} {db : DB} {σ : JobServer} (hrun : Runs jobs db σ)
    (Inv : List JobCommit → DB → Prop) (hinit : Inv [] db)
    (hcommit : ∀ t history before after result, (∀ c ∈ history, c.id ≠ t) →
      Inv history before →
      Job.Did (fun d => ∃ older, older <:+ history ∧ Inv older d) before after (jobs t) result →
      Inv (⟨t, result, before, after⟩ :: history) after) :
    Inv σ.history σ.db := by
  refine Reachable.invariant hrun hinit (fun t history before hfresh hinv => ?_)
  exact Job.wp_tx (jobs t) (fun result q hdid =>
    hcommit t history before _ result hfresh hinv hdid)

/-! A small store on which jobs can be executed: one customer with an account
in the currency of the deck, and the sample rate. -/

def sampleConfig : Config where
  nodeName := "sbc-1"
  currency := "EUR"
  reserveMinutes := 5
  maxCallDuration := 14400 * 1000000000
  globalMaxChannels := 0
  globalMaxCPS := 0
  originateTimeout := 60
  progressTimeout := 10
  mediaTimeoutSec := 300
  mediaHoldTimeoutSec := 1800
  stirForward := false
  maxCallDuration_lt := by norm_num

def sampleEngine : Engine where
  nodeName := "sbc-1"
  currency := "EUR"
  lowBalanceThreshold := none
  fx := none

theorem sampleCredit_nonneg : 0 ≤ (0 : Money).units := le_rfl

def sampleAccount (balance : Money) : Account where
  owner := ⟨.customer, 7⟩
  currency := "EUR"
  balance := balance
  allowedCredit := 0
  reserved := 0
  allowedCredit_nonneg := sampleCredit_nonneg
  reserved_nonneg := sampleCredit_nonneg

theorem sampleBalance_bound : |(10000000 : ℤ)| < 10 ^ 18 := by decide

def sampleStore (balance : Money) : DB :=
  ((Database.empty.set (.accountOf ⟨.customer, 7⟩) (some 1)).set (.account 1)
    (some (sampleAccount balance))).set (.rate 9) (some sampleRate)

/-- The setup of a call of the sample customer. -/
def sampleSetup (callUUID : UUID) (rate : RateRow) : Job :=
  .reserve sampleConfig 7 rate callUUID
    { calledNumber := "4930123456", sellRateId := some rate.id, sellFX := 1 }

def sampleHangup (callUUID : UUID) (billsec : ℤ) : Job :=
  .bill sampleEngine 90000000000
    { callUUID := callUUID
      answerTime := some 1000000000
      endTime := 90000000000
      billsec := billsec
      hangupCause := "NORMAL_CLEARING"
      source := .esl }

def sampleCall : ℕ → Job
  | 0 => sampleSetup 42 sampleRate
  | _ => sampleHangup 42 61

theorem sampleStore_account {balance : Money} {id : UUID} {a : Account}
    (h : (sampleStore balance).row (.account id) = some a) : a = sampleAccount balance := by
  rw [sampleStore, Database.row_set_of_ne _ _ (by simp)] at h
  by_cases hid : id = 1
  · subst hid
    rw [Database.row_set_self] at h
    exact (Option.some.inj h).symm
  · rw [Database.row_set_of_ne _ _ (by simpa using hid),
      Database.row_set_of_ne _ _ (by simp)] at h
    cases h

theorem unrecorded_sample (balance : Money) (callUUID : UUID) :
    (sampleStore balance).row (.cdr callUUID) = none := by
  rw [sampleStore, Database.row_set_of_ne _ _ (by simp), Database.row_set_of_ne _ _ (by simp),
    Database.row_set_of_ne _ _ (by simp)]
  rfl

/-- Jobs executed one after another. -/
def runSerially (jobs : ℕ → Job) (order : List ℕ) (db : DB) :
    Option (DB × List JobCommit) :=
  serial (fun t => (jobs t).tx) order db

theorem runs_serially {jobs : ℕ → Job} {order : List ℕ} {db : DB} {α : Type}
    {f : DB × List JobCommit → α} {x : α}
    (hserial : (runSerially jobs order db).map f = some x) :
    ∃ σ, Runs jobs db σ ∧ f (σ.db, σ.history) = x :=
  reachable_serial hserial

end SuperSbc
