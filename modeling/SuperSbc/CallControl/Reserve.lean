import SuperSbc.Billing.Settlement

/-!
Reserving money for a call and giving it back. `reserve` first reads the
account outside any transaction, so its decision and the talk time rest on a
read that may be stale; the account update repeats the decision under the row
lock. The rows of the call are inserted before that.
-/

namespace SuperSbc.CallControl

open FixedPoint Rating ReadCommitted Transaction Store Billing

/-- The configuration the call path reads. -/
structure Config where
  nodeName : String
  currency : String
  reserveMinutes : ℤ
  maxCallDuration : ℤ
  globalMaxChannels : ℤ
  globalMaxCPS : ℤ
  originateTimeout : ℤ
  progressTimeout : ℤ
  mediaTimeoutSec : ℤ
  mediaHoldTimeoutSec : ℤ
  stirForward : Bool
  maxCallDuration_lt : maxCallDuration < 2 ^ 63

def Config.capSeconds (cfg : Config) : ℤ := toSeconds cfg.maxCallDuration

theorem capSeconds_cases (cfg : Config) :
    (cfg.maxCallDuration < 0 ∧ cfg.capSeconds ≤ 0) ∨
      cfg.capSeconds = cfg.maxCallDuration / 1000000000 := by
  unfold Config.capSeconds toSeconds
  rcases le_or_gt 0 cfg.maxCallDuration with hnonneg | hneg
  · exact .inr (Int.tdiv_eq_ediv_of_nonneg hnonneg)
  · refine .inl ⟨hneg, ?_⟩
    have hflip : (-cfg.maxCallDuration).tdiv 1000000000 =
        -(cfg.maxCallDuration.tdiv 1000000000) := Int.neg_tdiv ..
    rw [Int.tdiv_eq_ediv_of_nonneg (by omega)] at hflip
    omega

/-- The transaction of `reserve`, once the read account can afford it. -/
def reserveTx (cfg : Config) (customerId accountId callUUID : UUID) (cdr : CDR)
    (report : ReserveResult) : Tx ReserveResult := do
  insertCDRSetup callUUID
    { cdr with reservedAmount := report.reservedAmount, disposition := .pending }
  insertActiveCall callUUID
    { customerId := customerId
      accountId := accountId
      calledNumber := cdr.calledNumber
      reservedAmount := report.reservedAmount
      maxCallSeconds := report.maxCallSeconds
      startedAt := cdr.startTime
      expiresAt := cdr.startTime + cfg.maxCallDuration
      node := cfg.nodeName }
  let locked ← Store.reserve accountId callUUID report.reservedAmount
    s!"reserve {cfg.reserveMinutes} min for {cdr.calledNumber}" report
  pure { report with account := some locked }

def reserve (cfg : Config) (customerId : UUID) (rate : RateRow) (callUUID : UUID) (cdr : CDR) :
    Tx ReserveResult := do
  match ← accountByOwner ⟨.customer, customerId⟩ with
  | none => raise (.insufficientFunds none)
  | some (accountId, acc) =>
    let amount := reserveAmount cfg.reserveMinutes (toRating rate)
    if ¬ 0 < acc.available ∨ acc.available < amount then
      raise (.insufficientFunds (some ⟨some acc, acc.available, amount, 0⟩))
    else
      reserveTx cfg customerId accountId callUUID cdr
        ⟨none, acc.available, amount,
          maxCallSeconds acc.available (toRating rate) cfg.capSeconds⟩

/-- Release and delete the open reservation, if there is one. -/
def giveBack (callUUID : UUID) (ac : Option ActiveCall) (reason : String) (cdr : CDR) :
    Tx CDR := do
  match ac with
  | none => pure cdr
  | some ac =>
    let _ ← lockAccount ac.accountId
    let _ ← release ac.accountId callUUID ac.reservedAmount.val ("release: " ++ reason)
    deleteActiveCall callUUID
    pure { cdr with releasedAmount := ac.reservedAmount.val }

/-- The record of a call that was not dialled or ended without a billable
event. -/
def releasedCDR (cfg : Config) (now : Time) (sipCode : ℤ) (reason : String)
    (disposition : Disposition) (step detail : String) (cdr : CDR) : CDR :=
  { cdr with
    endTime := some now
    duration := toSeconds (now - cdr.startTime)
    disposition := disposition
    rejectReason := some reason
    rejectStep := if step = "" then cdr.rejectStep else some step
    rejectDetail := if detail = "" then cdr.rejectDetail else some detail
    sipFinalCode := some sipCode
    sipFinalReason := some reason
    billedAt := some now
    billedBy := some cfg.nodeName }

def releaseReservation (cfg : Config) (now : Time) (callUUID : UUID) (sipCode : ℤ)
    (reason : String) (disposition : Disposition) (step detail : String) : Tx Unit := do
  match ← lockCDR callUUID with
  | none => raise .notFound
  | some cdr =>
    if cdr.billedAt.isSome then pure ()
    else
      let ac ← lockActiveCall callUUID
      let cdr ← giveBack callUUID ac reason cdr
      finalizeCDR callUUID
        (releasedCDR cfg now sipCode reason disposition step detail cdr)

end SuperSbc.CallControl
