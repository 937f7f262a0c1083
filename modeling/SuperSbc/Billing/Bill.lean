import SuperSbc.Billing.Hangup
import SuperSbc.Store.Cdrs

/-!
Billing of a finished call in one transaction. The CDR row is locked first and
`billed_at` is the guard; per call rows are written before the account rows.

The exchange rate source answers from its own cache, outside the transaction,
so a lookup is numbered: zero for the answering carrier, one more than its
position for an attempt. What happens after commit (Redis, metrics, the
notification) is not part of the transaction.
-/

namespace SuperSbc.Billing

open FixedPoint Rating ReadCommitted Transaction Store

/-- The billing engine: its configuration and its exchange rate source. -/
structure Engine where
  nodeName : String
  currency : String
  lowBalanceThreshold : Option Decimal
  fx : Option (ℕ → String → String → Option Decimal)

structure Outcome where
  alreadyBilled : Bool := false
  noCDR : Bool := false
  disposition : Option Disposition := none
  billsec : ℤ := 0
  billedSeconds : ℤ := 0
  price : Decimal := 0
  cost : Decimal := 0
  released : Decimal := 0
  customerId : Option UUID := none
  available : Option Decimal := none
  carrierId : Option UUID := none
  mediaMode : String := ""
  lowBalance : Option Account := none

def rateByID (id : UUID) : Tx (Option RateRow) := select (fun db => db.row (.rate id))

def rateGroupByID (id : UUID) : Tx (Option RateGroup) :=
  select (fun db => db.row (.rateGroup id))

def carrierByID (id : UUID) : Tx (Option Carrier) := select (fun db => db.row (.carrier id))

/-- Deck money in the account currency. A zero rate stands for one. -/
def toRatingFX (r : RateRow) (fx : Decimal) : Rate :=
  let fx := if fx = 0 then 1 else fx
  { perMinute := roundTo scale (r.ratePerMin * fx)
    connectFee := roundTo scale (r.connectFee * fx)
    initial := r.initialIncrement
    subsequent := r.subsequentIncrement
    minDuration := r.minDuration }

/-- The exchange rate between a carrier's deck and its account. -/
def buyFX (e : Engine) (lookup : ℕ) (buy : RateRow) (carrierId : UUID) :
    Tx (Decimal × String) := do
  match ← rateGroupByID buy.rateGroupId with
  | none => pure (1, e.currency)
  | some deck =>
    match ← accountByOwner ⟨.carrier, carrierId⟩ with
    | none => pure (1, deck.currency)
    | some (_, acc) =>
      match e.fx with
      | none => pure (1, acc.currency)
      | some fx => pure ((fx lookup deck.currency acc.currency).getD 1, acc.currency)

/-- The buy rate of the last attempt at a carrier that had one. -/
def buyRateFor (attempts : List AttemptRecord) (carrierId : UUID) : Option UUID :=
  (attempts.reverse.find? (fun a => a.carrierId == carrierId && a.buyRateId.isSome)).bind
    (·.buyRateId)

/-- The record after the answering carrier's cost, and that cost. -/
def carrierCost (e : Engine) (c : CDR) (carrierId : UUID) (amt : Decimal) :
    Tx (CDR × Decimal) := do
  match buyRateFor c.attempts carrierId with
  | none => pure (c, 0)
  | some buyId =>
    match ← rateByID buyId with
    | none => pure (c, 0)
    | some buy =>
      let (fx, currency) ← buyFX e 0 buy carrierId
      let (billed, cost) := price c.billsec (toRatingFX buy fx)
      pure ({ c with
        buyFX := fx
        buyCurrency := some currency
        buyRateId := some buyId
        buyRatePerMin := some (roundTo scale (buy.ratePerMin * fx))
        buyBilledSeconds := billed
        cost := cost
        negativeMargin := decide (amt < cost) }, cost)

/-- Price and carrier cost. Only an answered call with a sell rate has any. -/
def money (e : Engine) (h : HangupInfo) (c : CDR) : Tx (CDR × Decimal × Decimal) := do
  match h.answerTime, c.sellRateId with
  | some _, some sellId =>
    match ← rateByID sellId with
    | none => raise .notFound
    | some sell =>
      let (billed, amt) := price c.billsec (toRatingFX sell c.sellFX)
      let c := { c with sellBilledSeconds := billed, sellPrice := amt }
      match h.answeredCarrierId with
      | none => pure (c, amt, 0)
      | some carrierId =>
        let (c, cost) ← carrierCost e { c with carrierId := some carrierId } carrierId amt
        pure (c, amt, cost)
  | _, _ => pure ({ c with carrierId := h.answeredCarrierId <|> c.carrierId }, 0, 0)

def withTransport (c : CDR) : Tx CDR := do
  match c.carrierId with
  | none => pure c
  | some carrierId =>
    match ← carrierByID carrierId with
    | none => pure c
    | some carrier => pure { c with transportOut := some carrier.transport }

structure AttemptFee where
  seq : ℤ
  carrierId : UUID
  sipCode : ℤ
  reason : String
  amount : Decimal

/-- Whether a carrier bills failed attempts, looked up once per carrier. -/
def chargesFailedAttempts (known : List (UUID × Bool)) (carrierId : UUID) :
    Tx (Bool × List (UUID × Bool)) := do
  match known.lookup carrierId with
  | some on => pure (on, known)
  | none =>
    let carrier ← carrierByID carrierId
    let on := carrier.any (·.chargeFailedAttempts)
    pure (on, (carrierId, on) :: known)

/-- The fee of one attempt, when its carrier charges (`on`) and has one. -/
def attemptFee (e : Engine) (lookup : ℕ) (on : Bool) (buyId : UUID) (a : AttemptRecord) :
    Tx (Option AttemptFee) := do
  if on then
    match ← rateByID buyId with
    | none => pure none
    | some buy =>
      if buy.connectFee ≤ 0 then pure none
      else
        let fx ← buyFX e lookup buy a.carrierId
        pure (some ⟨a.seq, a.carrierId, a.sipCode, a.hangupCause,
          roundTo scale (buy.connectFee * fx.1)⟩)
  else pure none

def noteFee (a : AttemptRecord) (fee : Option AttemptFee)
    (later : List AttemptRecord × List AttemptFee) : List AttemptRecord × List AttemptFee :=
  match fee with
  | none => (a :: later.1, later.2)
  | some f => ({ a with cost := some f.amount } :: later.1, f :: later.2)

/-- The connect fees of the failed attempts at carriers that charge them. -/
def failedAttemptFees (e : Engine) :
    ℕ → List (UUID × Bool) → List AttemptRecord → Tx (List AttemptRecord × List AttemptFee)
  | _, _, [] => pure ([], [])
  | lookup, known, a :: rest =>
    match a.classification, a.buyRateId with
    | .answered, _ | _, none => do
        let later ← failedAttemptFees e (lookup + 1) known rest
        pure (noteFee a none later)
    | _, some buyId => do
        let checked ← chargesFailedAttempts known a.carrierId
        let fee ← attemptFee e lookup checked.1 buyId a
        let later ← failedAttemptFees e (lookup + 1) checked.2 rest
        pure (noteFee a fee later)

/-- Delete the open reservation and note on the record what it settles. -/
def closeReservation (callUUID : UUID) (ac : Option ActiveCall) (price : Decimal) (c : CDR) :
    Tx CDR := do
  match ac with
  | none => pure c
  | some ac =>
    deleteActiveCall callUUID
    pure { c with
      releasedAmount := ac.reservedAmount.val
      chargedAmount := if 0 < price then price else c.chargedAmount }

/-- A cost line on a carrier's account; a carrier without one is skipped. -/
def postCost (callUUID carrierId : UUID) (amount : Decimal) (description : String) :
    Tx Unit := do
  match ← accountByOwner ⟨.carrier, carrierId⟩ with
  | none => pure ()
  | some (accountId, _) =>
    let _ ← post accountId (some callUUID) .cost (-amount) description none
    pure ()

def postCarrierCost (callUUID : UUID) (c : CDR) (cost : Decimal) : Tx Unit :=
  match c.carrierId with
  | none => pure ()
  | some carrierId =>
    if 0 < cost then
      postCost callUUID carrierId cost
        s!"cost of call to {c.calledNumber}, {c.billsec}s billed as {c.buyBilledSeconds}s"
    else pure ()

def postFees (callUUID : UUID) (calledNumber : String) : List AttemptFee → Tx Unit
  | [] => pure ()
  | f :: rest => do
      postCost callUUID f.carrierId f.amount
        s!"connect fee of failed attempt {f.seq} to {calledNumber} ({f.sipCode}, {f.reason})"
      postFees callUUID calledNumber rest

/-- Release the reservation and charge the call. The account returned is the
one locked before the release unless the call was charged. -/
def releaseAndCharge (callUUID : UUID) (ac : ActiveCall) (c : CDR) (price : Decimal) :
    Tx Account := do
  let acc ← lockAccount ac.accountId
  let _ ← release ac.accountId callUUID ac.reservedAmount.val "release reservation"
  if 0 < price then
    post ac.accountId (some callUUID) .charge (-price)
      s!"call to {c.calledNumber}, {c.billsec}s billed as {c.sellBilledSeconds}s" none
  else pure acc

def customerSide (callUUID : UUID) (ac : Option ActiveCall) (c : CDR) (price : Decimal) :
    Tx (Option Account) := do
  match ac with
  | none => pure none
  | some ac =>
    let acc ← releaseAndCharge callUUID ac c price
    pure (some acc)

def lowBalance (e : Engine) (acc : Option Account) : Option Account :=
  match e.lowBalanceThreshold with
  | none => none
  | some threshold => acc.filter (fun a => 0 < threshold ∧ a.available < threshold)

/-- Everything after the record and the reservation are locked. -/
def settleLocked (e : Engine) (now : Time) (h : HangupInfo) (cdr : CDR)
    (ac : Option ActiveCall) : Tx Outcome := do
  let (c, price, cost) ← money e h (withHangup e.nodeName now h cdr)
  let c ← withTransport c
  let fees ← failedAttemptFees e 1 [] c.attempts
  let c ← closeReservation h.callUUID ac price { c with
    attempts := fees.1
    cost := c.cost + (fees.2.map (·.amount)).sum }
  finalizeCDR h.callUUID c
  postCarrierCost h.callUUID c cost
  postFees h.callUUID c.calledNumber fees.2
  let acc ← customerSide h.callUUID ac c price
  pure {
    disposition := some c.disposition
    billsec := c.billsec
    billedSeconds := c.sellBilledSeconds
    price := price
    cost := cost
    released := (ac.map (·.reservedAmount.val)).getD 0
    customerId := cdr.customerId
    available := acc.map (·.available)
    carrierId := c.carrierId
    mediaMode := c.mediaMode.getD ""
    lowBalance := lowBalance e acc }

/-- Everything after the guard. -/
def settle (e : Engine) (now : Time) (h : HangupInfo) (cdr : CDR) : Tx Outcome := do
  let ac ← lockActiveCall h.callUUID
  settleLocked e now h cdr ac

def bill (e : Engine) (now : Time) (h : HangupInfo) : Tx Outcome := do
  match ← lockCDR h.callUUID with
  | none => pure { noCDR := true }
  | some cdr =>
    if cdr.billedAt.isSome then
      pure {
        alreadyBilled := true
        disposition := some cdr.disposition
        customerId := cdr.customerId }
    else settle e now h cdr

end SuperSbc.Billing
