import SuperSbc.Store.Accounts

/-!
Call detail records and open reservations. Both inserts are `ON CONFLICT
(call_uuid) DO NOTHING`. An exchange rate of zero is written as the empty
string, which the statement turns into the column default of one.
-/

namespace SuperSbc.Store

open FixedPoint Rating ReadCommitted Transaction

variable {c row : CDR}

/-- `COALESCE(NULLIF(fxString(fx), '')::numeric, 1)`. -/
def storedFX (fx : Decimal) : Decimal := if fx = 0 then 1 else fx

/-- A decimal read back from a `numeric(18,6)` column it was assigned to. -/
def asMoney (x : Decimal) : Option Decimal := (Numeric.assign 18 6 x).map Numeric.val

/-- The same for a nullable column. -/
def asMoney? : Option Decimal → Option (Option Decimal)
  | none => some none
  | some x => (asMoney x).map some

/-- The same for a `numeric(18,8)` column. -/
def asFX (x : Decimal) : Option Decimal := (Numeric.assign 18 8 x).map Numeric.val

/-- The row a setup or a rejection inserts: the listed columns, everything
else at its column default. -/
def setupRow (c : CDR) : Option CDR := do
  let sellRatePerMin ← asMoney? c.sellRatePerMin
  let reservedAmount ← asMoney c.reservedAmount
  let sellFX ← asFX (storedFX c.sellFX)
  return {
    customerId := c.customerId
    carrierId := c.carrierId
    srcIP := if c.srcIP = some "" then none else c.srcIP
    srcPort := c.srcPort
    callerNumberRaw := c.callerNumberRaw
    callerNumber := c.callerNumber
    calledNumberRaw := c.calledNumberRaw
    calledNumber := c.calledNumber
    startTime := c.startTime
    endTime := c.endTime
    disposition := c.disposition
    rejectReason := c.rejectReason
    sipFinalCode := c.sipFinalCode
    sipFinalReason := c.sipFinalReason
    hangupCause := c.hangupCause
    sellRateId := c.sellRateId
    sellRatePerMin := sellRatePerMin
    sellDestination := c.sellDestination
    reservedAmount := reservedAmount
    attempts := c.attempts
    sbcNode := c.sbcNode
    billedAt := c.billedAt
    billedBy := c.billedBy
    sellCurrency := c.sellCurrency
    sellFX := sellFX
    buyFX := 1
    transportIn := c.transportIn
    srtpIn := c.srtpIn
    privacy := c.privacy
    stirStatus := c.stirStatus
    stirAttest := c.stirAttest
    sipCallId := c.sipCallId
    areaPrefix := c.areaPrefix
    areaDescription := c.areaDescription
    operatorName := c.operatorName
    rejectStep := c.rejectStep
    rejectDetail := c.rejectDetail }

def insertCDRSetup (callUUID : UUID) (c : CDR) : Tx Unit :=
  match setupRow c with
  | none => raise .numericOverflow
  | some row => do
      let _ ← insertRow (Key.cdr callUUID) row
      pure ()

def lockCDR (callUUID : UUID) : Tx (Option CDR) := lockRow (Key.cdr callUUID)

/-- The billing outcome written over a row. -/
def finalizedRow (c row : CDR) : Option CDR := do
  let sellPrice ← asMoney c.sellPrice
  let buyRatePerMin ← asMoney? c.buyRatePerMin
  let cost ← asMoney c.cost
  let chargedAmount ← asMoney c.chargedAmount
  let releasedAmount ← asMoney c.releasedAmount
  let buyFX ← asFX (storedFX c.buyFX)
  return { row with
    carrierId := c.carrierId
    progressTime := c.progressTime
    answerTime := c.answerTime
    endTime := c.endTime
    pddMs := c.pddMs
    ringSeconds := c.ringSeconds
    billsec := c.billsec
    duration := c.duration
    sipFinalCode := c.sipFinalCode
    sipFinalReason := c.sipFinalReason
    hangupCause := c.hangupCause
    disposition := c.disposition
    rejectReason := c.rejectReason <|> row.rejectReason
    rejectStep := c.rejectStep <|> row.rejectStep
    rejectDetail := c.rejectDetail <|> row.rejectDetail
    sellBilledSeconds := c.sellBilledSeconds
    sellPrice := sellPrice
    buyRateId := c.buyRateId
    buyRatePerMin := buyRatePerMin
    buyBilledSeconds := c.buyBilledSeconds
    cost := cost
    negativeMargin := c.negativeMargin
    chargedAmount := chargedAmount
    releasedAmount := releasedAmount
    attempts := c.attempts
    failoverDepth := max ((c.attempts.length : ℤ) - 1) 0
    codecIn := c.codecIn
    codecOut := row.codecOut <|> c.codecOut
    mediaMode := c.mediaMode <|> row.mediaMode
    rtpStats := c.rtpStats <|> row.rtpStats
    sbcNode := c.sbcNode
    billedAt := c.billedAt
    billedBy := c.billedBy
    buyCurrency := c.buyCurrency
    buyFX := buyFX
    transportIn := c.transportIn <|> row.transportIn
    transportOut := c.transportOut <|> row.transportOut
    srtpIn := c.srtpIn
    srtpOut := c.srtpOut || row.srtpOut
    privacy := c.privacy || row.privacy }

def finalizeChange (c row : CDR) : Change CDR :=
  match finalizedRow c row with
  | none => .violate
  | some row' => .put row'

/-- An `UPDATE` that finds no row is not an error. -/
def finalizeCDR (callUUID : UUID) (c : CDR) : Tx Unit := do
  let _ ← updateRow (Key.cdr callUUID) (finalizeChange c)
  pure ()

/-- An open reservation before its amount is stored. -/
structure NewActiveCall where
  customerId : UUID
  accountId : UUID
  calledNumber : String
  reservedAmount : Decimal
  maxCallSeconds : ℤ
  startedAt : Time
  expiresAt : Time
  node : String

def insertActiveCall (callUUID : UUID) (a : NewActiveCall) : Tx Unit := do
  let stored ← numeric a.reservedAmount
  let _ ← insertRow (Key.active callUUID)
    ⟨a.customerId, a.accountId, a.calledNumber, stored, a.maxCallSeconds, a.startedAt,
      a.expiresAt, a.node⟩
  pure ()

def lockActiveCall (callUUID : UUID) : Tx (Option ActiveCall) :=
  lockRow (Key.active callUUID)

def deleteActiveCall (callUUID : UUID) : Tx Unit := deleteRow (Key.active callUUID)

theorem asMoney_eq {x y : Decimal} (h : asMoney x = some y) : y = roundTo scale x := by
  obtain ⟨m, hm, rfl⟩ := Option.map_eq_some_iff.mp h
  exact Numeric.val_assign hm

theorem asFX_eq {x y : Decimal} (h : asFX x = some y) : y = roundTo 8 x := by
  obtain ⟨m, hm, rfl⟩ := Option.map_eq_some_iff.mp h
  exact Numeric.val_assign hm

theorem setupRow_head (h : setupRow c = some row) :
    row.customerId = c.customerId ∧ row.billedAt = c.billedAt := by
  simp only [setupRow, Option.bind_eq_bind, Option.bind_eq_some_iff] at h
  obtain ⟨_, -, _, -, _, -, hrow⟩ := h
  obtain rfl := Option.some.inj hrow
  exact ⟨rfl, rfl⟩

theorem setupRow_some (h : setupRow c = some row) :
    row.sellRateId = c.sellRateId ∧ asFX (storedFX c.sellFX) = some row.sellFX ∧
      asMoney? c.sellRatePerMin = some row.sellRatePerMin := by
  simp only [setupRow, Option.bind_eq_bind, Option.bind_eq_some_iff, Option.pure_def,
    Option.some.injEq] at h
  obtain ⟨_, hrate, _, -, fx, hfx, rfl⟩ := h
  exact ⟨rfl, hfx, hrate⟩

/-- The columns of a finalised row that later results speak about. -/
structure Finalized (c row row' : CDR) : Prop where
  billedAt_eq : row'.billedAt = c.billedAt
  sellPrice_eq : row'.sellPrice = roundTo scale c.sellPrice
  sellBilledSeconds_eq : row'.sellBilledSeconds = c.sellBilledSeconds
  sellRatePerMin_eq : row'.sellRatePerMin = row.sellRatePerMin

theorem finalizedRow_some {row' : CDR} (h : finalizedRow c row = some row') :
    Finalized c row row' := by
  simp only [finalizedRow, Option.bind_eq_bind, Option.bind_eq_some_iff] at h
  obtain ⟨sellPrice, hprice, _, _, _, _, _, _, _, _, _, _, hrow⟩ := h
  obtain rfl := Option.some.inj hrow
  exact ⟨rfl, asMoney_eq hprice, rfl, rfl⟩

theorem setupRow_reserved (h : setupRow c = some row) :
    row.reservedAmount = roundTo scale c.reservedAmount := by
  simp only [setupRow, Option.bind_eq_bind, Option.bind_eq_some_iff] at h
  obtain ⟨_, -, reserved, hreserved, _, -, hrow⟩ := h
  obtain rfl := Option.some.inj hrow
  exact asMoney_eq hreserved

/-- The money of a finalised row, next to its price. -/
structure FinalizedMoney (c row row' : CDR) : Prop where
  reservedAmount_eq : row'.reservedAmount = row.reservedAmount
  cost_eq : row'.cost = roundTo scale c.cost
  chargedAmount_eq : row'.chargedAmount = roundTo scale c.chargedAmount
  releasedAmount_eq : row'.releasedAmount = roundTo scale c.releasedAmount

theorem finalizedRow_money {row' : CDR} (h : finalizedRow c row = some row') :
    FinalizedMoney c row row' := by
  simp only [finalizedRow, Option.bind_eq_bind, Option.bind_eq_some_iff] at h
  obtain ⟨_, -, _, -, cost, hcost, charged, hcharged, released, hreleased, _, -, hrow⟩ := h
  obtain rfl := Option.some.inj hrow
  exact ⟨rfl, asMoney_eq hcost, asMoney_eq hcharged, asMoney_eq hreleased⟩

section Alone

variable {db : DB} {effects : List (Effect Key Row LedgerEntry)} {callUUID : UUID}

theorem exec_insertCDRSetup (c : CDR) :
    (insertCDRSetup callUUID c).exec db effects =
      match setupRow c with
      | none => .error (.error .numericOverflow)
      | some row => .ok ((), if ((db.apply effects).row (.cdr callUUID)).isNone
          then .set (.cdr callUUID) (some row) :: effects else effects) := by
  unfold insertCDRSetup
  cases setupRow c with
  | none => rfl
  | some row =>
    rw [exec_bind, exec_insertRow]
    split_ifs <;> rfl

theorem exec_insertActiveCall (a : NewActiveCall) :
    (insertActiveCall callUUID a).exec db effects =
      match Numeric.assign 18 6 a.reservedAmount with
      | none => .error (.error .numericOverflow)
      | some m => .ok ((), if ((db.apply effects).row (.active callUUID)).isNone
          then .set (.active callUUID) (some ⟨a.customerId, a.accountId, a.calledNumber, m,
            a.maxCallSeconds, a.startedAt, a.expiresAt, a.node⟩) :: effects
          else effects) := by
  unfold insertActiveCall
  rw [exec_bind, exec_numeric]
  cases Numeric.assign 18 6 a.reservedAmount with
  | none => rfl
  | some m =>
    simp only [Except.bind]
    rw [exec_bind, exec_insertRow]
    split_ifs <;> rfl

theorem account_row_insert {key : Key} {value : Option (Row key)} {missing : Bool} {id : UUID}
    (hne : Key.account id ≠ key) :
    (db.apply (if missing then .set key value :: effects else effects)).row (.account id) =
      (db.apply effects).row (.account id) := by
  split_ifs
  · rw [Database.apply_set, Database.row_set_of_ne _ _ hne]
  · rfl

end Alone

section Rules

variable {seen : DB → Prop} {db : DB} {p : Progress Key Row LedgerEntry} {callUUID : UUID}
  {post : Unit → Progress Key Row LedgerEntry → Prop}

theorem wp_insertCDRSetup {c : CDR}
    (hinsert : ∀ row, setupRow c = some row → (db.apply p.effects).row (.cdr callUUID) = none →
      post () (p.write (.cdr callUUID) (some row)))
    (hconflict : ∀ d, seen d → p.Agrees d db → (d.apply p.effects).row (.cdr callUUID) ≠ none →
      post () p) :
    (insertCDRSetup callUUID c).wp seen db p post := by
  unfold insertCDRSetup
  cases hrow : setupRow c with
  | none => trivial
  | some row =>
    rw [wp_bind, wp_insertRow]
    exact ⟨hinsert row hrow, hconflict⟩

theorem wp_insertActiveCall {a : NewActiveCall}
    (hinsert : ∀ row : ActiveCall, row.accountId = a.accountId →
      row.customerId = a.customerId → row.maxCallSeconds = a.maxCallSeconds →
      row.reservedAmount.val = roundTo 6 a.reservedAmount →
      (db.apply p.effects).row (.active callUUID) = none →
      post () (p.write (.active callUUID) (some row)))
    (hconflict : ∀ d, seen d → p.Agrees d db →
      (d.apply p.effects).row (.active callUUID) ≠ none → post () p) :
    (insertActiveCall callUUID a).wp seen db p post := by
  unfold insertActiveCall
  rw [wp_bind]
  refine wp_numeric (fun stored hstored => ?_)
  rw [wp_bind, wp_insertRow]
  exact ⟨hinsert _ rfl rfl rfl (Numeric.val_assign hstored), hconflict⟩

theorem finalizeChange_ne_skip (c row : CDR) : finalizeChange c row ≠ .skip := by
  unfold finalizeChange
  split <;> simp

theorem finalizeChange_put {c row row' : CDR} (h : finalizeChange c row = .put row') :
    finalizedRow c row = some row' := by
  unfold finalizeChange at h
  split at h
  · cases h
  · rename_i written hwritten
    rw [hwritten, Change.put.inj h]

theorem wp_finalizeCDR {c : CDR}
    (hput : ∀ row row' : CDR, (db.apply p.effects).row (.cdr callUUID) = some row →
      finalizedRow c row = some row' → post () (p.write (.cdr callUUID) (some row')))
    (hmiss : ∀ d, seen d → p.Agrees d db → (d.apply p.effects).row (.cdr callUUID) = none →
      post () p) :
    (finalizeCDR callUUID c).wp seen db p post := by
  unfold finalizeCDR
  rw [wp_bind, wp_updateRow]
  refine ⟨fun row row' hrow hchange => hput row row' hrow (finalizeChange_put hchange), ?_⟩
  intro d hd hagree hskip
  refine hmiss d hd hagree ?_
  cases hrow : (d.apply p.effects).row (.cdr callUUID) with
  | none => rfl
  | some row => exact absurd (hskip row hrow) (finalizeChange_ne_skip c row)

end Rules

end SuperSbc.Store
