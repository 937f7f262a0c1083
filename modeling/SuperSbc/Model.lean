import SuperSbc.FixedPoint.Numeric
import SuperSbc.Rating
import SuperSbc.ReadCommitted.Transaction

/-!
The rows the call path works on, and the store that holds them. A row's
primary key is its key in the store, so it is not repeated in the row. Money
that balances depend on is a `numeric(18,6)` column; the CDR, which the code
loads, edits as decimals and writes back, holds decimals and is rounded when
it is written. Column checks of the schema are fields of the row types.

Creation and update stamps, and columns no modelled function uses, are left
out. `rtp_stats` is an opaque text.
-/

namespace SuperSbc

open FixedPoint Rating ReadCommitted

abbrev UUID := BitVec 128

instance UUID.lawfulBEq : LawfulBEq UUID := inferInstance

/-- Nanoseconds since the epoch. -/
abbrev Time := ℤ

/-- `numeric(18,6)`. -/
abbrev Money := Numeric 18 6

/-- `int(d.Seconds())` of a Go duration in nanoseconds. -/
def toSeconds (duration : ℤ) : ℤ := duration.tdiv 1000000000

/-- `d.Milliseconds()` of a Go duration in nanoseconds. -/
def toMilliseconds (duration : ℤ) : ℤ := duration.tdiv 1000000

inductive OwnerKind where
  | customer
  | carrier
deriving DecidableEq

/-- The unique pair `(owner_type, owner_id)` of an account. -/
structure Owner where
  kind : OwnerKind
  id : UUID
deriving DecidableEq

structure Account where
  owner : Owner
  currency : String
  balance : Money
  allowedCredit : Money
  reserved : Money
  allowedCredit_nonneg : 0 ≤ allowedCredit.units
  reserved_nonneg : 0 ≤ reserved.units
deriving DecidableEq

/-- `balance + allowed_credit - reserved`. -/
def Account.available (a : Account) : Decimal :=
  a.balance.val + a.allowedCredit.val - a.reserved.val

inductive LedgerKind where
  | reserve
  | release
  | charge
  | cost
  | topup
  | adjustment
  | refund
deriving DecidableEq

/-- One append-only money movement. -/
structure LedgerEntry where
  accountId : UUID
  callUUID : Option UUID
  kind : LedgerKind
  amount : Money
  balanceAfter : Money
  description : String
  createdBy : Option String
deriving DecidableEq

/-- A call with an open reservation. -/
structure ActiveCall where
  customerId : UUID
  accountId : UUID
  calledNumber : String
  reservedAmount : Money
  maxCallSeconds : ℤ
  startedAt : Time
  expiresAt : Time
  node : String
deriving DecidableEq

/-- A row of a rate deck, or a copy of one converted to another currency. -/
structure RateRow where
  id : UUID
  rateGroupId : UUID
  dialPrefix : String
  destination : String
  ratePerMin : Decimal
  connectFee : Decimal
  initialIncrement : ℤ
  subsequentIncrement : ℤ
  minDuration : ℤ
  ratePerMin_nonneg : 0 ≤ ratePerMin
  ratePerMin_scale : OnScale scale ratePerMin
  connectFee_nonneg : 0 ≤ connectFee
  connectFee_scale : OnScale scale connectFee
  initialIncrement_pos : 0 < initialIncrement
  subsequentIncrement_pos : 0 < subsequentIncrement
  minDuration_nonneg : 0 ≤ minDuration
  initialIncrement_lt : initialIncrement < 2 ^ 31
  subsequentIncrement_lt : subsequentIncrement < 2 ^ 31
deriving DecidableEq

structure RateGroup where
  currency : String
deriving DecidableEq

structure Carrier where
  transport : String
  chargeFailedAttempts : Bool
deriving DecidableEq

/-- How an attempt at a carrier ended. -/
inductive Classification where
  | answered
  | numberFault
  | carrierFault
  | cancelled
deriving DecidableEq

/-- One element of `cdrs.attempts`. -/
structure AttemptRecord where
  seq : ℤ
  carrierId : UUID
  sipCode : ℤ
  hangupCause : String
  startedAt : Time
  endedAt : Option Time
  pddMs : Option ℤ
  classification : Classification
  buyRateId : Option UUID
  cost : Option Decimal
deriving DecidableEq

inductive Disposition where
  | pending
  | answered
  | noAnswer
  | busy
  | failed
  | rejectedAuth
  | rejectedBalance
  | rejectedRoute
  | cancelled
deriving DecidableEq

/-- A call detail record. The defaults are those of a freshly built record. -/
structure CDR where
  customerId : Option UUID := none
  carrierId : Option UUID := none
  srcIP : Option String := none
  srcPort : Option ℤ := none
  callerNumberRaw : String := ""
  callerNumber : String := ""
  calledNumberRaw : String := ""
  calledNumber : String := ""
  startTime : Time := 0
  progressTime : Option Time := none
  answerTime : Option Time := none
  endTime : Option Time := none
  pddMs : Option ℤ := none
  ringSeconds : ℤ := 0
  billsec : ℤ := 0
  duration : ℤ := 0
  sipFinalCode : Option ℤ := none
  sipFinalReason : Option String := none
  hangupCause : Option String := none
  disposition : Disposition := .pending
  rejectReason : Option String := none
  rejectStep : Option String := none
  rejectDetail : Option String := none
  sellRateId : Option UUID := none
  sellRatePerMin : Option Decimal := none
  sellBilledSeconds : ℤ := 0
  sellPrice : Decimal := 0
  sellDestination : Option String := none
  sellCurrency : Option String := none
  buyCurrency : Option String := none
  sellFX : Decimal := 0
  buyFX : Decimal := 0
  buyRateId : Option UUID := none
  buyRatePerMin : Option Decimal := none
  buyBilledSeconds : ℤ := 0
  cost : Decimal := 0
  negativeMargin : Bool := false
  reservedAmount : Decimal := 0
  chargedAmount : Decimal := 0
  releasedAmount : Decimal := 0
  attempts : List AttemptRecord := []
  failoverDepth : ℤ := 0
  codecIn : Option String := none
  codecOut : Option String := none
  mediaMode : Option String := none
  rtpStats : Option String := none
  transportIn : Option String := none
  transportOut : Option String := none
  srtpIn : Bool := false
  srtpOut : Bool := false
  privacy : Bool := false
  sipCallId : Option String := none
  areaPrefix : Option String := none
  areaDescription : Option String := none
  operatorName : Option String := none
  stirStatus : Option String := none
  stirAttest : Option String := none
  sbcNode : Option String := none
  billedAt : Option Time := none
  billedBy : Option String := none

/-- The tables of the call path. `accountOf` is the unique index of
`accounts` on its owner. -/
inductive Key where
  | account (id : UUID)
  | accountOf (owner : Owner)
  | cdr (callUUID : UUID)
  | active (callUUID : UUID)
  | rate (id : UUID)
  | rateGroup (id : UUID)
  | carrier (id : UUID)
deriving DecidableEq

@[reducible]
def Row : Key → Type
  | .account _ => Account
  | .accountOf _ => UUID
  | .cdr _ => CDR
  | .active _ => ActiveCall
  | .rate _ => RateRow
  | .rateGroup _ => RateGroup
  | .carrier _ => Carrier

/-- What a reservation attempt found out, also when it failed. -/
structure ReserveResult where
  account : Option Account
  available : Decimal
  reservedAmount : Decimal
  maxCallSeconds : ℤ

/-- Errors a transaction body rolls back with. -/
inductive StoreError where
  | notFound
  | insufficientFunds (result : Option ReserveResult)
  | numericOverflow
  | badRequest (message : String)

abbrev DB := Database Key Row LedgerEntry

abbrev Tx := Transaction Key Row LedgerEntry StoreError

/-- The rating view of a rate row. -/
def toRating (r : RateRow) : Rate where
  perMinute := r.ratePerMin
  connectFee := r.connectFee
  initial := r.initialIncrement
  subsequent := r.subsequentIncrement
  minDuration := r.minDuration

theorem toRating_valid (r : RateRow) : (toRating r).Valid where
  perMinute_nonneg := r.ratePerMin_nonneg
  connectFee_nonneg := r.connectFee_nonneg
  initial_pos := r.initialIncrement_pos
  subsequent_pos := r.subsequentIncrement_pos
  minDuration_nonneg := r.minDuration_nonneg
  initial_lt := r.initialIncrement_lt
  subsequent_lt := r.subsequentIncrement_lt

def sampleRate : RateRow where
  id := 9
  rateGroupId := 3
  dialPrefix := "49"
  destination := "Germany"
  ratePerMin := 6 / 100
  connectFee := 0
  initialIncrement := 60
  subsequentIncrement := 60
  minDuration := 0
  ratePerMin_nonneg := by norm_num
  ratePerMin_scale := by decide +kernel
  connectFee_nonneg := le_rfl
  connectFee_scale := by decide +kernel
  initialIncrement_pos := by norm_num
  subsequentIncrement_pos := by norm_num
  minDuration_nonneg := le_rfl
  initialIncrement_lt := by norm_num
  subsequentIncrement_lt := by norm_num

end SuperSbc
