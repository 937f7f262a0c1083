import SuperSbc.CallControl.Quote
import SuperSbc.Text.Quote

/-!
The whole setup of a call: authorise, screen, quote, reserve, route. The
lookups that have their own caches or live outside the store (numbering,
STIR, block lists, the rate trie, the carrier list) answer through `Replies`,
as do the failures of Redis and Postgres; the money tables are the store
itself.

A setup returns its response or an error, the store it leaves and the counter
changes it made. A rejection writes a record; a failure to write it is only
logged.
-/

namespace SuperSbc.CallControl

open FixedPoint Rating ReadCommitted Transaction Store

structure SetupRequest where
  callUUID : Option UUID
  callUUIDText : String
  srcIP : String
  srcPort : ℤ
  transport : String
  caller : String
  called : String
  sipCallID : String
  srtpOffered : Bool
  privacy : Bool
  paiNumber : String

/-- A dialplan application Lua executes on the customer's leg. -/
structure App where
  app : String
  data : String := ""
deriving DecidableEq

/-- The matched selling rate as Lua sees it. -/
structure SellRate where
  rateId : UUID
  dialPrefix : String
  destination : String
  ratePerMin : Decimal
  connectFee : Decimal
  initialIncrement : ℤ
  subsequentIncrement : ℤ
  minDuration : ℤ

structure CarrierChoice where
  carrierId : UUID
  dialString : String
deriving DecidableEq

structure SkippedCarrier where
  carrierId : UUID
  name : String
  reason : String
  detail : String
deriving DecidableEq

structure RouteRef where
  id : UUID
  dialPrefix : String
  destination : String

structure RouteResult where
  route : Option RouteRef
  carriers : List CarrierChoice
  skipped : List SkippedCarrier

inductive Action where
  | reject
  | dial
deriving DecidableEq

structure SetupResponse where
  action : Action := .reject
  reject : Option Reject := none
  rejectStep : String := ""
  callUUID : String
  customerId : Option UUID := none
  customerName : String := ""
  caller : String
  called : String
  sell : Option SellRate := none
  reservedAmount : Decimal := 0
  available : Decimal := 0
  maxCallSeconds : ℤ := 0
  routeId : Option UUID := none
  routePrefix : String := ""
  carriers : List CarrierChoice := []
  skipped : List SkippedCarrier := []
  originateTimeout : ℤ
  progressTimeout : ℤ
  customerCodecs : String := ""
  mediaTimeoutMs : ℤ
  mediaHoldTimeoutMs : ℤ
  vars : List (String × String) := []
  apps : List App := []

/-- `resp.Vars[name] = value`. -/
def SetupResponse.setVar (resp : SetupResponse) (name value : String) : SetupResponse :=
  { resp with vars := (name, value) :: resp.vars.filter (·.1 ≠ name) }

def SetupResponse.setVars (resp : SetupResponse) (vars : List (String × String)) :
    SetupResponse :=
  vars.foldl (fun resp v => resp.setVar v.1 v.2) resp

/-- What `stir.Verify` found. -/
inductive StirStatus where
  | none
  | verified
  | stale
  | mismatch
  | noCert
  | invalid
deriving DecidableEq

def StirStatus.text : StirStatus → String
  | .none => "none"
  | .verified => "verified"
  | .stale => "stale"
  | .mismatch => "mismatch"
  | .noCert => "no_cert"
  | .invalid => "invalid"

/-- A verified call is never asked for this. -/
def StirStatus.rejectCode : StirStatus → Reject
  | .none => ⟨428, "Use Identity Header"⟩
  | .noCert => ⟨436, "Bad Identity Info"⟩
  | .stale | .mismatch | .invalid => ⟨438, "Invalid Identity Header"⟩
  | .verified => ⟨0, ""⟩

structure StirResult where
  status : StirStatus
  attest : String

structure Area where
  dialPrefix : String
  description : String
  operator : String

structure BlockedPrefix where
  dialPrefix : String
  reason : String
  isGlobal : Bool

structure NormOptions where
  techPrefix : String
  defaultCountryCode : String
  intlPrefix : String

/-- Everything a setup asks that is not a money table, and which of its writes
Postgres and Redis serve. -/
structure Replies extends AuthReplies where
  unicode : Text.Unicode
  normalize : NormOptions → String → Except String String
  normalizeCaller : NormOptions → String → String
  area : String → Option Area
  stir : Option (String → String → StirResult)
  blocked : UUID → String → Option BlockedPrefix
  matchRate : UUID → String → Except String (Option RateRow)
  fxTable : Option FXTable
  deckRead : Bool
  accountRead : Bool
  reserveServed : Bool
  releaseServed : Bool
  releasedAt : Time
  recordServed : Bool
  leaveGlobal : Bool
  routeWith : Customer → String → String → RateRow → Bool → Except String RouteResult
  responseVars : UUID → List (String × String)

/-- `%q`. -/
def Replies.quoted (r : Replies) (text : String) : String :=
  String.ofList (Text.quote r.unicode text.toList)

inductive SetupError where
  | badUUID
  | authorize
  | lookup (message : String)
  | store (fault : Option (Fault StoreError))

/-- How far a setup has got: the response and the record it is building. -/
structure Draft where
  resp : SetupResponse
  cdr : CDR

/-- A rejection that is decided but not yet carried out. -/
structure Rejection where
  step : String
  reject : Reject
  disposition : Disposition
  detail : String
  draft : Draft

/-- How a setup ended. -/
structure SetupRun where
  response : Except SetupError SetupResponse
  db : DB
  slots : List SlotOp

/-- A transaction that Postgres serves or fails (`none`). -/
def execute {α : Type} (served : Bool) (tx : Tx α) (db : DB) :
    Except (Option (Fault StoreError)) (α × DB) :=
  if served then (tx.run db).mapError some else .error none

/-- `x.StringFixed(places)`. -/
def stringFixed (places : ℕ) (x : Decimal) : String :=
  let units := halfAway (x * 10 ^ places)
  let digits := toString (units.natAbs % 10 ^ places)
  (if units < 0 then "-" else "") ++ toString (units.natAbs / 10 ^ places) ++ "." ++
    String.ofList (List.replicate (places - digits.length) '0') ++ digits

section Steps

variable (cfg : Config) (now : Time) (r : Replies) (req : SetupRequest)

def startDraft : Draft where
  resp :=
    { callUUID := req.callUUIDText
      caller := req.caller
      called := req.called
      originateTimeout := cfg.originateTimeout
      progressTimeout := cfg.progressTimeout
      mediaTimeoutMs := cfg.mediaTimeoutSec * 1000
      mediaHoldTimeoutMs := cfg.mediaHoldTimeoutSec * 1000 }
  cdr :=
    { srcIP := some req.srcIP
      srcPort := some req.srcPort
      callerNumberRaw := req.caller
      calledNumberRaw := req.called
      callerNumber := req.caller
      calledNumber := req.called
      startTime := now
      sbcNode := some cfg.nodeName
      sipCallId := if req.sipCallID = "" then none else some req.sipCallID }

def withCustomer (cust : Customer) (d : Draft) : Draft where
  resp := ({ d.resp with
      customerId := some cust.id
      customerName := cust.name
      customerCodecs := ",".intercalate cust.allowedCodecs }.setVar
    "sbc_customer_id" (Text.uuidText cust.id)).setVar "sbc_customer_name" cust.name
  cdr := { d.cdr with customerId := some cust.id }

def withReject (step : String) (reject : Reject) (detail : String) (resp : SetupResponse) :
    SetupResponse :=
  let resp := ({ resp with reject := some reject, rejectStep := step }.setVar
    "sbc_reject_reason" reject.reason).setVar "sbc_reject_step" step
  if detail = "" then resp else resp.setVar "sbc_reject_detail" detail

/-- The record of a rejected call is born billed. -/
def rejectedCDR (j : Rejection) : CDR :=
  { j.draft.cdr with
    endTime := some now
    disposition := j.disposition
    rejectReason := some j.reject.reason
    rejectStep := some j.step
    rejectDetail := if j.detail = "" then j.draft.cdr.rejectDetail else some j.detail
    sipFinalCode := some j.reject.code
    sipFinalReason := some j.reject.reason
    billedAt := some now
    billedBy := some cfg.nodeName }

def reject (callUUID : UUID) (j : Rejection) (db : DB) : SetupRun where
  response := .ok (withReject j.step j.reject j.detail j.draft.resp)
  db :=
    match execute r.recordServed (insertCDRSetup callUUID (rejectedCDR cfg now j)) db with
    | .ok (_, after) => after
    | .error _ => db
  slots := []

def rejectAdmitted (customerId callUUID : UUID) (j : Rejection) (db : DB) : SetupRun :=
  { reject cfg now r callUUID j db with
    slots := leaveAdmission cfg customerId r.leaveCustomer r.leaveGlobal }

/-- The variables and applications of a customer's DTMF mode. -/
def aLegDTMF : DtmfMode → String × List App
  | .info => ("info", [])
  | .inband => ("none", [⟨"start_dtmf", ""⟩, ⟨"start_dtmf_generate", ""⟩])
  | .rfc2833 => ("rfc2833", [])

def srtpVar : SrtpMode → String
  | .mandatory => "mandatory"
  | .optional => "optional"
  | .off => "false"

def checkPolicy (cust : Customer) (d : Draft) : Except Rejection Draft :=
  let transport := transportOf req.transport
  let d := { d with cdr := { d.cdr with
    transportIn := some transport
    srtpIn := req.srtpOffered
    privacy := req.privacy } }
  if cust.requireTLS ∧ transport ≠ "tls" then
    .error ⟨"policy", ⟨403, "TLS required"⟩, .rejectedAuth,
      "the customer requires TLS and the call arrived over " ++ transport, d⟩
  else if cust.srtpMode = .mandatory ∧ ¬ req.srtpOffered then
    .error ⟨"policy", ⟨488, "SRTP required"⟩, .rejectedAuth,
      "the customer requires SRTP and the offer carried none", d⟩
  else
    let dtmf := aLegDTMF cust.dtmfMode
    let resp := (d.resp.setVar "rtp_secure_media" (srtpVar cust.srtpMode)).setVar
      "dtmf_type" dtmf.1
    let resp := { resp with apps := dtmf.2 }
    .ok { d with resp := if req.privacy then resp.setVar "sbc_privacy" "true" else resp }

/-- The customer's international prefix is not among the options. -/
def normOptions (cust : Customer) : NormOptions where
  techPrefix := cust.techPrefix.getD ""
  defaultCountryCode := cust.defaultCountryCode.getD ""
  intlPrefix := ""

def withArea (called : String) (d : Draft) : Draft :=
  match r.area called with
  | none => d
  | some area =>
    let resp := d.resp.setVar "sbc_area" area.description
    { resp := if area.operator = "" then resp else resp.setVar "sbc_operator" area.operator
      cdr := { d.cdr with
        areaPrefix := some area.dialPrefix
        areaDescription := some area.description
        operatorName := some area.operator } }

/-- A draft with the numbers the rest of the setup works on. -/
structure Screened where
  draft : Draft
  caller : String
  called : String
  forwardIdentity : Bool := false

def normalizeNumbers (cust : Customer) (d : Draft) : Except Rejection Screened :=
  let opts := normOptions cust
  match r.normalize opts req.called with
  | .error message =>
    .error ⟨"normalize", ⟨484, "Address Incomplete"⟩, .rejectedRoute,
      "cannot normalise " ++ r.quoted req.called ++ ": " ++ message ++ " (country code " ++
        r.quoted opts.defaultCountryCode ++ ", international prefix " ++
        r.quoted opts.intlPrefix ++ ")", d⟩
  | .ok called =>
    let number := if cust.trustPAI ∧ req.paiNumber ≠ "" then req.paiNumber else req.caller
    let caller := r.normalizeCaller opts number
    let d : Draft :=
      { resp := { d.resp with called := called, caller := caller }
        cdr := { d.cdr with calledNumber := called, callerNumber := caller } }
    .ok { draft := withArea r called d, caller := caller, called := called }

/-- The identity header is checked for customers who ask for it. -/
def verifyIdentity (cust : Customer) (s : Screened) : Except Rejection Screened :=
  match r.stir, cust.stirMode with
  | none, _ | _, .ignore => .ok s
  | some verify, mode =>
    let found := verify s.caller s.called
    let d : Draft :=
      { resp := s.draft.resp.setVar "sbc_stir_status" found.status.text
        cdr := { s.draft.cdr with
          stirStatus := some found.status.text
          stirAttest := if found.attest = "" then s.draft.cdr.stirAttest
            else some found.attest } }
    if mode = .require ∧ found.status ≠ .verified then
      .error ⟨"stir", found.status.rejectCode, .rejectedAuth,
        "the customer requires STIR and verification returned " ++ found.status.text, d⟩
    else
      .ok { s with
        draft := d
        forwardIdentity := found.status = .verified && cfg.stirForward }

def checkBlocklist (cust : Customer) (s : Screened) : Except Rejection Screened :=
  if cust.blockedPrefixesEnabled then
    match r.blocked cust.id s.called with
    | none => .ok s
    | some blk =>
      let scope := if blk.isGlobal then "every customer" else "this customer"
      .error ⟨"blocklist", ⟨403, "Destination blocked"⟩, .rejectedRoute,
        s!"prefix {blk.dialPrefix} is blocked for {scope}: {blk.reason}", s.draft⟩
  else .ok s

/-- The checks between admission and rating. -/
def screen (cust : Customer) (d : Draft) : Except Rejection Screened := do
  let d ← checkPolicy req cust d
  let s ← normalizeNumbers r req cust d
  let s ← verifyIdentity cfg r cust s
  checkBlocklist r cust s

def withSale (sell : RateRow) (m : Multiplier) (currency : String) (d : Draft) : Draft where
  resp := (({ d.resp with
      sell := some ⟨sell.id, sell.dialPrefix, sell.destination, sell.ratePerMin,
        sell.connectFee, sell.initialIncrement, sell.subsequentIncrement,
        sell.minDuration⟩ }.setVar
    "sbc_sell_rate_id" (Text.uuidText sell.id)).setVar
    "sbc_sell_rate" (stringFixed 6 sell.ratePerMin)).setVar
    "sbc_sell_destination" sell.destination
  cdr := { d.cdr with
    sellCurrency := some currency
    sellFX := m
    sellRateId := some sell.id
    sellRatePerMin := some sell.ratePerMin
    sellDestination := some sell.destination }

/-- Why there is no quote. -/
inductive NoQuote where
  | failed (message : String)
  | rejected (rejection : Rejection)

/-- The currency the customer pays in; the configured one when the account
cannot be read. -/
def accountCurrency (cust : Customer) (db : DB) : String :=
  match r.accountRead, findAccount db ⟨.customer, cust.id⟩ with
  | true, some (_, acc) => acc.currency
  | _, _ => cfg.currency

def quoteSell (cust : Customer) (s : Screened) (db : DB) : Except NoQuote (Draft × RateRow) :=
  let noRate (detail : String) : NoQuote :=
    .rejected ⟨"rate", ⟨404, "No rate for destination"⟩, .rejectedRoute, detail, s.draft⟩
  match sellRateFor cust (r.matchRate · s.called) with
  | .error message => .error (.failed message)
  | .ok none => .error (noRate (if cust.rateGroupId = none then "the customer has no rate group"
      else "no rate matches " ++ s.called ++ " in the customer rate deck"))
  | .ok (some matched) =>
    let currency := accountCurrency cfg r cust db
    let deck := if r.deckRead then db.row (.rateGroup matched.rateGroupId) else none
    match convertRate deck r.fxTable matched currency with
    | none => .error (noRate
        ("no exchange rate from the sell deck currency to the account currency " ++ currency))
    | some (sell, m) => .ok (withSale sell m currency s.draft, sell)

end Steps

def skippedText (s : SkippedCarrier) : String :=
  if s.detail = "" then s.name ++ " " ++ s.reason else s!"{s.name} {s.reason}: {s.detail}"

def noRouteDetail (cust : Customer) (called : String) (route : RouteResult) : String :=
  match route.route with
  | none =>
    if cust.routeGroupId = none then "the customer has no route group"
    else "no route prefix matches " ++ called ++ " in the customer route group"
  | some found =>
    if route.skipped = [] then
      s!"route {found.dialPrefix} ({found.destination}) has no carrier attached"
    else
      s!"every carrier on route {found.dialPrefix} ({found.destination}) was skipped: " ++
        "; ".intercalate (route.skipped.map skippedText)

section Decision

variable (cfg : Config) (now : Time) (r : Replies) (req : SetupRequest)

/-- A rejection after the reservation releases it first; a failed release is
only logged. -/
def rejectReserved (customerId callUUID : UUID) (j : Rejection) (db : DB) : SetupRun where
  response := .ok (withReject j.step j.reject j.detail j.draft.resp)
  db :=
    match execute r.releaseServed (releaseReservation cfg r.releasedAt callUUID j.reject.code
        j.reject.reason j.disposition j.step j.detail) db with
    | .ok (_, after) => after
    | .error _ => db
  slots := leaveAdmission cfg customerId r.leaveCustomer r.leaveGlobal

/-- Steps six and seven, with the reservation in place. -/
def routeReserved (callUUID : UUID) (cust : Customer) (s : Screened) (sell : RateRow)
    (d : Draft) (db : DB) : SetupRun :=
  match r.routeWith cust s.called s.caller sell s.forwardIdentity with
  | .error message => ⟨.error (.lookup message), db, []⟩
  | .ok found =>
    let resp := { d.resp with skipped := found.skipped }.setVars (r.responseVars cust.id)
    match found.route with
    | some route =>
      if found.carriers = [] then
        rejectReserved cfg r cust.id callUUID ⟨"route", ⟨503, "No route"⟩, .rejectedRoute,
          noRouteDetail cust s.called found, { d with resp := resp }⟩ db
      else
        { response := .ok (({ resp with
              routeId := some route.id
              routePrefix := route.dialPrefix
              carriers := found.carriers
              action := .dial }.setVar "sbc_route_id" (Text.uuidText route.id)).setVar
            "sbc_route_prefix" route.dialPrefix)
          db := db
          slots := [] }
    | none =>
      rejectReserved cfg r cust.id callUUID ⟨"route", ⟨503, "No route"⟩, .rejectedRoute,
        noRouteDetail cust s.called found, { d with resp := resp }⟩ db

/-- The response to a call that cannot be paid for. The record keeps the
amount when the transaction had begun. -/
def noFunds (currency : String) (sell : RateRow) (result : Option ReserveResult) (d : Draft) :
    Rejection :=
  let reject : Reject := ⟨402, "Not enough funds"⟩
  match result with
  | none => ⟨"balance", reject, .rejectedBalance,
      "the account has no funds for the reservation", d⟩
  | some rr =>
    let d : Draft :=
      { resp := { d.resp with reservedAmount := rr.reservedAmount, available := rr.available }
        cdr := if rr.account = none then { d.cdr with reservedAmount := rr.reservedAmount }
          else d.cdr }
    ⟨"balance", reject, .rejectedBalance,
      s!"available {stringFixed 6 rr.available} {currency} is below the " ++
        s!"{stringFixed 6 rr.reservedAmount} needed to reserve {cfg.reserveMinutes} minutes " ++
        s!"at {stringFixed 6 sell.ratePerMin} per minute", d⟩

def withReservation (rr : ReserveResult) (d : Draft) : Draft :=
  { resp := ({ d.resp with
        reservedAmount := rr.reservedAmount
        available := rr.available
        maxCallSeconds := rr.maxCallSeconds }.setVar
      "sbc_reserved" (stringFixed 6 rr.reservedAmount)).setVar
      "sbc_max_call_seconds" (toString rr.maxCallSeconds)
    cdr := { d.cdr with reservedAmount := rr.reservedAmount, disposition := .pending } }

/-- Steps four and five. An error other than missing funds leaves the slots
of the call taken. -/
def reserveQuoted (callUUID : UUID) (cust : Customer) (s : Screened) (sell : RateRow)
    (d : Draft) (db : DB) : SetupRun :=
  match execute r.reserveServed (reserve cfg cust.id sell callUUID d.cdr) db with
  | .error (some (.error (.insufficientFunds result))) =>
    rejectAdmitted cfg now r cust.id callUUID
      (noFunds cfg (d.cdr.sellCurrency.getD cfg.currency) sell result d) db
  | .error fault => ⟨.error (.store fault), db, []⟩
  | .ok (rr, after) => routeReserved cfg r callUUID cust s sell (withReservation rr d) after

/-- Everything after a slot was taken. -/
def setupAdmitted (callUUID : UUID) (cust : Customer) (d : Draft) (db : DB) : SetupRun :=
  match screen cfg r req cust d with
  | .error j => rejectAdmitted cfg now r cust.id callUUID j db
  | .ok s =>
    match quoteSell cfg r cust s db with
    | .error (.failed message) => ⟨.error (.lookup message), db, []⟩
    | .error (.rejected j) => rejectAdmitted cfg now r cust.id callUUID j db
    | .ok (d, sell) => reserveQuoted cfg now r callUUID cust s sell d db

def setup (db : DB) : SetupRun :=
  match req.callUUID with
  | none => ⟨.error .badUUID, db, []⟩
  | some callUUID =>
    let auth := authorize cfg req.srcIP req.srcPort req.transport r.toAuthReplies
    let d := startDraft cfg now req
    match auth.1 with
    | .failed _ => ⟨.error .authorize, db, auth.2⟩
    | .rejected none j detail =>
      let run := reject cfg now r callUUID ⟨"authorize", j, .rejectedAuth, detail, d⟩ db
      { run with slots := auth.2 }
    | .rejected (some cust) j detail =>
      let run := reject cfg now r callUUID
        ⟨"authorize", j, .rejectedAuth, detail, withCustomer cust d⟩ db
      { run with slots := auth.2 }
    | .admitted cust =>
      let run := setupAdmitted cfg now r req callUUID cust (withCustomer cust d) db
      { run with slots := auth.2 ++ run.slots }

end Decision

end SuperSbc.CallControl
