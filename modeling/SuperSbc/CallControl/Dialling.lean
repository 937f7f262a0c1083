import SuperSbc.Billing.Variables
import SuperSbc.CallControl.Failover
import SuperSbc.CallControl.Passthrough
import SuperSbc.CallControl.Setup

/-!
The bridge loop of the Lua script and the two requests it makes around each
attempt: one that takes a slot of the carrier before it is dialled, one that
reports how the attempt ended. Either request can be lost on its way to the
API or on its way back; Lua sees the same thing in both cases, no answer.

A carrier is dialled unless the API says that it must not be, so a lost answer
does not stop the call. Before it is dialled, headers of the customer are put
into its dial string, and an error there ends the script.
-/

namespace SuperSbc.CallControl

open FixedPoint Rating ReadCommitted Transaction Billing Text

structure CarrierLimits where
  maxConcurrentCalls : ℤ
  maxCPS : ℤ

/-- Whether a carrier may be dialled and why not. The outer `none` stands for
an error of the admission store. -/
def beginAttempt (carrierId : UUID) (limits : Option CarrierLimits) (reply : AdmitReply) :
    Option (Bool × String) × List SlotOp :=
  match limits with
  | none => (some (false, "unknown_carrier"), [])
  | some c =>
    match admitCall (.carrier carrierId) c.maxConcurrentCalls c.maxCPS reply with
    | (none, ops) => (none, ops)
    | (some r, ops) =>
      if r.concurrentExceeded then (some (false, "carrier_capacity"), ops)
      else if r.cpsExceeded then (some (false, "carrier_cps"), ops)
      else (some (true, ""), ops)

structure AttemptRequest where
  callUUID : UUID
  seq : ℤ
  carrierId : UUID
  sipCode : ℤ
  reason : String
  hangupCause : String
  answered : Bool
  alegGone : Bool
  ringSeconds : ℤ
  pddMs : Option ℤ
  startedAt : Option Time
  endedAt : Option Time
  buyRateId : Option UUID

structure AttemptResponse where
  classification : Classification
  continues : Bool
  relay : Reject

def AttemptRequest.classify (req : AttemptRequest) (rules : Rules) (override : List ℤ) :
    Classification :=
  rules.classify
    { sipCode := req.sipCode
      hangupCause := req.hangupCause
      answered := req.answered
      alegGone := req.alegGone
      ringSeconds := req.ringSeconds
      carrierOverride := override }

def AttemptRequest.response (req : AttemptRequest) (rules : Rules) (override : List ℤ) :
    AttemptResponse :=
  let status :=
    if req.sipCode = 0 then sipCodeForCause req.hangupCause else (req.sipCode, req.reason)
  { classification := req.classify rules override
    continues := req.classify rules override == .carrierFault
    relay := ⟨status.1, if status.2 = "" then reasonPhrase status.1 else status.2⟩ }

def appendChange (a : AttemptRecord) (c : CDR) : Change CDR :=
  .put { c with attempts := c.attempts ++ [a], failoverDepth := c.attempts.length }

/-- `AppendAttempt`, one statement that does not ask whether the call is
billed. -/
def appendAttempt (callUUID : UUID) (a : AttemptRecord) : Tx Unit := do
  let _ ← updateRow (.cdr callUUID) (appendChange a)
  pure ()

/-- `RecordAttempt` once the attempt is appended or not: the answer, and the
slot a failed attempt gives back. -/
def recordAttempt (rules : Rules) (override : List ℤ) (req : AttemptRequest)
    (appended left : Bool) : Option AttemptResponse × List SlotOp :=
  if appended then
    (some (req.response rules override),
      if req.answered then [] else leave (.carrier req.carrierId) left)
  else (none, [])

/-- Whether a request reaches its handler, and whether the answer gets back. -/
structure Exchange where
  arrives : Bool
  returns : Bool
deriving DecidableEq

/-- An entry of the dial list as Lua gets it. -/
structure DialChoice extends CarrierChoice where
  buyRateId : Option UUID
  passthroughHeaders : List String
deriving DecidableEq

/-- How a bridge ended. -/
structure Bridge where
  answered : Bool
  alegGone : Bool
  sipCode : ℤ
  hangupCause : String
  ringSeconds : ℤ
  pddMs : Option ℤ
  startedAt : Time
  endedAt : Time
deriving DecidableEq

structure World where
  ready : Bool
  beginCall : Exchange
  limits : Option CarrierLimits
  admission : AdmitReply
  getVariable : String → Option Bytes
  bridge : Bridge
  report : Exchange
  override : List ℤ
  appended : Bool
  left : Bool

namespace World

variable (w : World) (c : DialChoice)

def begun : Option (Bool × String) × List SlotOp :=
  if w.beginCall.arrives then beginAttempt c.carrierId w.limits w.admission else (none, [])

/-- Lua skips the carrier only when it is told so. -/
def skips : Bool :=
  w.beginCall.returns && (w.begun c).1.any (fun answer => !answer.1)

/-- The dial string with the headers that are passed on; `none` is the error of
`gsub`. -/
def dialString : Option Bytes :=
  passHeaders w.getVariable (headerNames c.passthroughHeaders) (utf8Bytes c.dialString)

def request (callUUID : UUID) (seq : ℤ) : AttemptRequest where
  callUUID := callUUID
  seq := seq
  carrierId := c.carrierId
  sipCode := if w.bridge.answered then 200 else w.bridge.sipCode
  reason := ""
  hangupCause := w.bridge.hangupCause
  answered := w.bridge.answered
  alegGone := w.bridge.alegGone && !w.bridge.answered
  ringSeconds := w.bridge.ringSeconds
  pddMs := w.bridge.pddMs
  startedAt := some w.bridge.startedAt
  endedAt := some w.bridge.endedAt
  buyRateId := c.buyRateId

def reported (rules : Rules) (callUUID : UUID) (seq : ℤ) : Option AttemptResponse × List SlotOp :=
  if w.report.arrives then
    recordAttempt rules w.override (w.request c callUUID seq) w.appended w.left
  else (none, [])

def verdict (rules : Rules) (callUUID : UUID) (seq : ℤ) : Option AttemptResponse :=
  if w.report.returns then (w.reported c rules callUUID seq).1 else none

end World

structure Tried where
  seq : ℤ
  choice : DialChoice
  world : World

namespace Tried

variable (t : Tried)

def allowed : Bool := !t.world.skips t.choice

def dialled : Bool := t.allowed && (t.world.dialString t.choice).isSome

/-- Some header with a percent sign that pairs with nothing goes into the dial
string, so that the script ends before the carrier is dialled. -/
def Breaks : Prop :=
  (utf8Bytes t.choice.dialString).head? = some openBrace ∧
    ∃ p ∈ passed t.world.getVariable (headerNames t.choice.passthroughHeaders),
      percentsPaired (luaMarks.without p.2) = false

theorem dialString_eq_none_iff : t.world.dialString t.choice = none ↔ t.Breaks :=
  passHeaders_eq_none_iff _ _ _

theorem dialled_iff : t.dialled = true ↔ t.allowed = true ∧ ¬ t.Breaks := by
  rw [dialled, Bool.and_eq_true, ← dialString_eq_none_iff, Option.isSome_iff_ne_none]

end Tried

/-- What the loop leaves: the passes it made, the channel variables it set and
how the call goes on, or that the script has stopped with an error. -/
structure DialRun where
  tried : List Tried
  vars : Variables
  answered : Option UUID
  relay : Reject
  raised : Bool

def internalError : Reject := ⟨503, "SBC internal error"⟩

/-- A pass in front of the rest of the loop. -/
def DialRun.after (t : Tried) (run : DialRun) : DialRun := { run with tried := t :: run.tried }

/-- The loop over the dial list, with what is around each entry. -/
def dialLoop (rules : Rules) (callUUID : UUID) :
    ℤ → Variables → Reject → List (DialChoice × World) → DialRun
  | _, vars, relay, [] => ⟨[], vars, none, relay, false⟩
  | seq, vars, relay, (c, w) :: rest =>
    if w.ready then
      DialRun.after ⟨seq, c, w⟩ <|
        if w.skips c then dialLoop rules callUUID (seq + 1) vars relay rest
        else
          let vars := setValue vars "sbc_carrier_id" (uuidText c.carrierId)
          match w.dialString c with
          | none => ⟨[], vars, none, relay, true⟩
          | some _ =>
            if w.bridge.answered then
              ⟨[], setValue vars "sbc_answered" "true", some c.carrierId, relay, false⟩
            else if w.bridge.alegGone then ⟨[], vars, none, relay, false⟩
            else
              match w.verdict c rules callUUID seq with
              | none => ⟨[], vars, none, internalError, false⟩
              | some answer =>
                if answer.continues then
                  dialLoop rules callUUID (seq + 1) vars answer.relay rest
                else ⟨[], vars, none, answer.relay, false⟩
    else ⟨[], vars, none, relay, false⟩

/-- The whole loop: nobody has answered, and the variables of the channel are
those of the setup. -/
def dial (rules : Rules) (callUUID : UUID) (vars : Variables)
    (entries : List (DialChoice × World)) : DialRun :=
  dialLoop rules callUUID 1 (setValue vars "sbc_answered" "false") ⟨503, "All carriers failed"⟩
    entries

end SuperSbc.CallControl
