import SuperSbc.CallControl.Reserve

/-!
Step one of a setup: who is calling, and may another call start. The limits
live in Redis counters, and every operation on them can fail, so `authorize`
takes what Redis and Postgres answer as inputs and returns, next to its
verdict, the counter changes that took place.

`Leave` resets a counter that went below zero. That is a correction of the
counter, not a change made for the call, and is left to the counters' own
model.
-/

namespace SuperSbc.CallControl

/-- The counters of concurrent calls: one for each customer and each carrier,
and one for all calls. -/
inductive Scope where
  | customer (id : UUID)
  | carrier (id : UUID)
  | global
deriving DecidableEq

inductive SlotOp where
  | incr (scope : Scope)
  | decr (scope : Scope)
deriving DecidableEq

def heldSlots (scope : Scope) (ops : List SlotOp) : ℤ :=
  (ops.count (.incr scope) : ℤ) - ops.count (.decr scope)

/-- Both counters after the pipelined increments of an admission. -/
structure Counts where
  concurrent : ℤ
  cps : ℤ
deriving DecidableEq

/-- What Redis answers to an admission: the counters, or nothing when the
pipeline failed, and whether the decrement of a refused call succeeds. -/
structure AdmitReply where
  counts : Option Counts
  undone : Bool
deriving DecidableEq

structure AdmitResult where
  concurrentExceeded : Bool
  cpsExceeded : Bool
  concurrent : ℤ
  cps : ℤ
deriving DecidableEq

def AdmitResult.exceeded (r : AdmitResult) : Bool := r.concurrentExceeded || r.cpsExceeded

/-- A limit of zero is no limit. -/
def exceeds (limit count : ℤ) : Bool := 0 < limit && limit < count

/-- `none` stands for `ErrAdmissionUnavailable`. -/
def admitCall (scope : Scope) (maxConcurrent maxCPS : ℤ) (reply : AdmitReply) :
    Option AdmitResult × List SlotOp :=
  match reply.counts with
  | none => (none, [])
  | some n =>
    let r : AdmitResult :=
      { concurrentExceeded := exceeds maxConcurrent n.concurrent
        cpsExceeded := exceeds maxCPS n.cps
        concurrent := n.concurrent
        cps := n.cps }
    (some r, .incr scope :: if r.exceeded && reply.undone then [.decr scope] else [])

/-- A `Leave` whose decrement succeeded or not. -/
def leave (scope : Scope) (done : Bool) : List SlotOp := if done then [.decr scope] else []

inductive CustomerStatus where
  | active
  | suspended
  | blocked
deriving DecidableEq

def CustomerStatus.text : CustomerStatus → String
  | .active => "active"
  | .suspended => "suspended"
  | .blocked => "blocked"

inductive SrtpMode where
  | off
  | optional
  | mandatory
deriving DecidableEq

inductive DtmfMode where
  | rfc2833
  | info
  | inband
deriving DecidableEq

inductive StirMode where
  | ignore
  | verify
  | require
deriving DecidableEq

/-- The columns of a customer the call path reads. -/
structure Customer where
  id : UUID
  name : String
  status : CustomerStatus
  rateGroupId : Option UUID
  routeGroupId : Option UUID
  maxConcurrentCalls : ℤ
  maxCPS : ℤ
  allowedCodecs : List String
  techPrefix : Option String
  defaultCountryCode : Option String
  dtmfMode : DtmfMode
  srtpMode : SrtpMode
  requireTLS : Bool
  stirMode : StirMode
  trustPAI : Bool
  blockedPrefixesEnabled : Bool

/-- A cached source address: known to belong to nobody, or to a customer whose
cached id may not parse. -/
inductive IPEntry where
  | notFound
  | found (customerId : Option UUID)

inductive LookupError where
  | notFound
  | failed

/-- The SIP response a caller gets. -/
structure Reject where
  code : ℤ
  reason : String
deriving DecidableEq

structure AuthReplies where
  ipEntry : Option IPEntry
  customerByID : UUID → Option Customer
  customerByIP : Except LookupError Customer
  admitCustomer : AdmitReply
  admitGlobal : AdmitReply
  leaveCustomer : Bool

inductive AuthResult where
  | failed (customer : Option Customer)
  | rejected (customer : Option Customer) (reject : Reject) (detail : String)
  | admitted (customer : Customer)

def unknownAddress (srcIP : String) (srcPort : ℤ) (transport : String) : String :=
  s!"no active customer has {srcIP}:{srcPort} over {transport} in its allowed IPs"

/-- Calls in a rejection detail, singular or plural. -/
def calls (n : ℤ) : String := if n = 1 then "1 call" else s!"{n} calls"

/-- `strings.ToLower`, with `udp` for the empty text. -/
def transportOf (transport : String) : String :=
  if transport = "" then "udp" else transport.toLower

def Config.limitsGlobally (cfg : Config) : Bool :=
  0 < cfg.globalMaxChannels || 0 < cfg.globalMaxCPS

/-- The customer a source address belongs to. The cache answers first; a
cached id that no longer leads to a customer falls back to the table. -/
def findCustomer (r : AuthReplies) : Except LookupError Customer :=
  match r.ipEntry with
  | some .notFound => .error .notFound
  | some (.found (some id)) =>
    match r.customerByID id with
    | some c => .ok c
    | none => r.customerByIP
  | some (.found none) | none => r.customerByIP

def notAuthorized (srcIP : String) (srcPort : ℤ) (transport : String) : AuthResult :=
  .rejected none ⟨403, "IP not authorized"⟩ (unknownAddress srcIP srcPort (transportOf transport))

/-- The verdict of the global counter, once the customer's admits the call.
Turning the call away gives the customer's slot back. -/
def authorizeGlobal (cfg : Config) (cust : Customer) (r : AuthReplies) :
    AuthResult × List SlotOp :=
  if cfg.limitsGlobally then
    match admitCall .global cfg.globalMaxChannels cfg.globalMaxCPS r.admitGlobal with
    | (none, ops) => (.failed (some cust), ops ++ leave (.customer cust.id) r.leaveCustomer)
    | (some g, ops) =>
      if g.concurrentExceeded then
        (.rejected (some cust) ⟨480, "Concurrent call limit"⟩
          (s!"the node already had {calls (g.concurrent - 1)} up across all customers, " ++
            s!"SBC_ROUTING_GLOBAL_MAX_CHANNELS is {cfg.globalMaxChannels} " ++
            s!"(customer {cust.name} was within its own limit)"),
          ops ++ leave (.customer cust.id) r.leaveCustomer)
      else if g.cpsExceeded then
        (.rejected (some cust) ⟨503, "CPS limit"⟩
          (s!"the node took {calls g.cps} in this second across all customers, " ++
            s!"SBC_ROUTING_GLOBAL_MAX_CPS is {cfg.globalMaxCPS} " ++
            s!"(customer {cust.name} was within its own limit)"),
          ops ++ leave (.customer cust.id) r.leaveCustomer)
      else (.admitted cust, ops)
  else (.admitted cust, [])

/-- The verdict on a known customer. -/
def authorizeCustomer (cfg : Config) (cust : Customer) (r : AuthReplies) :
    AuthResult × List SlotOp :=
  if cust.status ≠ .active then
    (.rejected (some cust) ⟨403, "Customer suspended"⟩
      s!"customer {cust.name} is {cust.status.text}", [])
  else
    match admitCall (.customer cust.id) cust.maxConcurrentCalls cust.maxCPS r.admitCustomer with
    | (none, ops) => (.failed (some cust), ops)
    | (some c, ops) =>
      if c.concurrentExceeded then
        (.rejected (some cust) ⟨480, "Concurrent call limit"⟩
          (s!"customer {cust.name} already had {calls (c.concurrent - 1)} up, " ++
            s!"its max_concurrent_calls is {cust.maxConcurrentCalls} " ++
            "(max_cps is a separate limit)"), ops)
      else if c.cpsExceeded then
        (.rejected (some cust) ⟨503, "CPS limit"⟩
          (s!"customer {cust.name} started {calls c.cps} in this second, " ++
            s!"its max_cps is {cust.maxCPS}"), ops)
      else
        let rest := authorizeGlobal cfg cust r
        (rest.1, ops ++ rest.2)

def authorize (cfg : Config) (srcIP : String) (srcPort : ℤ) (transport : String)
    (r : AuthReplies) : AuthResult × List SlotOp :=
  match findCustomer r with
  | .error .notFound => (notAuthorized srcIP srcPort transport, [])
  | .error .failed => (.failed none, [])
  | .ok cust => authorizeCustomer cfg cust r

/-- `LeaveAdmission`, with what Redis answers to its two decrements. -/
def leaveAdmission (cfg : Config) (customerId : UUID) (customerDone globalDone : Bool) :
    List SlotOp :=
  leave (.customer customerId) customerDone ++
    if cfg.limitsGlobally then leave .global globalDone else []

end SuperSbc.CallControl
