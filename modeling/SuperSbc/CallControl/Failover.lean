import SuperSbc.Model
import SuperSbc.Text.Reading

/-!
How a failed attempt at a carrier is judged: a fault of the number, which ends
the call, or a fault of the carrier, after which the next one is tried. The
default of a rules file is one of the classifications; the carrier's own list
of codes replaces the code tables.
-/

namespace SuperSbc.CallControl

open Text

/-- The parsed `failover.yaml`. -/
structure Rules where
  numberCodes : List ℤ
  numberCauses : List String
  carrierCodes : List ℤ
  carrierCauses : List String
  minRingSecondsForNoAnswer : ℤ
  default5xx : Classification
  defaultOther : Classification

/-- What is judged of an attempt. A code of zero is no response. -/
structure Attempt where
  sipCode : ℤ
  hangupCause : String
  answered : Bool
  alegGone : Bool
  ringSeconds : ℤ
  carrierOverride : List ℤ

namespace Rules

def default : Rules where
  numberCodes := [404, 410, 484, 486, 600, 603, 604]
  numberCauses := ["USER_BUSY", "NO_ANSWER", "CALL_REJECTED", "UNALLOCATED_NUMBER",
    "NORMAL_CLEARING", "NO_USER_RESPONSE", "ORIGINATOR_CANCEL"]
  carrierCodes := [401, 402, 403, 407, 408, 480, 488, 500, 501, 502, 503, 504, 505, 513, 580]
  carrierCauses := ["RECOVERY_ON_TIMER_EXPIRE", "NETWORK_OUT_OF_ORDER", "NORMAL_TEMPORARY_FAILURE",
    "NORMAL_CIRCUIT_CONGESTION", "GATEWAY_DOWN", "PROGRESS_TIMEOUT", "SERVICE_UNAVAILABLE",
    "INCOMPATIBLE_DESTINATION", "BEARERCAPABILITY_NOTAUTH", "MANDATORY_IE_MISSING",
    "SWITCH_CONGESTION", "REQUESTED_CHAN_UNAVAIL", "EXCHANGE_ROUTING_ERROR",
    "DESTINATION_OUT_OF_ORDER", "NO_ROUTE_DESTINATION", "INVALID_GATEWAY", "ALLOTTED_TIMEOUT"]
  minRingSecondsForNoAnswer := 10
  default5xx := .carrierFault
  defaultOther := .numberFault

def classifyCode (r : Rules) (code : ℤ) : Classification :=
  if code ∈ r.numberCodes then .numberFault
  else if code ∈ r.carrierCodes then .carrierFault
  else if 500 ≤ code ∧ code ≤ 599 then r.default5xx
  else r.defaultOther

def classifyCause (r : Rules) (cause : String) (ringSeconds : ℤ) : Classification :=
  if cause = "NO_ANSWER" ∨ cause = "NO_USER_RESPONSE" then
    if r.minRingSecondsForNoAnswer ≤ ringSeconds then .numberFault else .carrierFault
  else if cause ∈ r.numberCauses.map String.toUpper then .numberFault
  else if cause ∈ r.carrierCauses.map String.toUpper then .carrierFault
  else if cause = "" then .carrierFault
  else r.defaultOther

def classify (r : Rules) (a : Attempt) : Classification :=
  let cause := (String.ofList (trimSpace a.hangupCause.toList)).toUpper
  if a.answered then .answered
  else if a.alegGone = true ∨ cause = "ORIGINATOR_CANCEL" then .cancelled
  else if 0 < a.sipCode ∧ a.sipCode ∈ a.carrierOverride then .carrierFault
  else if 300 ≤ a.sipCode ∧ a.carrierOverride ≠ [] then .numberFault
  else if 0 < a.sipCode then r.classifyCode a.sipCode
  else r.classifyCause cause a.ringSeconds

end Rules

/-- The response FreeSWITCH itself would send for a cause. -/
def sipCodeForCause (cause : String) : ℤ × String :=
  let c := cause.toUpper
  if c ∈ ["UNALLOCATED_NUMBER", "NO_ROUTE_TRANSIT_NET", "NO_ROUTE_DESTINATION"] then
    (404, "Not Found")
  else if c = "USER_BUSY" then (486, "Busy Here")
  else if c ∈ ["NO_USER_RESPONSE", "NO_ANSWER", "SUBSCRIBER_ABSENT"] then
    (480, "Temporarily Unavailable")
  else if c = "CALL_REJECTED" then (603, "Decline")
  else if c ∈ ["NUMBER_CHANGED", "REDIRECTION_TO_NEW_DESTINATION"] then (410, "Gone")
  else if c = "INVALID_NUMBER_FORMAT" then (484, "Address Incomplete")
  else if c ∈ ["NORMAL_CIRCUIT_CONGESTION", "SWITCH_CONGESTION", "NETWORK_OUT_OF_ORDER",
      "NORMAL_TEMPORARY_FAILURE", "REQUESTED_CHAN_UNAVAIL", "GATEWAY_DOWN", "SERVICE_UNAVAILABLE",
      "DESTINATION_OUT_OF_ORDER", "INVALID_GATEWAY"] then
    (503, "Service Unavailable")
  else if c ∈ ["RECOVERY_ON_TIMER_EXPIRE", "PROGRESS_TIMEOUT", "ALLOTTED_TIMEOUT"] then
    (504, "Server Time-out")
  else if c ∈ ["INCOMPATIBLE_DESTINATION", "BEARERCAPABILITY_NOTAUTH", "BEARERCAPABILITY_NOTAVAIL",
      "BEARERCAPABILITY_NOTIMPL"] then
    (488, "Not Acceptable Here")
  else if c ∈ ["MANDATORY_IE_MISSING", "INVALID_IE_CONTENTS", "PROTOCOL_ERROR",
      "INTERWORKING"] then
    (500, "Server Internal Error")
  else if c ∈ ["FACILITY_REJECTED", "FACILITY_NOT_IMPLEMENTED", "SERVICE_NOT_IMPLEMENTED"] then
    (501, "Not Implemented")
  else if c = "EXCHANGE_ROUTING_ERROR" then (483, "Too Many Hops")
  else if c = "ORIGINATOR_CANCEL" then (487, "Request Terminated")
  else if c = "NORMAL_CLEARING" then (480, "Temporarily Unavailable")
  else (503, "Service Unavailable")

def phrases : List (ℤ × String) :=
  [(400, "Bad Request"), (401, "Unauthorized"), (402, "Payment Required"), (403, "Forbidden"),
    (404, "Not Found"), (405, "Method Not Allowed"), (406, "Not Acceptable"),
    (407, "Proxy Authentication Required"), (408, "Request Timeout"), (410, "Gone"),
    (413, "Request Entity Too Large"), (415, "Unsupported Media Type"),
    (416, "Unsupported URI Scheme"), (420, "Bad Extension"), (421, "Extension Required"),
    (423, "Interval Too Brief"), (480, "Temporarily Unavailable"),
    (481, "Call/Transaction Does Not Exist"), (482, "Loop Detected"), (483, "Too Many Hops"),
    (484, "Address Incomplete"), (485, "Ambiguous"), (486, "Busy Here"),
    (487, "Request Terminated"), (488, "Not Acceptable Here"), (491, "Request Pending"),
    (493, "Undecipherable"), (500, "Server Internal Error"), (501, "Not Implemented"),
    (502, "Bad Gateway"), (503, "Service Unavailable"), (504, "Server Time-out"),
    (505, "Version Not Supported"), (513, "Message Too Large"), (580, "Precondition Failure"),
    (600, "Busy Everywhere"), (603, "Decline"), (604, "Does Not Exist Anywhere"),
    (606, "Not Acceptable")]

def reasonPhrase (code : ℤ) : String :=
  match phrases.lookup code with
  | some phrase => phrase
  | none =>
    if 500 ≤ code ∧ code < 600 then "Server Error"
    else if 600 ≤ code then "Global Failure"
    else if 400 ≤ code then "Client Error"
    else "Unknown"

end SuperSbc.CallControl
