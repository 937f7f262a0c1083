import SuperSbc.Model
import SuperSbc.Text.Case

/-!
What a hangup says about a call and how it is written on the call's record:
times, post dial delay, causes, codecs, disposition. No money here.
-/

namespace SuperSbc.Billing

open Rating

inductive Source where
  | esl
  | jsonCDR
  | reconcile
deriving DecidableEq

/-- The part of a hangup that billing reads. -/
structure HangupInfo where
  callUUID : UUID
  progressTime : Option Time := none
  answerTime : Option Time := none
  endTime : Time
  billsec : ℤ := 0
  duration : ℤ := 0
  hangupCause : String
  sipCode : ℤ := 0
  sipReason : String := ""
  answeredCarrierId : Option UUID := none
  codecIn : String := ""
  rtpStats : Option String := none
  rejectReason : String := ""
  source : Source
  srtp : Bool := false
  mediaMode : String := ""

def disposition (answered : Bool) (cause : String) (sipCode : ℤ) : Disposition :=
  if answered then .answered
  else
    let c := cause.toUpper
    if c = "ORIGINATOR_CANCEL" ∨ sipCode = 487 then .cancelled
    else if c = "USER_BUSY" ∨ sipCode = 486 ∨ sipCode = 600 then .busy
    else if c = "NO_ANSWER" ∨ c = "NO_USER_RESPONSE" ∨ sipCode = 480 ∨ sipCode = 408 then
      .noAnswer
    else .failed

/-- The first of two optional times that satisfies a test. -/
def firstTime (progress answer : Option Time) (accept : Time → Bool) : Option Time :=
  progress.filter accept <|> answer.filter accept

/-- A time belongs to an attempt up to one second after the attempt ended. -/
def fillPDD (progress answer : Option Time) (a : AttemptRecord) : AttemptRecord :=
  match a.pddMs, a.endedAt with
  | none, some ended =>
    match firstTime progress answer
        (fun t => a.startedAt ≤ t && t ≤ ended + 1000000000) with
    | some t => { a with pddMs := some (max (toMilliseconds (t - a.startedAt)) 0) }
    | none => a
  | _, _ => a

def fillAttemptPDD (attempts : List AttemptRecord) (progress answer : Option Time) :
    List AttemptRecord :=
  attempts.map (fillPDD progress answer)

/-- The answering attempt's delay, else that of the last attempt that has
one, else the customer's own. -/
def callPDD (attempts : List AttemptRecord) (start : Time) (progress answer : Option Time) :
    Option ℤ :=
  let answered := attempts.reverse.find?
    (fun a => a.classification == .answered && a.pddMs.isSome)
  let timed := attempts.reverse.find? (fun a => a.pddMs.isSome)
  let perceived := (firstTime progress answer (fun t => start < t)).map
    (fun t => toMilliseconds (t - start))
  answered.bind (·.pddMs) <|> timed.bind (·.pddMs) <|> perceived

def ringSeconds (h : HangupInfo) (start : Time) (progress : Option Time) (old : ℤ) : ℤ :=
  match h.answerTime, progress with
  | some answered, some ringing => toSeconds (answered - ringing)
  | some answered, none => toSeconds (answered - start)
  | none, some ringing => toSeconds (h.endTime - ringing)
  | none, none => old

/-- The media mode from the two codecs, whose names are ASCII, overruled by an
explicit one. -/
def mediaMode (h : HangupInfo) (codecIn codecOut old : Option String) : Option String :=
  if h.mediaMode ≠ "" then some h.mediaMode
  else
    match codecIn, codecOut with
    | some ingress, some egress =>
      some (if Text.equalFoldAscii ingress egress then "relay" else "transcode")
    | _, _ => old

/-- The record with everything a hangup says except money. Billing stamps
`billed_at` here. -/
def withHangup (node : String) (now : Time) (h : HangupInfo) (c : CDR) : CDR :=
  let progressTime := h.progressTime <|> c.progressTime
  let answerTime := h.answerTime <|> c.answerTime
  let attempts := fillAttemptPDD c.attempts progressTime answerTime
  let codecIn := if h.codecIn = "" then c.codecIn else some h.codecIn
  { c with
    endTime := some h.endTime
    progressTime := progressTime
    answerTime := answerTime
    billsec := if h.billsec < 0 then 0 else h.billsec
    duration := if h.duration = 0 then toSeconds (h.endTime - c.startTime) else h.duration
    ringSeconds := ringSeconds h c.startTime progressTime c.ringSeconds
    attempts := attempts
    pddMs := c.pddMs <|> callPDD attempts c.startTime progressTime answerTime
    hangupCause := some h.hangupCause
    sipFinalCode := if 0 < h.sipCode then some h.sipCode else c.sipFinalCode
    sipFinalReason := if 0 < h.sipCode then some h.sipReason else c.sipFinalReason
    rejectReason :=
      if h.rejectReason ≠ "" ∧ c.rejectReason = none then some h.rejectReason
      else c.rejectReason
    codecIn := codecIn
    rtpStats := h.rtpStats <|> c.rtpStats
    mediaMode := mediaMode h codecIn c.codecOut c.mediaMode
    srtpIn := h.srtp || c.srtpIn
    disposition := disposition h.answerTime.isSome h.hangupCause h.sipCode
    sbcNode := some node
    billedAt := some now
    billedBy := some node }

end SuperSbc.Billing
