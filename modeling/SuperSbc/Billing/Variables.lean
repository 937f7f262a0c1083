import SuperSbc.Billing.Bill
import SuperSbc.Text.Fold
import SuperSbc.Text.Split

/-!
A hangup built from the variables of a finished channel. The event socket
delivers them as texts. The JSON document of `mod_json_cdr` is decoded first,
which turns a JSON number into a `float64`, and that is printed back to a text
before the same parser reads it.

Printing and parsing `float64` is Go's, not this repository's: `FloatText`
says what of it matters here.
-/

namespace SuperSbc.Billing

open Text

/-- Channel variables by name. -/
abbrev Variables := List (String × String)

/-- `v[name]`. -/
def valueOf (v : Variables) (name : String) : String := (v.lookup name).getD ""

/-- `v[name] = value`. -/
def setValue (v : Variables) (name value : String) : Variables :=
  (name, value) :: v.filter (fun entry => entry.1 ≠ name)

/-- A value of the RTP statistics, a number when the text is one. -/
inductive Stat (Value : Type) where
  | number (x : Value)
  | text (s : String)

/-- What follows one or more digits. -/
def afterDigits : List Char → Option (List Char)
  | [] => none
  | c :: rest => if c.isDigit then some (rest.dropWhile Char.isDigit) else none

def afterInt : List Char → Option (List Char)
  | [] => none
  | c :: rest => if c = '0' then some rest else afterDigits (c :: rest)

def afterFraction : List Char → Option (List Char)
  | [] => some []
  | c :: rest => if c = '.' then afterDigits rest else some (c :: rest)

def afterExponent : List Char → Option (List Char)
  | [] => some []
  | c :: rest =>
    if c = 'e' ∨ c = 'E' then
      afterDigits (if rest.head? = some '+' ∨ rest.head? = some '-' then rest.tail else rest)
    else some (c :: rest)

/-- The grammar of JSON numbers. -/
def isNumber (s : String) : Bool :=
  let digits := if s.toList.head? = some '-' then s.toList.tail else s.toList
  (((afterInt digits).bind afterFraction).bind afterExponent) == some []

/-- Decimal digits that do not start with zero. -/
def isNumeral (s : String) : Bool :=
  s.toList.all Char.isDigit && s.toList != [] && s.toList.head? != some '0'

def numberChars : List Char := "0123456789+-.eE".toList

/-- What a hangup depends on of Go's `float64`: `strconv.ParseFloat`,
`fmt.Sprint` and `json.Marshal` of the statistics. `fmt.Sprint` writes the
shortest digits that are read back, with an exponent once there are more than six
in front of the point. So it writes an integer only for a whole number below a
million. -/
structure FloatText where
  Value : Type
  parseFloat : String → Option Value
  sprint : Value → String
  marshal : List (String × Stat Value) → String
  /-- A whole number below a million. -/
  whole : Value → Option ℤ
  sprint_short : ∀ s x, isNumeral s = true → s.toList.length ≤ 6 → parseFloat s = some x →
    sprint x = s
  whole_large : ∀ s x, isNumeral s = true → 7 ≤ s.toList.length → parseFloat s = some x →
    whole x = none
  readInt_sprint : ∀ s x, isNumber s = true → parseFloat s = some x →
    readInt (trimSpace (sprint x).toList) = whole x
  length_sprint : ∀ s x, isNumber s = true → parseFloat s = some x →
    (sprint x).toList.length ≤ 24
  chars_sprint : ∀ s x, isNumber s = true → parseFloat s = some x →
    ∀ c ∈ (sprint x).toList, c ∈ numberChars
  parseFloat_sprint : ∀ s x, isNumber s = true → parseFloat s = some x →
    parseFloat (sprint x) = some x

section Printed

def fractionText (digits : List Char) : List Char :=
  let kept := (digits.reverse.dropWhile (· == '0')).reverse
  if kept = [] then [] else '.' :: kept

/-- `%e` of a whole number, from its digits. -/
def exponentText : List Char → List Char
  | [] => []
  | first :: rest =>
    let exponent := Nat.toDigits 10 rest.length
    first :: (fractionText (rest.take 16) ++
      'e' :: '+' :: if exponent.length = 1 then '0' :: exponent else exponent)

/-- What is printed for a text: whole numbers as Go prints them, of other texts
those that need not be changed. -/
def printedText (s : String) : Option String :=
  let large := isNumeral s && 7 ≤ s.toList.length
  let t := if large then String.ofList (exponentText s.toList) else s
  if t.toList.length ≤ 24 ∧ t.toList.all (· ∈ numberChars) ∧ (large → 'e' ∈ t.toList) then some t
  else none

theorem printedText_spec {s t : String} (h : printedText s = some t) :
    t.toList.length ≤ 24 ∧ (∀ c ∈ t.toList, c ∈ numberChars) ∧ printedText t = some t ∧
      ((isNumeral s && 7 ≤ s.toList.length) = true → 'e' ∈ t.toList) ∧
      ((isNumeral s && 7 ≤ s.toList.length) = false → t = s) := by
  have hplain {t : String} (hsmall : (isNumeral t && 7 ≤ t.toList.length) = false)
      (hshort : t.toList.length ≤ 24) (hchars : ∀ c ∈ t.toList, c ∈ numberChars) :
      printedText t = some t := by
    unfold printedText
    rw [hsmall]
    exact if_pos ⟨hshort, by simpa using hchars, by simp⟩
  have hall {t : String} (h : t.toList.all (· ∈ numberChars)) : ∀ c ∈ t.toList, c ∈ numberChars :=
    fun c hc => of_decide_eq_true (List.all_eq_true.mp h c hc)
  have hletter {t : String} (he : 'e' ∈ t.toList) : isNumeral t = false := by
    rw [isNumeral, List.all_eq_false.mpr ⟨'e', he, by decide⟩]
    rfl
  unfold printedText at h
  dsimp only at h
  split_ifs at h with hlarge hcheck hcheck
  · obtain rfl := Option.some.inj h
    have he := hcheck.2.2 hlarge
    have hchars := hall hcheck.2.1
    refine ⟨hcheck.1, hchars, hplain (by simp [hletter he]) hcheck.1 hchars, fun _ => he,
      fun hsmall => ?_⟩
    rw [hsmall] at hlarge
    cases hlarge
  · obtain rfl := Option.some.inj h
    have hchars := hall hcheck.2.1
    have hsmall := Bool.eq_false_iff.mpr hlarge
    exact ⟨hcheck.1, hchars, hplain hsmall hcheck.1 hchars, hcheck.2.2, fun _ => rfl⟩

/-- Numbers kept as the text they print to: a model of `FloatText` that prints
whole numbers as Go does. -/
def printedFloats : FloatText where
  Value := String
  parseFloat := printedText
  sprint := id
  marshal _ := ""
  whole t := readInt (trimSpace t.toList)
  sprint_short s x _ hshort hx := (printedText_spec hx).2.2.2.2 (by simp; omega)
  whole_large s x hnumeral hlarge hx := by
    have he := (printedText_spec hx).2.2.2.1 (by simp [hnumeral, hlarge])
    exact readInt_exponent (mem_trimSpace he (by decide))
  readInt_sprint _ _ _ _ := rfl
  length_sprint _ _ _ hx := (printedText_spec hx).1
  chars_sprint _ _ _ hx := (printedText_spec hx).2.1
  parseFloat_sprint _ _ _ hx := (printedText_spec hx).2.2.1

end Printed

/-- Microseconds, or else seconds, since the epoch. -/
def uepoch (micro sec : String) : Option Time :=
  match (parseInt micro).filter (fun u => 0 < u) with
  | some u => some (u * 1000)
  | none => ((parseInt sec).filter (fun s => 0 < s)).map (fun s => s * 1000000000)

def endTimeOf (v : Variables) : Option Time :=
  uepoch (valueOf v "end_uepoch") (valueOf v "end_epoch")

def answerTimeOf (v : Variables) : Option Time :=
  uepoch (valueOf v "answer_uepoch") (valueOf v "answer_epoch")

/-- The talk time: none without an answer, from the clock when the switch
reports none. -/
def talkSeconds (answer : Option Time) (ended : Time) (reported : ℤ) : ℤ :=
  match answer with
  | none => 0
  | some answered => if reported = 0 then toSeconds (ended - answered) else reported

/-- The status the customer saw: what Lua decided, else what sofia recorded. -/
def statusOf (decided : ℤ) (reason recorded : String) (last : ℤ) : ℤ × String :=
  if 0 < decided then (decided, reason)
  else if hasPrefix "sip:" recorded then (atoi (dropFront "sip:" recorded), "")
  else if 0 < last then (last, "")
  else (0, "")

def sipStatus (v : Variables) : ℤ × String :=
  statusOf (atoi (valueOf v "sbc_final_sip_code")) (valueOf v "sbc_final_reason")
    (valueOf v "proto_specific_hangup_cause") (atoi (valueOf v "sip_term_status"))

/-- An answered call without a failure status ended with 200. -/
def finalStatus (answered : Bool) (status : ℤ × String) : ℤ × String :=
  if answered && (status.1 == 0 || status.1 == 200) then (200, "OK") else status

def answeredCarrier (v : Variables) : Option UUID :=
  if valueOf v "sbc_answered" = "true" then parseUUID (valueOf v "sbc_carrier_id") else none

def channelMedia (v : Variables) : String :=
  if valueOf v "bypass_media" = "true" then "bypass"
  else if valueOf v "proxy_media" = "true" then "proxy"
  else ""

def statOf (fmt : FloatText) (s : String) : Stat fmt.Value :=
  match fmt.parseFloat s with
  | some x => .number x
  | none => .text s

def rtpVariables (v : Variables) : Variables :=
  v.filter (fun entry => hasPrefix "rtp_audio_" entry.1)

def rtpStatsOf (fmt : FloatText) (v : Variables) : Option String :=
  if rtpVariables v = [] then none
  else some (fmt.marshal ((rtpVariables v).map (fun entry => (entry.1, statOf fmt entry.2))))

/-- A hangup with the start time, which billing does not read. -/
structure Report where
  startTime : Option Time
  info : HangupInfo

/-- The hangup of a call from the variables of its channel. -/
def reportOf (fmt : FloatText) (now : Time) (v : Variables) (source : Source)
    (callUUID : UUID) : Report :=
  let ended := (endTimeOf v).getD now
  let answer := answerTimeOf v
  let status := finalStatus answer.isSome (sipStatus v)
  let cause := valueOf v "hangup_cause"
  { startTime := uepoch (valueOf v "start_uepoch") (valueOf v "start_epoch")
    info :=
      { callUUID := callUUID
        progressTime := uepoch (valueOf v "progress_uepoch") (valueOf v "progress_epoch")
        answerTime := answer
        endTime := ended
        billsec := talkSeconds answer ended (atoi (valueOf v "billsec"))
        duration := atoi (valueOf v "duration")
        hangupCause := if cause = "" then valueOf v "Hangup-Cause" else cause
        sipCode := status.1
        sipReason := status.2
        answeredCarrierId := answeredCarrier v
        codecIn := valueOf v "read_codec"
        rtpStats := rtpStatsOf fmt v
        rejectReason := valueOf v "sbc_reject_reason"
        source := source
        srtp := valueOf v "rtp_secure_media_confirmed_audio" == "true"
        mediaMode := channelMedia v } }

/-- `none` stands for a channel without a usable id. -/
def fromVariables (fmt : FloatText) (now : Time) (v : Variables) (source : Source) :
    Option Report :=
  (parseUUID (valueOf v "uuid")).map (reportOf fmt now v source)

/-- A decoded event of the event socket. -/
structure Event where
  name : String
  headers : Variables

def Event.get (ev : Event) (header : String) : String := valueOf ev.headers header

def strippedVariable (header : String × String) : Option (String × String) :=
  if hasPrefix "variable_" header.1 then some (dropFront "variable_" header.1, header.2) else none

/-- The variables of an event, with the id and, where it is missing, the cause
from the event's own headers. -/
def eslVariables (ev : Event) : Variables :=
  let vars := setValue (ev.headers.filterMap strippedVariable) "uuid" (ev.get "Unique-ID")
  if valueOf vars "hangup_cause" = "" then setValue vars "hangup_cause" (ev.get "Hangup-Cause")
  else vars

/-- The hangup an event is billed with: only the customer's leg is billed. -/
def onESLEvent (fmt : FloatText) (now : Time) (ev : Event) : Option Report :=
  if ev.name = "CHANNEL_HANGUP_COMPLETE" ∧ ev.get "Call-Direction" = "inbound" ∧
      ev.get "variable_sofia_profile_name" = "external-ingress" then
    fromVariables fmt now (eslVariables ev) .esl
  else none

/-- A scalar of a JSON document; a number as it is written there. -/
inductive Scalar where
  | text (s : String)
  | number (literal : String)
  | bool (b : Bool)
  | null
deriving DecidableEq

abbrev Document := List (String × Scalar)

/-- Decoded and printed back. A number out of the range of `float64` is a
decoding error. -/
def Scalar.print (fmt : FloatText) : Scalar → Option String
  | .text s => some s
  | .number literal => (fmt.parseFloat literal).map fmt.sprint
  | .bool b => some (if b then "true" else "false")
  | .null => some "<nil>"

def jsonVariables (fmt : FloatText) : Document → Option Variables
  | [] => some []
  | (name, x) :: rest =>
    (x.print fmt).bind (fun s => (jsonVariables fmt rest).map (fun vars => (name, s) :: vars))

inductive CdrReply where
  | badRequest
  | ignored
  | bill (r : Report)

/-- The hangup a document is billed with. -/
def CdrReply.report : CdrReply → Option Report
  | .bill r => some r
  | _ => none

/-- The receiver of `mod_json_cdr`. -/
def cdr (u : CaseTable) (fmt : FloatText) (now : Time) (doc : Document) : CdrReply :=
  match jsonVariables fmt doc with
  | none => .badRequest
  | some vars =>
    if u.equalFold (valueOf vars "direction") "outbound" then .ignored
    else
      match fromVariables fmt now vars .jsonCDR with
      | none => .badRequest
      | some r => .bill r

section Lookup

variable {v w : Variables} {name other : String}

@[simp] theorem valueOf_cons_self (name value : String) (v : Variables) :
    valueOf ((name, value) :: v) name = value := by
  simp [valueOf]

theorem valueOf_cons_of_ne {value : String} (h : name ≠ other) :
    valueOf ((other, value) :: v) name = valueOf v name := by
  unfold valueOf
  rw [List.lookup_cons, beq_false_of_ne h]

@[simp] theorem valueOf_setValue_self (v : Variables) (name value : String) :
    valueOf (setValue v name value) name = value :=
  valueOf_cons_self name value _

theorem valueOf_setValue_of_ne {value : String} (h : name ≠ other) :
    valueOf (setValue v other value) name = valueOf v name := by
  rw [setValue, valueOf_cons_of_ne h]
  induction v with
  | nil => rfl
  | cons entry rest ih =>
    obtain ⟨key, found⟩ := entry
    by_cases hkey : key = other
    · subst hkey
      rw [List.filter_cons_of_neg (by simp), ih, valueOf_cons_of_ne h]
    · rw [List.filter_cons_of_pos (by simpa using hkey)]
      by_cases hname : name = key
      · subst hname
        simp
      · rw [valueOf_cons_of_ne hname, valueOf_cons_of_ne hname, ih]

theorem valueOf_setValue_same (h : ∀ name, valueOf v name = valueOf w name) (other name : String) :
    valueOf (setValue v other (valueOf w other)) name = valueOf w name := by
  by_cases hname : name = other
  · subst hname
    exact valueOf_setValue_self _ _ _
  · rw [valueOf_setValue_of_ne hname, h]

theorem rtpVariables_setValue {value : String} (h : hasPrefix "rtp_audio_" name = false) :
    rtpVariables (setValue v name value) = rtpVariables v := by
  unfold rtpVariables setValue
  rw [List.filter_cons_of_neg (by simp [h]), List.filter_filter]
  refine List.filter_congr (fun entry _ => ?_)
  by_cases hentry : entry.1 = name
  · simp [hentry, h]
  · simp [hentry]

/-- A hangup depends on the values of the variables and on the statistics. -/
theorem fromVariables_congr {fmt : FloatText} {now : Time} {source : Source}
    (hvalues : ∀ name, valueOf v name = valueOf w name) (hrtp : rtpVariables v = rtpVariables w) :
    fromVariables fmt now v source = fromVariables fmt now w source := by
  have hreport : reportOf fmt now v source = reportOf fmt now w source := by
    funext callUUID
    simp only [reportOf, endTimeOf, answerTimeOf, sipStatus, answeredCarrier, channelMedia,
      rtpStatsOf, hvalues, hrtp]
  rw [fromVariables, hvalues, hreport, fromVariables]

end Lookup

end SuperSbc.Billing
