import SuperSbc.Billing.Variables

/-!
The two deliveries of a hangup compared: the event and the JSON document of
the same channel. They agree when the document writes its variables as texts.
A whole number of seven or more digits, such as an epoch in seconds or
microseconds, comes back from `float64` with an exponent and is read as no
number at all.
-/

namespace SuperSbc.Billing

open ReadCommitted Text

/-- A finished channel of a customer. -/
structure IngressChannel where
  vars : Variables
  profile : valueOf vars "sofia_profile_name" = "external-ingress"
  direction : valueOf vars "direction" = "inbound"
  ended : (endTimeOf vars).isSome

def channelEvent (v : Variables) : Event where
  name := "CHANNEL_HANGUP_COMPLETE"
  headers := [("Call-Direction", "inbound"), ("Unique-ID", valueOf v "uuid"),
    ("Hangup-Cause", valueOf v "hangup_cause")] ++
      v.map (fun entry => ("variable_" ++ entry.1, entry.2))

/-- A variable as a number where the document has numbers and its text is
one. -/
def scalarOf (asNumber : String → Bool) (name value : String) : Scalar :=
  if asNumber name && isNumber value then .number value else .text value

def document (asNumber : String → Bool) (v : Variables) : Document :=
  v.map (fun entry => (entry.1, scalarOf asNumber entry.1 entry.2))

def Report.unsourced (r : Report) : Report := { r with info := { r.info with source := .esl } }

/-- Two hangups that are the same but for their source, or both missing. -/
def Alike (left right : Option Report) : Prop :=
  left.map Report.unsourced = right.map Report.unsourced

/-- What a scalar says where an integer is read: a number counts if it is whole
and below a million, and is missing otherwise. -/
def Scalar.said (fmt : FloatText) : Scalar → String
  | .number s => (((fmt.parseFloat s).bind fmt.whole).map toString).getD ""
  | .text s => s
  | _ => ""

section Harmless

variable (fmt : FloatText) (asNumber : String → Bool) (v : Variables)

def scalarAt (name : String) : Scalar := scalarOf asNumber name (valueOf v name)

def saidAt (name : String) : String := (scalarAt asNumber v name).said fmt

/-- The numbers of a document do no harm: none is out of range, none is an id, none
stands for a text that it does not print as, and the times and counters that are
read from it are those of the channel. -/
structure Harmless : Prop where
  ranged : ∀ entry ∈ v, ((scalarOf asNumber entry.1 entry.2).print fmt).isSome
  uuid : scalarAt asNumber v "uuid" = .text (valueOf v "uuid")
  carrier : valueOf v "sbc_answered" = "true" →
    scalarAt asNumber v "sbc_carrier_id" = .text (valueOf v "sbc_carrier_id") ∨
      parseUUID (valueOf v "sbc_carrier_id") = none
  start : uepoch (saidAt fmt asNumber v "start_uepoch") (saidAt fmt asNumber v "start_epoch") =
    uepoch (valueOf v "start_uepoch") (valueOf v "start_epoch")
  progress : uepoch (saidAt fmt asNumber v "progress_uepoch")
      (saidAt fmt asNumber v "progress_epoch") =
    uepoch (valueOf v "progress_uepoch") (valueOf v "progress_epoch")
  answer : uepoch (saidAt fmt asNumber v "answer_uepoch") (saidAt fmt asNumber v "answer_epoch") =
    answerTimeOf v
  ended : uepoch (saidAt fmt asNumber v "end_uepoch") (saidAt fmt asNumber v "end_epoch") =
    endTimeOf v
  talk : ∀ t ∈ endTimeOf v,
    talkSeconds (answerTimeOf v) t (atoi (saidAt fmt asNumber v "billsec")) =
    talkSeconds (answerTimeOf v) t (atoi (valueOf v "billsec"))
  duration : atoi (saidAt fmt asNumber v "duration") = atoi (valueOf v "duration")
  status : ∀ reason ∈ (scalarAt asNumber v "sbc_final_reason").print fmt,
    finalStatus (answerTimeOf v).isSome
      (statusOf (atoi (saidAt fmt asNumber v "sbc_final_sip_code")) reason
        (valueOf v "proto_specific_hangup_cause") (atoi (saidAt fmt asNumber v "sip_term_status"))) =
      finalStatus (answerTimeOf v).isSome (sipStatus v)
  cause : ∀ cause ∈ (scalarAt asNumber v "hangup_cause").print fmt,
    ∀ header ∈ (scalarAt asNumber v "Hangup-Cause").print fmt,
      (if cause = "" then header else cause) =
        if valueOf v "hangup_cause" = "" then valueOf v "Hangup-Cause" else valueOf v "hangup_cause"
  codec : (scalarAt asNumber v "read_codec").print fmt = some (valueOf v "read_codec")
  rejection : (scalarAt asNumber v "sbc_reject_reason").print fmt =
    some (valueOf v "sbc_reject_reason")

end Harmless

section Event

variable {fmt : FloatText} {v : Variables}

theorem eslVariables_channelEvent (v : Variables) :
    (∀ name, valueOf (eslVariables (channelEvent v)) name = valueOf v name) ∧
      rtpVariables (eslVariables (channelEvent v)) = rtpVariables v := by
  have hstripped : (channelEvent v).headers.filterMap strippedVariable = v := by
    have hvariables : (v.map (fun entry => ("variable_" ++ entry.1, entry.2))).filterMap
        strippedVariable = v := by
      induction v with
      | nil => rfl
      | cons entry rest ih => simp [strippedVariable, hasPrefix_append, dropFront_append, ih]
    have hheaders : [("Call-Direction", "inbound"), ("Unique-ID", valueOf v "uuid"),
        ("Hangup-Cause", valueOf v "hangup_cause")].filterMap strippedVariable = [] := by
      have hplain : ∀ header value, hasPrefix "variable_" header = false →
          strippedVariable (header, value) = none := fun header value h => if_neg (by simp [h])
      simp only [List.filterMap_cons, List.filterMap_nil]
      rw [hplain _ _ (by decide +kernel), hplain _ _ (by decide +kernel),
        hplain _ _ (by decide +kernel)]
    rw [channelEvent, List.filterMap_append, hheaders, hvariables, List.nil_append]
  have hid : (channelEvent v).get "Unique-ID" = valueOf v "uuid" := rfl
  have hcause : (channelEvent v).get "Hangup-Cause" = valueOf v "hangup_cause" := rfl
  have hvalues := valueOf_setValue_same (fun name => rfl (a := valueOf v name)) "uuid"
  unfold eslVariables
  rw [hstripped, hid, hcause]
  dsimp only
  split_ifs with hempty
  · refine ⟨valueOf_setValue_same hvalues "hangup_cause", ?_⟩
    rw [rtpVariables_setValue (by decide +kernel), rtpVariables_setValue (by decide +kernel)]
  · exact ⟨hvalues, rtpVariables_setValue (by decide +kernel)⟩

theorem get_channelEvent (v : Variables) :
    (channelEvent v).get "variable_sofia_profile_name" = valueOf v "sofia_profile_name" := by
  have hname : "variable_sofia_profile_name" = "variable_" ++ "sofia_profile_name" := rfl
  change valueOf (v.map (fun entry => ("variable_" ++ entry.1, entry.2))) _ = _
  rw [hname]
  induction v with
  | nil => rfl
  | cons entry rest ih =>
    rw [List.map_cons]
    by_cases hentry : entry.1 = "sofia_profile_name"
    · rw [← hentry, valueOf_cons_self, valueOf_cons_self]
    · rw [valueOf_cons_of_ne (Ne.symm hentry), ← ih]
      exact valueOf_cons_of_ne (fun h => hentry ((String.append_right_inj _).mp h).symm)

theorem onESLEvent_channelEvent (now : Time) (c : IngressChannel) :
    onESLEvent fmt now (channelEvent c.vars) = fromVariables fmt now c.vars .esl := by
  rw [onESLEvent, if_pos ⟨rfl, rfl, (get_channelEvent _).trans c.profile⟩]
  exact fromVariables_congr (eslVariables_channelEvent _).1 (eslVariables_channelEvent _).2

end Event

section Document

variable {fmt : FloatText} {asNumber : String → Bool} {v w : Variables} {name s t : String}

/-- A scalar of the document is printed as its text, or it is a number. -/
theorem print_scalarOf (h : (scalarOf asNumber name t).print fmt = some s) :
    (scalarOf asNumber name t = .text t ∧ s = t) ∨
      (scalarOf asNumber name t = .number t ∧ isNumber t = true ∧
        ∃ x, fmt.parseFloat t = some x ∧ s = fmt.sprint x) := by
  unfold scalarOf at h ⊢
  split_ifs at h ⊢ with hnumber
  · obtain ⟨x, hx, hs⟩ := Option.map_eq_some_iff.mp h
    exact .inr ⟨rfl, (Bool.and_eq_true_iff.mp hnumber).2, x, hx, hs.symm⟩
  · exact .inl ⟨rfl, (Option.some.inj h).symm⟩

/-- Where an integer is read, the printed text is what the scalar says. -/
theorem readInt_print (h : (scalarOf asNumber name t).print fmt = some s) :
    readInt (trimSpace s.toList) =
      readInt (trimSpace ((scalarOf asNumber name t).said fmt).toList) := by
  rcases print_scalarOf h with ⟨hscalar, rfl⟩ | ⟨hscalar, hnumber, x, hx, rfl⟩
  · rw [hscalar, Scalar.said]
  · rw [hscalar, Scalar.said, hx, Option.bind_some, fmt.readInt_sprint t x hnumber hx]
    cases fmt.whole x with
    | none => rfl
    | some n => exact (readInt_toString n).symm

theorem parseUUID_print (h : (scalarOf asNumber name t).print fmt = some s) :
    parseUUID s = parseUUID t ↔ scalarOf asNumber name t = .text t ∨ parseUUID t = none := by
  rcases print_scalarOf h with ⟨hscalar, rfl⟩ | ⟨hscalar, hnumber, x, hx, rfl⟩
  · exact iff_of_true rfl (.inl hscalar)
  · have hlength := fmt.length_sprint t x hnumber hx
    rw [parseUUID_short (by omega), hscalar]
    simp [eq_comm]

/-- No number reads `true`. -/
theorem true_print (h : (scalarOf asNumber name t).print fmt = some s) :
    s = "true" ↔ t = "true" := by
  rcases print_scalarOf h with ⟨-, rfl⟩ | ⟨-, hnumber, x, hx, rfl⟩
  · rfl
  · refine iff_of_false (fun htrue => ?_) (fun htrue => ?_)
    · have hchars := fmt.chars_sprint t x hnumber hx
      rw [htrue] at hchars
      exact absurd (hchars 't' (by decide)) (by decide)
    · rw [htrue] at hnumber
      revert hnumber
      decide +kernel

theorem statusOf_print {reason : String} {decided last : ℤ}
    (h : (scalarOf asNumber name t).print fmt = some s) :
    statusOf decided reason s last = statusOf decided reason t last := by
  rcases print_scalarOf h with ⟨-, rfl⟩ | ⟨-, hnumber, x, hx, rfl⟩
  · rfl
  · have hprinted : hasPrefix "sip:" (fmt.sprint x) = false := by
      refine Bool.eq_false_iff.mpr (fun hsip => ?_)
      have hmem := (List.isPrefixOf_iff_prefix.mp hsip).subset (show 's' ∈ "sip:".toList by decide)
      exact absurd (fmt.chars_sprint t x hnumber hx 's' hmem) (by decide)
    have htext : hasPrefix "sip:" t = false := by
      refine Bool.eq_false_iff.mpr (fun hsip => ?_)
      obtain ⟨rest, hrest⟩ := List.isPrefixOf_iff_prefix.mp hsip
      rw [isNumber, ← hrest] at hnumber
      revert hnumber
      simp [afterInt, afterDigits]
    simp [statusOf, hprinted, htext]

theorem statOf_print (h : (scalarOf asNumber name t).print fmt = some s) :
    statOf fmt s = statOf fmt t := by
  rcases print_scalarOf h with ⟨-, rfl⟩ | ⟨-, hnumber, x, hx, rfl⟩
  · rfl
  · rw [statOf, statOf, fmt.parseFloat_sprint t x hnumber hx, hx]

/-- What the receiver reads from the document. -/
structure PrintedFrom (fmt : FloatText) (asNumber : String → Bool) (v w : Variables) : Prop where
  values : ∀ name, (scalarAt asNumber v name).print fmt = some (valueOf w name)
  stats : rtpStatsOf fmt w = rtpStatsOf fmt v

theorem printedFrom_of_jsonVariables (h : jsonVariables fmt (document asNumber v) = some w) :
    PrintedFrom fmt asNumber v w := by
  have hall : (∀ name, (scalarAt asNumber v name).print fmt = some (valueOf w name)) ∧
      (rtpVariables w).map (fun entry => (entry.1, statOf fmt entry.2)) =
        (rtpVariables v).map (fun entry => (entry.1, statOf fmt entry.2)) := by
    induction v generalizing w with
    | nil =>
      cases h
      refine ⟨fun name => ?_, rfl⟩
      have hempty : isNumber "" = false := by decide +kernel
      simp [scalarAt, scalarOf, valueOf, hempty, Scalar.print]
    | cons entry rest ih =>
      obtain ⟨s, hs, hrest⟩ := Option.bind_eq_some_iff.mp h
      obtain ⟨vars, hvars, rfl⟩ := Option.map_eq_some_iff.mp hrest
      obtain ⟨hvalues, hstats⟩ := ih hvars
      refine ⟨fun name => ?_, ?_⟩
      · by_cases hname : name = entry.1
        · rw [hname, scalarAt, valueOf_cons_self, valueOf_cons_self]
          exact hs
        · rw [scalarAt, valueOf_cons_of_ne hname, valueOf_cons_of_ne hname]
          exact hvalues name
      · unfold rtpVariables at hstats ⊢
        by_cases hrtp : hasPrefix "rtp_audio_" entry.1 = true
        · simp [hrtp, hstats, statOf_print hs]
        · simp [hrtp, hstats]
  refine ⟨hall.1, ?_⟩
  unfold rtpStatsOf
  simp only [← List.map_eq_nil_iff (f := fun entry : String × String =>
    (entry.1, statOf fmt entry.2)), hall.2]

theorem jsonVariables_isSome : (jsonVariables fmt (document asNumber v)).isSome ↔
    ∀ entry ∈ v, ((scalarOf asNumber entry.1 entry.2).print fmt).isSome := by
  induction v with
  | nil => simp [document, jsonVariables]
  | cons entry rest ih =>
    rw [List.forall_mem_cons, ← ih, document, List.map_cons, jsonVariables]
    cases (scalarOf asNumber entry.1 entry.2).print fmt with
    | none => simp
    | some s => simp [document]

theorem cdr_report (u : CaseTable) (now : Time) (c : IngressChannel) :
    (cdr u fmt now (document asNumber c.vars)).report =
      (jsonVariables fmt (document asNumber c.vars)).bind
        (fun w => fromVariables fmt now w .jsonCDR) := by
  unfold cdr
  cases hvars : jsonVariables fmt (document asNumber c.vars) with
  | none => rfl
  | some w =>
    have hdirection : valueOf w "direction" = "inbound" := by
      have hprint := (printedFrom_of_jsonVariables hvars).values "direction"
      have hword : isNumber "inbound" = false := by decide +kernel
      rw [scalarAt, c.direction, scalarOf, hword, Bool.and_false] at hprint
      exact (Option.some.inj hprint).symm
    have hfold : u.equalFold "inbound" "outbound" = false := by
      refine decide_eq_false (fun hsame => ?_)
      exact absurd (congrArg List.length hsame) (by simp)
    dsimp only
    rw [hdirection, hfold, Option.bind_some]
    cases fromVariables fmt now w .jsonCDR with
    | none => rfl
    | some r => rfl

end Document

section Hangups

variable {fmt : FloatText} {asNumber : String → Bool} {v w : Variables}
  {left right : Option Report}

/-- Billing does not ask who delivered the hangup. -/
theorem Alike.bill (h : Alike left right) (e : Engine) (now : Time) :
    left.map (fun r => bill e now r.info) = right.map (fun r => bill e now r.info) := by
  calc left.map (fun r => Billing.bill e now r.info)
      = (left.map Report.unsourced).map (fun r => Billing.bill e now r.info) := by
        rw [Option.map_map]
        rfl
    _ = (right.map Report.unsourced).map (fun r => Billing.bill e now r.info) := by rw [h]
    _ = right.map (fun r => Billing.bill e now r.info) := by
        rw [Option.map_map]
        rfl

/-- The readings of the texts that were printed are those of what the document
says. -/
theorem PrintedFrom.readInt (h : PrintedFrom fmt asNumber v w) (name : String) :
    readInt (trimSpace (valueOf w name).toList) =
      readInt (trimSpace (saidAt fmt asNumber v name).toList) :=
  readInt_print (h.values name)

theorem PrintedFrom.atoi (h : PrintedFrom fmt asNumber v w) (name : String) :
    atoi (valueOf w name) = atoi (saidAt fmt asNumber v name) := by
  simp only [Text.atoi, h.readInt name]

theorem PrintedFrom.uepoch (h : PrintedFrom fmt asNumber v w) (micro sec : String) :
    uepoch (valueOf w micro) (valueOf w sec) =
      uepoch (saidAt fmt asNumber v micro) (saidAt fmt asNumber v sec) := by
  simp only [Billing.uepoch, parseInt, h.readInt]

theorem PrintedFrom.isTrue (h : PrintedFrom fmt asNumber v w) (name : String) :
    valueOf w name = "true" ↔ valueOf v name = "true" :=
  true_print (h.values name)

theorem PrintedFrom.sipStatus (h : PrintedFrom fmt asNumber v w) :
    sipStatus w = statusOf (Text.atoi (saidAt fmt asNumber v "sbc_final_sip_code"))
      (valueOf w "sbc_final_reason") (valueOf v "proto_specific_hangup_cause")
      (Text.atoi (saidAt fmt asNumber v "sip_term_status")) := by
  rw [Billing.sipStatus, h.atoi, h.atoi, statusOf_print (h.values "proto_specific_hangup_cause")]

theorem PrintedFrom.answeredCarrier (h : PrintedFrom fmt asNumber v w) :
    answeredCarrier w = answeredCarrier v ↔ (valueOf v "sbc_answered" = "true" →
      scalarAt asNumber v "sbc_carrier_id" = .text (valueOf v "sbc_carrier_id") ∨
        parseUUID (valueOf v "sbc_carrier_id") = none) := by
  unfold Billing.answeredCarrier
  by_cases hanswered : valueOf v "sbc_answered" = "true"
  · rw [if_pos ((h.isTrue _).mpr hanswered), if_pos hanswered,
      parseUUID_print (h.values "sbc_carrier_id")]
    exact (imp_iff_right hanswered).symm
  · rw [if_neg (fun htrue => hanswered ((h.isTrue _).mp htrue)), if_neg hanswered]
    exact iff_of_true rfl (fun htrue => absurd htrue hanswered)

theorem PrintedFrom.channelMedia (h : PrintedFrom fmt asNumber v w) :
    channelMedia w = channelMedia v := by
  simp only [Billing.channelMedia, h.isTrue]

/-- The reports of a channel and of its document are the same whenever they are
made, exactly if the document's numbers do no harm. -/
theorem PrintedFrom.reports_iff (h : PrintedFrom fmt asNumber v w)
    (hranged : ∀ entry ∈ v, ((scalarOf asNumber entry.1 entry.2).print fmt).isSome)
    (huuid : scalarAt asNumber v "uuid" = .text (valueOf v "uuid"))
    (hended : (endTimeOf v).isSome) (id : UUID) :
    (∀ now now', (reportOf fmt now v .esl id).unsourced =
      (reportOf fmt now' w .jsonCDR id).unsourced) ↔ Harmless fmt asNumber v := by
  obtain ⟨ended, hend⟩ := Option.isSome_iff_exists.mp hended
  have hvalue {name text : String} (htext : text ∈ (scalarAt asNumber v name).print fmt) :
      text = valueOf w name := Option.some.inj (htext.symm.trans (h.values name))
  have hendW : endTimeOf w = Billing.uepoch _ _ := h.uepoch "end_uepoch" "end_epoch"
  have hanswerW : answerTimeOf w = Billing.uepoch _ _ := h.uepoch "answer_uepoch" "answer_epoch"
  constructor
  · intro hsame
    have hfield {α : Type} (f : Report → α) (now now' : Time) :
        f (reportOf fmt now' w .jsonCDR id).unsourced =
          f (reportOf fmt now v .esl id).unsourced := congrArg f (hsame now now').symm
    -- a delivery time would show in one of two reports
    have hendSame : endTimeOf w = endTimeOf v := by
      have hlate : ∀ now', (endTimeOf w).getD now' = ended := fun now' => by
        have htime := hfield (·.info.endTime) 0 now'
        simpa [Report.unsourced, reportOf, hend] using htime
      cases hw : endTimeOf w with
      | some t =>
        have ht := hlate 0
        rw [hw] at ht
        rw [hend, ← ht]
        rfl
      | none =>
        have ht := hlate (ended + 1)
        rw [hw] at ht
        simp at ht
    have hanswer : answerTimeOf w = answerTimeOf v := hfield (·.info.answerTime) 0 0
    have htalk : ∀ t ∈ endTimeOf v, talkSeconds (answerTimeOf v) t
        (Text.atoi (saidAt fmt asNumber v "billsec")) = talkSeconds (answerTimeOf v) t
          (Text.atoi (valueOf v "billsec")) := by
      intro t ht
      have hbillsec := hfield (·.info.billsec) 0 0
      rw [hend] at ht
      obtain rfl := Option.some.inj ht
      simpa [Report.unsourced, reportOf, hendSame, hend, hanswer, h.atoi] using hbillsec
    have hstatus : finalStatus (answerTimeOf v).isSome (Billing.sipStatus w) =
        finalStatus (answerTimeOf v).isSome (Billing.sipStatus v) := by
      have hcode := hfield (fun r => (r.info.sipCode, r.info.sipReason)) 0 0
      simpa [Report.unsourced, reportOf, hanswer] using hcode
    refine ⟨hranged, huuid, h.answeredCarrier.mp (hfield (·.info.answeredCarrierId) 0 0),
      (h.uepoch _ _).symm.trans (hfield (·.startTime) 0 0),
      (h.uepoch _ _).symm.trans (hfield (·.info.progressTime) 0 0), hanswerW.symm.trans hanswer,
      hendW.symm.trans hendSame, htalk, (h.atoi _).symm.trans (hfield (·.info.duration) 0 0),
      fun reason hreason => ?_, fun cause hcause header hheader => ?_, ?_, ?_⟩
    · rw [hvalue hreason, ← h.sipStatus]
      exact hstatus
    · rw [hvalue hcause, hvalue hheader]
      exact hfield (·.info.hangupCause) 0 0
    · rw [h.values]
      exact congrArg some (hfield (·.info.codecIn) 0 0)
    · rw [h.values]
      exact congrArg some (hfield (·.info.rejectReason) 0 0)
  · intro hno now now'
    have hanswer : answerTimeOf w = answerTimeOf v := hanswerW.trans hno.answer
    have hendSame : endTimeOf w = some ended := (hendW.trans hno.ended).trans hend
    have hstart := (h.uepoch "start_uepoch" "start_epoch").trans hno.start
    have hprogress := (h.uepoch "progress_uepoch" "progress_epoch").trans hno.progress
    have htalk := hno.talk ended hend
    have hstatus := hno.status _ (h.values "sbc_final_reason")
    rw [← h.sipStatus] at hstatus
    have hcause := hno.cause _ (h.values "hangup_cause") _ (h.values "Hangup-Cause")
    have hcodec := Option.some.inj ((h.values "read_codec").symm.trans hno.codec)
    have hrejection := Option.some.inj ((h.values "sbc_reject_reason").symm.trans hno.rejection)
    have hsrtp := h.isTrue "rtp_secure_media_confirmed_audio"
    simp only [Report.unsourced, reportOf, hanswer, hendSame, hend, hstart, hprogress, hcause,
      hcodec, hrejection, hstatus, h.answeredCarrier.mpr hno.carrier, h.stats, h.channelMedia,
      h.atoi, hno.duration, Option.getD_some, htalk, Report.mk.injEq, HangupInfo.mk.injEq,
      true_and, and_true]
    rw [Bool.eq_iff_iff, beq_iff_eq, beq_iff_eq, hsrtp]

end Hangups

/-- The variables of an answered call of 61 seconds. -/
def sampleChannel : IngressChannel where
  vars := [("uuid", uuidText 42), ("direction", "inbound"),
    ("sofia_profile_name", "external-ingress"), ("answer_uepoch", "1700000005000000"),
    ("end_uepoch", "1700000066000000"), ("billsec", "61")]
  profile := by decide
  direction := by decide
  ended := by decide +kernel

/-- A document with one number in it. -/
def answerAsNumber (name : String) : Bool := name == "answer_uepoch"

end SuperSbc.Billing
