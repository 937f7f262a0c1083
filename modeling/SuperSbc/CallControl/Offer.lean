import SuperSbc.CallControl.Codecs

/-!
The caller's codecs as they are read from the SDP offer and handed over to the
codec match: the names of the first audio section are joined with commas, and
the match reads them as an `ep_codec_string`.
-/

namespace SuperSbc.CallControl

open Query Text

/-- RTP payload types with a fixed meaning. -/
def staticPayloads (pt : String) : String :=
  if pt = "0" then "PCMU"
  else if pt = "3" then "GSM"
  else if pt = "4" then "G723"
  else if pt = "8" then "PCMA"
  else if pt = "9" then "G722"
  else if pt = "18" then "G729"
  else ""

section Lines

/-- `strings.TrimRight` of carriage returns. -/
def trimReturn (raw : List Char) : List Char := (raw.reverse.dropWhile (· = '\r')).reverse

def isMedia (line : List Char) : Bool := "m=".toList.isPrefixOf line

def isAudio (line : List Char) : Bool := "m=audio ".toList.isPrefixOf line

def isRtpmap (line : List Char) : Bool := "a=rtpmap:".toList.isPrefixOf line

/-- The payload types of `m=audio <port> <proto> <pt> <pt> …`. -/
def mediaPayloads (line : List Char) : List String := ((fields line).drop 3).map String.ofList

/-- Payload type and name of `a=rtpmap:<pt> <name>/<clock>[/<channels>]`. -/
def rtpmapEntry (line : List Char) : Option (String × String) :=
  match fields (line.drop "a=rtpmap:".length) with
  | pt :: name :: _ => some (String.ofList pt, String.ofList (name.takeWhile (· ≠ '/')))
  | _ => none

theorem isMedia_of_isAudio {line : List Char} (h : isAudio line = true) : isMedia line = true := by
  rw [isAudio, List.isPrefixOf_iff_prefix] at h
  rw [isMedia, List.isPrefixOf_iff_prefix]
  exact List.IsPrefix.trans (by decide) h

end Lines

/-- What the scan has read so far; a payload type without an `rtpmap` line has
the empty name. -/
structure AudioScan where
  payloads : List String := []
  names : String → String := fun _ => ""
  inAudio : Bool := false

def learn (names : String → String) (entry : String × String) : String → String :=
  Function.update names entry.1 entry.2

def AudioScan.run (scan : AudioScan) : List (List Char) → AudioScan
  | [] => scan
  | raw :: rest =>
    let line := trimReturn raw
    if isMedia line then
      -- a second media section ends the audio one
      if scan.inAudio then scan
      else if isAudio line then
        run { scan with inAudio := true, payloads := scan.payloads ++ mediaPayloads line } rest
      else run scan rest
    else if scan.inAudio && isRtpmap line then
      match rtpmapEntry line with
      | some entry => run { scan with names := learn scan.names entry } rest
      | none => run scan rest
    else run scan rest

section Names

variable (u : CaseTable)

/-- The name of a payload type, from the offer or by its fixed meaning. -/
def payloadName (names : String → String) (pt : String) : String :=
  if names pt = "" then staticPayloads pt else names pt

def namedCodecs (payloads : List String) (names : String → String) : List String :=
  firsts u.toUpper (audioName u) [] (payloads.map (payloadName names))

def sdpAudioCodecs (sdp : String) : List String :=
  if sdp = "" then []
  else
    let scan := AudioScan.run {} (sdp.toList.splitOn '\n')
    namedCodecs u scan.payloads scan.names

def offeredFrom (sdp epCodecString : String) : String :=
  let codecs := sdpAudioCodecs u sdp
  if 0 < codecs.length then ",".intercalate codecs else epCodecString

end Names

section Section

/-- The lines of an SDP text. -/
def sdpLines (sdp : String) : List (List Char) := (sdp.toList.splitOn '\n').map trimReturn

/-- The first audio section: its media line and the lines up to the next one. -/
def audioSection (lines : List (List Char)) : List (List Char) :=
  match lines.dropWhile (fun line => !isAudio line) with
  | [] => []
  | media :: rest => media :: rest.takeWhile (fun line => !isMedia line)

def sectionPayloads (lines : List (List Char)) : List String :=
  (lines.head?.map mediaPayloads).getD []

def sectionEntries (lines : List (List Char)) : List (String × String) :=
  (lines.filter isRtpmap).filterMap rtpmapEntry

/-- What the last `rtpmap` line for a payload type calls it. -/
def sectionName (lines : List (List Char)) (pt : String) : String :=
  (((sectionEntries lines.tail).reverse.find? (fun entry => entry.1 = pt)).map Prod.snd).getD ""

/-- The codecs that the first audio section names: of its payload types in
order, without events and comfort noise, each name once. -/
def audioCodecs (u : CaseTable) (sdp : String) : List String :=
  let lines := audioSection (sdpLines sdp)
  distinctOn u.toUpper (((sectionPayloads lines).map (payloadName (sectionName lines))).filter
    (fun name => name ≠ "" ∧ ¬ notAudio u name = true))

end Section

section Scan

theorem foldl_learn (entries : List (String × String)) (names : String → String) (pt : String) :
    entries.foldl learn names pt =
      ((entries.reverse.find? (fun entry => entry.1 = pt)).map Prod.snd).getD (names pt) := by
  induction entries generalizing names with
  | nil => rfl
  | cons entry rest ih =>
    rw [List.foldl_cons, ih, List.reverse_cons, List.find?_append]
    cases hlater : rest.reverse.find? (fun entry => entry.1 = pt) with
    | some later => rfl
    | none =>
      by_cases hpt : entry.1 = pt
      · simp [learn, hpt]
      · simp [learn, hpt, Function.update_of_ne (Ne.symm hpt)]

variable (payloads : List String) (names : String → String)

/-- In the audio section the scan learns names up to the next media line. -/
theorem run_inside (raws : List (List Char)) :
    AudioScan.run ⟨payloads, names, true⟩ raws =
      ⟨payloads, (sectionEntries ((raws.map trimReturn).takeWhile
        (fun line => !isMedia line))).foldl learn names, true⟩ := by
  induction raws generalizing names with
  | nil => rfl
  | cons raw rest ih =>
    rw [List.map_cons, AudioScan.run]
    by_cases hmedia : isMedia (trimReturn raw) = true
    · rw [List.takeWhile_cons_of_neg (by simpa using hmedia)]
      simp [hmedia, sectionEntries]
    · rw [List.takeWhile_cons_of_pos (by simpa using hmedia)]
      by_cases hmap : isRtpmap (trimReturn raw) = true
      · cases hentry : rtpmapEntry (trimReturn raw) with
        | none | some entry => simp [hmedia, hmap, hentry, ih, sectionEntries]
      · simp [hmedia, hmap, ih, sectionEntries]

/-- Before it the scan looks for the first audio line. -/
theorem run_before (raws : List (List Char)) :
    (AudioScan.run ⟨payloads, names, false⟩ raws).payloads =
        payloads ++ sectionPayloads (audioSection (raws.map trimReturn)) ∧
      (AudioScan.run ⟨payloads, names, false⟩ raws).names =
        (sectionEntries (audioSection (raws.map trimReturn)).tail).foldl learn names := by
  induction raws with
  | nil => simp [AudioScan.run, audioSection, sectionPayloads, sectionEntries]
  | cons raw rest ih =>
    rw [List.map_cons, AudioScan.run]
    by_cases haudio : isAudio (trimReturn raw) = true
    · have hsection : audioSection (trimReturn raw :: rest.map trimReturn) =
          trimReturn raw :: (rest.map trimReturn).takeWhile (fun line => !isMedia line) := by
        rw [audioSection, List.dropWhile_cons_of_neg (by simpa using haudio)]
      rw [hsection]
      simp [isMedia_of_isAudio haudio, haudio, run_inside, sectionPayloads]
    · have hsection : audioSection (trimReturn raw :: rest.map trimReturn) =
          audioSection (rest.map trimReturn) := by
        rw [audioSection, List.dropWhile_cons_of_pos (by simpa using haudio), audioSection]
      rw [hsection]
      by_cases hmedia : isMedia (trimReturn raw) = true
      · simpa [hmedia, haudio] using ih
      · simpa [hmedia] using ih

theorem namedCodecs_eq (u : CaseTable) :
    namedCodecs u payloads names =
      distinctOn u.toUpper ((payloads.map (payloadName names)).filter
        (fun name => name ≠ "" ∧ ¬ notAudio u name = true)) := by
  have hsome (name : String) :
      (audioName u name).isSome = decide (name ≠ "" ∧ ¬ notAudio u name = true) := by
    by_cases hname : name ≠ "" ∧ ¬ notAudio u name = true
    · rw [audioName_eq_some hname.1 hname.2, decide_eq_true hname]
      rfl
    · have hnone : audioName u name = none := if_pos (by tauto)
      rw [hnone, decide_eq_false hname]
      rfl
  have hsame {name : String} (hname : name ≠ "" ∧ ¬ notAudio u name = true) :
      audioName u name = some name := audioName_eq_some hname.1 hname.2
  rw [namedCodecs, firsts_eq, List.filter_congr (fun name _ => hsome name),
    List.filter_eq_self.mpr (fun _ _ => by simp), List.filterMap_congr (g := some),
    List.filterMap_some]
  intro name hname
  exact hsame (of_decide_eq_true (List.mem_filter.mp (mem_of_distinctOn hname)).2)

/-- The scan reads what the first audio section says. -/
theorem sdpAudioCodecs_eq (u : CaseTable) (sdp : String) :
    sdpAudioCodecs u sdp = audioCodecs u sdp := by
  obtain ⟨hpayloads, hnames⟩ := run_before [] (fun _ => "") (sdp.toList.splitOn '\n')
  have hlast : (AudioScan.run {} (sdp.toList.splitOn '\n')).names =
      sectionName (audioSection (sdpLines sdp)) := by
    funext pt
    rw [hnames, foldl_learn]
    rfl
  unfold sdpAudioCodecs
  split_ifs with hempty
  · rw [hempty]
    rfl
  · change namedCodecs u (AudioScan.run {} (sdp.toList.splitOn '\n')).payloads _ = _
    rw [hlast, hpayloads, namedCodecs_eq]
    rfl

end Scan

section HandOver

variable {u : CaseTable} {sdp name : String}

/-- A name in which an `ep_codec_string` finds no other parts. -/
def PlainName (name : String) : Prop :=
  ',' ∉ name.toList ∧ '@' ∉ name.toList ∧ '.' ∉ name.toList

instance : DecidablePred PlainName := fun name =>
  inferInstanceAs (Decidable (',' ∉ name.toList ∧ '@' ∉ name.toList ∧ '.' ∉ name.toList))

theorem plainName_of_mem_offeredCodecs {offered : String} (h : name ∈ offeredCodecs u offered) :
    PlainName name := by
  refine ⟨no_comma_of_mem_offeredCodecs h, ?_⟩
  obtain ⟨entry, -, hname⟩ := List.mem_filterMap.mp h
  obtain rfl := of_audioName hname
  rw [String.toList_ofList, codecName, List.mem_reverse, List.mem_reverse]
  constructor
  · intro hat
    have hbefore := List.mem_reverse.mp ((List.takeWhile_sublist _).mem hat)
    simpa using List.mem_takeWhile_imp hbefore
  · intro hdot
    simpa using List.mem_takeWhile_imp hdot

theorem codecName_plain {entry : List Char} (hspace : ∀ c ∈ entry, isSpace c = false)
    (hat : '@' ∉ entry) (hdot : '.' ∉ entry) : codecName entry = entry := by
  have hat' : entry.takeWhile (· ≠ '@') = entry :=
    List.takeWhile_eq_self_iff.mpr (fun c hc => decide_eq_true (fun h => hat (h ▸ hc)))
  have hdot' : entry.reverse.takeWhile (· ≠ '.') = entry.reverse :=
    List.takeWhile_eq_self_iff.mpr (fun c hc => decide_eq_true (fun h =>
      hdot (h ▸ List.mem_reverse.mp hc)))
  rw [codecName, trimSpace_of_forall hspace, hat', hdot', List.reverse_reverse]

theorem isSpace_of_mem_rtpmapEntry {line : List Char} {entry : String × String}
    (h : rtpmapEntry line = some entry) : ∀ c ∈ entry.2.toList, isSpace c = false := by
  unfold rtpmapEntry at h
  split at h
  · rename_i pt field rest hfields
    obtain rfl := Option.some.inj h
    have hfield : field ∈ fields (line.drop "a=rtpmap:".length) := by
      rw [hfields]
      exact List.mem_cons_of_mem _ List.mem_cons_self
    intro c hc
    rw [String.toList_ofList] at hc
    exact isSpace_of_mem_fields hfield c ((List.takeWhile_sublist _).mem hc)
  · cases h

theorem isSpace_of_mem_sectionName (lines : List (List Char)) (pt : String) :
    ∀ c ∈ (sectionName lines pt).toList, isSpace c = false := by
  unfold sectionName
  cases hfound : (sectionEntries lines.tail).reverse.find? (fun entry => entry.1 = pt) with
  | none => exact fun c hc => absurd hc List.not_mem_nil
  | some entry =>
    have hentry := List.mem_reverse.mp (List.mem_of_find?_eq_some hfound)
    obtain ⟨line, -, hline⟩ := List.mem_filterMap.mp hentry
    exact isSpace_of_mem_rtpmapEntry hline

theorem isSpace_of_mem_staticPayloads (pt : String) :
    ∀ c ∈ (staticPayloads pt).toList, isSpace c = false := by
  have hall : (staticPayloads pt).toList.all (fun c => isSpace c = false) = true := by
    unfold staticPayloads
    split_ifs <;> decide
  exact fun c hc => of_decide_eq_true (List.all_eq_true.mp hall c hc)

theorem isSpace_of_mem_payloadName (lines : List (List Char)) (pt : String) :
    ∀ c ∈ (payloadName (sectionName lines) pt).toList, isSpace c = false := by
  unfold payloadName
  split_ifs
  · exact isSpace_of_mem_staticPayloads pt
  · exact isSpace_of_mem_sectionName lines pt

theorem mem_audioCodecs (h : name ∈ audioCodecs u sdp) :
    name ≠ "" ∧ ¬ notAudio u name = true ∧ ∀ c ∈ name.toList, isSpace c = false := by
  obtain ⟨hmem, hname⟩ := List.mem_filter.mp (mem_of_distinctOn h)
  obtain ⟨pt, -, rfl⟩ := List.mem_map.mp hmem
  obtain ⟨hne, haudio⟩ := of_decide_eq_true hname
  exact ⟨hne, haudio, isSpace_of_mem_payloadName _ pt⟩

/-- The match works on the names the offer has exactly if each of them is
plain. -/
theorem sdp_offer_survives (u : CaseTable) (sdp epCodecString : String)
    (hnamed : audioCodecs u sdp ≠ []) :
    (sdpAudioCodecs u sdp = audioCodecs u sdp ∧
        offeredCodecs u (offeredFrom u sdp epCodecString) = sdpAudioCodecs u sdp) ↔
      ∀ name ∈ audioCodecs u sdp, PlainName name := by
  have hjoined : offeredFrom u sdp epCodecString = ",".intercalate (audioCodecs u sdp) := by
    rw [offeredFrom, sdpAudioCodecs_eq]
    exact if_pos (List.length_pos_iff.mpr hnamed)
  rw [hjoined, sdpAudioCodecs_eq, and_iff_right rfl]
  constructor
  · intro hsame name hname
    rw [← hsame] at hname
    exact plainName_of_mem_offeredCodecs hname
  · intro hplain
    rw [offeredCodecs, commaParts_intercalate hnamed (fun name hname => (hplain name hname).1),
      List.filterMap_congr (g := some), List.filterMap_some]
    intro name hname
    obtain ⟨hne, haudio, hspace⟩ := mem_audioCodecs hname
    obtain ⟨-, hat, hdot⟩ := hplain name hname
    rw [offeredCodec, codecName_plain hspace hat hdot, String.ofList_toList]
    exact audioName_eq_some hne haudio

/-- An offer of a static payload type, one named by its `rtpmap` line, a repeat
of it in small letters and events. -/
def sampleOffer : String :=
  "v=0\r\nm=video 5000 RTP/AVP 31\r\nm=audio 4000 RTP/AVP 18 96 97 101\r\n" ++
    "a=rtpmap:96 opus/48000/2\r\na=rtpmap:97 OPUS/48000\r\na=rtpmap:101 telephone-event/8000\r\n"

theorem sdp_offer_survives_sampleOffer :
    audioCodecs plainCase sampleOffer = ["G729", "opus"] ∧
      offeredCodecs plainCase (offeredFrom plainCase sampleOffer "") =
        sdpAudioCodecs plainCase sampleOffer := by
  have hcodecs : audioCodecs plainCase sampleOffer = ["G729", "opus"] := by decide +kernel
  refine ⟨hcodecs, ((sdp_offer_survives plainCase sampleOffer "" ?_).mpr ?_).2⟩
  · rw [hcodecs]
    exact List.cons_ne_nil _ _
  · rw [hcodecs]
    decide

/-- What comes before a dot in a name is taken for a module: the match works on
`PCMU`, which the caller did not offer. -/
theorem dotted_name_lost :
    audioCodecs plainCase "m=audio 4000 RTP/AVP 96\na=rtpmap:96 X.PCMU/8000" = ["X.PCMU"] ∧
      sdpAudioCodecs plainCase "m=audio 4000 RTP/AVP 96\na=rtpmap:96 X.PCMU/8000" = ["X.PCMU"] ∧
      offeredCodecs plainCase
        (offeredFrom plainCase "m=audio 4000 RTP/AVP 96\na=rtpmap:96 X.PCMU/8000" "") =
          ["PCMU"] := by
  decide +kernel

end HandOver

end SuperSbc.CallControl
