import SuperSbc.CallControl.Codecs
import SuperSbc.CallControl.Exits
import SuperSbc.CallControl.Headers
import SuperSbc.CallControl.Routing
import SuperSbc.Numbering.Normalize
import SuperSbc.Text.Brackets

/-!
The dial string of one carrier leg, and what FreeSWITCH reads in it. Some of the
values that are put into it are escaped and some are not; the caller's number is
among the latter.
-/

namespace SuperSbc.CallControl

open FsConfig SuperSbc.Numbering Text

/-- `privacy_kind`. -/
inductive PrivacyMode where
  | anonymize
  | pass
  | ignore
deriving DecidableEq

/-- `endpoint_lb_kind`. -/
inductive EndpointLB where
  | failover
  | roundRobin
  | weighted
deriving DecidableEq

structure LegColumns where
  aniPrefix : String
  dniPrefix : String
  stripDigits : ℤ
  endpointLB : EndpointLB
  mediaMode : MediaMode
  dtmfMode : DtmfMode
  srtpMode : SrtpMode
  privacyMode : PrivacyMode
  ignoreEarlyMedia : Bool

structure LegConfig extends Config where
  fsNodeIP : String

structure Leg where
  u : CaseTable
  cfg : LegConfig
  cust : Customer
  customerMedia : MediaMode
  customerRules : List HeaderRule
  carrier : GatewayCarrier
  columns : LegColumns
  carrierRules : List HeaderRule
  callUUID : String
  called : String
  privacy : Bool
  forwardIdentity : Bool
  offered : String

/-- A called number is ASCII. -/
def buildDialNumber (called : String) (c : LegColumns) : String :=
  if 0 < c.stripDigits ∧ c.stripDigits < called.toList.length then
    c.dniPrefix ++ String.ofList (called.toList.drop c.stripDigits.toNat)
  else c.dniPrefix ++ called

def dtmfVars : DtmfMode → List String
  | .info => ["dtmf_type=info"]
  | .inband =>
    ["dtmf_type=none", "execute_on_answer_1=start_dtmf",
      "execute_on_answer_2=start_dtmf_generate"]
  | .rfc2833 => ["dtmf_type=rfc2833"]

/-- The caller id and the variables of a call that asks for privacy. -/
def privacyVars (mode : PrivacyMode) (realCaller nodeIP : String) : String × List String :=
  match mode with
  | .pass =>
    (realCaller,
      ["sip_h_Privacy=id",
        "sip_h_P-Asserted-Identity=<sip:" ++ realCaller ++ "@" ++ nodeIP ++ ">"])
  | .ignore => (realCaller, [])
  | .anonymize => ("anonymous", ["origination_privacy=hide_name:hide_number", "sip_h_Privacy=id"])

namespace Leg

variable (leg : Leg) (caller : String)

/-- The caller's number: of the From user, or of a trusted identity header. -/
def callerOf (fromUser pai : String) : String :=
  normalizeCaller (normOptions leg.cust) (if leg.cust.trustPAI ∧ pai ≠ "" then pai else fromUser)

def ani : String := leg.columns.aniPrefix ++ caller

def dialNumber : String := buildDialNumber leg.called leg.columns

def codecs : String :=
  codecStringFor leg.u leg.cust.allowedCodecs leg.carrier.allowedCodecs leg.offered

def mediaMode : MediaMode :=
  resolveMediaMode leg.u (mediaModeFor leg.customerMedia leg.columns.mediaMode) leg.offered
    leg.cust.allowedCodecs leg.carrier.allowedCodecs

def privacyPart : String × List String :=
  if leg.privacy then privacyVars leg.columns.privacyMode (leg.ani caller) leg.cfg.fsNodeIP
  else (leg.ani caller, [])

def callerID : String := (leg.privacyPart caller).1

def headerContext : HeaderContext where
  caller := caller
  called := leg.called
  customer := leg.cust.name
  carrier := leg.carrier.name
  callUUID := leg.callUUID
  nodeIP := leg.cfg.fsNodeIP

def headerPlan : HeaderPlan :=
  applyHeaderRules (leg.headerContext caller) leg.customerRules leg.carrierRules

def passthrough : List String :=
  let plan := (leg.headerPlan caller).passthrough
  if leg.forwardIdentity ∧ "Identity" ∉ plan then plan ++ ["Identity"] else plan

def extra : List String :=
  (leg.privacyPart caller).2 ++ dtmfVars leg.columns.dtmfMode ++
    ["rtp_secure_media=" ++ srtpVar leg.columns.srtpMode] ++ (leg.headerPlan caller).egressVars

def anchored : Bool := leg.mediaMode ≠ .proxy ∧ leg.mediaMode ≠ .bypass

/-- The codecs with another separator, which their front announces. -/
def codecText : String := "^^:" ++ String.ofList (replaceChar ',' [':'] leg.codecs.toList)

def dialVars (seq : ℕ) : List String :=
  ["sip_h_X-SBC-Call=" ++ leg.callUUID,
    "origination_caller_id_number=" ++ leg.callerID caller,
    "origination_caller_id_name=" ++ leg.callerID caller,
    "ignore_early_media=" ++ toString leg.columns.ignoreEarlyMedia,
    "originate_timeout=" ++ toString leg.cfg.originateTimeout,
    "progress_timeout=" ++ toString leg.cfg.progressTimeout,
    "sip_copy_custom_headers=false",
    "sip_cid_type=none",
    "media_timeout=" ++ toString (leg.cfg.mediaTimeoutSec * 1000),
    "media_hold_timeout=" ++ toString (leg.cfg.mediaHoldTimeoutSec * 1000),
    "sbc_carrier_id=" ++ uuidText leg.carrier.id,
    "sbc_attempt_seq=" ++ toString seq] ++
  (if leg.anchored then ["absolute_codec_string=" ++ leg.codecText] else []) ++ leg.extra caller

def target (gateway : String) : String := "sofia/gateway/" ++ gateway ++ "/" ++ leg.dialNumber

def dialString (seq : ℕ) (gateway : String) : String :=
  "\x7b" ++ ",".intercalate (leg.dialVars caller seq) ++ "\x7d" ++ leg.target gateway

end Leg

section Parse

theorem comma_ne_brace : ',' ≠ '}' := by decide

theorem backslash_ne_comma : '\\' ≠ ',' := by decide

theorem backslash_ne_brace : '\\' ≠ '}' := by decide

def dialMarks : Marks Char where
  opening := '{'
  separator := ','
  closing := '}'
  escape := '\\'
  separator_ne_closing := comma_ne_brace
  escape_ne_separator := backslash_ne_comma
  escape_ne_closing := backslash_ne_brace

/-- An entry is split at its first equals sign, if it has one. -/
def splitVar (entry : List Char) : String × Option String :=
  (String.ofList (entry.takeWhile (· ≠ '=')),
    (entry.dropWhile (· ≠ '=')).tail?.map String.ofList)

/-- The variables and the target FreeSWITCH finds in a dial string. -/
def parseDialString (s : String) : Option (List (String × Option String) × String) :=
  (dialMarks.parse s.toList).map (fun b => (b.entries.map splitVar, String.ofList b.target))

/-- A variable of a dial string with the value it should have. -/
structure DialVar where
  name : String
  value : String
  escapes : Bool := false

namespace DialVar

def text (v : DialVar) : String :=
  v.name ++ "=" ++ if v.escapes then escapeDialValue v.value else v.value

/-- What should be read: closing brackets are left out of values. -/
def meant (v : DialVar) : String × Option String :=
  (v.name, some (String.ofList (dialMarks.without v.value.toList)))

def piece (v : DialVar) : Marks.Piece Char := ⟨v.name.toList ++ ['='], v.value.toList, v.escapes⟩

end DialVar

/-- A text that can name a variable. -/
def VarName (name : String) : Prop := '=' ∉ name.toList ∧ dialMarks.Clean name.toList

instance : DecidablePred VarName := fun name =>
  inferInstanceAs (Decidable ('=' ∉ name.toList ∧ dialMarks.Clean name.toList))

/-- Name and value make up the entry. -/
def joinVar (v : String × Option String) : List Char :=
  v.1.toList ++ (v.2.map (fun value => '=' :: value.toList)).getD []

theorem joinVar_splitVar (entry : List Char) : joinVar (splitVar entry) = entry := by
  have hwhole := List.takeWhile_append_dropWhile (p := (· ≠ '=')) (l := entry)
  cases hrest : entry.dropWhile (· ≠ '=') with
  | nil =>
    rw [hrest, List.append_nil] at hwhole
    rw [joinVar, splitVar, hrest]
    simpa using hwhole
  | cons c value =>
    have hequals := List.head?_dropWhile_not (· ≠ '=') entry
    rw [hrest] at hequals
    obtain rfl : c = '=' := by simpa using hequals
    rw [hrest] at hwhole
    rw [joinVar, splitVar, hrest]
    simpa using hwhole

theorem splitVar_injective : Function.Injective splitVar :=
  Function.LeftInverse.injective joinVar_splitVar

theorem splitVar_join {name value : List Char} (hname : '=' ∉ name) :
    splitVar (name ++ '=' :: value) = (String.ofList name, some (String.ofList value)) := by
  have hplain : ∀ c ∈ name, decide (c ≠ '=') = true := fun c hc =>
    decide_eq_true (fun h => hname (h ▸ hc))
  rw [splitVar, List.takeWhile_append_of_pos hplain, List.dropWhile_append_of_pos hplain,
    List.takeWhile_cons_of_neg (by simp), List.dropWhile_cons_of_neg (by simp), List.append_nil]
  rfl

theorem escapeDialValue_eq (v : String) :
    escapeDialValue v = String.ofList (dialMarks.escaped v.toList) := by
  unfold escapeDialValue Marks.escaped replaceChar
  congr 1
  rw [List.flatMap_assoc, List.flatMap_assoc]
  refine List.flatMap_congr (fun c _ => ?_)
  rcases dialMarks.plain_or_mark c with hplain | rfl | rfl | rfl
  · have hne : c ≠ '\\' ∧ c ≠ ',' ∧ c ≠ '}' := ⟨hplain.2.2, hplain.1, hplain.2.1⟩
    rw [if_neg hplain.2.2, if_neg hplain.1, if_neg hplain.2.1]
    simp [hne]
  · rfl
  · rfl
  · rfl

theorem DialVar.toList_text (v : DialVar) : v.text.toList = dialMarks.pieceText v.piece := by
  unfold DialVar.text Marks.pieceText DialVar.piece
  rw [escapeDialValue_eq, String.toList_append, String.toList_append]
  cases v.escapes <;> simp

/-- The variables are read as they are meant exactly if every value that is not
escaped has nothing to escape. -/
theorem parse_dialVars_iff {v : DialVar} {rest : List DialVar}
    (hnames : ∀ w ∈ v :: rest, VarName w.name) (target : String) :
    parseDialString ("\x7b" ++ ",".intercalate ((v :: rest).map DialVar.text) ++ "\x7d" ++ target) =
        some ((v :: rest).map DialVar.meant, target) ↔
      ∀ w ∈ v :: rest, w.escapes = false → dialMarks.Clean w.value.toList := by
  have htext :
      ("\x7b" ++ ",".intercalate ((v :: rest).map DialVar.text) ++ "\x7d" ++ target).toList =
      dialMarks.printed target.toList ((v :: rest).map DialVar.piece) := by
    have hvars : (v :: rest).map (String.toList ∘ DialVar.text) =
        (v :: rest).map (dialMarks.pieceText ∘ DialVar.piece) :=
      List.map_congr_left (fun w _ => w.toList_text)
    rw [String.toList_append, String.toList_append, String.toList_append,
      String.toList_intercalate, List.map_map, hvars, Marks.printed, List.map_map]
    simp only [List.append_assoc]
    rfl
  have hmeant : (v :: rest).map DialVar.meant =
      ((v :: rest).map DialVar.piece).map (splitVar ∘ dialMarks.pieceEntry) := by
    rw [List.map_map]
    refine List.map_congr_left (fun w hw => ?_)
    have hentry : dialMarks.pieceEntry w.piece =
        w.name.toList ++ '=' :: dialMarks.without w.value.toList := by
      rw [Marks.pieceEntry, DialVar.piece, List.append_assoc, List.singleton_append]
    rw [Function.comp_apply, Function.comp_apply, hentry, splitVar_join (hnames w hw).1,
      String.ofList_toList, DialVar.meant]
  have hfront : ∀ p ∈ (v :: rest).map DialVar.piece, dialMarks.Clean p.front := by
    intro p hp
    obtain ⟨w, hw, rfl⟩ := List.mem_map.mp hp
    exact Marks.Clean.append_iff.mpr ⟨(hnames w hw).2, by decide⟩
  have hread := Marks.parse_printed_iff target.toList hfront
  rw [List.forall_mem_cons, List.forall_mem_map] at hread
  rw [List.forall_mem_cons, parseDialString, htext, hmeant, List.map_cons, Option.map_eq_some_iff]
  refine Iff.trans ?_ hread
  constructor
  · rintro ⟨b, hb, hsame⟩
    obtain ⟨hentries, htarget⟩ := Prod.mk.inj hsame
    rw [← List.map_cons, ← List.map_map] at hentries
    obtain ⟨hentry, hothers⟩ :=
      List.cons.inj (List.map_injective_iff.mpr splitVar_injective hentries)
    rw [hb]
    exact congrArg some
      (Bracketed.ext hentry hothers (String.ofList_injective (by simpa using htarget)))
  · intro hb
    refine ⟨_, hb, ?_⟩
    rw [String.ofList_toList, ← List.map_map (f := dialMarks.pieceEntry)]
    rfl

end Parse

section Variables

def dtmfVariables : DtmfMode → List DialVar
  | .info => [⟨"dtmf_type", "info", false⟩]
  | .inband =>
    [⟨"dtmf_type", "none", false⟩, ⟨"execute_on_answer_1", "start_dtmf", false⟩,
      ⟨"execute_on_answer_2", "start_dtmf_generate", false⟩]
  | .rfc2833 => [⟨"dtmf_type", "rfc2833", false⟩]

def privacyVariables (mode : PrivacyMode) (realCaller nodeIP : String) : List DialVar :=
  match mode with
  | .pass =>
    [⟨"sip_h_Privacy", "id", false⟩,
      ⟨"sip_h_P-Asserted-Identity", "<sip:" ++ realCaller ++ "@" ++ nodeIP ++ ">", false⟩]
  | .ignore => []
  | .anonymize =>
    [⟨"origination_privacy", "hide_name:hide_number", false⟩, ⟨"sip_h_Privacy", "id", false⟩]

def headerVariable (ctx : HeaderContext) (key value : String) : DialVar :=
  ⟨"sip_h_" ++ canonicalHeader key, ctx.expand value, true⟩

def mergedRules (customerRules carrierRules : List HeaderRule) : HeaderMerge :=
  ((HeaderMerge.mk (fun _ => ∅) 0).applyAll customerRules).applyAll carrierRules

def headerVariables (ctx : HeaderContext) (m : HeaderMerge) : List DialVar :=
  (sortedEntries (m.target .egress)).filterMap (fun x =>
    if x.2.action = .add then some (headerVariable ctx x.1 x.2.value) else none)

namespace Leg

variable (leg : Leg) (caller : String)

def commonVariables (seq : ℕ) : List DialVar :=
  [⟨"origination_caller_id_number", leg.callerID caller, false⟩,
    ⟨"origination_caller_id_name", leg.callerID caller, false⟩,
    ⟨"ignore_early_media", toString leg.columns.ignoreEarlyMedia, false⟩,
    ⟨"originate_timeout", toString leg.cfg.originateTimeout, false⟩,
    ⟨"progress_timeout", toString leg.cfg.progressTimeout, false⟩,
    ⟨"sip_copy_custom_headers", "false", false⟩,
    ⟨"sip_cid_type", "none", false⟩,
    ⟨"media_timeout", toString (leg.cfg.mediaTimeoutSec * 1000), false⟩,
    ⟨"media_hold_timeout", toString (leg.cfg.mediaHoldTimeoutSec * 1000), false⟩,
    ⟨"sbc_carrier_id", uuidText leg.carrier.id, false⟩,
    ⟨"sbc_attempt_seq", toString seq, false⟩]

def codecVariables : List DialVar :=
  if leg.anchored then [⟨"absolute_codec_string", leg.codecText, false⟩] else []

def extraVariables : List DialVar :=
  (if leg.privacy then
    privacyVariables leg.columns.privacyMode (leg.ani caller) leg.cfg.fsNodeIP
  else []) ++ dtmfVariables leg.columns.dtmfMode ++
    [⟨"rtp_secure_media", srtpVar leg.columns.srtpMode, false⟩] ++
    headerVariables (leg.headerContext caller) (mergedRules leg.customerRules leg.carrierRules)

def callVariable : DialVar := ⟨"sip_h_X-SBC-Call", leg.callUUID, false⟩

/-- The variables of a leg with the values they should have. -/
def legVariables (seq : ℕ) : List DialVar :=
  leg.callVariable ::
    (leg.commonVariables caller seq ++ leg.codecVariables ++ leg.extraVariables caller)

end Leg

theorem egressVars_eq (ctx : HeaderContext) (m : HeaderMerge) :
    (m.plan ctx).egressVars = (headerVariables ctx m).map DialVar.text := by
  unfold HeaderMerge.plan headerVariables
  rw [List.map_filterMap]
  refine List.filterMap_congr (fun x _ => ?_)
  split_ifs
  · rw [Option.map_some, DialVar.text, headerVariable, if_pos rfl]
    rfl
  · rfl

variable (leg : Leg) (caller : String)

theorem Leg.extra_eq : leg.extra caller = (leg.extraVariables caller).map DialVar.text := by
  have hprivacy : (leg.privacyPart caller).2 = (if leg.privacy then
      privacyVariables leg.columns.privacyMode (leg.ani caller) leg.cfg.fsNodeIP
      else []).map DialVar.text := by
    unfold Leg.privacyPart
    split_ifs
    · cases leg.columns.privacyMode <;> rfl
    · rfl
  have hdtmf : dtmfVars leg.columns.dtmfMode =
      (dtmfVariables leg.columns.dtmfMode).map DialVar.text := by
    cases leg.columns.dtmfMode <;> decide
  rw [Leg.extra, Leg.extraVariables, List.map_append, List.map_append, List.map_append, hprivacy,
    hdtmf, Leg.headerPlan, applyHeaderRules, egressVars_eq]
  rfl

theorem Leg.dialVars_eq (seq : ℕ) :
    leg.dialVars caller seq = (leg.legVariables caller seq).map DialVar.text := by
  have hcodecs : (if leg.anchored then ["absolute_codec_string=" ++ leg.codecText] else []) =
      leg.codecVariables.map DialVar.text := by
    unfold Leg.codecVariables
    split_ifs <;> rfl
  rw [Leg.dialVars, hcodecs, leg.extra_eq, Leg.legVariables, List.map_cons, List.map_append,
    List.map_append]
  rfl

end Variables

section Clean

theorem clean_toString (n : ℤ) : dialMarks.Clean (toString n).toList := by
  intro c hc
  refine ⟨?_, ?_, ?_⟩ <;>
    · rintro rfl
      exact notMem_toString (by decide) (by decide) n hc

theorem clean_repr (n : ℕ) : dialMarks.Clean (toString n).toList := clean_toString (n : ℤ)

theorem clean_uuidText (id : UUID) : dialMarks.Clean (uuidText id).toList := by
  intro c hc
  rcases mem_uuidText hc with rfl | ⟨k, hk, rfl⟩
  · decide
  · interval_cases k <;> decide +kernel

theorem varName_header (r : HeaderRule) :
    VarName ("sip_h_" ++ canonicalHeader r.header.toLower) := by
  have hno {c : Char} (hlower : c.toLower = c) (hupper : c.toUpper = c)
      (hc : (c.isAlphanum || c = '-') = false) (hfront : c ∉ "sip_h_".toList) :
      c ∉ ("sip_h_" ++ canonicalHeader r.header.toLower).toList := by
    rw [String.toList_append, List.mem_append, not_or]
    exact ⟨hfront, r.notMem_canonical hlower hupper hc⟩
  refine ⟨hno (by decide) (by decide) (by decide) (by decide), fun c hc => ⟨?_, ?_, ?_⟩⟩ <;>
    · rintro rfl
      exact hno (by decide) (by decide) (by decide) (by decide) hc

variable (leg : Leg) (caller : String)

theorem mem_headerVariables {ctx : HeaderContext} {customerRules carrierRules : List HeaderRule}
    {w : DialVar} (h : w ∈ headerVariables ctx (mergedRules customerRules carrierRules)) :
    w.escapes = true ∧ VarName w.name := by
  obtain ⟨r, value, rfl⟩ :=
    (follows_ruleSequence customerRules carrierRules).mem_plan (headerVariable ctx) h
  exact ⟨rfl, varName_header r⟩

theorem varName_dtmfVariables (mode : DtmfMode) : ∀ w ∈ dtmfVariables mode, VarName w.name := by
  cases mode <;> decide

theorem varName_privacyVariables (mode : PrivacyMode) (realCaller nodeIP : String) :
    ∀ w ∈ privacyVariables mode realCaller nodeIP, VarName w.name := by
  cases mode <;> simp only [privacyVariables, List.forall_mem_cons] <;> decide

theorem Leg.varName_legVariables (seq : ℕ) : ∀ w ∈ leg.legVariables caller seq, VarName w.name := by
  have hcall : VarName "sip_h_X-SBC-Call" := by decide
  refine List.forall_mem_cons.mpr ⟨hcall, ?_⟩
  refine List.forall_mem_append.mpr ⟨List.forall_mem_append.mpr ⟨?_, ?_⟩, ?_⟩
  · simp only [Leg.commonVariables, List.forall_mem_cons]
    decide
  · unfold Leg.codecVariables
    split_ifs
    · simp only [List.forall_mem_cons]
      decide
    · exact fun w hw => absurd hw List.not_mem_nil
  · unfold Leg.extraVariables
    intro w hw
    rcases List.mem_append.mp hw with hw | hheader
    · rcases List.mem_append.mp hw with hw | hsrtp
      · rcases List.mem_append.mp hw with hprivacy | hdtmf
        · split_ifs at hprivacy
          · exact varName_privacyVariables _ _ _ w hprivacy
          · exact absurd hprivacy List.not_mem_nil
        · exact varName_dtmfVariables _ w hdtmf
      · have hname : VarName "rtp_secure_media" := by decide
        rw [List.mem_singleton.mp hsrtp]
        exact hname
    · exact (mem_headerVariables hheader).2

/-- The values of the variables that are not escaped. -/
def Raw (l : List DialVar) : Prop := ∀ w ∈ l, w.escapes = false → dialMarks.Clean w.value.toList

theorem raw_nil : Raw [] := fun _ hw => absurd hw List.not_mem_nil

theorem raw_cons {name value : String} {l : List DialVar} :
    Raw (⟨name, value, false⟩ :: l) ↔ dialMarks.Clean value.toList ∧ Raw l := by
  rw [Raw, List.forall_mem_cons, forall_prop_of_true rfl]
  rfl

theorem raw_append {l l' : List DialVar} : Raw (l ++ l') ↔ Raw l ∧ Raw l' :=
  List.forall_mem_append

/-- Every text that is put into the dial string as it is has no comma, backslash
or closing bracket. -/
structure Leg.TextsClean : Prop where
  call : dialMarks.Clean leg.callUUID.toList
  callerID : dialMarks.Clean (leg.callerID caller).toList
  codecs : leg.anchored = true → dialMarks.Clean leg.codecText.toList
  identity : leg.privacy = true → leg.columns.privacyMode = .pass →
    dialMarks.Clean (leg.ani caller).toList ∧ dialMarks.Clean leg.cfg.fsNodeIP.toList

theorem raw_dtmfVariables (mode : DtmfMode) : Raw (dtmfVariables mode) := by
  unfold Raw
  cases mode <;> decide

theorem raw_privacyVariables (mode : PrivacyMode) (realCaller nodeIP : String) :
    Raw (privacyVariables mode realCaller nodeIP) ↔
      (mode = .pass → dialMarks.Clean realCaller.toList ∧ dialMarks.Clean nodeIP.toList) := by
  cases mode with
  | anonymize =>
    rw [privacyVariables, raw_cons, raw_cons]
    exact ⟨fun _ h => (by cases h), fun _ => ⟨by decide, by decide, raw_nil⟩⟩
  | ignore => exact ⟨fun _ h => (by cases h), fun _ => raw_nil⟩
  | pass =>
    have hid : dialMarks.Clean "id".toList := by decide
    have hfront : dialMarks.Clean "<sip:".toList := by decide
    have hat : dialMarks.Clean "@".toList := by decide
    have hend : dialMarks.Clean ">".toList := by decide
    rw [privacyVariables, raw_cons, raw_cons, String.toList_append, String.toList_append,
      String.toList_append, String.toList_append]
    simp only [Marks.Clean.append_iff, hid, hfront, hat, hend, raw_nil, true_and, and_true,
      forall_const]

theorem raw_commonVariables (seq : ℕ) :
    Raw (leg.commonVariables caller seq) ↔ dialMarks.Clean (leg.callerID caller).toList := by
  have hbool (b : Bool) : dialMarks.Clean (toString b).toList := by
    cases b <;> decide
  have hfalse : dialMarks.Clean "false".toList := by decide
  have hnone : dialMarks.Clean "none".toList := by decide
  simp only [Leg.commonVariables, raw_cons, raw_nil, clean_toString, clean_repr, clean_uuidText,
    hbool, hfalse, hnone, and_true, and_self]

theorem raw_codecVariables :
    Raw leg.codecVariables ↔ (leg.anchored = true → dialMarks.Clean leg.codecText.toList) := by
  unfold Leg.codecVariables
  split_ifs with hanchored
  · rw [raw_cons, and_iff_left raw_nil, forall_prop_of_true hanchored]
  · exact ⟨fun _ h => absurd h hanchored, fun _ => raw_nil⟩

theorem raw_extraVariables :
    Raw (leg.extraVariables caller) ↔ (leg.privacy = true → leg.columns.privacyMode = .pass →
      dialMarks.Clean (leg.ani caller).toList ∧ dialMarks.Clean leg.cfg.fsNodeIP.toList) := by
  have hsrtp (mode : SrtpMode) : dialMarks.Clean (srtpVar mode).toList := by
    cases mode <;> decide
  have hheaders : Raw (headerVariables (leg.headerContext caller)
      (mergedRules leg.customerRules leg.carrierRules)) := fun w hw hraw =>
    absurd hraw (by rw [(mem_headerVariables hw).1]; exact Bool.false_ne_true.symm)
  rw [Leg.extraVariables, raw_append, raw_append, raw_append, raw_cons,
    and_iff_left hheaders, and_iff_left ⟨hsrtp _, raw_nil⟩, and_iff_left (raw_dtmfVariables _)]
  split_ifs with hprivacy
  · rw [raw_privacyVariables, forall_prop_of_true hprivacy]
  · exact ⟨fun _ h => absurd h hprivacy, fun _ => raw_nil⟩

theorem raw_legVariables (seq : ℕ) :
    Raw (leg.legVariables caller seq) ↔ leg.TextsClean caller := by
  rw [Leg.legVariables, Leg.callVariable, raw_cons, raw_append, raw_append, raw_commonVariables,
    raw_codecVariables, raw_extraVariables]
  constructor
  · rintro ⟨hcall, ⟨hcaller, hcodecs⟩, hidentity⟩
    exact ⟨hcall, hcaller, hcodecs, hidentity⟩
  · rintro ⟨hcall, hcaller, hcodecs, hidentity⟩
    exact ⟨hcall, ⟨hcaller, hcodecs⟩, hidentity⟩

section Sample

def sampleColumns : LegColumns where
  aniPrefix := ""
  dniPrefix := ""
  stripDigits := 0
  endpointLB := .failover
  mediaMode := .proxy
  dtmfMode := .rfc2833
  srtpMode := .off
  privacyMode := .anonymize
  ignoreEarlyMedia := false

def sampleLeg : Leg where
  u := plainCase
  cfg := { sampleConfig with fsNodeIP := "192.0.2.10" }
  cust := sampleCustomer
  customerMedia := .proxy
  customerRules := []
  carrier := sampleGateway 1 "a" ""
  columns := sampleColumns
  carrierRules := []
  callUUID := uuidText 42
  called := "4930123456"
  privacy := false
  forwardIdentity := false
  offered := ""

end Sample

theorem Leg.parse_dialString_iff (seq : ℕ) (gateway : String) :
    parseDialString (leg.dialString caller seq gateway) =
        some ((leg.legVariables caller seq).map DialVar.meant, leg.target gateway) ↔
      leg.TextsClean caller := by
  rw [Leg.dialString, leg.dialVars_eq]
  refine Iff.trans ?_ (raw_legVariables leg caller seq)
  exact parse_dialVars_iff (leg.varName_legVariables caller seq) _

/-- The dial string of a leg is read as it is meant exactly if the texts that are
put into it unescaped, the caller's number among them, have nothing to escape. -/
theorem dial_string_structure_iff (fromUser pai : String) (seq : ℕ) (gateway : String) :
    parseDialString (leg.dialString (leg.callerOf fromUser pai) seq gateway) =
        some ((leg.legVariables (leg.callerOf fromUser pai) seq).map DialVar.meant,
          "sofia/gateway/" ++ gateway ++ "/" ++ leg.dialNumber) ↔
      leg.TextsClean (leg.callerOf fromUser pai) :=
  leg.parse_dialString_iff _ seq gateway

/-- A From user without digits is put into the dial string as it is. This one
adds a header to the INVITE. -/
theorem from_user_adds_header :
    sampleLeg.callerID (sampleLeg.callerOf "eve,sip_h_X-Admin=yes" "") = "eve,sip_h_X-Admin=yes" ∧
      parseDialString
          (sampleLeg.dialString (sampleLeg.callerOf "eve,sip_h_X-Admin=yes" "") 1 "a") ≠
        some ((sampleLeg.legVariables (sampleLeg.callerOf "eve,sip_h_X-Admin=yes" "") 1).map
          DialVar.meant, "sofia/gateway/a/4930123456") := by
  have hcaller : sampleLeg.callerID (sampleLeg.callerOf "eve,sip_h_X-Admin=yes" "") =
      "eve,sip_h_X-Admin=yes" := by decide +kernel
  refine ⟨hcaller, fun hparse => ?_⟩
  have hclean := ((sampleLeg.parse_dialString_iff _ 1 "a").mp hparse).callerID
  rw [hcaller] at hclean
  exact absurd hclean (by decide)

end Clean

end SuperSbc.CallControl
