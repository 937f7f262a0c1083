import SuperSbc.Admin.HeaderRules
import SuperSbc.CallControl.DialList
import SuperSbc.CallControl.Passthrough

/-!
The headers that say who calls. `pipeline.lua` reads a request to the API from
the variables of the session, the API routes the call, and the loop over the
carriers adds headers of the session to each dial string: here as one function
from the variables to the INVITEs.
-/

namespace SuperSbc.CallControl

open Admin FsConfig SuperSbc.Numbering Text

abbrev Variables := String → Option Bytes

section Session

variable (v : Variables)

/-- `string.lower`, in the C locale. -/
def lowerBytes (s : Bytes) : Bytes := s.map (fun c => if 65 ≤ c ∧ c ≤ 90 then c + 32 else c)

def privacyRequested : Bool :=
  let priv := lowerBytes
    (((v "sip_Privacy").or ((v "sip_i_privacy").or (v "sip_h_Privacy"))).getD [])
  asciiBytes "id" <:+: priv ∨ asciiBytes "user" <:+: priv ∨ asciiBytes "header" <:+: priv ∨
    lowerBytes ((v "sip_from_user").getD []) = asciiBytes "anonymous"

/-- The first place where a text is followed by bytes that are no stops, and
those bytes. -/
def captureAfter (front stops : Bytes) : Bytes → Option Bytes
  | [] => none
  | c :: rest =>
    let captured := ((c :: rest).drop front.length).takeWhile (· ∉ stops)
    if front <+: c :: rest ∧ captured ≠ [] then some captured else captureAfter front stops rest

def paiUser : Bytes :=
  let pai := ((v "sip_P-Asserted-Identity").or (v "sip_h_P-Asserted-Identity")).getD []
  ((captureAfter (asciiBytes "sip:") (asciiBytes "@>;") pai).or
    (captureAfter (asciiBytes "tel:") (asciiBytes ">;") pai)).getD []

def callerUser : Bytes := ((v "sip_from_user").or (v "caller_id_number")).getD []

end Session

section Names

theorem LastWriterWins.passed_iff {ctx : HeaderContext} {rules : List HeaderRule}
    {plan : HeaderPlan} (h : LastWriterWins ctx rules plan) {header : String}
    (hok : HeaderOK header) :
    (∃ name ∈ plan.passthrough, name.toLower = header.toLower) ↔
      ∃ r, lastRule rules .egress header.toLower = some r ∧ r.action = .passthrough := by
  have hfilter : (∃ name ∈ plan.passthrough, name.toLower = header.toLower) ↔
      plan.passthrough.filter (fun name => name.toLower = header.toLower) ≠ [] := by
    simp [List.filter_eq_nil_iff]
  rw [hfilter, h.passed header hok]
  cases lastRule rules .egress header.toLower with
  | none => simp
  | some r => by_cases haction : r.action = .passthrough <;> simp [haction]

variable (leg : Leg) (caller : String)

theorem Leg.lastWriterWins_headerPlan :
    LastWriterWins (leg.headerContext caller) (ruleSequence leg.customerRules leg.carrierRules)
      (leg.headerPlan caller) :=
  (follows_ruleSequence leg.customerRules leg.carrierRules).lastWriterWins _

/-- Besides what the rules say, a verified identity is forwarded. -/
theorem Leg.mem_passthrough {name : String} (h : name ∈ leg.passthrough caller) :
    name ∈ (leg.headerPlan caller).passthrough ∨ name = "Identity" := by
  unfold Leg.passthrough at h
  dsimp only at h
  split_ifs at h
  · exact (List.mem_append.mp h).imp_right List.mem_singleton.mp
  · exact .inl h

theorem Leg.passthrough_of_plan {name : String} (h : name ∈ (leg.headerPlan caller).passthrough) :
    name ∈ leg.passthrough caller := by
  unfold Leg.passthrough
  dsimp only
  split_ifs
  · exact List.mem_append_left _ h
  · exact h

/-- A header that is not `Identity` is listed if the last rule for it says so. -/
theorem Leg.listed_iff {header : String} (hok : HeaderOK header)
    (hother : "Identity".toLower ≠ header.toLower) :
    (∃ name ∈ leg.passthrough caller, name.toLower = header.toLower) ↔
      ∃ r, lastRule (ruleSequence leg.customerRules leg.carrierRules) .egress header.toLower =
        some r ∧ r.action = .passthrough := by
  rw [← (leg.lastWriterWins_headerPlan caller).passed_iff hok]
  constructor
  · rintro ⟨name, hname, hlower⟩
    rcases leg.mem_passthrough caller hname with hplan | rfl
    · exact ⟨name, hplan, hlower⟩
    · exact absurd hlower hother
  · rintro ⟨name, hname, hlower⟩
    exact ⟨name, leg.passthrough_of_plan caller hname, hlower⟩

end Names

namespace DialList

section Invites

variable (s : Surroundings) (t : CarrierTables) (text : Bytes → String) (v : Variables)

/-- The caller's number, where `text` is what the API reads of bytes. -/
def Surroundings.callerFrom : String :=
  normalizeCaller (normOptions s.cust)
    (if s.cust.trustPAI ∧ text (paiUser v) ≠ "" then text (paiUser v) else text (callerUser v))

/-- The surroundings of the call that comes with the variables. -/
def Surroundings.received : Surroundings :=
  { s with caller := s.callerFrom text v, privacy := privacyRequested v }

/-- What is dialled for one entry of the dial list. -/
def invite (ch : CarrierChoice) : Option Bytes :=
  passHeaders v (headerNames ch.passthrough) (utf8Bytes ch.dialString)

def invites : Except String (List (Option Bytes)) :=
  (routeWith (s.received text v) t).map (fun res => res.carriers.map (invite v))

end Invites

section Privacy

variable {s : Surroundings} {t : CarrierTables} {text : Bytes → String} {v v' : Variables}
  {res : RouteResult}

def identityHeaders : List String :=
  ["From", "To", "P-Asserted-Identity", "Remote-Party-ID", "Privacy"]

/-- Header names have no case. -/
def IsIdentity (name : String) : Prop := name.toLower ∈ identityHeaders.map String.toLower

/-- The same headers, identity headers apart. -/
def AgreeElsewhere (v v' : Variables) : Prop :=
  ∀ name, ¬ IsIdentity name → v' ("sip_h_" ++ name) = v ("sip_h_" ++ name)

/-- No identity header is listed, and none reaches an INVITE other than as the
number of the caller or as a wish for privacy. -/
structure IdentityPrivate (s : Surroundings) (t : CarrierTables) (text : Bytes → String)
    (v : Variables) (res : RouteResult) : Prop where
  unlisted : ∀ ch ∈ res.carriers, ∀ name ∈ ch.passthrough, ¬ IsIdentity name
  blind : ∀ v', AgreeElsewhere v v' → s.callerFrom text v' = s.callerFrom text v →
    privacyRequested v' = privacyRequested v → invites s t text v' = invites s t text v

/-- The last rule for a header passes it on to the carrier. -/
def Surroundings.Forwards (s : Surroundings) (carrierId : UUID) (header : String) : Prop :=
  ∃ r, lastRule (ruleSequence s.customerRules (s.carrierRules carrierId)) .egress header.toLower =
    some r ∧ r.action = .passthrough

theorem identityHeaders_ok : ∀ header ∈ identityHeaders,
    HeaderOK header ∧ "Identity".toLower ≠ header.toLower := by
  decide +kernel

theorem listed_iff_forwards (hres : routeWith s t = .ok res) {ch : CarrierChoice}
    (hch : ch ∈ res.carriers) {header : String} (hheader : header ∈ identityHeaders) :
    (∃ name ∈ ch.passthrough, name.toLower = header.toLower) ↔
      s.Forwards ch.carrierId header := by
  obtain ⟨hok, hother⟩ := identityHeaders_ok header hheader
  obtain ⟨route, considered, h⟩ := exists_considered hres hch
  obtain ⟨x, -, cand, -, e, -, seq, rfl⟩ := h.of_mem_carriers hch
  exact (s.leg cand.carrier).listed_iff s.caller hok hother

theorem unlisted_iff (hres : routeWith s t = .ok res) :
    (∀ ch ∈ res.carriers, ∀ name ∈ ch.passthrough, ¬ IsIdentity name) ↔
      ∀ ch ∈ res.carriers, ∀ header ∈ identityHeaders, ¬ s.Forwards ch.carrierId header := by
  constructor
  · intro hunlisted ch hch header hheader hforwards
    obtain ⟨name, hname, hlower⟩ := (listed_iff_forwards hres hch hheader).mpr hforwards
    refine hunlisted ch hch name hname ?_
    unfold IsIdentity
    rw [hlower]
    exact List.mem_map_of_mem hheader
  · intro hkept ch hch name hname hidentity
    obtain ⟨header, hheader, hlower⟩ := List.mem_map.mp hidentity
    exact hkept ch hch header hheader
      ((listed_iff_forwards hres hch hheader).mp ⟨name, hname, hlower.symm⟩)

theorem passHeaders_congr {names : List HeaderName} (dial : Bytes)
    (h : ∀ name ∈ names, v' ("sip_h_" ++ name.text) = v ("sip_h_" ++ name.text)) :
    passHeaders v' names dial = passHeaders v names dial := by
  induction names generalizing dial with
  | nil => rfl
  | cons name rest ih =>
    obtain ⟨hname, hrest⟩ := List.forall_mem_cons.mp h
    rw [passHeaders, passHeaders, hname]
    cases (v ("sip_h_" ++ name.text)).filter (· ≠ []) with
    | none => exact ih dial hrest
    | some value =>
      have hloop : passHeaders v' rest = passHeaders v rest :=
        funext (fun dial => ih dial hrest)
      exact congrArg (addHeader dial name value).bind hloop

theorem invite_congr (hagree : AgreeElsewhere v v') {ch : CarrierChoice}
    (hunlisted : ∀ name ∈ ch.passthrough, ¬ IsIdentity name) : invite v' ch = invite v ch := by
  refine passHeaders_congr _ (fun name hname => ?_)
  obtain ⟨listed, hlisted, hmade⟩ := List.mem_filterMap.mp hname
  split_ifs at hmade with hok
  cases hmade
  exact hagree listed (hunlisted listed hlisted)

/-- Whatever rules there are, identity headers are private exactly where the
last rule for each of them does not pass it on. -/
theorem identity_private_iff (s : Surroundings) (t : CarrierTables) (text : Bytes → String)
    (v : Variables) (res : RouteResult) (hres : routeWith (s.received text v) t = .ok res) :
    IdentityPrivate s t text v res ↔
      ∀ ch ∈ res.carriers, ∀ header ∈ identityHeaders, ¬ s.Forwards ch.carrierId header := by
  constructor
  · intro h
    exact (unlisted_iff hres).mp h.unlisted
  · intro hkept
    have hunlisted := (unlisted_iff hres).mpr hkept
    refine ⟨hunlisted, fun v' hagree hcaller hprivacy => ?_⟩
    have hreceived : s.received text v' = s.received text v := by
      unfold Surroundings.received
      rw [hcaller, hprivacy]
    unfold invites
    rw [hreceived, hres]
    exact congrArg Except.ok
      (List.map_congr_left (fun ch hch => invite_congr hagree (hunlisted ch hch)))

theorem callerFrom_of_untrusted (huntrusted : s.cust.trustPAI = false)
    (hcaller : callerUser v' = callerUser v) : s.callerFrom text v' = s.callerFrom text v := by
  have hnot {pai : String} : ¬ (s.cust.trustPAI = true ∧ pai ≠ "") := by
    rw [huntrusted]
    exact fun h => Bool.false_ne_true h.1
  unfold Surroundings.callerFrom
  rw [if_neg hnot, if_neg hnot, hcaller]

/-- A customer's rule passes on asserted identities, and nothing refuses it. -/
def sampleRequests : List RuleRequest :=
  [.create 9 ⟨.customer, 7⟩ ⟨"egress", "passthrough", "P-Asserted-Identity", "", 0, none⟩]

def sampleRemoved : List RuleRequest :=
  sampleRequests ++
    [.create 10 ⟨.carrier, 1⟩ ⟨"egress", "remove", "p-asserted-identity", "", 0, none⟩]

/-- The call of `sampleSurroundings` with the rules of a table. -/
def sampleRuled (table : List HeaderRuleRow) : Surroundings :=
  { sampleSurroundings with
    customerRules := headerRules table ⟨.customer, sampleSurroundings.cust.id⟩
    carrierRules := fun id => headerRules table ⟨.carrier, id⟩ }

def sampleText (s : Bytes) : String := String.ofList (s.map (fun b => Char.ofNat b.toNat))

def sampleAsserted (value : String) : Variables := fun name =>
  if name = "sip_from_user" then some (asciiBytes "4930999")
  else if name = "sip_h_P-Asserted-Identity" then some (asciiBytes value)
  else none

theorem agreeElsewhere_sampleAsserted (value value' : String) :
    AgreeElsewhere (sampleAsserted value) (sampleAsserted value') := by
  intro name hname
  have hvariable : "sip_h_P-Asserted-Identity" = "sip_h_" ++ "P-Asserted-Identity" := by
    decide +kernel
  have hidentity : IsIdentity "P-Asserted-Identity" :=
    List.mem_map_of_mem (by decide +kernel)
  have hother : "sip_h_" ++ name ≠ "sip_h_P-Asserted-Identity" := by
    intro heq
    rw [hvariable, String.append_right_inj] at heq
    exact hname (heq ▸ hidentity)
  unfold sampleAsserted
  rw [if_neg hother, if_neg hother]

theorem callerUser_sampleAsserted (value : String) :
    callerUser (sampleAsserted value) = asciiBytes "4930999" := by
  unfold callerUser sampleAsserted
  rw [if_pos rfl]
  rfl

/-- A rule of the carrier that removes the header prevails. -/
theorem identity_private_sampleRemoved :
    ∃ res, routeWith ((sampleRuled (serveAll [] sampleRemoved)).received sampleText
        (sampleAsserted "sip:1@a")) sampleClash = .ok res ∧
      res.carriers.map (·.carrierId) = [1] ∧
      IdentityPrivate (sampleRuled (serveAll [] sampleRemoved)) sampleClash sampleText
        (sampleAsserted "sip:1@a") res := by
  have hview : (routeWith ((sampleRuled (serveAll [] sampleRemoved)).received sampleText
      (sampleAsserted "sip:1@a")) sampleClash).toOption.map (fun res =>
        res.carriers.map (·.carrierId)) = some [1] := by decide +kernel
  obtain ⟨res, hres, hcarriers⟩ := exists_of_view hview
  have hlower : ∀ header ∈ identityHeaders, header.toLower ∈
      ["from", "to", "p-asserted-identity", "remote-party-id", "privacy"] := by decide +kernel
  have hlast : ∀ key ∈ ["from", "to", "p-asserted-identity", "remote-party-id", "privacy"],
      (lastRule (ruleSequence (sampleRuled (serveAll [] sampleRemoved)).customerRules
        ((sampleRuled (serveAll [] sampleRemoved)).carrierRules 1)) .egress key).map
          (·.action) ≠ some .passthrough := by decide +kernel
  refine ⟨res, hres, hcarriers, (identity_private_iff _ _ _ _ res hres).mpr ?_⟩
  rintro ch hch header hheader ⟨r, hr, haction⟩
  have hid : ch.carrierId = 1 := by
    have hmem := List.mem_map_of_mem (f := (·.carrierId)) hch
    rw [hcarriers] at hmem
    exact List.mem_singleton.mp hmem
  rw [hid] at hr
  exact hlast _ (hlower header hheader) (by rw [hr, Option.map_some, haction])

/-- The rule lists the header, and the identity a customer asserts reaches the
carrier although it is not trusted. -/
theorem asserted_identity_passed :
    ∃ res, routeWith ((sampleRuled (serveAll [] sampleRequests)).received sampleText
        (sampleAsserted "sip:1@a")) sampleClash = .ok res ∧
      res.carriers.map (·.passthrough) = [["P-Asserted-Identity"]] ∧
      invites (sampleRuled (serveAll [] sampleRequests)) sampleClash sampleText
          (sampleAsserted "sip:2@a") ≠
        invites (sampleRuled (serveAll [] sampleRequests)) sampleClash sampleText
          (sampleAsserted "sip:1@a") ∧
      ¬ IdentityPrivate (sampleRuled (serveAll [] sampleRequests)) sampleClash sampleText
        (sampleAsserted "sip:1@a") res := by
  have hview : (routeWith ((sampleRuled (serveAll [] sampleRequests)).received sampleText
      (sampleAsserted "sip:1@a")) sampleClash).toOption.map (fun res =>
        res.carriers.map (·.passthrough)) = some [["P-Asserted-Identity"]] := by decide +kernel
  obtain ⟨res, hres, hlisted⟩ := exists_of_view hview
  have hinvites : (invites (sampleRuled (serveAll [] sampleRequests)) sampleClash sampleText
      (sampleAsserted "sip:2@a")).toOption ≠
      (invites (sampleRuled (serveAll [] sampleRequests)) sampleClash sampleText
        (sampleAsserted "sip:1@a")).toOption := by decide +kernel
  have hdiffer := fun heq => hinvites (congrArg Except.toOption heq)
  refine ⟨res, hres, hlisted, hdiffer, fun hprivate => hdiffer ?_⟩
  have hcaller : callerUser (sampleAsserted "sip:2@a") = callerUser (sampleAsserted "sip:1@a") := by
    rw [callerUser_sampleAsserted, callerUser_sampleAsserted]
  exact hprivate.blind _ (agreeElsewhere_sampleAsserted _ _) (callerFrom_of_untrusted rfl hcaller)
    (by decide +kernel)

end Privacy

end DialList

end SuperSbc.CallControl
