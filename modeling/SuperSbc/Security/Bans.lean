import SuperSbc.CallControl.Addresses
import SuperSbc.CallControl.Exits
import SuperSbc.Interleaving.Trace
import SuperSbc.Jobs
import SuperSbc.Net.Address

/-!
Automatic bans. Two counters feed one list: unauthorised INVITEs by source
address, and failed sign-ins on the web. The second asks first whether the
address is a customer's or a carrier's; the first does not.

The tables stand still while the counters run. How Postgres reads the text of
an address and writes it with `host()` and how Go writes a duration are
parameters, as is the own-address check of a node. A counter can expire at any
time.
-/

namespace SuperSbc.Security

open CallControl Interleaving

/-- `$1::inet`, `host()` and a duration in a text. -/
structure Formats where
  read : String → Option Inet
  host : Inet → String
  duration : ℤ → String

structure CarrierSources where
  id : UUID
  deleted : Bool
  gatewayHost : String
  signallingSources : List String

structure EndpointHost where
  carrierId : UUID
  host : String

/-- Everything that lists an address. -/
structure SourceTables where
  customers : CustomerTables
  carriers : List CarrierSources
  endpoints : List EndpointHost

/-- `KnownSourceIP`; `none` is an error of the query. Endpoints count whoever
their carrier is. -/
def knownSourceIP (p : Formats) (t : SourceTables) (ip : String) : Option Bool :=
  (p.read ip).map (fun a =>
    t.customers.ips.any (·.ipCidr.contains a) ||
    t.carriers.any (fun c => !c.deleted &&
      (p.host a ∈ c.signallingSources || c.gatewayHost = p.host a)) ||
    t.endpoints.any (·.host = p.host a))

/-- The texts that list the addresses of a carrier. -/
def SourceTables.listed (t : SourceTables) (c : CarrierSources) : List String :=
  c.gatewayHost :: c.signallingSources ++
    (t.endpoints.filter (·.carrierId = c.id)).map (·.host)

/-- An address in a customer's network, or of a carrier that is not deleted. -/
inductive Known (p : Formats) (t : SourceTables) (a : Inet) : Prop where
  | customer (i : CustomerIP) (hmem : i ∈ t.customers.ips) (hin : i.ipCidr.contains a = true)
  | carrier (c : CarrierSources) (text : String) (net : Inet) (hmem : c ∈ t.carriers)
      (hlive : c.deleted = false) (hlisted : text ∈ t.listed c) (hread : p.read text = some net)
      (hin : net.contains a = true)

/-- The tunables of the ban list. `redis` is false without a client. -/
structure BanConfig where
  redis : Bool
  threshold : ℤ
  webThreshold : ℤ
  window : ℤ
  duration : ℤ

/-- A row of `banned_ips`. -/
structure BannedIP where
  ip : Inet
  reason : String
  hits : ℤ
  manual : Bool
  expiresAt : Option Time
deriving DecidableEq

/-- A notification to the operator. -/
structure SecurityEvent where
  kind : String
  ip : String
  detail : String
deriving DecidableEq

/-- The counters by address, the ban list and what was reported. -/
structure BanState where
  scan : String → ℤ
  web : String → ℤ
  bans : List BannedIP
  events : List SecurityEvent

/-- What Redis and Postgres answer: whether the customer is looked up, and the
increment, the lookup of the address, the ban and the removal of the counter go
through, and whether the address is the node's own. -/
structure CountReplies where
  customerByID : Bool
  customerByIP : QueryReply
  incremented : Bool
  looked : Bool
  banned : Bool
  deleted : Bool
  own : Bool

/-- `Ban`: insert, or replace what the list has for the address. -/
def ban (new : BannedIP) (bans : List BannedIP) : List BannedIP :=
  if bans.any (·.ip = new.ip) then
    bans.map (fun old =>
      if old.ip = new.ip then { new with manual := old.manual || new.manual } else old)
  else bans ++ [new]

section Counters

variable (p : Formats) (t : SourceTables) (cfg : BanConfig) (now : Time) (r : CountReplies)

def countScanner (ip : String) (s : BanState) : BanState :=
  if cfg.threshold ≤ 0 ∨ cfg.redis = false ∨ ip = "" ∨ r.incremented = false then s
  else
    let n := s.scan ip + 1
    let s := { s with scan := Function.update s.scan ip n }
    if n < cfg.threshold then s
    else
      match if r.banned then p.read ip else none with
      | none => s
      | some a =>
        { s with
          scan := if r.deleted then Function.update s.scan ip 0 else s.scan
          bans := ban ⟨a, s!"{n} unauthorised INVITEs in {p.duration cfg.window}", n, false,
            some (now + cfg.duration)⟩ s.bans }

def authAbuseFallback : ℤ := 40

/-- An hour, a day and forty tries stand for what is not configured. -/
def BanConfig.webDefaults (cfg : BanConfig) : BanConfig :=
  { cfg with
    window := if cfg.window ≤ 0 then 3600 * 10 ^ 9 else cfg.window
    webThreshold := if cfg.webThreshold ≤ 0 then authAbuseFallback else cfg.webThreshold
    duration := if cfg.duration ≤ 0 then 24 * 3600 * 10 ^ 9 else cfg.duration }

/-- An address that can safely be dropped. -/
def bannableIP (ip : String) : Bool := (Net.parseIP ip.toList).any (fun a => !a.isLocal)

/-- The web counter at its threshold. Only an unknown public address is
banned. -/
def actOnAbuse (ip reason : String) (n : ℤ) (s : BanState) : BanState :=
  match if r.looked then knownSourceIP p t ip else none with
  | none | some true =>
    { s with events := s.events ++ [⟨"auth_abuse_known_source", ip, reason⟩] }
  | some false =>
    if bannableIP ip = false ∨ r.own then
      { s with events := s.events ++ [⟨"auth_abuse_local_source", ip, reason⟩] }
    else
      match if r.banned then p.read ip else none with
      | none => s
      | some a =>
        { s with
          bans := ban ⟨a, "web " ++ reason, n, false,
            some (now + cfg.webDefaults.duration)⟩ s.bans
          events := s.events ++ [⟨"auth_abuse_banned", ip, reason⟩] }

def noteAuthAbuse (ip what : String) (s : BanState) : BanState :=
  if cfg.redis = false ∨ ip = "" ∨ Net.parseIP ip.toList = none ∨ r.incremented = false then s
  else
    let n := s.web ip + 1
    let s := { s with web := Function.update s.web ip n }
    -- Once, not on every try past the line.
    if n ≠ cfg.webDefaults.webThreshold then s
    else
      actOnAbuse p t cfg now r ip
        s!"{n} failed {what} attempts in {p.duration cfg.webDefaults.window}" n s

end Counters

/-- An INVITE with what the address cache and the admission counters answer, a
failed authentication on the web, or a counter that expires. -/
inductive BanEvent where
  | invite (q : Origin) (replies : AuthReplies) (now : Time) (r : CountReplies)
  | authFailure (ip what : String) (now : Time) (r : CountReplies)
  | expireScan (ip : String)
  | expireWeb (ip : String)

/-- The answers of an authorisation, the customer tables being the store's. -/
def lookups (p : Formats) (t : SourceTables) (q : Origin) (r : CountReplies)
    (replies : AuthReplies) : AuthReplies :=
  { replies with
    customerByID := fun id => if r.customerByID then t.customers.customerByID id else none
    customerByIP := t.customers.askByIP p.read q r.customerByIP }

section Run

variable (p : Formats) (t : SourceTables) (call : Config) (cfg : BanConfig)

/-- A setup counts the address it rejects as not authorised. -/
def invite (q : Origin) (replies : AuthReplies) (now : Time) (r : CountReplies) (s : BanState) :
    BanState :=
  match (authorize call q.ip q.port q.transport (lookups p t q r replies)).1 with
  | .rejected _ verdict _ =>
    if verdict.reason = "IP not authorized" then countScanner p cfg now r q.ip s else s
  | .failed _ | .admitted _ => s

def banStep : BanEvent → BanState → Option BanState
  | .invite q replies now r, s => some (invite p t call cfg q replies now r s)
  | .authFailure ip what now r, s => some (noteAuthAbuse p t cfg now r ip what s)
  | .expireScan ip, s => some { s with scan := Function.update s.scan ip 0 }
  | .expireWeb ip, s => some { s with web := Function.update s.web ip 0 }

end Run

variable {b : BannedIP} {ip : String} {replies : AuthReplies}

/-- The customer of an INVITE is not missed: the cache does not say there is
none, a row of the tables has its address, port and transport, and the query
for it does not break off. -/
structure Identified (p : Formats) (t : SourceTables) (q : Origin) (r : CountReplies)
    (replies : AuthReplies) : Prop where
  unbroken : r.customerByIP ≠ .broken
  uncached : ∀ entry, replies.ipEntry = some entry → entry ≠ .notFound
  listed : ∀ a, p.read q.ip = some a → t.customers.ipMatches a q ≠ []

/-- Every text that lists an address for a carrier is what `host()` writes for
it. A block, or another spelling, is not. -/
def ListedByHost (p : Formats) (t : SourceTables) (a : Inet) : Prop :=
  ∀ c ∈ t.carriers, c.deleted = false → ∀ text ∈ t.listed c, ∀ net,
    p.read text = some net → net.contains a = true → text = p.host a

/-- What keeps the known addresses off the list. Unless scanner protection is
off or the counter is below the threshold, an INVITE comes from an unknown
address or from a customer who is not missed. A sign-in fails from an address
that carriers list by `host()`. -/
def BanEvent.Expected (p : Formats) (t : SourceTables) (cfg : BanConfig) (s : BanState) :
    BanEvent → Prop
  | .invite q replies _ r => cfg.threshold ≤ 0 ∨ s.scan q.ip + 1 < cfg.threshold ∨
      (∀ a, p.read q.ip = some a → ¬ Known p t a) ∨ Identified p t q r replies
  | .authFailure ip _ _ _ => ∀ a, p.read ip = some a → ListedByHost p t a
  | .expireScan _ | .expireWeb _ => True

variable {p : Formats} {t : SourceTables} {call : Config} {cfg : BanConfig} {now : Time}
  {r : CountReplies} {s : BanState}

theorem mem_ban {new : BannedIP} {bans : List BannedIP} (hmem : b ∈ ban new bans) :
    b ∈ bans ∨ b.ip = new.ip := by
  unfold ban at hmem
  split_ifs at hmem
  · obtain ⟨old, hold, rfl⟩ := List.mem_map.mp hmem
    split_ifs
    · exact .inr rfl
    · exact .inl hold
  · rcases List.mem_append.mp hmem with hold | hnew
    · exact .inl hold
    · exact .inr (congrArg _ (List.mem_singleton.mp hnew))

/-- Whom the scanner protection bans: the address it counts, at the threshold. -/
theorem mem_countScanner (hmem : b ∈ (countScanner p cfg now r ip s).bans) :
    b ∈ s.bans ∨
      (0 < cfg.threshold ∧ cfg.threshold ≤ s.scan ip + 1 ∧ p.read ip = some b.ip) := by
  unfold countScanner at hmem
  split at hmem
  · exact .inl hmem
  · rename_i hon
    dsimp only at hmem
    split at hmem
    · exact .inl hmem
    · rename_i hcrossed
      split at hmem
      · exact .inl hmem
      · rename_i a hread
        rcases mem_ban hmem with hold | hip
        · exact .inl hold
        · split_ifs at hread
          rw [hip]
          exact .inr ⟨not_le.mp (fun hle => hon (.inl hle)), not_lt.mp hcrossed, hread⟩

theorem mem_actOnAbuse {reason : String} {n : ℤ}
    (hmem : b ∈ (actOnAbuse p t cfg now r ip reason n s).bans) :
    b ∈ s.bans ∨ (p.read ip = some b.ip ∧ knownSourceIP p t ip = some false) := by
  unfold actOnAbuse at hmem
  split at hmem
  · exact .inl hmem
  · exact .inl hmem
  · rename_i hunknown
    split at hmem
    · exact .inl hmem
    · split at hmem
      · exact .inl hmem
      · rename_i a hread
        rcases mem_ban hmem with hold | hip
        · exact .inl hold
        · split_ifs at hread hunknown
          rw [hip]
          exact .inr ⟨hread, hunknown⟩

/-- Whom the web counter bans: an address the tables did not know. -/
theorem mem_noteAuthAbuse {ip what : String} {b : BannedIP}
    (hmem : b ∈ (noteAuthAbuse p t cfg now r ip what s).bans) :
    b ∈ s.bans ∨ (p.read ip = some b.ip ∧ knownSourceIP p t ip = some false) := by
  unfold noteAuthAbuse at hmem
  split at hmem
  · exact .inl hmem
  · dsimp only at hmem
    split at hmem
    · exact .inl hmem
    · rcases mem_actOnAbuse hmem with hold | hunknown
      · exact .inl hold
      · exact .inr hunknown

/-- The lookup finds every known address that is listed by its own text. -/
theorem knownSourceIP_of_known {a : Inet} (hhost : ListedByHost p t a) (hread : p.read ip = some a)
    (hknown : Known p t a) : knownSourceIP p t ip = some true := by
  unfold knownSourceIP
  rw [hread, Option.map_some]
  cases hknown with
  | customer i hmem hin =>
    have hcustomer : t.customers.ips.any (·.ipCidr.contains a) = true :=
      List.any_eq_true.mpr ⟨i, hmem, hin⟩
    simp [hcustomer]
  | carrier c text net hmem hlive hlisted hnet hin =>
    obtain rfl : text = p.host a := hhost c hmem hlive text hlisted net hnet hin
    rcases List.mem_append.mp hlisted with hown | hendpoint
    · have hcarrier : t.carriers.any (fun c => !c.deleted &&
          (p.host a ∈ c.signallingSources || c.gatewayHost = p.host a)) = true := by
        refine List.any_eq_true.mpr ⟨c, hmem, ?_⟩
        rcases List.mem_cons.mp hown with hgateway | hsource
        · simp [hlive, ← hgateway]
        · simp [hlive, hsource]
      simp [hcarrier]
    · have hany : t.endpoints.any (·.host = p.host a) = true := by
        obtain ⟨e, he, hsame⟩ := List.mem_map.mp hendpoint
        exact List.any_eq_true.mpr ⟨e, List.mem_of_mem_filter he, by simp [hsame]⟩
      simp [hany]

theorem Identified.not_missed {q : Origin} (h : Identified p t q r replies) {a : Inet}
    (hread : p.read q.ip = some a) :
    findCustomer (lookups p t q r replies) ≠ .error .notFound := by
  have htable : t.customers.askByIP p.read q r.customerByIP ≠ .error .notFound := by
    cases hreply : r.customerByIP with
    | ran =>
      unfold CustomerTables.askByIP CustomerTables.customerByIP
      rw [hread]
      dsimp only
      cases hfirst : Query.first IPMatch.byPrecision (t.customers.ipMatches a q) with
      | none => exact absurd (Query.first_eq_none.mp hfirst) (h.listed a hread)
      | some m => simp
    | refused => simp [CustomerTables.askByIP]
    | broken => exact absurd hreply h.unbroken
  unfold findCustomer lookups
  dsimp only
  cases hentry : replies.ipEntry with
  | none => exact htable
  | some entry =>
    cases entry with
    | notFound => exact absurd rfl (h.uncached _ hentry)
    | found id =>
      cases id with
      | none => exact htable
      | some id =>
        dsimp only
        cases (if r.customerByID then t.customers.customerByID id else none) with
        | none => exact htable
        | some cust => simp

theorem authorizeCustomer_reason {cust : Customer} {who : Option Customer} {verdict : Reject}
    {detail : String} (h : (authorizeCustomer call cust replies).1 = .rejected who verdict detail) :
    verdict.reason ≠ "IP not authorized" := by
  have hglobal (h : (authorizeGlobal call cust replies).1 = .rejected who verdict detail) :
      verdict.reason ≠ "IP not authorized" := by
    unfold authorizeGlobal at h
    split at h
    · split at h
      · cases h
      · split_ifs at h
        · cases h
          decide
        · cases h
          decide
    · cases h
  unfold authorizeCustomer at h
  split at h
  · cases h
    decide
  · split at h
    · cases h
    · split_ifs at h
      · cases h
        decide
      · cases h
        decide
      · exact hglobal h

/-- An INVITE gets an address banned only if it was turned away as unknown. -/
theorem mem_invite {q : Origin} (hmem : b ∈ (invite p t call cfg q replies now r s).bans) :
    b ∈ s.bans ∨ (0 < cfg.threshold ∧ cfg.threshold ≤ s.scan q.ip + 1 ∧
      p.read q.ip = some b.ip ∧ ¬ Identified p t q r replies) := by
  unfold invite at hmem
  split at hmem
  · rename_i who verdict detail hverdict
    split at hmem
    · rename_i hreason
      rcases mem_countScanner hmem with hold | ⟨hon, hcrossed, hread⟩
      · exact .inl hold
      · refine .inr ⟨hon, hcrossed, hread, fun hidentified => ?_⟩
        unfold authorize at hverdict
        cases hfound : findCustomer (lookups p t q r replies) with
        | ok cust =>
          rw [hfound] at hverdict
          exact authorizeCustomer_reason hverdict hreason
        | error e =>
          cases e with
          | notFound => exact hidentified.not_missed hread hfound
          | failed =>
            rw [hfound] at hverdict
            cases hverdict
    · exact .inl hmem
  · exact .inl hmem
  · exact .inl hmem

theorem unknown_step {old : List BannedIP} (e : BanEvent) (s s' : BanState)
    (hinv : ∀ b ∈ s.bans, b ∈ old ∨ ¬ Known p t b.ip) (hexpected : e.Expected p t cfg s)
    (hstep : banStep p t call cfg e s = some s') : ∀ b ∈ s'.bans, b ∈ old ∨ ¬ Known p t b.ip := by
  intro b hb
  cases e with
  | invite q replies now r =>
    obtain rfl := Option.some.inj hstep
    rcases mem_invite hb with hold | ⟨hon, hcrossed, hread, hmissed⟩
    · exact hinv b hold
    · rcases hexpected with hoff | hbelow | hunknown | hidentified
      · exact absurd hon (not_lt.mpr hoff)
      · exact absurd hcrossed (not_le.mpr hbelow)
      · exact .inr (hunknown b.ip hread)
      · exact absurd hidentified hmissed
  | authFailure ip what now r =>
    obtain rfl := Option.some.inj hstep
    rcases mem_noteAuthAbuse hb with hold | ⟨hread, hunknown⟩
    · exact hinv b hold
    · refine .inr (fun hknown => ?_)
      rw [knownSourceIP_of_known (hexpected b.ip hread) hread hknown] at hunknown
      cases hunknown
  | expireScan ip | expireWeb ip =>
    obtain rfl := Option.some.inj hstep
    exact hinv b hb

/-- No sequence of INVITEs and failed sign-ins gets a customer's or a carrier's
address banned, as long as no INVITE from a known address reaches the
threshold of unauthorised ones and no sign-in fails from an address that a
carrier lists as part of a block. -/
theorem known_sources_not_banned (p : Formats) (t : SourceTables) (call : Config) (cfg : BanConfig)
    (events : List BanEvent) (initial final : BanState)
    (hexpected : Along (banStep p t call cfg) (fun e s => e.Expected p t cfg s) events initial)
    (hrun : trace (banStep p t call cfg) events initial = some final) :
    ∀ b ∈ final.bans, b ∈ initial.bans ∨ ¬ Known p t b.ip :=
  invariant_of_along unknown_step (fun _ hb => .inl hb) hexpected hrun

section Sample

def sampleBits (octets : List (BitVec 8)) : List Bool :=
  octets.flatMap (fun o => (List.range 8).map o.getMsbD)

def sampleCustomerIP : Inet := ⟨.v4, sampleBits [198, 51, 100, 7]⟩

def sampleCarrierIP : Inet := ⟨.v4, sampleBits [203, 0, 113, 9]⟩

def sampleFormats : Formats where
  read := fun text =>
    if text = "198.51.100.7" then some sampleCustomerIP
    else if text = "203.0.113.9" then some sampleCarrierIP
    else if text = "203.0.113.0/24" then some ⟨.v4, sampleBits [203, 0, 113]⟩
    else if text = "192.0.2.1" then some ⟨.v4, sampleBits [192, 0, 2, 1]⟩
    else none
  host := fun a =>
    if a = sampleCustomerIP then "198.51.100.7"
    else if a = sampleCarrierIP then "203.0.113.9"
    else "192.0.2.1"
  duration := fun _ => "10m0s"

/-- A customer with a network at port 5060, a carrier that lists a block. -/
def sampleSources : SourceTables where
  customers :=
    { customers := [sampleCustomer]
      ips := [⟨31, 7, ⟨.v4, sampleBits [198, 51, 100]⟩, some 5060, .any⟩]
      customers_unique := sampleCustomer_unique }
  carriers := [⟨11, false, "sip.carrier.example", ["203.0.113.0/24"]⟩]
  endpoints := []

def sampleBanConfig : BanConfig := ⟨true, 2, 1, 600 * 10 ^ 9, 3600 * 10 ^ 9⟩

def sampleAuth : AuthReplies :=
  ⟨none, fun _ => none, .error .notFound, ⟨none, false⟩, ⟨none, false⟩, false⟩

def sampleInvite (ip : String) (port : ℤ) : BanEvent :=
  .invite ⟨ip, port, "udp"⟩ sampleAuth 0 ⟨true, .ran, true, true, true, true, false⟩

def sampleFailure (ip : String) : BanEvent :=
  .authFailure ip "sign-in" 0 ⟨true, .ran, true, true, true, true, false⟩

def sampleQuiet : BanState := ⟨fun _ => 0, fun _ => 0, [], []⟩

theorem customer_address_known : Known sampleFormats sampleSources sampleCustomerIP :=
  .customer ⟨31, 7, ⟨.v4, sampleBits [198, 51, 100]⟩, some 5060, .any⟩ (by decide) (by decide)

theorem carrier_address_known : Known sampleFormats sampleSources sampleCarrierIP :=
  .carrier ⟨11, false, "sip.carrier.example", ["203.0.113.0/24"]⟩ "203.0.113.0/24"
    ⟨.v4, sampleBits [203, 0, 113]⟩ (List.mem_singleton_self _) rfl (by decide) (by decide)
    (by decide)

/-- The customer calls, signs in with a wrong password, and a scanner comes. -/
def sampleDay : List BanEvent :=
  [sampleInvite "198.51.100.7" 5060, sampleFailure "198.51.100.7", sampleFailure "192.0.2.1"]

theorem known_sources_not_banned_sampleDay :
    ∃ final, trace (banStep sampleFormats sampleSources sampleConfig sampleBanConfig) sampleDay
        sampleQuiet = some final ∧
      final.bans.map (·.reason) = ["web 1 failed sign-in attempts in 10m0s"] ∧
      ∀ b ∈ final.bans, b ∈ sampleQuiet.bans ∨ ¬ Known sampleFormats sampleSources b.ip := by
  -- Neither address is in the carrier's block.
  have hhost (a : Inet) (hbits : (sampleBits [203, 0, 113]).isPrefixOf a.bits = false) :
      ListedByHost sampleFormats sampleSources a := by
    intro c hc _ text htext net hread hin
    obtain rfl := List.mem_singleton.mp hc
    have htexts : text = "sip.carrier.example" ∨ text = "203.0.113.0/24" := by
      simpa [SourceTables.listed, sampleSources] using htext
    rcases htexts with rfl | rfl
    · cases hread
    · obtain rfl := Option.some.inj hread
      rw [Inet.contains, hbits, Bool.and_false] at hin
      cases hin
  have hbans : (trace (banStep sampleFormats sampleSources sampleConfig sampleBanConfig) sampleDay
      sampleQuiet).map (fun s => s.bans.map (·.reason)) =
        some ["web 1 failed sign-in attempts in 10m0s"] := by
    decide +kernel
  obtain ⟨final, hrun, hreasons⟩ := Option.map_eq_some_iff.mp hbans
  refine ⟨final, hrun, hreasons, known_sources_not_banned sampleFormats sampleSources
    sampleConfig sampleBanConfig sampleDay sampleQuiet final ?_ hrun⟩
  refine ⟨.inr (.inr (.inr ⟨by decide, ?_, ?_⟩)), fun _ _ => ⟨?_, fun _ _ => ⟨?_,
    fun _ _ => trivial⟩⟩⟩
  · intro entry hentry
    cases hentry
  · intro a hread
    obtain rfl := Option.some.inj hread
    decide
  · intro a hread
    obtain rfl := Option.some.inj hread
    exact hhost _ (by decide)
  · intro a hread
    obtain rfl := Option.some.inj hread
    exact hhost _ (by decide)

/-- The customer calls twice from another port, and a sign-in fails at an
address of the carrier's block. -/
def sampleKnownCallers : List BanEvent :=
  [sampleInvite "198.51.100.7" 5061, sampleInvite "198.51.100.7" 5061, sampleFailure "203.0.113.9"]

theorem known_sources_banned :
    ∃ final, trace (banStep sampleFormats sampleSources sampleConfig sampleBanConfig)
        sampleKnownCallers sampleQuiet = some final ∧
      final.bans.map (·.ip) = [sampleCustomerIP, sampleCarrierIP] ∧
      Known sampleFormats sampleSources sampleCustomerIP ∧
      Known sampleFormats sampleSources sampleCarrierIP := by
  have hbans : (trace (banStep sampleFormats sampleSources sampleConfig sampleBanConfig)
      sampleKnownCallers sampleQuiet).map (fun s => s.bans.map (·.ip)) =
        some [sampleCustomerIP, sampleCarrierIP] := by
    decide +kernel
  obtain ⟨final, hrun, hips⟩ := Option.map_eq_some_iff.mp hbans
  exact ⟨final, hrun, hips, customer_address_known, carrier_address_known⟩

end Sample

end SuperSbc.Security
