import SuperSbc.CallControl.DialString
import SuperSbc.CallControl.Ordering

/-!
The dial list of a call: `RouteWith`, with the draws that order it. What the
route, rate and window tables, the health checks and the channel counters answer
is a parameter.
-/

namespace SuperSbc.CallControl.DialList

open FsConfig SuperSbc.Random Rating Text

structure QualityScore where
  score : ℚ
  samples : ℤ

/-- What surrounds one run of `RouteWith`. The draws share one generator with
other calls, so each has a source of its own. -/
structure Surroundings where
  u : CaseTable
  cfg : LegConfig
  blockNegativeMargin : Bool
  maxEndpointsPerCarrier : ℤ
  cust : Customer
  customerMedia : MediaMode
  customerRules : List HeaderRule
  called : String
  caller : String
  sell : Option RateRow
  callUUID : String
  privacy : Bool
  forwardIdentity : Bool
  offered : String
  matchRoute : UUID → Except String (Option MatchedRoute)
  matchRate : UUID → Except String (Option RateRow)
  gatewayDown : String → Bool
  dead : UUID → Bool
  inWindow : String → Bool
  concurrent : UUID → Option ℤ
  columns : UUID → LegColumns
  failoverSIPCodes : UUID → List ℤ
  carrierRules : UUID → List HeaderRule
  degraded : UUID → Bool
  quality : UUID → QualityScore
  qualityTier : ℚ → ℚ
  float64 : Decimal → ℚ
  endpointDraws : UUID → Option Source
  draws : Option Source

structure CarrierChoice where
  seq : ℕ
  carrierId : UUID
  name : String
  gateway : String
  priority : ℤ
  weight : ℤ
  dialNumber : String
  callerID : String
  dialString : String
  buyRateId : Option UUID
  buyRatePerMin : Option Decimal
  buyDestination : String
  negativeMargin : Bool
  quality : Option ℚ
  qualitySamples : ℤ
  share : ℤ
  endpoint : String
  endpointId : Option UUID
  failoverSIPCodes : List ℤ
  codecs : String
  ignoreEarlyMedia : Bool
  degraded : Bool
  mediaMode : MediaMode
  passthrough : List String

/-- A carrier on its way to the dial list. -/
structure Candidate where
  carrier : GatewayCarrier
  entry : RouteCarrier
  buy : RateRow
  negativeMargin : Bool
  eps : List CarrierEndpoint
  only : Bool

structure RouteResult where
  route : Option MatchedRoute := none
  modes : RouteModes := ⟨false, false, false, false⟩
  carriers : List CarrierChoice := []
  skipped : List SkippedCarrier := []

section Route

variable (s : Surroundings) (t : CarrierTables)

/-- The dial order of a carrier's usable endpoints. Round robin and weighted
balancing draw the first one, with equal shares or by weight. -/
def endpointOrder (c : GatewayCarrier) (usable : List CarrierEndpoint) : List ℕ :=
  let lb := (s.columns c.id).endpointLB
  let ord (i : Fin usable.length) : Orderable :=
    { priority := (usable.get i).priority
      weight := if lb = .roundRobin then 100 else (usable.get i).weight }
  let modes : RouteModes := ⟨false, false, false, lb = .roundRobin ∨ lb = .weighted⟩
  (orderCandidates ord modes (s.endpointDraws c.id)).1.map Fin.val

def orderableOf (modes : RouteModes) (cand : Candidate) : Orderable where
  priority := cand.entry.priority
  weight := cand.entry.weight
  degraded := s.degraded cand.carrier.id
  buyRate := s.float64 cand.buy.ratePerMin
  quality := if modes.quality then s.qualityTier (s.quality cand.carrier.id).score else 1 / 2

def order (modes : RouteModes) (cands : List Candidate) : List ℕ :=
  let ord (i : Fin cands.length) := orderableOf s modes (cands.get i)
  (orderCandidates ord modes s.draws).1.map Fin.val

/-- The elements at some places, in the order of the places. -/
def select {α : Type} (l : List α) (places : List ℕ) : List α := places.filterMap (l[·]?)

def Surroundings.usable (c : GatewayCarrier) (only : Bool) (e : CarrierEndpoint) : Bool :=
  e.enabled && !s.dead e.id && !s.gatewayDown (e.gatewayName c.name only)

def usableEndpoints (c : GatewayCarrier) (eps : List CarrierEndpoint) : List CarrierEndpoint :=
  let only : Bool := eps.length = 1
  let usable := eps.filter (s.usable c only)
  let out := select usable (endpointOrder s c usable)
  if 0 < s.maxEndpointsPerCarrier then out.take s.maxEndpointsPerCarrier.toNat else out

def marginDetail (buy : RateRow) (sell : Option RateRow) : String :=
  match sell with
  | none => ""
  | some sell =>
    s!"buy {stringFixed 6 buy.ratePerMin} on {buy.dialPrefix} is above sell " ++
      s!"{stringFixed 6 sell.ratePerMin} on {sell.dialPrefix}"

/-- The buy rate of a carrier, or why there is none. -/
def buyRate (c : GatewayCarrier) : Except String (RateRow ⊕ String) :=
  match c.rateGroupId with
  | none => .ok (.inr "the carrier has no rate group")
  | some group => do
      match ← s.matchRate group with
      | some buy => return .inl buy
      | none => return .inr ("no rate matches " ++ s.called ++ " in the carrier rate deck")

def Surroundings.loses (buy : RateRow) : Bool :=
  s.sell.any (fun sell => sell.ratePerMin < buy.ratePerMin)

/-- The part of the loop over the carriers that comes after the endpoints: the
window, the channel limit, the buy rate and the margin. -/
def considerRates (modes : RouteModes) (rc : RouteCarrier) (c : GatewayCarrier)
    (usable : List CarrierEndpoint) (only : Bool) : Except String (SkippedCarrier ⊕ Candidate) := do
  if s.inWindow rc.window = false then
    return .inl ⟨c.id, c.name, "outside_window", "outside the routing window " ++ rc.window⟩
  match (s.concurrent c.id).filter (fun n =>
      0 < c.maxConcurrentCalls && c.maxConcurrentCalls ≤ n) with
  | some n =>
    return .inl ⟨c.id, c.name, "carrier_capacity",
      s!"{n} calls in progress, limit {c.maxConcurrentCalls}"⟩
  | none =>
    match ← buyRate s c with
    | .inr detail => return .inl ⟨c.id, c.name, "skipped_no_rate", detail⟩
    | .inl buy =>
      let negative := s.loses buy
      if negative && s.blockNegativeMargin then
        return .inl ⟨c.id, c.name, "negative_margin_blocked", marginDetail buy s.sell⟩
      else if negative && modes.lossless then
        return .inl ⟨c.id, c.name, "lossless_skipped", marginDetail buy s.sell⟩
      else return .inr ⟨c, rc, buy, negative, usable, only⟩

/-- The body of the loop over the carriers of the route. -/
def considerCarrier (modes : RouteModes) (rc : RouteCarrier) :
    Except String (SkippedCarrier ⊕ Candidate) :=
  match t.carriers.find? (·.id = rc.carrierId) with
  | none =>
    .ok (.inl ⟨rc.carrierId, uuidText rc.carrierId, "disabled", "the carrier is not active"⟩)
  | some c =>
    if c.status ≠ .active then
      .ok (.inl ⟨rc.carrierId, c.name, "disabled", "the carrier is not active"⟩)
    else
      let eps := t.dialled c
      let usable := usableEndpoints s c eps
      if usable.length = 0 then
        .ok (.inl ⟨c.id, c.name, "gateway_down",
          s!"all {eps.length} endpoints are down or parked"⟩)
      else considerRates s modes rc c usable (eps.length = 1)

def Surroundings.leg (c : GatewayCarrier) : Leg where
  u := s.u
  cfg := s.cfg
  cust := s.cust
  customerMedia := s.customerMedia
  customerRules := s.customerRules
  carrier := c
  columns := s.columns c.id
  carrierRules := s.carrierRules c.id
  callUUID := s.callUUID
  called := s.called
  privacy := s.privacy
  forwardIdentity := s.forwardIdentity
  offered := s.offered

def choice (modes : RouteModes) (cand : Candidate) (e : CarrierEndpoint) (seq : ℕ) :
    CarrierChoice :=
  let leg := s.leg cand.carrier
  let gateway := e.gatewayName cand.carrier.name cand.only
  { seq := seq
    carrierId := cand.carrier.id
    name := cand.carrier.name
    gateway := gateway
    priority := cand.entry.priority
    weight := cand.entry.weight
    dialNumber := leg.dialNumber
    callerID := leg.callerID s.caller
    dialString := leg.dialString s.caller seq gateway
    buyRateId := some cand.buy.id
    buyRatePerMin := some cand.buy.ratePerMin
    buyDestination := cand.buy.destination
    negativeMargin := cand.negativeMargin
    quality := if modes.quality then some (s.quality cand.carrier.id).score else none
    qualitySamples := if modes.quality then (s.quality cand.carrier.id).samples else 0
    share := if modes.percent then cand.entry.weight else 0
    endpoint := joinHostPort e.host e.port
    endpointId := some e.id
    failoverSIPCodes := s.failoverSIPCodes cand.carrier.id
    codecs := leg.codecs
    ignoreEarlyMedia := leg.columns.ignoreEarlyMedia
    degraded := s.degraded cand.carrier.id
    mediaMode := leg.mediaMode
    passthrough := leg.passthrough s.caller }

/-- Every endpoint of every candidate, numbered through. -/
def expand (modes : RouteModes) (cands : List Candidate) : List CarrierChoice :=
  (cands.flatMap (fun cand => cand.eps.map (cand, ·))).mapIdx (fun i ce =>
    choice s modes ce.1 ce.2 (i + 1))

def routeWith : Except String RouteResult :=
  match s.cust.routeGroupId with
  | none => .ok {}
  | some group => do
      match ← s.matchRoute group with
      | none => return {}
      | some route =>
        if route.carriers.length = 0 then return { route := some route }
        else
          let considered ← route.carriers.mapM (considerCarrier s t route.modes)
          let cands := considered.filterMap Sum.getRight?
          return {
            route := some route
            modes := route.modes
            carriers := expand s route.modes (select cands (order s route.modes cands))
            skipped := considered.filterMap Sum.getLeft? }

end Route

theorem mem_of_select {α : Type} {l : List α} {places : List ℕ} {a : α}
    (h : a ∈ select l places) : a ∈ l := by
  obtain ⟨i, -, hi⟩ := List.mem_filterMap.mp h
  exact List.mem_of_getElem? hi

theorem select_perm {α : Type} {l : List α} {places : List (Fin l.length)}
    (h : places.Perm (List.finRange l.length)) : (select l (places.map Fin.val)).Perm l := by
  have hselected : select l (places.map Fin.val) = places.map l.get := by
    unfold select
    rw [List.filterMap_map, ← List.filterMap_eq_map]
    refine List.filterMap_congr (fun i _ => ?_)
    exact List.getElem?_eq_getElem i.isLt
  have hall : (List.finRange l.length).map l.get = l := by
    rw [← List.ofFn_eq_map, List.ofFn_get]
  rw [hselected]
  exact (h.map l.get).trans (.of_eq hall)

theorem filterMap_zip_snd {α β γ : Type} {l : List α} {l' : List β} (f : β → Option γ)
    (h : l'.length ≤ l.length) : (l.zip l').filterMap (fun x => f x.2) = l'.filterMap f := by
  conv_rhs => rw [← List.map_snd_zip h, List.filterMap_map]
  rfl

section Endpoints

variable {s : Surroundings} {t : CarrierTables} {c : GatewayCarrier} {eps : List CarrierEndpoint}
  {e : CarrierEndpoint} {only : Bool}

theorem endpointOrder_perm (s : Surroundings) (c : GatewayCarrier) (eps : List CarrierEndpoint) :
    (select eps (endpointOrder s c eps)).Perm eps :=
  select_perm (orderCandidates_perm _ _ _)

theorem order_perm (modes : RouteModes) (cands : List Candidate) :
    (select cands (order s modes cands)).Perm cands :=
  select_perm (orderCandidates_perm _ _ _)

theorem Surroundings.usable_iff : s.usable c only e = true ↔
    e.enabled = true ∧ s.dead e.id = false ∧ s.gatewayDown (e.gatewayName c.name only) = false := by
  simp [Surroundings.usable, and_assoc]

theorem usableEndpoints_sublist (s : Surroundings) (c : GatewayCarrier)
    (eps : List CarrierEndpoint) : ∃ out : List CarrierEndpoint,
      out.Perm (eps.filter (s.usable c (eps.length = 1))) ∧
        (usableEndpoints s c eps).Sublist out := by
  refine ⟨_, endpointOrder_perm s c _, ?_⟩
  unfold usableEndpoints
  dsimp only
  split_ifs
  · exact List.take_sublist _ _
  · exact List.Sublist.refl _

theorem mem_usableEndpoints (h : e ∈ usableEndpoints s c eps) :
    e ∈ eps ∧ s.usable c (eps.length = 1) e = true := by
  obtain ⟨out, hperm, hsub⟩ := usableEndpoints_sublist s c eps
  exact List.mem_filter.mp (hperm.mem_iff.mp (hsub.subset h))

theorem nodup_usableEndpoints (h : eps.Nodup) : (usableEndpoints s c eps).Nodup := by
  obtain ⟨out, hperm, hsub⟩ := usableEndpoints_sublist s c eps
  exact (hperm.nodup_iff.mpr (h.filter _)).sublist hsub

theorem length_usableEndpoints (h : 0 < s.maxEndpointsPerCarrier) :
    (usableEndpoints s c eps).length ≤ s.maxEndpointsPerCarrier := by
  unfold usableEndpoints
  dsimp only
  rw [if_pos h, List.length_take]
  omega

/-- The limit leaves a carrier at least one of its usable endpoints. -/
theorem usableEndpoints_ne_nil (he : e ∈ eps) (husable : s.usable c (eps.length = 1) e = true) :
    usableEndpoints s c eps ≠ [] := by
  have hout : e ∈ select (eps.filter (s.usable c (eps.length = 1)))
      (endpointOrder s c (eps.filter (s.usable c (eps.length = 1)))) :=
    (endpointOrder_perm s c _).mem_iff.mpr (List.mem_filter.mpr ⟨he, husable⟩)
  unfold usableEndpoints
  dsimp only
  split_ifs with hmax
  · intro hnone
    rcases List.take_eq_nil_iff.mp hnone with hzero | hnil
    · omega
    · exact List.ne_nil_of_mem hout hnil
  · exact List.ne_nil_of_mem hout

theorem nodup_dialled (t : CarrierTables) (c : GatewayCarrier) : (t.dialled c).Nodup := by
  unfold CarrierTables.dialled
  split_ifs
  · exact List.nodup_singleton _
  · have hall : t.endpoints.Nodup := List.Nodup.of_map _ t.seqs_unique
    exact (List.perm_insertionSort _ _).nodup_iff.mpr (hall.filter _)

end Endpoints

/-- The reasons of carriers that are left out because they would lose money. -/
def MarginReason (reason : String) : Prop :=
  reason = "negative_margin_blocked" ∨ reason = "lossless_skipped"

/-- The row of a carrier's deck for the called number. -/
def buyOf (s : Surroundings) (t : CarrierTables) (id : UUID) : Option RateRow :=
  (t.carriers.find? (·.id = id)).bind (fun c => c.rateGroupId.bind (fun group =>
    (s.matchRate group).toOption.join))

/-- A carrier of the route that has all a call needs: it is active, an endpoint
is usable, its window is open, a channel is free and its deck has a rate. -/
structure Rated (s : Surroundings) (t : CarrierTables) (rc : RouteCarrier) (c : GatewayCarrier)
    (buy : RateRow) : Prop where
  found : t.carriers.find? (·.id = rc.carrierId) = some c
  active : c.status = .active
  endpoint : ∃ e ∈ t.dialled c, s.usable c (t.only c) e = true
  window : s.inWindow rc.window = true
  channel : ∀ n ∈ s.concurrent c.id, 0 < c.maxConcurrentCalls → n < c.maxConcurrentCalls
  rate : buyOf s t rc.carrierId = some buy

/-- The ways the body of the loop over the carriers ends. -/
inductive CarrierOutcome (s : Surroundings) (t : CarrierTables) (modes : RouteModes)
    (rc : RouteCarrier) : SkippedCarrier ⊕ Candidate → Prop where
  | unrated (k : SkippedCarrier) (hid : k.carrierId = rc.carrierId)
      (hreason : ¬ MarginReason k.reason) (hnot : ∀ c buy, ¬ Rated s t rc c buy) :
      CarrierOutcome s t modes rc (.inl k)
  | losing (k : SkippedCarrier) (hid : k.carrierId = rc.carrierId)
      (hreason : MarginReason k.reason) (c : GatewayCarrier) (buy : RateRow)
      (hrated : Rated s t rc c buy) (hloses : s.loses buy = true) :
      CarrierOutcome s t modes rc (.inl k)
  | kept (c : GatewayCarrier) (buy : RateRow) (hrated : Rated s t rc c buy)
      (hkept : s.loses buy = true → s.blockNegativeMargin = false ∧ modes.lossless = false) :
      CarrierOutcome s t modes rc
        (.inr ⟨c, rc, buy, s.loses buy, usableEndpoints s c (t.dialled c), t.only c⟩)

section Outcomes

variable {s : Surroundings} {t : CarrierTables} {modes : RouteModes} {rc : RouteCarrier}
  {c : GatewayCarrier} {buy : RateRow} {cand : Candidate} {out : SkippedCarrier ⊕ Candidate}

theorem id_of_find (h : t.carriers.find? (·.id = rc.carrierId) = some c) :
    c.id = rc.carrierId := by
  have hfound := List.find?_some h
  exact of_decide_eq_true hfound

theorem buyOf_of_buyRate (hfind : t.carriers.find? (·.id = rc.carrierId) = some c)
    {found : RateRow ⊕ String} (hbuy : buyRate s c = .ok found) :
    buyOf s t rc.carrierId = found.getLeft? := by
  unfold buyRate at hbuy
  unfold buyOf
  rw [hfind, Option.bind_some]
  cases hgroup : c.rateGroupId with
  | none =>
    rw [hgroup] at hbuy
    cases hbuy
    rfl
  | some group =>
    rw [hgroup] at hbuy
    change (s.matchRate group >>= _) = _ at hbuy
    rw [Option.bind_some]
    cases hmatch : s.matchRate group with
    | error text =>
      rw [hmatch] at hbuy
      cases hbuy
    | ok row =>
      rw [hmatch] at hbuy
      cases row with
      | none | some row =>
        cases hbuy
        rfl

theorem considerRates_outcome (hfind : t.carriers.find? (·.id = rc.carrierId) = some c)
    (hactive : c.status = .active)
    (hendpoint : ∃ e ∈ t.dialled c, s.usable c (t.only c) e = true)
    (h : considerRates s modes rc c (usableEndpoints s c (t.dialled c)) (t.only c) = .ok out) :
    CarrierOutcome s t modes rc out := by
  have hsame {c' : GatewayCarrier} {buy' : RateRow} (hrated : Rated s t rc c' buy') : c' = c :=
    Option.some.inj (hrated.found.symm.trans hfind)
  unfold considerRates at h
  split at h
  · rename_i hwindow
    cases h
    refine .unrated _ (id_of_find hfind) (by simp [MarginReason]) (fun c' buy' hrated => ?_)
    exact absurd (hwindow.symm.trans hrated.window) (by decide)
  rename_i hwindow
  split at h
  · rename_i n hfull
    obtain ⟨hcount, hlimit⟩ := Option.filter_eq_some_iff.mp hfull
    simp only [Bool.and_eq_true, decide_eq_true_eq] at hlimit
    cases h
    refine .unrated _ (id_of_find hfind) (by simp [MarginReason]) (fun c' buy' hrated => ?_)
    obtain rfl := hsame hrated
    exact absurd (hrated.channel n hcount hlimit.1) (not_lt.mpr hlimit.2)
  rename_i hfree
  cases hbuy : buyRate s c with
  | error text =>
    rw [hbuy] at h
    cases h
  | ok found =>
    have hrate := buyOf_of_buyRate hfind hbuy
    rw [hbuy] at h
    cases found with
    | inr detail =>
      cases h
      refine .unrated _ (id_of_find hfind) (by simp [MarginReason]) (fun c' buy' hrated => ?_)
      exact absurd (hrate.symm.trans hrated.rate) (by simp)
    | inl buy =>
      have hrated : Rated s t rc c buy := by
        refine ⟨hfind, hactive, hendpoint, by simpa using hwindow, fun n hn hmax => ?_, hrate⟩
        have hroom := Option.filter_eq_none_iff.mp hfree n hn
        simpa [hmax] using hroom
      change (if (s.loses buy && _) = true then _ else _) = _ at h
      split_ifs at h with hblocked hlossless
      · cases h
        exact .losing _ (id_of_find hfind) (.inl rfl) c buy hrated
          (Bool.and_eq_true_iff.mp hblocked).1
      · cases h
        exact .losing _ (id_of_find hfind) (.inr rfl) c buy hrated
          (Bool.and_eq_true_iff.mp hlossless).1
      · cases h
        refine .kept c buy hrated (fun hloses => ?_)
        rw [hloses] at hblocked hlossless
        simpa using And.intro hblocked hlossless

theorem considerCarrier_outcome (h : considerCarrier s t modes rc = .ok out) :
    CarrierOutcome s t modes rc out := by
  unfold considerCarrier at h
  split at h
  · rename_i hnone
    cases h
    refine .unrated _ rfl (by simp [MarginReason]) (fun c buy hrated => ?_)
    exact absurd (hnone.symm.trans hrated.found) (by simp)
  rename_i c hfind
  split_ifs at h with hstatus
  · cases h
    refine .unrated _ rfl (by simp [MarginReason]) (fun c' buy hrated => hstatus ?_)
    rw [← Option.some.inj (hrated.found.symm.trans hfind)]
    exact hrated.active
  dsimp only at h
  split_ifs at h with hnone
  · cases h
    refine .unrated _ (id_of_find hfind) (by simp [MarginReason]) (fun c' buy hrated => ?_)
    obtain ⟨e, he, husable⟩ := hrated.endpoint
    rw [Option.some.inj (hrated.found.symm.trans hfind)] at he husable
    exact usableEndpoints_ne_nil he husable (List.length_eq_zero_iff.mp hnone)
  · obtain ⟨e, he⟩ := List.exists_mem_of_length_pos (Nat.pos_of_ne_zero hnone)
    exact considerRates_outcome hfind (not_not.mp hstatus) ⟨e, mem_usableEndpoints he⟩ h

/-- A candidate is an active carrier of the route with its usable endpoints. -/
theorem CarrierOutcome.candidate (h : CarrierOutcome s t modes rc (.inr cand)) :
    t.carriers.find? (·.id = rc.carrierId) = some cand.carrier ∧ cand.carrier.status = .active ∧
      cand.eps = usableEndpoints s cand.carrier (t.dialled cand.carrier) ∧
      cand.eps ≠ [] ∧ cand.only = t.only cand.carrier := by
  cases h with
  | kept c buy hrated _ =>
    obtain ⟨e, he, husable⟩ := hrated.endpoint
    exact ⟨hrated.found, hrated.active, rfl, usableEndpoints_ne_nil he husable, rfl⟩

theorem CarrierOutcome.skipped_id {k : SkippedCarrier}
    (h : CarrierOutcome s t modes rc (.inl k)) : k.carrierId = rc.carrierId := by
  cases h with
  | unrated _ hid _ _ | losing _ hid _ _ _ _ _ => exact hid

end Outcomes

section Results

variable {s : Surroundings} {t : CarrierTables} {res : RouteResult}

/-- Where a result comes from: the carriers of the route one by one, and the
candidates among them in the order that was drawn. -/
structure Considered (s : Surroundings) (t : CarrierTables) (route : MatchedRoute)
    (considered : List (RouteCarrier × (SkippedCarrier ⊕ Candidate))) (res : RouteResult) :
    Prop where
  entries : considered.map Prod.fst = route.carriers
  outcomes : ∀ x ∈ considered, CarrierOutcome s t route.modes x.1 x.2
  carriers : res.carriers = expand s route.modes (select (considered.filterMap (·.2.getRight?))
    (order s route.modes (considered.filterMap (·.2.getRight?))))
  skipped : res.skipped = considered.filterMap (·.2.getLeft?)

theorem considered_of_ok {group : UUID} {route : MatchedRoute} (h : routeWith s t = .ok res)
    (hgroup : s.cust.routeGroupId = some group) (hroute : s.matchRoute group = .ok (some route)) :
    ∃ considered, Considered s t route considered res := by
  unfold routeWith at h
  rw [hgroup] at h
  dsimp only at h
  rw [hroute] at h
  change (if _ then _ else _) = _ at h
  split_ifs at h with hnone
  · cases h
    refine ⟨[], (List.length_eq_zero_iff.mp hnone).symm, by simp, ?_, rfl⟩
    rw [List.filterMap_nil, (order_perm route.modes []).eq_nil]
    rfl
  · cases houts : route.carriers.mapM (considerCarrier s t route.modes) with
    | error text =>
      rw [houts] at h
      cases h
    | ok outs =>
      rw [houts] at h
      cases h
      have hall := Query.forall₂_of_mapM_ok houts
      refine ⟨route.carriers.zip outs, List.map_fst_zip hall.length_eq.le,
        fun x hx => considerCarrier_outcome (List.forall₂_zip hall hx), ?_, ?_⟩
      · rw [filterMap_zip_snd Sum.getRight? hall.length_eq.ge]
      · rw [filterMap_zip_snd Sum.getLeft? hall.length_eq.ge]

theorem exists_considered (h : routeWith s t = .ok res) {ch : CarrierChoice}
    (hch : ch ∈ res.carriers) : ∃ route considered, Considered s t route considered res := by
  cases hgroup : s.cust.routeGroupId with
  | none =>
    simp only [routeWith, hgroup] at h
    cases h
    cases hch
  | some group =>
    cases hroute : s.matchRoute group with
    | error text =>
      simp only [routeWith, hgroup, hroute] at h
      cases h
    | ok found =>
      cases found with
      | none =>
        simp only [routeWith, hgroup, hroute] at h
        cases h
        cases hch
      | some route => exact ⟨route, considered_of_ok h hgroup hroute⟩

end Results

section Entries

variable {s : Surroundings} {t : CarrierTables} {modes : RouteModes}

theorem seq_expand (modes : RouteModes) (cands : List Candidate) :
    (expand s modes cands).map (·.seq) = List.range' 1 (expand s modes cands).length := by
  refine List.ext_getElem (by simp) (fun i hi _ => ?_)
  simp [expand, choice, Nat.add_comm]

theorem mem_expand {cands : List Candidate} {ch : CarrierChoice} (h : ch ∈ expand s modes cands) :
    ∃ cand ∈ cands, ∃ e ∈ cand.eps, ∃ seq, ch = choice s modes cand e seq := by
  obtain ⟨i, hi, rfl⟩ := List.mem_mapIdx.mp h
  obtain ⟨cand, hcand, hpair⟩ := List.mem_flatMap.mp (List.getElem_mem hi)
  obtain ⟨e, he, hmade⟩ := List.mem_map.mp hpair
  exact ⟨cand, hcand, e, he, i + 1, by rw [← hmade]⟩

theorem expand_split (modes : RouteModes) (front back : List Candidate) (cand : Candidate) :
    ∃ before legs after, expand s modes (front ++ cand :: back) = before ++ legs ++ after ∧
      (∀ ch ∈ before ++ after, ∃ other ∈ front ++ back, ch.carrierId = other.carrier.id) ∧
      List.Forall₂ (fun ch e => ∃ seq, ch = choice s modes cand e seq) legs cand.eps := by
  unfold expand
  rw [List.flatMap_append, List.flatMap_cons, List.mapIdx_append, List.mapIdx_append,
    ← List.append_assoc]
  refine ⟨_, _, _, rfl, fun ch hch => ?_, ?_⟩
  · have hother : ∀ {l : List Candidate} {seq : ℕ → ℕ}, ch ∈ (l.flatMap (fun cand =>
        cand.eps.map (cand, ·))).mapIdx (fun i ce => choice s modes ce.1 ce.2 (seq i)) →
        ∃ other ∈ l, ch.carrierId = other.carrier.id := by
      intro l seq hmem
      obtain ⟨i, hi, rfl⟩ := List.mem_mapIdx.mp hmem
      obtain ⟨other, hl, hpair⟩ := List.mem_flatMap.mp (List.getElem_mem hi)
      obtain ⟨e, -, hmade⟩ := List.mem_map.mp hpair
      exact ⟨other, hl, by rw [← hmade]; rfl⟩
    rcases List.mem_append.mp hch with hbefore | hafter
    · obtain ⟨other, hl, hsame⟩ := hother hbefore
      exact ⟨other, List.mem_append_left _ hl, hsame⟩
    · obtain ⟨other, hl, hsame⟩ := hother hafter
      exact ⟨other, List.mem_append_right _ hl, hsame⟩
  · refine List.forall₂_iff_get.mpr ⟨by simp, fun i hi hi' => ?_⟩
    rw [List.get_eq_getElem, List.get_eq_getElem, List.getElem_mapIdx, List.getElem_map]
    exact ⟨_, rfl⟩

end Entries

structure CarrierChoice.Dials (t : CarrierTables) (c : GatewayCarrier) (ch : CarrierChoice)
    (e : CarrierEndpoint) : Prop where
  carrier : ch.carrierId = c.id
  name : ch.name = c.name
  row : ch.endpointId = some e.id
  address : ch.endpoint = joinHostPort e.host e.port
  gateway : ch.gateway = e.gatewayName c.name (t.only c)

/-- Entries that dial usable endpoints of a carrier, each once, and not too
many of them. -/
structure LegsOf (s : Surroundings) (t : CarrierTables) (c : GatewayCarrier)
    (legs : List CarrierChoice) (eps : List CarrierEndpoint) : Prop where
  dials : List.Forall₂ (CarrierChoice.Dials t c) legs eps
  distinct : eps.Nodup
  gateways : (legs.map (·.gateway)).Nodup
  usable : ∀ e ∈ eps, e ∈ t.dialled c ∧ e.enabled = true ∧ s.dead e.id = false ∧
    s.gatewayDown (e.gatewayName c.name (t.only c)) = false
  limit : 0 < s.maxEndpointsPerCarrier → eps.length ≤ s.maxEndpointsPerCarrier
  nonempty : eps ≠ []

/-- The entries of a carrier, and that they stand together. -/
def KeptTogether (s : Surroundings) (t : CarrierTables) (id : UUID) (res : RouteResult) : Prop :=
  ∃ c ∈ t.carriers, c.id = id ∧ ∃ before legs after eps, res.carriers = before ++ legs ++ after ∧
    (∀ ch ∈ before ++ after, ch.carrierId ≠ id) ∧ LegsOf s t c legs eps

/-- Every carrier of the route is skipped or dialled, and nothing else is. -/
structure Accounted (s : Surroundings) (t : CarrierTables) (route : MatchedRoute)
    (res : RouteResult) : Prop where
  listed : ∀ rc ∈ route.carriers,
    ((res.skipped.map (·.carrierId)).count rc.carrierId = 1 ∧
        rc.carrierId ∉ res.carriers.map (·.carrierId)) ∨
      (rc.carrierId ∉ res.skipped.map (·.carrierId) ∧ KeptTogether s t rc.carrierId res)
  others : ∀ id, id ∈ res.skipped.map (·.carrierId) ∨ id ∈ res.carriers.map (·.carrierId) →
    id ∈ route.carriers.map (·.carrierId)
  numbered : res.carriers.map (·.seq) = List.range' 1 res.carriers.length

section Accounts

variable {s : Surroundings} {t : CarrierTables} {c : GatewayCarrier} {eps : List CarrierEndpoint}
  {route : MatchedRoute} {res : RouteResult}
  {considered : List (RouteCarrier × (SkippedCarrier ⊕ Candidate))}
  {x : RouteCarrier × (SkippedCarrier ⊕ Candidate)} {cand : Candidate}

theorem eq_of_gatewayName {e e' : CarrierEndpoint} (he : e ∈ t.dialled c) (he' : e' ∈ t.dialled c)
    (hname : e.gatewayName c.name (t.only c) = e'.gatewayName c.name (t.only c)) : e = e' := by
  cases honly : t.only c with
  | true => exact CarrierTables.eq_of_only honly he he'
  | false =>
    rw [honly] at hname
    exact CarrierTables.eq_of_seq honly he he' (suffixed_inj hname).2

theorem gateways_of_dials {legs : List CarrierChoice}
    (h : List.Forall₂ (CarrierChoice.Dials t c) legs eps) :
    legs.map (·.gateway) = eps.map (fun e => e.gatewayName c.name (t.only c)) := by
  induction h with
  | nil => rfl
  | cons hdials _ ih => rw [List.map_cons, List.map_cons, hdials.gateway, ih]

theorem Considered.candidate (h : Considered s t route considered res) (hx : x ∈ considered)
    (hcand : x.2 = .inr cand) :
    cand.carrier ∈ t.carriers ∧ cand.carrier.id = x.1.carrierId ∧
      cand.carrier.status = .active ∧
      cand.eps = usableEndpoints s cand.carrier (t.dialled cand.carrier) ∧ cand.eps ≠ [] ∧
      cand.only = t.only cand.carrier := by
  have hout := h.outcomes x hx
  rw [hcand] at hout
  obtain ⟨hfind, hactive, heps, hsome, honly⟩ := hout.candidate
  exact ⟨List.mem_of_find?_eq_some hfind, id_of_find hfind, hactive, heps, hsome, honly⟩

theorem Considered.of_mem_carriers (h : Considered s t route considered res) {ch : CarrierChoice}
    (hch : ch ∈ res.carriers) : ∃ x ∈ considered, ∃ cand, x.2 = .inr cand ∧
      ∃ e ∈ cand.eps, ∃ seq, ch = choice s route.modes cand e seq := by
  rw [h.carriers] at hch
  obtain ⟨cand, hcand, e, he, seq, rfl⟩ := mem_expand hch
  obtain ⟨x, hx, hright⟩ := List.mem_filterMap.mp (mem_of_select hcand)
  exact ⟨x, hx, cand, Sum.getRight?_eq_some_iff.mp hright, e, he, seq, rfl⟩

theorem mem_ordered (modes : RouteModes) (hx : x ∈ considered) (hcand : x.2 = .inr cand) :
    cand ∈ select (considered.filterMap (·.2.getRight?))
      (order s modes (considered.filterMap (·.2.getRight?))) :=
  (order_perm modes _).mem_iff.mpr (List.mem_filterMap.mpr ⟨x, hx, by rw [hcand]; rfl⟩)

theorem Considered.mem_skipped (h : Considered s t route considered res) {k : SkippedCarrier} :
    k ∈ res.skipped ↔ ∃ x ∈ considered, x.2 = .inl k := by
  rw [h.skipped, List.mem_filterMap]
  exact exists_congr (fun x => and_congr_right (fun _ => Sum.getLeft?_eq_some_iff))

theorem Considered.skipped_id (h : Considered s t route considered res) (hx : x ∈ considered)
    {k : SkippedCarrier} (hk : x.2 = .inl k) : k.carrierId = x.1.carrierId := by
  have hout := h.outcomes x hx
  rw [hk] at hout
  exact hout.skipped_id

/-- In a route that names no carrier twice an id tells what became of it. -/
theorem Considered.eq_of_id (h : Considered s t route considered res)
    (honce : (route.carriers.map (·.carrierId)).Nodup)
    {y : RouteCarrier × (SkippedCarrier ⊕ Candidate)} (hx : x ∈ considered)
    (hy : y ∈ considered) (hid : x.1.carrierId = y.1.carrierId) : x = y := by
  rw [← h.entries, List.map_map] at honce
  exact List.inj_on_of_nodup_map honce hx hy hid

theorem Considered.nodup_candidates (h : Considered s t route considered res)
    (honce : (route.carriers.map (·.carrierId)).Nodup) :
    ((considered.filterMap (·.2.getRight?)).map (·.carrier.id)).Nodup := by
  rw [← h.entries, List.map_map] at honce
  refine List.pairwise_map.mpr (List.pairwise_filterMap.mpr ?_)
  refine (List.pairwise_map.mp honce).imp_of_mem (fun {x y} hx hy hne left hleft right hright => ?_)
  obtain ⟨-, hleftId, -⟩ := h.candidate hx (Sum.getRight?_eq_some_iff.mp hleft)
  obtain ⟨-, hrightId, -⟩ := h.candidate hy (Sum.getRight?_eq_some_iff.mp hright)
  rw [hleftId, hrightId]
  exact hne

theorem Considered.nodup_skipped (h : Considered s t route considered res)
    (honce : (route.carriers.map (·.carrierId)).Nodup) :
    (res.skipped.map (·.carrierId)).Nodup := by
  rw [← h.entries, List.map_map] at honce
  rw [h.skipped]
  refine List.pairwise_map.mpr (List.pairwise_filterMap.mpr ?_)
  refine (List.pairwise_map.mp honce).imp_of_mem (fun {x y} hx hy hne left hleft right hright => ?_)
  rw [h.skipped_id hx (Sum.getLeft?_eq_some_iff.mp hleft),
    h.skipped_id hy (Sum.getLeft?_eq_some_iff.mp hright)]
  exact hne

theorem Considered.keptTogether (h : Considered s t route considered res)
    (honce : (route.carriers.map (·.carrierId)).Nodup) (hx : x ∈ considered)
    (hcand : x.2 = .inr cand) : KeptTogether s t x.1.carrierId res := by
  obtain ⟨hc, hid, -, heps, hsome, honly⟩ := h.candidate hx hcand
  obtain ⟨front, back, hsplit⟩ := List.append_of_mem (mem_ordered (s := s) route.modes hx hcand)
  have hdistinct := ((order_perm (s := s) route.modes _).map (·.carrier.id)).nodup_iff.mpr
    (h.nodup_candidates honce)
  rw [hsplit, List.map_append, List.map_cons, List.nodup_middle, List.nodup_cons,
    ← List.map_append] at hdistinct
  obtain ⟨before, legs, after, hcarriers, hothers, hlegs⟩ :=
    expand_split (s := s) route.modes front back cand
  rw [← hsplit, ← h.carriers] at hcarriers
  have hdials : List.Forall₂ (CarrierChoice.Dials t cand.carrier) legs cand.eps := by
    refine hlegs.imp (fun ch e hch => ?_)
    obtain ⟨seq, rfl⟩ := hch
    exact ⟨rfl, rfl, rfl, rfl, by rw [← honly]; rfl⟩
  have husable : ∀ e ∈ cand.eps, e ∈ t.dialled cand.carrier ∧ e.enabled = true ∧
      s.dead e.id = false ∧
      s.gatewayDown (e.gatewayName cand.carrier.name (t.only cand.carrier)) = false := by
    intro e he
    rw [heps] at he
    obtain ⟨hmem, husable⟩ := mem_usableEndpoints he
    exact ⟨hmem, Surroundings.usable_iff.mp husable⟩
  have hnodup : cand.eps.Nodup := by
    rw [heps]
    exact nodup_usableEndpoints (nodup_dialled t cand.carrier)
  refine ⟨cand.carrier, hc, hid, before, legs, after, cand.eps, hcarriers, fun ch hch => ?_,
    hdials, hnodup, ?_, husable, fun hmax => ?_, hsome⟩
  · obtain ⟨other, hother, hsame⟩ := hothers ch hch
    rw [hsame, ← hid]
    exact fun heq => hdistinct.1 (List.mem_map.mpr ⟨other, hother, heq⟩)
  · rw [gateways_of_dials hdials]
    exact hnodup.map_on (fun e he e' he' => eq_of_gatewayName (husable e he).1 (husable e' he').1)
  · rw [heps]
    exact length_usableEndpoints hmax

/-- Whatever is drawn, every carrier of a route that names none twice is either
skipped once or dialled, on usable endpoints that stand together. -/
theorem carriers_accounted (s : Surroundings) (t : CarrierTables) (group : UUID)
    (route : MatchedRoute) (hgroup : s.cust.routeGroupId = some group)
    (hroute : s.matchRoute group = .ok (some route))
    (honce : (route.carriers.map (·.carrierId)).Nodup) (res : RouteResult)
    (hres : routeWith s t = .ok res) : Accounted s t route res := by
  obtain ⟨considered, h⟩ := considered_of_ok hres hgroup hroute
  refine ⟨fun rc hrc => ?_, fun id hid => ?_, ?_⟩
  · rw [← h.entries] at hrc
    obtain ⟨x, hx, rfl⟩ := List.mem_map.mp hrc
    cases hout : x.2 with
    | inl k =>
      left
      have hskipped : x.1.carrierId ∈ res.skipped.map (·.carrierId) :=
        List.mem_map.mpr ⟨k, h.mem_skipped.mpr ⟨x, hx, hout⟩, h.skipped_id hx hout⟩
      refine ⟨List.count_eq_one_of_mem (h.nodup_skipped honce) hskipped, fun hkept => ?_⟩
      obtain ⟨ch, hch, hid⟩ := List.mem_map.mp hkept
      obtain ⟨y, hy, cand, hcand, _, _, _, rfl⟩ := h.of_mem_carriers hch
      have hsame := h.eq_of_id honce hx hy (hid.symm.trans (h.candidate hy hcand).2.1)
      rw [hsame, hcand] at hout
      cases hout
    | inr cand =>
      refine .inr ⟨fun hskipped => ?_, h.keptTogether honce hx hout⟩
      obtain ⟨k, hk, hid⟩ := List.mem_map.mp hskipped
      obtain ⟨y, hy, hleft⟩ := h.mem_skipped.mp hk
      have hsame := h.eq_of_id honce hx hy (hid.symm.trans (h.skipped_id hy hleft))
      rw [hsame, hleft] at hout
      cases hout
  · have hlisted : ∀ x ∈ considered, x.1.carrierId ∈ route.carriers.map (·.carrierId) := by
      intro x hx
      rw [← h.entries]
      exact List.mem_map_of_mem (List.mem_map_of_mem hx)
    rcases hid with hskipped | hkept
    · obtain ⟨k, hk, rfl⟩ := List.mem_map.mp hskipped
      obtain ⟨x, hx, hleft⟩ := h.mem_skipped.mp hk
      rw [h.skipped_id hx hleft]
      exact hlisted x hx
    · obtain ⟨ch, hch, rfl⟩ := List.mem_map.mp hkept
      obtain ⟨x, hx, cand, hcand, _, _, _, rfl⟩ := h.of_mem_carriers hch
      change cand.carrier.id ∈ _
      rw [(h.candidate hx hcand).2.1]
      exact hlisted x hx
  · rw [h.carriers]
    exact seq_expand route.modes _

/-- A call whose route has the carriers `a` and `a-ep1`. The gateway they share
is down. -/
def sampleSurroundings : Surroundings where
  u := plainCase
  cfg := sampleLeg.cfg
  blockNegativeMargin := false
  maxEndpointsPerCarrier := 3
  cust := sampleCustomer
  customerMedia := .proxy
  customerRules := []
  called := "4930123456"
  caller := "4930999"
  sell := some sampleRate
  callUUID := uuidText 42
  privacy := false
  forwardIdentity := false
  offered := ""
  matchRoute _ := .ok (some ⟨⟨false, false, false, false⟩, [⟨2, 1, 100, ""⟩, ⟨1, 1, 100, ""⟩]⟩)
  matchRate _ := .ok (some sampleRate)
  gatewayDown name := name == "a-ep1"
  dead _ := false
  inWindow _ := true
  concurrent _ := none
  columns _ := { sampleColumns with endpointLB := .roundRobin }
  failoverSIPCodes _ := []
  carrierRules _ := []
  degraded _ := false
  quality _ := ⟨1 / 2, 0⟩
  qualityTier := id
  float64 := id
  endpointDraws _ := some (fun _ => 1)
  draws := some (fun _ => 0)

theorem exists_of_view {α : Type} {view : RouteResult → α} {a : α}
    {outcome : Except String RouteResult} (h : outcome.toOption.map view = some a) :
    ∃ res, outcome = .ok res ∧ view res = a := by
  cases outcome with
  | error text => cases h
  | ok res => exact ⟨res, rfl, Option.some.inj h⟩

theorem carriers_accounted_sampleSurroundings :
    ∃ res, routeWith sampleSurroundings sampleClash = .ok res ∧
      res.skipped.map (·.carrierId) = [2] ∧
      res.carriers.map (fun ch => (ch.seq, ch.carrierId, ch.gateway)) = [(1, 1, "a-ep2")] ∧
      Accounted sampleSurroundings sampleClash
        ⟨⟨false, false, false, false⟩, [⟨2, 1, 100, ""⟩, ⟨1, 1, 100, ""⟩]⟩ res := by
  have hview : (routeWith sampleSurroundings sampleClash).toOption.map (fun res =>
      (res.skipped.map (·.carrierId),
        res.carriers.map (fun ch => (ch.seq, ch.carrierId, ch.gateway)))) =
      some ([2], [(1, 1, "a-ep2")]) := by decide +kernel
  obtain ⟨res, hres, hparts⟩ := exists_of_view hview
  obtain ⟨hskipped, hcarriers⟩ := Prod.mk.inj hparts
  exact ⟨res, hres, hskipped, hcarriers,
    carriers_accounted _ _ 4 _ rfl rfl (by decide) res hres⟩

end Accounts

end SuperSbc.CallControl.DialList
