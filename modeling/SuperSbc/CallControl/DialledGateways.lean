import SuperSbc.CallControl.DialList

/-!
Gateways by their names. What is dialled is the gateway that FreeSWITCH has under
the name of the choice, which need not be the one rendered for its endpoint.
-/

namespace SuperSbc.CallControl.DialList

open FsConfig Text

section Intended

variable (now : Time) (nodeIP : String)

/-- The file under the dialled name is rendered from the very carrier and
endpoint the choice is for. -/
def CarrierChoice.Intended (t : CarrierTables) (ch : CarrierChoice) : Prop :=
  ∃ g ∈ t.gateways, ch.Dials t g.1 g.2 ∧ (wantedGateways now nodeIP t).lookup ch.gateway =
    some (endpointGatewayXML now nodeIP g.1 g.2 (t.only g.1))

theorem exists_dials {s : Surroundings} {t : CarrierTables} {res : RouteResult}
    (h : routeWith s t = .ok res) {ch : CarrierChoice} (hch : ch ∈ res.carriers) :
    ∃ g ∈ t.gateways, ch.Dials t g.1 g.2 := by
  obtain ⟨route, considered, hconsidered⟩ := exists_considered h hch
  obtain ⟨x, hx, cand, hcand, e, he, seq, rfl⟩ := hconsidered.of_mem_carriers hch
  obtain ⟨hc, -, hactive, heps, -, honly⟩ := hconsidered.candidate hx hcand
  rw [heps] at he
  obtain ⟨hmem, husable⟩ := mem_usableEndpoints he
  obtain ⟨henabled, -⟩ := Surroundings.usable_iff.mp husable
  refine ⟨(cand.carrier, e), CarrierTables.mem_gateways.mpr ⟨hc, hactive, hmem, henabled⟩, ?_⟩
  exact ⟨rfl, rfl, rfl, rfl, by rw [← honly]; rfl⟩

/-- Names tell the gateways apart, and everything dialled is what was rendered,
exactly if no carrier with one endpoint is named like an endpoint of a carrier
with several. -/
theorem dialled_gateway_intended_iff (t : CarrierTables) :
    (Set.InjOn t.gatewayOf {g | g ∈ t.gateways} ∧
        ∀ s res, routeWith s t = .ok res →
          ∀ ch ∈ res.carriers, ch.Intended now nodeIP t) ↔
      ¬ t.Clash := by
  constructor
  · rintro ⟨hinj, -⟩
    exact CarrierTables.gatewayOf_injOn_iff.mp hinj
  · intro hclash
    refine ⟨CarrierTables.gatewayOf_injOn_iff.mpr hclash, fun s res hres ch hch => ?_⟩
    obtain ⟨g, hg, hdials⟩ := exists_dials hres hch
    refine ⟨g, hg, hdials, ?_⟩
    rw [hdials.gateway]
    exact lookup_wantedGateways hclash hg

end Intended

/-- A call whose route has only carrier `a`. -/
def sampleOneCarrier : Surroundings :=
  { sampleSurroundings with
    maxEndpointsPerCarrier := 1
    matchRoute := fun _ => .ok (some ⟨⟨false, false, false, false⟩, [⟨1, 1, 100, ""⟩]⟩)
    gatewayDown := fun _ => false
    endpointDraws := fun _ => none }

/-- Carrier `a` is chosen, and its endpoint is dialled as the gateway of
`a-ep1`. -/
theorem gateway_of_other_carrier_dialled :
    ((routeWith sampleOneCarrier sampleClash).toOption.map (fun res =>
        res.carriers.map (fun ch => (ch.carrierId, ch.endpoint, ch.gateway))) =
      some [(1, "192.0.2.1:5060", "a-ep1")]) ∧
    (((wantedGateways 0 "" sampleClash).lookup "a-ep1").map (fun file =>
        (file.carrierId, file.gateway.params.lookup "proxy",
          file.gateway.params.lookup "password")) =
      some (2, some "203.0.113.1:5060", some "secret of a-ep1")) ∧
    ¬ Set.InjOn sampleClash.gatewayOf {g | g ∈ sampleClash.gateways} := by
  refine ⟨by decide +kernel, by decide +kernel, ?_⟩
  rw [CarrierTables.gatewayOf_injOn_iff, not_not]
  decide +kernel

end SuperSbc.CallControl.DialList
