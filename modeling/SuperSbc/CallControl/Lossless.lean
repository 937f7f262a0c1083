import SuperSbc.CallControl.DialList

/-!
Lossless routing and currencies. The selling rate of a call is converted into
the currency of the customer's account before the call is routed. A buying rate
is compared with it as its deck has it, in the currency of the deck.
-/

namespace SuperSbc.CallControl.DialList

open FixedPoint FsConfig Rating

/-- What rates are converted by: the decks by their ids, the exchange rates in
memory and the currency of the customer's account. -/
structure Currencies where
  decks : UUID → Option RateGroup
  table : Option FXTable
  account : String

/-- A rate per minute in the currency of the account, if it can be converted. -/
def Currencies.inAccount (m : Currencies) (r : RateRow) : Option Decimal :=
  (convertRate (m.decks r.rateGroupId) m.table r m.account).map (·.1.ratePerMin)

/-- Carriers are kept and left out by what they cost in the account's
currency. -/
structure LikeWithLike (m : Currencies) (s : Surroundings) (t : CarrierTables) (sell : RateRow)
    (res : RouteResult) : Prop where
  kept : ∀ ch ∈ res.carriers, ∃ buy ∈ buyOf s t ch.carrierId,
    ∀ rate ∈ m.inAccount buy, rate ≤ sell.ratePerMin
  skipped : ∀ k ∈ res.skipped, MarginReason k.reason → ∃ buy ∈ buyOf s t k.carrierId,
    ∀ rate ∈ m.inAccount buy, sell.ratePerMin < rate

/-- The selling rate does not lie between a carrier's rate and what that is in
the account's currency: it is above both of them or below both. -/
def Apart (m : Currencies) (sell buy : RateRow) : Prop :=
  ∀ rate ∈ m.inAccount buy, max buy.ratePerMin rate ≤ sell.ratePerMin ∨
    sell.ratePerMin < min buy.ratePerMin rate

section Margin

variable {m : Currencies} {s : Surroundings} {t : CarrierTables} {sell : RateRow}
  {res : RouteResult} {route : MatchedRoute}
  {considered : List (RouteCarrier × (SkippedCarrier ⊕ Candidate))}
  {x : RouteCarrier × (SkippedCarrier ⊕ Candidate)} {c : GatewayCarrier} {buy : RateRow}

theorem convertRate_of_same {deck : RateGroup} {account : String}
    (hsame : Text.equalFoldAscii deck.currency account) (table : Option FXTable) (r : RateRow) :
    convertRate (some deck) table r account = some (r, ⟨1, zero_le_one⟩) := by
  unfold convertRate fx
  dsimp only
  rw [if_pos (.inr (.inr hsame))]
  exact if_pos rfl

theorem inAccount_of_same {deck : RateGroup} {r : RateRow}
    (hdeck : m.decks r.rateGroupId = some deck)
    (hsame : Text.equalFoldAscii deck.currency m.account) :
    m.inAccount r = some r.ratePerMin := by
  unfold Currencies.inAccount
  rw [hdeck, convertRate_of_same hsame]
  rfl

theorem loses_iff (hsell : s.sell = some sell) (buy : RateRow) :
    s.loses buy = true ↔ sell.ratePerMin < buy.ratePerMin := by
  unfold Surroundings.loses
  rw [hsell]
  simp

theorem Considered.exists_choice (h : Considered s t route considered res) (hx : x ∈ considered)
    {cand : Candidate} (hcand : x.2 = .inr cand) :
    ∃ ch ∈ res.carriers, ch.carrierId = x.1.carrierId := by
  obtain ⟨-, hid, -, -, hsome, -⟩ := h.candidate hx hcand
  obtain ⟨e, he⟩ := List.exists_mem_of_ne_nil _ hsome
  have hordered := mem_ordered (s := s) route.modes hx hcand
  obtain ⟨i, hi, hget⟩ := List.getElem_of_mem (List.mem_flatMap_of_mem
    (f := fun cand => cand.eps.map (cand, ·)) hordered (List.mem_map_of_mem he))
  refine ⟨choice s route.modes cand e (i + 1), ?_, hid⟩
  rw [h.carriers]
  exact List.mem_mapIdx.mpr ⟨i, hi, by rw [hget]⟩

/-- A carrier that gets as far as its margin is kept, or left out for it. -/
theorem Considered.of_rated (h : Considered s t route considered res) (hx : x ∈ considered)
    (hrated : Rated s t x.1 c buy) :
    (∃ ch ∈ res.carriers, ch.carrierId = x.1.carrierId) ∨
      ∃ k ∈ res.skipped, MarginReason k.reason ∧ k.carrierId = x.1.carrierId := by
  cases hfound : x.2 with
  | inl k =>
    have hout := h.outcomes x hx
    rw [hfound] at hout
    cases hout with
    | unrated _ _ _ hnot => exact absurd hrated (hnot c buy)
    | losing _ hid hreason _ _ _ _ =>
      exact .inr ⟨k, h.mem_skipped.mpr ⟨x, hx, hfound⟩, hreason, hid⟩
  | inr cand => exact .inl (h.exists_choice hx hfound)

theorem Considered.rated_kept (h : Considered s t route considered res)
    (hsell : s.sell = some sell)
    (hon : s.blockNegativeMargin = true ∨ route.modes.lossless = true) {ch : CarrierChoice}
    (hch : ch ∈ res.carriers) : ∃ x ∈ considered, ∃ c buy, Rated s t x.1 c buy ∧
      ch.carrierId = x.1.carrierId ∧ buy.ratePerMin ≤ sell.ratePerMin := by
  obtain ⟨x, hx, cand, hcand, e, -, seq, rfl⟩ := h.of_mem_carriers hch
  obtain ⟨-, hid, -⟩ := h.candidate hx hcand
  have hout := h.outcomes x hx
  rw [hcand] at hout
  cases hout with
  | kept c buy hrated hkept =>
    refine ⟨x, hx, c, buy, hrated, hid, not_lt.mp (fun hless => ?_)⟩
    obtain ⟨hblock, hlossless⟩ := hkept ((loses_iff hsell buy).mpr hless)
    rw [hblock, hlossless] at hon
    simp at hon

theorem Considered.rated_skipped (h : Considered s t route considered res)
    (hsell : s.sell = some sell) {k : SkippedCarrier} (hk : k ∈ res.skipped)
    (hreason : MarginReason k.reason) : ∃ x ∈ considered, ∃ c buy, Rated s t x.1 c buy ∧
      k.carrierId = x.1.carrierId ∧ sell.ratePerMin < buy.ratePerMin := by
  obtain ⟨x, hx, hleft⟩ := h.mem_skipped.mp hk
  have hout := h.outcomes x hx
  rw [hleft] at hout
  cases hout with
  | unrated _ _ hother _ => exact absurd hreason hother
  | losing _ hid _ c buy hrated hloses =>
    exact ⟨x, hx, c, buy, hrated, hid, (loses_iff hsell buy).mp hloses⟩

/-- Where losing carriers are left out, they are found by comparing like with
like exactly if the selling rate does not lie between the rate of a carrier that
could take the call and that rate converted. -/
theorem lossless_like_with_like_iff (m : Currencies) (s : Surroundings) (t : CarrierTables)
    (group : UUID) (route : MatchedRoute) (hgroup : s.cust.routeGroupId = some group)
    (hroute : s.matchRoute group = .ok (some route))
    (hon : s.blockNegativeMargin = true ∨ route.modes.lossless = true) (sell : RateRow)
    (hsell : s.sell = some sell) (res : RouteResult) (hres : routeWith s t = .ok res) :
    LikeWithLike m s t sell res ↔
      ∀ rc ∈ route.carriers, ∀ c buy, Rated s t rc c buy → Apart m sell buy := by
  obtain ⟨considered, h⟩ := considered_of_ok hres hgroup hroute
  constructor
  · rintro ⟨hkept, hskipped⟩ rc hrc c buy hrated rate hrate
    rw [← h.entries] at hrc
    obtain ⟨x, hx, rfl⟩ := List.mem_map.mp hrc
    rcases h.of_rated hx hrated with ⟨ch, hch, hid⟩ | ⟨k, hk, hreason, hid⟩
    · obtain ⟨y, -, _, found, hy, hyid, hle⟩ := h.rated_kept hsell hon hch
      obtain ⟨same, hsame, hconverted⟩ := hkept ch hch
      obtain rfl := Option.some.inj (hsame.symm.trans (hyid ▸ hy.rate))
      obtain rfl := Option.some.inj (hsame.symm.trans (hid ▸ hrated.rate))
      exact .inl (max_le hle (hconverted rate hrate))
    · obtain ⟨y, -, _, found, hy, hyid, hless⟩ := h.rated_skipped hsell hk hreason
      obtain ⟨same, hsame, hconverted⟩ := hskipped k hk hreason
      obtain rfl := Option.some.inj (hsame.symm.trans (hyid ▸ hy.rate))
      obtain rfl := Option.some.inj (hsame.symm.trans (hid ▸ hrated.rate))
      exact .inr (lt_min hless (hconverted rate hrate))
  · intro hapart
    have hlisted {x} (hx : x ∈ considered) : x.1 ∈ route.carriers := by
      rw [← h.entries]
      exact List.mem_map_of_mem hx
    refine ⟨fun ch hch => ?_, fun k hk hreason => ?_⟩
    · obtain ⟨x, hx, c, buy, hrated, hid, hle⟩ := h.rated_kept hsell hon hch
      refine ⟨buy, hid ▸ hrated.rate, fun rate hrate => ?_⟩
      rcases hapart x.1 (hlisted hx) c buy hrated rate hrate with habove | hbelow
      · exact (le_max_right _ _).trans habove
      · exact absurd (lt_min_iff.mp hbelow).1 hle.not_gt
    · obtain ⟨x, hx, c, buy, hrated, hid, hless⟩ := h.rated_skipped hsell hk hreason
      refine ⟨buy, hid ▸ hrated.rate, fun rate hrate => ?_⟩
      rcases hapart x.1 (hlisted hx) c buy hrated rate hrate with habove | hbelow
      · exact absurd (max_le_iff.mp habove).1 hless.not_ge
      · exact (lt_min_iff.mp hbelow).2

def sampleSterling : RateRow :=
  { sampleRate with
    id := 51
    rateGroupId := 5
    ratePerMin := 55 / 1000
    ratePerMin_nonneg := by norm_num
    ratePerMin_scale := by decide +kernel }

theorem samplePound_bound : |(120000000 : ℤ)| < 10 ^ 18 := by decide

theorem samplePound_pos : (0 : ℤ) < 120000000 := by decide

/-- Deck 3 and the account are in euros, deck 5 is in pounds, and a pound is
1.20 euros. -/
def sampleCurrencies : Currencies where
  decks id := if id = 3 then some ⟨"EUR"⟩ else if id = 5 then some ⟨"GBP"⟩ else none
  table := some (fun pair =>
    if pair = "GBP/EUR" then some ⟨⟨120000000, samplePound_bound⟩, samplePound_pos⟩ else none)
  account := "EUR"

/-- A call in a lossless route group that has carrier `a`, with a buying rate. -/
def sampleLossless (buy : RateRow) : Surroundings :=
  { sampleSurroundings with
    matchRoute := fun _ => .ok (some ⟨⟨false, true, false, false⟩, [⟨1, 1, 100, ""⟩]⟩)
    matchRate := fun _ => .ok (some buy) }

theorem sampleLossless_kept (buy : RateRow)
    (hview : (routeWith (sampleLossless buy) sampleClash).toOption.map (fun res =>
      res.carriers.map (·.carrierId)) = some [1]) :
    ∃ res, routeWith (sampleLossless buy) sampleClash = .ok res ∧
      res.carriers.map (·.carrierId) = [1] :=
  exists_of_view hview

/-- A carrier with a deck in the currency of the account. -/
theorem like_with_like_sampleRate :
    ∃ res, routeWith (sampleLossless sampleRate) sampleClash = .ok res ∧
      res.carriers.map (·.carrierId) = [1] ∧
      LikeWithLike sampleCurrencies (sampleLossless sampleRate) sampleClash sampleRate res := by
  obtain ⟨res, hres, hcarriers⟩ := sampleLossless_kept sampleRate (by decide +kernel)
  refine ⟨res, hres, hcarriers, ?_⟩
  refine (lossless_like_with_like_iff sampleCurrencies (sampleLossless sampleRate) sampleClash 4 _
    rfl rfl (.inr rfl) sampleRate rfl res hres).mpr (fun rc hrc c buy hrated rate hrate => ?_)
  obtain rfl := List.mem_singleton.mp hrc
  obtain rfl : sampleRate = buy := Option.some.inj hrated.rate
  have hdeck : sampleCurrencies.decks sampleRate.rateGroupId = some ⟨"EUR"⟩ := rfl
  rw [inAccount_of_same hdeck (by decide +kernel)] at hrate
  rw [← Option.some.inj hrate]
  exact .inl (max_self _).le

/-- A rate of 0.055 pounds is kept under a selling rate of 0.06 euros, and is
0.066 euros. -/
theorem losing_carrier_kept :
    ∃ res, routeWith (sampleLossless sampleSterling) sampleClash = .ok res ∧
      res.carriers.map (·.carrierId) = [1] ∧
      convertRate (sampleCurrencies.decks sampleRate.rateGroupId) sampleCurrencies.table sampleRate
        sampleCurrencies.account = some (sampleRate, ⟨1, zero_le_one⟩) ∧
      buyOf (sampleLossless sampleSterling) sampleClash 1 = some sampleSterling ∧
      sampleCurrencies.inAccount sampleSterling = some (66 / 1000) ∧
      sampleRate.ratePerMin = 6 / 100 ∧
      ¬ LikeWithLike sampleCurrencies (sampleLossless sampleSterling) sampleClash sampleRate
        res := by
  obtain ⟨res, hres, hcarriers⟩ := sampleLossless_kept sampleSterling (by decide +kernel)
  have hbuy : buyOf (sampleLossless sampleSterling) sampleClash 1 = some sampleSterling := rfl
  have hrate : sampleCurrencies.inAccount sampleSterling = some (66 / 1000) := by decide +kernel
  refine ⟨res, hres, hcarriers, ?_, hbuy, hrate, rfl, fun hlike => ?_⟩
  · exact convertRate_of_same (by decide +kernel) _ _
  obtain ⟨ch, hch, hid⟩ : ∃ ch ∈ res.carriers, ch.carrierId = 1 := by
    refine List.mem_map.mp ?_
    rw [hcarriers]
    exact List.mem_singleton_self 1
  obtain ⟨buy, hfound, hle⟩ := hlike.kept ch hch
  rw [hid, hbuy] at hfound
  obtain rfl := Option.some.inj hfound
  exact absurd (hle _ hrate) (by decide +kernel)

end Margin

end SuperSbc.CallControl.DialList
