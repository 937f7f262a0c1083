import SuperSbc.Billing.Bill
import SuperSbc.ReadCommitted.ReadOnly

/-!
What billing reads before it writes. Rates, carriers, decks and accounts are
looked up with plain `SELECT`s, so price, cost and fees are results of bodies
that only read, and each of them is described here once for all ways a bill
can run.
-/

namespace SuperSbc.Billing

open FixedPoint Rating ReadCommitted Transaction Store

section ReadOnly

variable (e : Engine)

theorem buyFX_readOnly (lookup : ℕ) (buy : RateRow) (carrierId : UUID) :
    (buyFX e lookup buy carrierId).ReadOnly := by
  unfold buyFX rateGroupByID accountByOwner
  refine .bind (.select _) (fun deck => ?_)
  cases deck with
  | none => exact .pure _
  | some deck =>
    refine .bind (.select _) (fun found => ?_)
    cases found with
    | none => exact .pure _
    | some found =>
      dsimp only
      cases e.fx <;> exact .pure _

theorem carrierCost_readOnly (c : CDR) (carrierId : UUID) (amt : Decimal) :
    (carrierCost e c carrierId amt).ReadOnly := by
  unfold carrierCost
  cases buyRateFor c.attempts carrierId with
  | none => exact .pure _
  | some buyId =>
    unfold rateByID
    refine .bind (.select _) (fun buy => ?_)
    cases buy with
    | none => exact .pure _
    | some buy => exact .bind (buyFX_readOnly e 0 buy carrierId) (fun fx => .pure _)

theorem money_readOnly (h : HangupInfo) (c : CDR) : (money e h c).ReadOnly := by
  unfold money
  split
  · unfold rateByID
    refine .bind (.select _) (fun sell => ?_)
    cases sell with
    | none => exact .raise _
    | some sell =>
      dsimp only
      cases h.answeredCarrierId with
      | none => exact .pure _
      | some carrierId => exact .bind (carrierCost_readOnly e _ carrierId _) (fun done => .pure _)
  · exact .pure _

theorem withTransport_readOnly (c : CDR) : (withTransport c).ReadOnly := by
  unfold withTransport carrierByID
  cases c.carrierId with
  | none => exact .pure _
  | some carrierId =>
    refine .bind (.select _) (fun carrier => ?_)
    cases carrier <;> exact .pure _

theorem chargesFailedAttempts_readOnly (known : List (UUID × Bool)) (carrierId : UUID) :
    (chargesFailedAttempts known carrierId).ReadOnly := by
  unfold chargesFailedAttempts carrierByID
  cases known.lookup carrierId with
  | some on => exact .pure _
  | none => exact .bind (.select _) (fun carrier => .pure _)

theorem attemptFee_readOnly (lookup : ℕ) (on : Bool) (buyId : UUID) (a : AttemptRecord) :
    (attemptFee e lookup on buyId a).ReadOnly := by
  unfold attemptFee rateByID
  split_ifs
  · refine .bind (.select _) (fun buy => ?_)
    cases buy with
    | none => exact .pure _
    | some buy =>
      dsimp only
      split_ifs
      · exact .pure _
      · exact .bind (buyFX_readOnly e lookup buy a.carrierId) (fun fx => .pure _)
  · exact .pure _

theorem failedAttemptFees_readOnly (lookup : ℕ) (known : List (UUID × Bool))
    (attempts : List AttemptRecord) : (failedAttemptFees e lookup known attempts).ReadOnly := by
  induction attempts generalizing lookup known with
  | nil => exact .pure _
  | cons a rest ih =>
    unfold failedAttemptFees
    split
    · exact .bind (ih _ _) (fun later => .pure _)
    · exact .bind (ih _ _) (fun later => .pure _)
    · refine .bind (chargesFailedAttempts_readOnly known a.carrierId) (fun checked => ?_)
      refine .bind (attemptFee_readOnly e lookup checked.1 _ a) (fun fee => ?_)
      exact .bind (ih _ _) (fun later => .pure _)

end ReadOnly

/-- The exchange rates of an engine are not negative, as the schema demands of
the rates they come from. -/
def Engine.RatesNonneg (e : Engine) : Prop :=
  ∀ fx lookup base quote rate, e.fx = some fx → fx lookup base quote = some rate → 0 ≤ rate

section Results

variable {seen : DB → Prop} {e : Engine} {h : HangupInfo} {c : CDR}

variable {carrierId : UUID} {amt : Decimal} {result : CDR × Decimal × Decimal}

/-- The answering carrier's cost: nothing, or the price of the call at a buy
rate and an exchange rate that were found. -/
inductive CostRead (seen : DB → Prop) (e : Engine) (c : CDR) (carrierId : UUID) (amt : Decimal) :
    CDR × Decimal → Prop where
  | free : CostRead seen e c carrierId amt (c, 0)
  | priced (buyId : UUID) (d : DB) (buy : RateRow) (fx : Decimal × String)
      (hrate : buyRateFor c.attempts carrierId = some buyId) (hseen : seen d)
      (hbuy : d.row (.rate buyId) = some buy)
      (hfx : (buyFX e 0 buy carrierId).Yields seen fx) :
      CostRead seen e c carrierId amt
        ({ c with
          buyFX := fx.1
          buyCurrency := some fx.2
          buyRateId := some buyId
          buyRatePerMin := some (roundTo scale (buy.ratePerMin * fx.1))
          buyBilledSeconds := (price c.billsec (toRatingFX buy fx.1)).1
          cost := (price c.billsec (toRatingFX buy fx.1)).2
          negativeMargin := decide (amt < (price c.billsec (toRatingFX buy fx.1)).2) },
          (price c.billsec (toRatingFX buy fx.1)).2)

theorem costRead_of_yields {result : CDR × Decimal}
    (hyields : (carrierCost e c carrierId amt).Yields seen result) :
    CostRead seen e c carrierId amt result := by
  unfold carrierCost at hyields
  cases hrate : buyRateFor c.attempts carrierId with
  | none =>
    rw [hrate] at hyields
    obtain rfl := yields_pure.mp hyields
    exact .free
  | some buyId =>
    rw [hrate] at hyields
    unfold rateByID at hyields
    obtain ⟨d, hd, hyields⟩ := yields_select_bind.mp hyields
    cases hbuy : d.row (.rate buyId) with
    | none =>
      rw [hbuy] at hyields
      obtain rfl := yields_pure.mp hyields
      exact .free
    | some buy =>
      rw [hbuy] at hyields
      obtain ⟨fx, hfx, hyields⟩ := (yields_bind (buyFX_readOnly e 0 buy carrierId)).mp hyields
      obtain rfl := yields_pure.mp hyields
      exact .priced buyId d buy fx hrate hd hbuy hfx

/-- Price and cost of a call: those of an answered call that was sold, or
none. -/
inductive MoneyRead (seen : DB → Prop) (e : Engine) (h : HangupInfo) (c : CDR) :
    CDR × Decimal × Decimal → Prop where
  | unsold (hunsold : h.answerTime = none ∨ c.sellRateId = none) :
      MoneyRead seen e h c ({ c with carrierId := h.answeredCarrierId <|> c.carrierId }, 0, 0)
  | sold (sellId : UUID) (d : DB) (sell : RateRow) (hanswered : h.answerTime.isSome)
      (hsold : c.sellRateId = some sellId) (hseen : seen d)
      (hsell : d.row (.rate sellId) = some sell)
      (hcarrier : h.answeredCarrierId = none) :
      MoneyRead seen e h c
        ({ c with
          sellBilledSeconds := (price c.billsec (toRatingFX sell c.sellFX)).1
          sellPrice := (price c.billsec (toRatingFX sell c.sellFX)).2 },
          (price c.billsec (toRatingFX sell c.sellFX)).2, 0)
  | carried (sellId : UUID) (d : DB) (sell : RateRow) (carrierId : UUID) (result : CDR × Decimal)
      (hanswered : h.answerTime.isSome) (hsold : c.sellRateId = some sellId) (hseen : seen d)
      (hsell : d.row (.rate sellId) = some sell) (hcarrier : h.answeredCarrierId = some carrierId)
      (hcost : CostRead seen e { c with
          sellBilledSeconds := (price c.billsec (toRatingFX sell c.sellFX)).1
          sellPrice := (price c.billsec (toRatingFX sell c.sellFX)).2
          carrierId := some carrierId } carrierId
        (price c.billsec (toRatingFX sell c.sellFX)).2 result) :
      MoneyRead seen e h c (result.1, (price c.billsec (toRatingFX sell c.sellFX)).2, result.2)

theorem moneyRead_of_yields (hyields : (money e h c).Yields seen result) :
    MoneyRead seen e h c result := by
  unfold money at hyields
  split at hyields
  · rename_i answered sellId hanswer hsold
    have hanswered : h.answerTime.isSome := by simp [hanswer]
    unfold rateByID at hyields
    obtain ⟨d, hd, hyields⟩ := yields_select_bind.mp hyields
    cases hsell : d.row (.rate sellId) with
    | none =>
      rw [hsell] at hyields
      exact absurd hyields yields_raise.mp
    | some sell =>
      rw [hsell] at hyields
      dsimp only at hyields
      cases hcarrier : h.answeredCarrierId with
      | none =>
        rw [hcarrier] at hyields
        obtain rfl := yields_pure.mp hyields
        exact .sold sellId d sell hanswered hsold hd hsell hcarrier
      | some carrierId =>
        rw [hcarrier] at hyields
        obtain ⟨done, hdone, hyields⟩ :=
          (yields_bind (carrierCost_readOnly e _ carrierId _)).mp hyields
        obtain rfl := yields_pure.mp hyields
        exact .carried sellId d sell carrierId done hanswered hsold hd hsell hcarrier
          (costRead_of_yields hdone)
  · rename_i hnone
    obtain rfl := yields_pure.mp hyields
    refine .unsold ?_
    cases hanswer : h.answerTime with
    | none => exact .inl rfl
    | some t =>
      cases hsold : c.sellRateId with
      | none => exact .inr rfl
      | some id => exact absurd hsold (hnone t id hanswer)

theorem CostRead.kept {result : CDR × Decimal} (hread : CostRead seen e c carrierId amt result) :
    result.1.attempts = c.attempts ∧
      result.1.billedAt = c.billedAt ∧ result.1.carrierId = c.carrierId := by
  cases hread with
  | free | priced => exact ⟨rfl, rfl, rfl⟩

theorem MoneyRead.kept (hread : MoneyRead seen e h c result) :
    result.1.attempts = c.attempts ∧ result.1.billedAt = c.billedAt := by
  cases hread with
  | unsold _ | sold => exact ⟨rfl, rfl⟩
  | carried _ _ _ _ _ _ _ _ _ _ hcost => exact ⟨hcost.kept.1, hcost.kept.2.1⟩

/-- Only the carrier that answered can cost anything. -/
theorem MoneyRead.carrier (hread : MoneyRead seen e h c result) (hcost : 0 < result.2.2) :
    ∃ carrierId, h.answerTime.isSome ∧
      h.answeredCarrierId = some carrierId ∧ result.1.carrierId = some carrierId := by
  cases hread with
  | unsold _ | sold => exact absurd hcost (lt_irrefl _)
  | carried _ _ _ carrierId _ hanswered _ _ _ hcarrier hread =>
    exact ⟨carrierId, hanswered, hcarrier, hread.kept.2.2⟩

theorem CostRead.onScale {result : CDR × Decimal} (hread : CostRead seen e c carrierId amt result) :
    OnScale scale result.2 := by
  cases hread with
  | free => exact OnScale.zero scale
  | priced => exact price_onScale _ _

theorem MoneyRead.onScale (hread : MoneyRead seen e h c result) :
    OnScale scale result.2.1 ∧ OnScale scale result.2.2 := by
  cases hread with
  | unsold _ => exact ⟨OnScale.zero scale, OnScale.zero scale⟩
  | sold => exact ⟨price_onScale _ _, OnScale.zero scale⟩
  | carried _ _ _ _ _ _ _ _ _ _ hcost => exact ⟨price_onScale _ _, hcost.onScale⟩

theorem toRatingFX_valid (r : RateRow) {fx : Decimal} (hfx : 0 ≤ fx) :
    (toRatingFX r fx).Valid where
  perMinute_nonneg := by
    unfold toRatingFX
    split_ifs
    · exact roundTo_nonneg _ (mul_nonneg r.ratePerMin_nonneg zero_le_one)
    · exact roundTo_nonneg _ (mul_nonneg r.ratePerMin_nonneg hfx)
  connectFee_nonneg := by
    unfold toRatingFX
    split_ifs
    · exact roundTo_nonneg _ (mul_nonneg r.connectFee_nonneg zero_le_one)
    · exact roundTo_nonneg _ (mul_nonneg r.connectFee_nonneg hfx)
  initial_pos := r.initialIncrement_pos
  subsequent_pos := r.subsequentIncrement_pos
  minDuration_nonneg := r.minDuration_nonneg
  initial_lt := r.initialIncrement_lt
  subsequent_lt := r.subsequentIncrement_lt

theorem buyFX_nonneg (he : e.RatesNonneg) {lookup : ℕ} {buy : RateRow} {fx : Decimal × String}
    (hyields : (buyFX e lookup buy carrierId).Yields seen fx) : 0 ≤ fx.1 := by
  unfold buyFX rateGroupByID accountByOwner at hyields
  obtain ⟨d, -, hyields⟩ := yields_select_bind.mp hyields
  split at hyields
  · rw [yields_pure.mp hyields]
    exact zero_le_one
  · obtain ⟨d', -, hyields⟩ := yields_select_bind.mp hyields
    split at hyields
    · rw [yields_pure.mp hyields]
      exact zero_le_one
    · split at hyields
      · rw [yields_pure.mp hyields]
        exact zero_le_one
      · rename_i source hsource
        rw [yields_pure.mp hyields]
        dsimp only
        cases hrate : source lookup _ _ with
        | none => exact zero_le_one
        | some rate => exact he source lookup _ _ rate hsource hrate

theorem CostRead.nonneg {result : CDR × Decimal} (hread : CostRead seen e c carrierId amt result)
    (he : e.RatesNonneg) : 0 ≤ result.2 := by
  cases hread with
  | free => exact le_rfl
  | priced buyId d buy fx _ _ _ hfx =>
    exact price_nonneg _ (toRatingFX_valid buy (buyFX_nonneg he hfx))

theorem MoneyRead.nonneg (hread : MoneyRead seen e h c result) (he : e.RatesNonneg)
    (hfx : 0 ≤ c.sellFX) : 0 ≤ result.2.1 ∧ 0 ≤ result.2.2 := by
  cases hread with
  | unsold _ => exact ⟨le_rfl, le_rfl⟩
  | sold _ _ sell => exact ⟨price_nonneg _ (toRatingFX_valid sell hfx), le_rfl⟩
  | carried _ _ sell _ _ _ _ _ _ _ hcost =>
    exact ⟨price_nonneg _ (toRatingFX_valid sell hfx), hcost.nonneg he⟩

/-- The money columns of a record that had no price yet, once it is priced. -/
structure Priced (c : CDR) (result : CDR × Decimal × Decimal) : Prop where
  price : result.1.sellPrice = result.2.1
  cost : result.1.cost = result.2.2
  charged : result.1.chargedAmount = c.chargedAmount

theorem CostRead.columns {result : CDR × Decimal} (hread : CostRead seen e c carrierId amt result)
    (hcost : c.cost = 0) :
    result.1.sellPrice = c.sellPrice ∧ result.1.cost = result.2 ∧
      result.1.chargedAmount = c.chargedAmount := by
  cases hread with
  | free => exact ⟨rfl, hcost, rfl⟩
  | priced => exact ⟨rfl, rfl, rfl⟩

theorem MoneyRead.priced (hread : MoneyRead seen e h c result) (hprice : c.sellPrice = 0)
    (hcost : c.cost = 0) : Priced c result := by
  cases hread with
  | unsold _ => exact ⟨hprice, hcost, rfl⟩
  | sold => exact ⟨rfl, hcost, rfl⟩
  | carried _ _ _ _ _ _ _ _ _ _ hread =>
    obtain ⟨hsame, hpaid, hcharged⟩ := hread.columns hcost
    exact ⟨hsame, hpaid, hcharged⟩

theorem withTransport_yields {c' : CDR} (hyields : (withTransport c).Yields seen c') :
    ∃ transport, c' = { c with transportOut := transport } := by
  unfold withTransport carrierByID at hyields
  split at hyields
  · obtain rfl := yields_pure.mp hyields
    exact ⟨c'.transportOut, rfl⟩
  · obtain ⟨d, _, hyields⟩ := yields_select_bind.mp hyields
    split at hyields
    · obtain rfl := yields_pure.mp hyields
      exact ⟨c'.transportOut, rfl⟩
    · exact ⟨_, yields_pure.mp hyields⟩

end Results

section Fees

variable {seen : DB → Prop} {e : Engine} {db : DB}

variable {lookup : ℕ} {a : AttemptRecord} {fee : Option AttemptFee} {known : List (UUID × Bool)}
  {result : List AttemptRecord × List AttemptFee}

/-- Two stores with the same carriers and rates. -/
structure SameTariffs (db d : DB) : Prop where
  carriers : ∀ id, d.row (.carrier id) = db.row (.carrier id)
  rates : ∀ id, d.row (.rate id) = db.row (.rate id)

/-- Whether a failed attempt costs a connect fee. -/
def chargesFee (db : DB) (a : AttemptRecord) : Bool :=
  decide (a.classification ≠ .answered) && a.buyRateId.any (fun buyId =>
    (db.row (.carrier a.carrierId)).any (·.chargeFailedAttempts) &&
      (db.row (.rate buyId)).any (fun buy => 0 < buy.connectFee))

theorem chargesFee_fillPDD (db : DB) (progress answer : Option Time) (a : AttemptRecord) :
    chargesFee db (fillPDD progress answer a) = chargesFee db a ∧
      (fillPDD progress answer a).carrierId = a.carrierId := by
  unfold fillPDD
  split
  · split
    · exact ⟨rfl, rfl⟩
    · exact ⟨rfl, rfl⟩
  · exact ⟨rfl, rfl⟩

theorem feeCarriers_fillAttemptPDD (db : DB) (attempts : List AttemptRecord)
    (progress answer : Option Time) :
    ((fillAttemptPDD attempts progress answer).filter (chargesFee db)).map (·.carrierId) =
      (attempts.filter (chargesFee db)).map (·.carrierId) := by
  induction attempts with
  | nil => rfl
  | cons a rest ih =>
    obtain ⟨hcharges, hcarrier⟩ := chargesFee_fillPDD db progress answer a
    unfold fillAttemptPDD at ih ⊢
    rw [List.map_cons, List.filter_cons, List.filter_cons, hcharges]
    split_ifs
    · rw [List.map_cons, List.map_cons, hcarrier, ih]
    · exact ih

theorem attemptFee_onScale {on : Bool} {buyId : UUID}
    (hyields : (attemptFee e lookup on buyId a).Yields seen fee) :
    ∀ f ∈ fee, OnScale scale f.amount := by
  unfold attemptFee rateByID at hyields
  split_ifs at hyields
  · obtain ⟨d, -, hyields⟩ := yields_select_bind.mp hyields
    split at hyields
    · obtain rfl := yields_pure.mp hyields
      simp
    · rename_i buy _
      split_ifs at hyields
      · obtain rfl := yields_pure.mp hyields
        simp
      · obtain ⟨fx, -, hyields⟩ :=
          (yields_bind (buyFX_readOnly e lookup buy a.carrierId)).mp hyields
        obtain rfl := yields_pure.mp hyields
        intro f hf
        obtain rfl := Option.some.inj hf
        exact roundTo_onScale _ _
  · obtain rfl := yields_pure.mp hyields
    simp

theorem noteFee_onScale {later : List AttemptRecord × List AttemptFee}
    (hfee : ∀ f ∈ fee, OnScale scale f.amount) (hlater : ∀ f ∈ later.2, OnScale scale f.amount) :
    ∀ f ∈ (noteFee a fee later).2, OnScale scale f.amount := by
  cases fee with
  | none => exact hlater
  | some f =>
    intro g hg
    rcases List.mem_cons.mp hg with rfl | hg
    · exact hfee g rfl
    · exact hlater g hg

theorem failedAttemptFees_onScale (attempts : List AttemptRecord)
    (hyields : (failedAttemptFees e lookup known attempts).Yields seen result) :
    ∀ f ∈ result.2, OnScale scale f.amount := by
  induction attempts generalizing lookup known result with
  | nil =>
    obtain rfl := yields_pure.mp hyields
    simp
  | cons a rest ih =>
    have hnoted : ∀ fee known', (∀ f ∈ fee, OnScale scale f.amount) →
        (failedAttemptFees e (lookup + 1) known' rest >>= fun later =>
          pure (noteFee a fee later)).Yields seen result →
        ∀ f ∈ result.2, OnScale scale f.amount := by
      intro fee known' hfee hrest
      obtain ⟨later, hlater, hdone⟩ :=
        (yields_bind (failedAttemptFees_readOnly e (lookup + 1) known' rest)).mp hrest
      obtain rfl := yields_pure.mp hdone
      exact noteFee_onScale hfee (ih hlater)
    unfold failedAttemptFees at hyields
    split at hyields
    · exact hnoted none known (by simp) hyields
    · exact hnoted none known (by simp) hyields
    · obtain ⟨checked, -, hyields⟩ :=
        (yields_bind (chargesFailedAttempts_readOnly known a.carrierId)).mp hyields
      obtain ⟨fee, hfee, hyields⟩ :=
        (yields_bind (attemptFee_readOnly e lookup checked.1 _ a)).mp hyields
      exact hnoted fee checked.2 (attemptFee_onScale hfee) hyields

/-- The fee of one attempt: there is one exactly if the tariffs say so, and it
is the connect fee of the attempt's rate at an exchange rate that was found. -/
structure FeeRead (seen : DB → Prop) (e : Engine) (db : DB) (a : AttemptRecord)
    (fee : Option AttemptFee) : Prop where
  charged : fee.isSome = chargesFee db a
  amount : ∀ f, fee = some f → ∃ lookup buyId buy fx, a.buyRateId = some buyId ∧
    db.row (.rate buyId) = some buy ∧ (buyFX e lookup buy a.carrierId).Yields seen fx ∧
    f = ⟨a.seq, a.carrierId, a.sipCode, a.hangupCause, roundTo scale (buy.connectFee * fx.1)⟩

def KnownBy (db : DB) (known : List (UUID × Bool)) : Prop :=
  ∀ carrierId on, known.lookup carrierId = some on →
    on = (db.row (.carrier carrierId)).any (·.chargeFailedAttempts)

theorem chargesFailedAttempts_yields {carrierId : UUID} {result : Bool × List (UUID × Bool)}
    (htariffs : ∀ d, seen d → SameTariffs db d) (hknown : KnownBy db known)
    (hyields : (chargesFailedAttempts known carrierId).Yields seen result) :
    result.1 = (db.row (.carrier carrierId)).any (·.chargeFailedAttempts) ∧
      KnownBy db result.2 := by
  unfold chargesFailedAttempts carrierByID at hyields
  split at hyields
  · rename_i on hon
    obtain rfl := yields_pure.mp hyields
    exact ⟨hknown carrierId on hon, hknown⟩
  · obtain ⟨d, hd, hyields⟩ := yields_select_bind.mp hyields
    obtain rfl := yields_pure.mp hyields
    dsimp only
    rw [(htariffs d hd).carriers]
    refine ⟨rfl, fun other on hon => ?_⟩
    rw [List.lookup_cons] at hon
    split at hon
    · rename_i hsame
      obtain rfl := Option.some.inj hon
      rw [eq_of_beq hsame]
    · exact hknown other on hon

theorem attemptFee_yields {buyId : UUID} (htariffs : ∀ d, seen d → SameTariffs db d)
    (hfailed : a.classification ≠ .answered) (hbuy : a.buyRateId = some buyId)
    (hyields : (attemptFee e lookup ((db.row (.carrier a.carrierId)).any (·.chargeFailedAttempts))
      buyId a).Yields seen fee) : FeeRead seen e db a fee := by
  have hcharges : chargesFee db a =
      ((db.row (.carrier a.carrierId)).any (·.chargeFailedAttempts) &&
        (db.row (.rate buyId)).any (fun buy => 0 < buy.connectFee)) := by
    simp [chargesFee, hfailed, hbuy]
  unfold attemptFee rateByID at hyields
  split_ifs at hyields with hon
  · obtain ⟨d, hd, hyields⟩ := yields_select_bind.mp hyields
    rw [(htariffs d hd).rates] at hyields
    split at hyields
    · rename_i hrow
      obtain rfl := yields_pure.mp hyields
      exact ⟨by simp [hcharges, hrow], by simp⟩
    · rename_i buy hrow
      split_ifs at hyields with hfree
      · obtain rfl := yields_pure.mp hyields
        exact ⟨by simp [hcharges, hrow, hfree], by simp⟩
      · obtain ⟨fx, hfx, hyields⟩ :=
          (yields_bind (buyFX_readOnly e lookup buy a.carrierId)).mp hyields
        obtain rfl := yields_pure.mp hyields
        refine ⟨by simp [hcharges, hrow, hon, not_le.mp hfree], fun f hf => ?_⟩
        exact ⟨lookup, buyId, buy, fx, hbuy, hrow, hfx, (Option.some.inj hf).symm⟩
  · obtain rfl := yields_pure.mp hyields
    exact ⟨by simp [hcharges, hon], by simp⟩

/-- The engine with the exchange rates as one lookup finds them. -/
def Engine.pinned (e : Engine) (lookup : ℕ) : Engine :=
  { e with fx := e.fx.map (fun fx _ => fx lookup) }

theorem buyFX_pinned (lookup other : ℕ) (buy : RateRow) (carrierId : UUID) :
    buyFX (e.pinned lookup) other buy carrierId = buyFX e lookup buy carrierId := by
  unfold buyFX Engine.pinned
  cases e.fx with
  | none => rfl
  | some fx => rfl

theorem FeeRead.of_pinned (hread : FeeRead seen (e.pinned lookup) db a fee) :
    FeeRead seen e db a fee where
  charged := hread.charged
  amount f hf := by
    obtain ⟨other, buyId, buy, fx, hbuy, hrow, hfx, hfee⟩ := hread.amount f hf
    rw [buyFX_pinned] at hfx
    exact ⟨lookup, buyId, buy, fx, hbuy, hrow, hfx, hfee⟩

/-- The fees of a call, attempt by attempt, each at the exchange rates of its
own lookup. -/
theorem failedAttemptFees_reads (attempts : List AttemptRecord)
    (htariffs : ∀ d, seen d → SameTariffs db d) (hknown : KnownBy db known)
    (hyields : (failedAttemptFees e lookup known attempts).Yields seen result) :
    ∃ fees, List.Forall₂ (fun a fee => FeeRead seen (e.pinned a.2) db a.1 fee)
      (attempts.zipIdx lookup) fees ∧ result.2 = fees.filterMap id := by
  induction attempts generalizing lookup known result with
  | nil =>
    obtain rfl := yields_pure.mp hyields
    exact ⟨[], .nil, rfl⟩
  | cons a rest ih =>
    have hnoted : ∀ fee known', KnownBy db known' →
        FeeRead seen (e.pinned lookup) db a fee →
        (failedAttemptFees e (lookup + 1) known' rest >>= fun later =>
          pure (noteFee a fee later)).Yields seen result →
        ∃ fees, List.Forall₂ (fun a fee => FeeRead seen (e.pinned a.2) db a.1 fee)
          ((a :: rest).zipIdx lookup) fees ∧ result.2 = fees.filterMap id := by
      intro fee known' hknown' hread hrest
      obtain ⟨later, hlater, hdone⟩ :=
        (yields_bind (failedAttemptFees_readOnly e (lookup + 1) known' rest)).mp hrest
      obtain rfl := yields_pure.mp hdone
      obtain ⟨fees, hfees, hresult⟩ := ih hknown' hlater
      refine ⟨fee :: fees, .cons hread hfees, ?_⟩
      cases fee with
      | none | some f => simpa [noteFee] using hresult
    have hfree : chargesFee db a = false → FeeRead seen (e.pinned lookup) db a none :=
      fun hnone => ⟨hnone.symm, by simp⟩
    unfold failedAttemptFees at hyields
    split at hyields
    · rename_i hanswered
      exact hnoted none known hknown (hfree (by simp [chargesFee, hanswered])) hyields
    · rename_i hrate _
      exact hnoted none known hknown (hfree (by simp [chargesFee, hrate])) hyields
    · rename_i buyId hrate hfailed
      obtain ⟨checked, hchecked, hyields⟩ :=
        (yields_bind (chargesFailedAttempts_readOnly known a.carrierId)).mp hyields
      obtain ⟨hon, hknown'⟩ := chargesFailedAttempts_yields htariffs hknown hchecked
      obtain ⟨fee, hfee, hyields⟩ :=
        (yields_bind (attemptFee_readOnly e lookup checked.1 buyId a)).mp hyields
      rw [hon] at hfee
      have hsame : attemptFee e lookup ((db.row (.carrier a.carrierId)).any
          (·.chargeFailedAttempts)) buyId a = attemptFee (e.pinned lookup) lookup
            ((db.row (.carrier a.carrierId)).any (·.chargeFailedAttempts)) buyId a := by
        unfold attemptFee
        simp only [buyFX_pinned]
      rw [hsame] at hfee
      exact hnoted fee checked.2 hknown' (attemptFee_yields htariffs hfailed hrate hfee) hyields

theorem failedAttemptFees_yields (attempts : List AttemptRecord)
    (htariffs : ∀ d, seen d → SameTariffs db d) (hknown : KnownBy db known)
    (hyields : (failedAttemptFees e lookup known attempts).Yields seen result) :
    ∃ fees, List.Forall₂ (FeeRead seen e db) attempts fees ∧ result.2 = fees.filterMap id := by
  obtain ⟨fees, hfees, hresult⟩ := failedAttemptFees_reads attempts htariffs hknown hyields
  have hread := List.forall₂_map_left_iff.mpr (hfees.imp (fun _ _ h => h.of_pinned))
  rw [List.zipIdx_map_fst] at hread
  exact ⟨fees, hread, hresult⟩

theorem carriers_of_feeRead {attempts : List AttemptRecord} {fees : List (Option AttemptFee)}
    (h : List.Forall₂ (FeeRead seen e db) attempts fees) :
    (fees.filterMap id).map (·.carrierId) =
      (attempts.filter (chargesFee db)).map (·.carrierId) := by
  induction h with
  | nil => rfl
  | @cons a fee rest later hread _ ih =>
    cases hfee : fee with
    | none =>
      have hcharged := hread.charged
      rw [hfee, Option.isSome_none] at hcharged
      rw [List.filter_cons_of_neg (by simp [← hcharged])]
      exact ih
    | some f =>
      have hcharged := hread.charged
      rw [hfee, Option.isSome_some] at hcharged
      obtain ⟨_, _, _, _, _, _, _, rfl⟩ := hread.amount f hfee
      rw [List.filter_cons_of_pos hcharged.symm, List.map_cons, ← ih]
      rfl

end Fees

end SuperSbc.Billing
