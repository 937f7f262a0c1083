import SuperSbc.Ledger.MessageOrder
import SuperSbc.Ledger.ReportedBalance

/-!
The margin of a billed call and the flag that says it is negative. The margin
is a generated column, the price less the whole cost. The flag is set when the
answering carrier's price is known, from that price alone; the fees of failed
attempts reach the cost later. The two agree unless the fees turn the sign.
-/

namespace SuperSbc

open FixedPoint Rating ReadCommitted Transaction Store Billing CallControl

/-- The generated column `margin`. -/
def CDR.margin (c : CDR) : Decimal := c.sellPrice - c.cost

namespace Ledger

/-- What a carrier asks for a call by the rate of its last attempt, if that
rate is known. -/
def buyPrice (e : Engine) (db : DB) (billsec : ℤ) (attempts : List AttemptRecord)
    (carrierId : UUID) : Option Decimal :=
  (buyRateFor attempts carrierId).bind (fun buyId => (db.row (.rate buyId)).map (fun buy =>
    (price billsec (toRatingFX buy (deckFX e db buy carrierId))).2))

/-- What the carrier that answered asks for a call that was sold. -/
def carrierPrice (e : Engine) (db : DB) (h : HangupInfo) (cdr : CDR) : Option Decimal :=
  match cdr.sellRateId, h.answeredCarrierId with
  | some _, some carrierId =>
    buyPrice e db (if h.billsec < 0 then 0 else h.billsec) cdr.attempts carrierId
  | _, _ => none

/-- What the carriers of the failed attempts ask, each at the exchange rate of
its own lookup. -/
def attemptFees (e : Engine) (db : DB) (attempts : List AttemptRecord) : Decimal :=
  ((attempts.zipIdx 1).map (fun a => ((feeOf (e.pinned a.2) db a.1).map Prod.snd).getD 0)).sum

/-- The prices at which the fees turn the sign of the margin: from what the
answering carrier asks up to that and the fees, or down to it where a negative
exchange rate makes the fees negative. An unknown carrier asks for nothing. -/
def FeesTurn (price fees : Decimal) : Option Decimal → Prop
  | none => price < fees
  | some cost => cost ≤ price ∧ price < cost + fees ∨ cost + fees ≤ price ∧ price < cost

section Readings

variable {seen : DB → Prop} {e : Engine} {base : DB}

theorem ratesFixed_pinned (e : Engine) (lookup : ℕ) :
    (e.pinned lookup).RatesFixed := by
  intro fx i j first second hfx
  obtain ⟨source, -, rfl⟩ := Option.map_eq_some_iff.mp hfx
  rfl

theorem deckFX_pinned_zero (db : DB) (buy : RateRow) (carrierId : UUID) :
    deckFX (e.pinned 0) db buy carrierId = deckFX e db buy carrierId := by
  unfold deckFX Engine.pinned
  cases e.fx with
  | none => rfl
  | some fx => rfl

theorem buyFX_first (hseen : ∀ d, seen d → Frame base d) {buy : RateRow} {carrierId : UUID}
    {fx : Decimal × String} (hyields : (buyFX e 0 buy carrierId).Yields seen fx) :
    fx.1 = deckFX e base buy carrierId := by
  rw [← buyFX_pinned 0 0] at hyields
  rw [buyFX_yields hseen (ratesFixed_pinned e 0) hyields, deckFX_pinned_zero]

theorem carrierCost_flag (hseen : ∀ d, seen d → Frame base d) {c : CDR} {carrierId : UUID}
    {amt : Decimal} {result : CDR × Decimal}
    (hyields : (carrierCost e c carrierId amt).Yields seen result)
    (hflag : c.negativeMargin = false) :
    result.2 = (buyPrice e base c.billsec c.attempts carrierId).getD 0 ∧
      (result.1.negativeMargin = true ↔
        ∃ cost ∈ buyPrice e base c.billsec c.attempts carrierId, amt < cost) := by
  unfold carrierCost rateByID at hyields
  unfold buyPrice
  cases hbuy : buyRateFor c.attempts carrierId with
  | none =>
    rw [hbuy] at hyields
    obtain rfl := yields_pure.mp hyields
    simp [hflag]
  | some buyId =>
    rw [hbuy] at hyields
    obtain ⟨d, hd, hyields⟩ := yields_select_bind.mp hyields
    rw [(hseen d hd).static_eq (.rate buyId) trivial] at hyields
    cases hrow : base.row (.rate buyId) with
    | none =>
      rw [hrow] at hyields
      obtain rfl := yields_pure.mp hyields
      simp [hflag, hrow]
    | some buy =>
      rw [hrow] at hyields
      obtain ⟨fx, hfx, hyields⟩ := (yields_bind (buyFX_readOnly e 0 buy carrierId)).mp hyields
      obtain rfl := yields_pure.mp hyields
      rw [Option.bind_some, hrow, Option.map_some, ← buyFX_first hseen hfx]
      refine ⟨rfl, fun hless => ⟨_, rfl, of_decide_eq_true hless⟩, ?_⟩
      rintro ⟨cost, hcost, hless⟩
      obtain rfl := Option.some.inj hcost
      exact decide_eq_true hless

/-- The cost of an answered call and its flag, before any fees. -/
theorem money_flag (hseen : ∀ d, seen d → Frame base d) {h : HangupInfo} {now : Time} {cdr : CDR}
    {priced : CDR × Decimal × Decimal}
    (hyields : (money e h (withHangup e.nodeName now h cdr)).Yields seen priced)
    (hanswered : h.answerTime.isSome) (hflag : cdr.negativeMargin = false) :
    priced.2.2 = (carrierPrice e base h cdr).getD 0 ∧ (priced.1.negativeMargin = true ↔
      ∃ cost ∈ carrierPrice e base h cdr, priced.2.1 < cost) := by
  obtain ⟨t, ht⟩ := Option.isSome_iff_exists.mp hanswered
  have hsame : (withHangup e.nodeName now h cdr).sellRateId = cdr.sellRateId := rfl
  unfold money at hyields
  unfold carrierPrice
  rw [ht, hsame] at hyields
  cases hsold : cdr.sellRateId with
  | none =>
    rw [hsold] at hyields
    obtain rfl := yields_pure.mp hyields
    simp [withHangup, hflag]
  | some sellId =>
    rw [hsold] at hyields
    unfold rateByID at hyields
    obtain ⟨d, hd, hyields⟩ := yields_select_bind.mp hyields
    cases hsell : d.row (.rate sellId) with
    | none =>
      rw [hsell] at hyields
      exact absurd hyields yields_raise.mp
    | some sell =>
      rw [hsell] at hyields
      dsimp only at hyields
      cases hcarrier : h.answeredCarrierId with
      | none =>
        rw [hcarrier] at hyields
        obtain rfl := yields_pure.mp hyields
        simp [withHangup, hflag]
      | some carrierId =>
        rw [hcarrier] at hyields
        obtain ⟨done, hdone, hyields⟩ :=
          (yields_bind (carrierCost_readOnly e _ carrierId _)).mp hyields
        obtain rfl := yields_pure.mp hyields
        have hcost := carrierCost_flag hseen hdone hflag
        have hbuy : buyPrice e base (withHangup e.nodeName now h cdr).billsec
            (withHangup e.nodeName now h cdr).attempts carrierId =
              buyPrice e base (if h.billsec < 0 then 0 else h.billsec) cdr.attempts
                carrierId := by
          unfold buyPrice withHangup
          dsimp only
          rw [buyRateFor_fillAttemptPDD]
        dsimp only at hcost ⊢
        rw [← hbuy]
        exact hcost

theorem sum_failedAttemptFees (hseen : ∀ d, seen d → Frame base d)
    {attempts : List AttemptRecord} {result : List AttemptRecord × List AttemptFee}
    (hyields : (failedAttemptFees e 1 [] attempts).Yields seen result) :
    (result.2.map (·.amount)).sum = attemptFees e base attempts := by
  obtain ⟨fees, hfees, hresult⟩ := failedAttemptFees_reads attempts
    (fun d hd => (hseen d hd).sameTariffs) (by simp [KnownBy]) hyields
  rw [hresult]
  unfold attemptFees
  clear hresult hyields
  generalize attempts.zipIdx 1 = indexed at hfees ⊢
  induction hfees with
  | nil => rfl
  | @cons a fee rest later hread _ ih =>
    have hhead := feeOf_feeRead hseen (ratesFixed_pinned e a.2) hread
    rw [List.map_cons, List.sum_cons, ← ih, ← hhead]
    cases fee with
    | none => simp
    | some f => simp

theorem attemptFees_fillAttemptPDD (db : DB) (attempts : List AttemptRecord)
    (progress answer : Option Time) :
    attemptFees e db (fillAttemptPDD attempts progress answer) = attemptFees e db attempts := by
  unfold attemptFees fillAttemptPDD
  rw [List.zipIdx_map, List.map_map]
  congr 2
  funext a
  simp [feeOf_fillPDD]

end Readings

structure Unpriced (c : CDR) : Prop where
  sellPrice : c.sellPrice = 0
  cost : c.cost = 0
  unflagged : c.negativeMargin = false

def AllUnpriced (db : DB) : Prop :=
  ∀ callUUID cdr, db.row (.cdr callUUID) = some cdr → cdr.billedAt = none → Unpriced cdr

section Settled

variable {seen : DB → Prop} {db after : DB} {callUUID : UUID} {cdr : CDR}

theorem unpriced_of_setupRow {c row : CDR} (h : setupRow c = some row) : Unpriced row := by
  have hunbilled := unbilled_of_setupRow h
  refine ⟨hunbilled.sellPrice_eq, hunbilled.cost_eq, ?_⟩
  unfold setupRow at h
  simp only [Option.bind_eq_bind, Option.bind_eq_some_iff] at h
  obtain ⟨_, -, _, -, _, -, hrow⟩ := h
  obtain rfl := Option.some.inj hrow
  rfl

theorem finalizedRow_flag {c row row' : CDR} (h : finalizedRow c row = some row') :
    row'.negativeMargin = c.negativeMargin := by
  simp only [finalizedRow, Option.bind_eq_bind, Option.bind_eq_some_iff] at h
  obtain ⟨_, -, _, -, _, -, _, -, _, -, _, -, hrow⟩ := h
  obtain rfl := Option.some.inj hrow
  rfl

theorem settled_margin {e : Engine} {now : Time} {h : HangupInfo} {row : CDR} {out : Outcome}
    (billed : BilledAs seen e now h db after out) (hseen : ∀ d, seen d → Frame db d)
    (hcdr : db.row (.cdr h.callUUID) = some cdr) (hpending : cdr.billedAt = none)
    (hunpriced : Unpriced cdr) (hanswered : h.answerTime.isSome)
    (hrow : after.row (.cdr h.callUUID) = some row) (hbilled : row.billedAt.isSome) :
    row.sellPrice = callPrice db h cdr ∧
      row.cost = (carrierPrice e db h cdr).getD 0 + attemptFees e db cdr.attempts ∧
      (row.negativeMargin = true ↔
        ∃ cost ∈ carrierPrice e db h cdr, callPrice db h cdr < cost) := by
  cases billed with
  | noCDR _ hsame _ _ _ =>
    rw [hsame] at hrow
    obtain rfl := Option.some.inj (hcdr.symm.trans hrow)
    rw [hpending] at hbilled
    cases hbilled
  | already found hfound hdone _ _ =>
    obtain rfl := Option.some.inj (hcdr.symm.trans hfound)
    rw [hpending] at hdone
    cases hdone
  | settled found written routed ac priced fees mid hfound _ _ _ hyields hrouted hfees hwritten
      hcosts hcustomer _ =>
      obtain rfl := Option.some.inj (hcdr.symm.trans hfound)
      obtain rfl : row = written := by
        rw [CustomerSettled.record hcustomer (hcosts.row_of_ne (by simp))] at hrow
        exact (Option.some.inj hrow).symm
      have hread := moneyRead_of_yields hyields
      have hprice : priced.2.1 = callPrice db h cdr := callPrice_of_quoted hseen hread.quoted
      have hpriced := hread.priced hunpriced.sellPrice hunpriced.cost
      obtain ⟨hcost, hflag⟩ := money_flag hseen hyields hanswered hunpriced.unflagged
      obtain ⟨hpriceScale, hcostScale⟩ := hread.onScale
      have hpaid := settled_cost hrouted hwritten hpriced.cost hcostScale
        (failedAttemptFees_onScale _ hfees)
      have hsale := sameSale_closed hrouted ac priced.2.1 fees
      obtain ⟨transport, rfl⟩ := withTransport_yields hrouted
      have hfilled : attemptFees e db priced.1.attempts = attemptFees e db cdr.attempts := by
        rw [hread.kept.1]
        exact attemptFees_fillAttemptPDD db cdr.attempts _ _
      refine ⟨?_, ?_, ?_⟩
      · rw [(finalizedRow_some hwritten).sellPrice_eq, hsale.sellPrice_eq, hpriced.price,
          ← hprice]
        exact hpriceScale
      · rw [hpaid, hcost, sum_failedAttemptFees hseen hfees, hfilled]
      · have hkept : row.negativeMargin = priced.1.negativeMargin := by
          rw [finalizedRow_flag hwritten]
          cases ac <;> rfl
        rw [hkept, ← hprice]
        exact hflag

/-- Billed records aside, an act leaves records as a setup writes them. -/
theorem allUnpriced_callAct {act : CallAct} (hdid : CallAct.Did seen db after act)
    (hunpriced : AllUnpriced db) : AllUnpriced after := by
  have hsame : ∀ {call : UUID}, after.row (.cdr call) = db.row (.cdr call) →
      ∀ cdr, after.row (.cdr call) = some cdr → cdr.billedAt = none → Unpriced cdr :=
    fun {call} hrow cdr hcdr => hunpriced call cdr (hrow ▸ hcdr)
  have hinserted : ∀ {callUUID : UUID} {c : CDR} {mid : DB},
      Inserted seen (.cdr callUUID) (fun row => setupRow c = some row) db mid →
      (∀ call, after.row (.cdr call) = mid.row (.cdr call)) → AllUnpriced after := by
    intro callUUID c mid inserted hafter call cdr hcdr hpending
    by_cases hcall : call = callUUID
    · subst hcall
      cases inserted with
      | fresh row hrow _ hset =>
        rw [hafter, hset, Database.row_set_self] at hcdr
        obtain rfl := Option.some.inj hcdr
        exact unpriced_of_setupRow hrow
      | conflict _ _ _ hset => exact hsame (by rw [hafter, hset]) cdr hcdr hpending
    · exact hsame (by rw [hafter, inserted.row_of_ne (by simpa using hcall)]) cdr hcdr hpending
  cases hdid with
  | job did =>
    have hrecord := record_did did
    cases did with
    | reserve granted => exact hinserted granted.insertedCDR granted.record_row
    | _ =>
      intro call cdr hcdr hpending
      rcases hrecord call with hrow | hnone | ⟨hbilled, -⟩
      · exact hsame hrow cdr hcdr hpending
      · cases hnone
      · exact absurd hpending (hbilled.not_pending hcdr)
  | reject inserted => exact hinserted inserted (fun _ => rfl)
  | @report callUUID _ cdr hcdr hafter =>
    intro call found hfound hpending
    by_cases hcall : call = callUUID
    · subst hcall
      rw [hafter, Database.row_set_self] at hfound
      obtain rfl := Option.some.inj hfound
      have hbefore := hunpriced call cdr hcdr hpending
      exact ⟨hbefore.sellPrice, hbefore.cost, hbefore.unflagged⟩
    · exact hsame (by rw [hafter, Database.row_set_of_ne _ _ (by simpa using hcall)]) found
        hfound hpending
  | unreported _ _ _ hafter => exact fun call => hsame (by rw [hafter])

end Settled

/-- The bills of a run so far, with what they could see. -/
structure Flagged (acts : ℕ → CallAct) (start : DB) (history : List CallCommit) (db : DB) :
    Prop where
  frame : Frame start db
  unpriced : AllUnpriced db
  bills : ∀ c ∈ history, ∀ e now h, acts c.id = .job (.bill e now h) → ∃ seen out,
    (∀ d, seen d → Frame c.before d) ∧ AllUnpriced c.before ∧
      BilledAs seen e now h c.before c.after out

theorem flagged_of_runs {acts : ℕ → CallAct} {start : DB} {σ : CallServer}
    (hstart : AllUnpriced start) (hrun : CallRuns acts start σ) :
    Flagged acts start σ.history σ.db := by
  refine hrun.invariant (Flagged acts start) ⟨.refl start, hstart, by simp⟩ ?_
  intro t history before after hflagged hdid
  refine ⟨hflagged.frame.trans (frame_callAct hdid), allUnpriced_callAct hdid hflagged.unpriced,
    fun c hc e now h hact => ?_⟩
  rcases List.mem_cons.mp hc with rfl | hearlier
  · dsimp only at hact ⊢
    rw [hact] at hdid
    obtain ⟨did⟩ := hdid
    cases did with
    | @bill _ _ _ out billed =>
      refine ⟨_, out, ?_, hflagged.unpriced, billed⟩
      rintro d ⟨older, -, hd⟩
      exact hflagged.frame.symm.trans hd.frame
  · exact hflagged.bills c hearlier e now h hact

/-- In every run, the record of an answered call is flagged exactly when its
margin is negative, if and only if its price is not one at which the fees of
its failed attempts turn the sign. -/
theorem margin_flag_iff (acts : ℕ → CallAct) (start : DB) (σ : CallServer)
    (hstart : AllUnpriced start) (hrun : CallRuns acts start σ) (c : CallCommit)
    (hc : c ∈ σ.history) (e : Engine) (now : Time) (h : HangupInfo)
    (hact : acts c.id = .job (.bill e now h)) (hanswered : h.answerTime.isSome) (cdr row : CDR)
    (hcdr : c.before.row (.cdr h.callUUID) = some cdr) (hpending : cdr.billedAt = none)
    (hrow : c.after.row (.cdr h.callUUID) = some row) (hbilled : row.billedAt.isSome) :
    (row.negativeMargin = true ↔ row.margin < 0) ↔
      ¬ FeesTurn (callPrice c.before h cdr) (attemptFees e c.before cdr.attempts)
        (carrierPrice e c.before h cdr) := by
  obtain ⟨seen, out, hseen, hunpriced, billed⟩ :=
    (flagged_of_runs hstart hrun).bills c hc e now h hact
  obtain ⟨hprice, hcost, hflag⟩ := settled_margin billed hseen hcdr hpending
    (hunpriced _ cdr hcdr hpending) hanswered hrow hbilled
  unfold CDR.margin
  rw [hprice, hcost, hflag, sub_neg]
  cases carrierPrice e c.before h cdr with
  | none => simp [FeesTurn]
  | some cost =>
    simp only [Option.mem_some_iff, exists_eq_left', Option.getD_some, FeesTurn]
    rcases lt_or_ge (callPrice c.before h cdr) cost with hless | hless
    · simp [hless, not_le.mpr hless]
    · simp [hless, not_lt.mpr hless]

/-- A sell rate that pays for one carrier and nothing else. -/
def sampleCheapRate : RateRow :=
  { sampleRate with
    id := 8
    ratePerMin := 25 / 1000
    ratePerMin_nonneg := by norm_num
    ratePerMin_scale := by decide +kernel }

def sampleMarket : DB := sampleCarriers.set (.rate 8) (some sampleCheapRate)

/-- Call 42 fails at carrier 21, which charges for that, and is answered at
22. -/
def sampleFailedOver (sell : RateRow) : ℕ → CallAct
  | 0 => .job (sampleSetup 42 sell)
  | 1 => .report 42 (sampleAttempt 21 .carrierFault)
  | 2 => .report 42 (sampleAttempt 22 .answered)
  | _ => .job (.bill sampleEngine 90000000000 (sampleAnswered 42 22))

theorem allUnpriced_sampleMarket : AllUnpriced sampleMarket := by
  intro callUUID cdr hcdr
  cases hcdr

/-- What the bill of the sample call reads and what it leaves. -/
structure MarginView where
  price : Decimal
  carrier : Option Decimal
  fees : Decimal
  flagged : Bool
  margin : Decimal
deriving DecidableEq

def marginView (c : CallCommit) : Option MarginView :=
  (c.before.row (.cdr 42)).bind (fun cdr : CDR => (c.after.row (.cdr 42)).bind (fun row : CDR =>
    if cdr.billedAt = none ∧ row.billedAt.isSome then some
      { price := callPrice c.before (sampleAnswered 42 22) cdr
        carrier := carrierPrice sampleEngine c.before (sampleAnswered 42 22) cdr
        fees := attemptFees sampleEngine c.before cdr.attempts
        flagged := row.negativeMargin
        margin := row.margin }
    else none))

/-- A bill of the sample call, with its view. -/
structure SampleMargin (sell : RateRow) (view : MarginView) where
  server : CallServer
  commit : CallCommit
  before : CDR
  after : CDR
  run : CallRuns (sampleFailedOver sell) sampleMarket server
  mem : commit ∈ server.history
  job : commit.id = 3
  record : commit.before.row (.cdr 42) = some before
  pending : before.billedAt = none
  written : commit.after.row (.cdr 42) = some after
  billed : after.billedAt.isSome
  seen : view =
    { price := callPrice commit.before (sampleAnswered 42 22) before
      carrier := carrierPrice sampleEngine commit.before (sampleAnswered 42 22) before
      fees := attemptFees sampleEngine commit.before before.attempts
      flagged := after.negativeMargin
      margin := after.margin }

theorem sampleMargin (sell : RateRow) (view : MarginView)
    (hserial : (serial (fun t => (sampleFailedOver sell t).tx) [0, 1, 2, 3] sampleMarket).map
      (fun f => f.2.head?.map (fun c => (c.id, marginView c))) = some (some (3, some view))) :
    Nonempty (SampleMargin sell view) := by
  obtain ⟨σ, hrun, hhead⟩ := reachable_serial hserial
  obtain ⟨c, hc, hview⟩ := Option.map_eq_some_iff.mp hhead
  obtain ⟨hid, hview⟩ := Prod.mk.inj hview
  unfold marginView at hview
  obtain ⟨cdr, hcdr, hview⟩ := Option.bind_eq_some_iff.mp hview
  obtain ⟨row, hrow, hview⟩ := Option.bind_eq_some_iff.mp hview
  split_ifs at hview with hbilled
  exact ⟨⟨σ, c, cdr, row, hrun, List.mem_of_head? hc, hid, hcdr, hbilled.1, hrow,
    hbilled.2, (Option.some.inj hview).symm⟩⟩

/-- Sold well above cost, the call is not flagged and has a margin. -/
theorem margin_flag_sampleFailedOver :
    ∃ σ c row, CallRuns (sampleFailedOver sampleRate) sampleMarket σ ∧ c ∈ σ.history ∧
      c.after.row (.cdr 42) = some row ∧ row.margin = 6 / 100 ∧
      (row.negativeMargin = true ↔ row.margin < 0) := by
  obtain ⟨s⟩ := sampleMargin sampleRate ⟨12 / 100, some (5 / 100), 1 / 100, false, 6 / 100⟩
    (by decide +kernel)
  obtain ⟨hprice, hcarrier, hfees, -, hmargin⟩ : _ ∧ _ ∧ _ ∧ _ ∧ _ := by
    simpa only [MarginView.mk.injEq] using s.seen
  refine ⟨s.server, s.commit, s.after, s.run, s.mem, s.written, hmargin.symm, ?_⟩
  refine (margin_flag_iff _ _ s.server allUnpriced_sampleMarket s.run s.commit s.mem sampleEngine
    90000000000 (sampleAnswered 42 22) (by rw [s.job]; rfl) rfl s.before s.after s.record
    s.pending s.written s.billed).mpr ?_
  rw [← hprice, ← hcarrier, ← hfees, FeesTurn]
  norm_num

/-- Sold for what the answering carrier asks, the call loses the fee of the
failed attempt, and is not flagged. All accounts have one currency. -/
theorem fee_turns_margin :
    ∃ σ c cdr row, CallRuns (sampleFailedOver sampleCheapRate) sampleMarket σ ∧ c ∈ σ.history ∧
      sampleFailedOver sampleCheapRate c.id =
        .job (.bill sampleEngine 90000000000 (sampleAnswered 42 22)) ∧
      c.before.row (.cdr 42) = some cdr ∧ cdr.billedAt = none ∧
      c.after.row (.cdr 42) = some row ∧ row.billedAt.isSome ∧
      ([1, 11, 12].map (fun id => (sampleMarket.row (.account id)).map (fun a : Account =>
        a.currency))) = [some "EUR", some "EUR", some "EUR"] ∧
      callPrice c.before (sampleAnswered 42 22) cdr = 5 / 100 ∧
      carrierPrice sampleEngine c.before (sampleAnswered 42 22) cdr = some (5 / 100) ∧
      row.margin = -1 / 100 ∧ row.negativeMargin = false := by
  obtain ⟨s⟩ := sampleMargin sampleCheapRate ⟨5 / 100, some (5 / 100), 1 / 100, false, -1 / 100⟩
    (by decide +kernel)
  obtain ⟨hprice, hcarrier, -, hflag, hmargin⟩ : _ ∧ _ ∧ _ ∧ _ ∧ _ := by
    simpa only [MarginView.mk.injEq] using s.seen
  exact ⟨s.server, s.commit, s.before, s.after, s.run, s.mem, by rw [s.job]; rfl, s.record,
    s.pending, s.written, s.billed, rfl, hprice.symm, hcarrier.symm, hmargin.symm, hflag.symm⟩

end Ledger

end SuperSbc
