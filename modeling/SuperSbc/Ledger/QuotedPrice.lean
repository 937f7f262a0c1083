import SuperSbc.Admin.Rates
import SuperSbc.CallControl.TalkTime
import SuperSbc.Ledger.Frame
import SuperSbc.Ledger.Rows

/-!
The price billed against the price quoted. A setup converts the rate it
matched and keeps the row's id and the exchange rate on the record; billing
loads the row again and converts it again. The two agree as long as the row
still prices calls the same way and the exchange rate was not zero, which is
stored as one.

Exchange rates are outside the store: the setup's table and the billing
engine's source are both arbitrary, so nothing relates one to the other.
-/

namespace SuperSbc

open FixedPoint Rating ReadCommitted Transaction Store Billing CallControl Admin Ledger

/-- A job of the call path or an operator's action on rates. -/
inductive Act where
  | job (j : Job)
  | rates (a : RateAction)

inductive ActResult where
  | job (result : JobResult)
  | rates

def Act.tx : Act → Tx ActResult
  | .job j => do
      let result ← j.tx
      pure (.job result)
  | .rates a => do
      a.tx
      pure .rates

abbrev ActCommit := Commit ℕ Key Row LedgerEntry ActResult

abbrev ActServer := Server ℕ Key Row LedgerEntry StoreError ActResult

def quotedRate (quote : SellRate) : Rate where
  perMinute := quote.ratePerMin
  connectFee := quote.connectFee
  initial := quote.initialIncrement
  subsequent := quote.subsequentIncrement
  minDuration := quote.minDuration

/-- If a commit settled an answered call, it did so at the quote: the price,
the rate on the record, and the price as the record's own seconds and rate
give it. -/
def BilledAsQuoted (acts : ℕ → Act) (callUUID : UUID) (quote : SellRate) (c : ActCommit) : Prop :=
  ∀ e now h out, acts c.id = .job (.bill e now h) → h.callUUID = callUUID →
    h.answerTime.isSome → c.value = .job (.billed out) → out.alreadyBilled = false →
    out.price = (price h.billsec (quotedRate quote)).2 ∧
    ∃ row, c.after.row (.cdr callUUID) = some row ∧ row.sellPrice = out.price ∧
      row.sellRatePerMin = some quote.ratePerMin ∧
      row.sellPrice = amount row.sellBilledSeconds quote.ratePerMin quote.connectFee

/-- The rate tables in memory return rows as the store has them. -/
def RatesInStep (r : Replies) (db : DB) : Prop :=
  ∀ group called matched, r.matchRate group called = .ok (some matched) →
    PricedAs db matched.id (toRating matched)

/-- A pair of currencies listed only the other way round has a rate whose
inverse does not round to zero at eight decimals. -/
def InverseInScale (r : Replies) : Prop :=
  ∀ table base quote rate, r.fxTable = some table → table (base ++ "/" ++ quote) = none →
    table (quote ++ "/" ++ base) = some rate → rate.rate.val ≤ 200000000

namespace Ledger

section Conversion

variable {table : Option FXTable} {m : Multiplier} {row : RateRow}

theorem fx_onScale {base quote : String} (h : fx table base quote = some m) : OnScale 8 m.1 := by
  unfold fx at h
  split_ifs at h
  · obtain rfl := Option.some.inj h
    exact (by decide +kernel : OnScale 8 1)
  · cases table with
    | none => cases h
    | some rates =>
      dsimp only at h
      split at h
      · rename_i rate _
        obtain rfl := Option.some.inj h
        exact rate.rate.val_onScale
      · obtain ⟨rate, -, rfl⟩ := Option.map_eq_some_iff.mp h
        exact roundTo_onScale _ _

theorem inverted_ne_zero {rate : FXRate} (h : rate.rate.val ≤ 200000000) :
    rate.inverted.1 ≠ 0 := by
  have hinverse : (1 : ℚ) / 200000000 ≤ 1 / rate.rate.val := one_div_le_one_div_of_le rate.val_pos h
  have hunit : (0 : ℚ) < roundTo 8 (1 / 200000000) := by decide +kernel
  exact (hunit.trans_le (roundTo_mono 8 hinverse)).ne'

theorem fx_ne_zero {r : Replies} (h : InverseInScale r) {base quote : String}
    (hfx : fx r.fxTable base quote = some m) : m.1 ≠ 0 := by
  unfold fx at hfx
  split_ifs at hfx
  · obtain rfl := Option.some.inj hfx
    exact one_ne_zero
  · cases htable : r.fxTable with
    | none =>
      rw [htable] at hfx
      cases hfx
    | some table =>
      rw [htable] at hfx
      dsimp only at hfx
      split at hfx
      · rename_i rate _
        obtain rfl := Option.some.inj hfx
        exact rate.val_pos.ne'
      · rename_i hlisted
        obtain ⟨rate, hrate, rfl⟩ := Option.map_eq_some_iff.mp hfx
        exact inverted_ne_zero (h table _ _ rate htable hlisted hrate)

/-- What a conversion gives: the row itself at one, and otherwise its money
times the multiplier. Either way the multiplier has eight decimals. -/
theorem convertRate_cases {deck : Option RateGroup} {sell : RateRow} {currency : String}
    (h : convertRate deck table row currency = some (sell, m)) :
    OnScale 8 m.1 ∧ sell.id = row.id ∧
      ((m.1 = 1 ∧ sell = row) ∨
        (sell = convert row m ∧ ∃ base quote, fx table base quote = some m)) := by
  unfold convertRate at h
  cases deck with
  | none =>
    obtain ⟨rfl, rfl⟩ := Prod.mk.inj (Option.some.inj h)
    exact ⟨by decide +kernel, rfl, .inl ⟨rfl, rfl⟩⟩
  | some deck =>
    dsimp only at h
    cases hfx : fx table deck.currency currency with
    | none =>
      rw [hfx] at h
      cases h
    | some found =>
      rw [hfx] at h
      dsimp only at h
      split_ifs at h with hone
      · obtain ⟨rfl, rfl⟩ := Prod.mk.inj (Option.some.inj h)
        exact ⟨fx_onScale hfx, rfl, .inl ⟨hone, rfl⟩⟩
      · obtain ⟨rfl, rfl⟩ := Prod.mk.inj (Option.some.inj h)
        exact ⟨fx_onScale hfx, rfl, .inr ⟨rfl, _, _, hfx⟩⟩

/-- Billing's conversion only looks at how a row prices calls. -/
theorem toRatingFX_congr {other : RateRow} (h : toRating row = toRating other) (fx : Decimal) :
    toRatingFX row fx = toRatingFX other fx := by
  have hrate : row.ratePerMin = other.ratePerMin := congrArg Rate.perMinute h
  have hfee : row.connectFee = other.connectFee := congrArg Rate.connectFee h
  have hinc : (toRating row).toIncrements = (toRating other).toIncrements :=
    congrArg Rate.toIncrements h
  have hinitial : row.initialIncrement = other.initialIncrement := congrArg Increments.initial hinc
  have hsubsequent : row.subsequentIncrement = other.subsequentIncrement :=
    congrArg Increments.subsequent hinc
  have hgrace : row.minDuration = other.minDuration := congrArg Increments.minDuration hinc
  simp only [toRatingFX, hrate, hfee, hinitial, hsubsequent, hgrace]

/-- The two conversions agree for any multiplier but zero. -/
theorem toRatingFX_convertRate {deck : Option RateGroup} {matched sell : RateRow}
    {currency : String} (h : convertRate deck table matched currency = some (sell, m))
    (hm : m.1 ≠ 0) (hrow : toRating row = toRating matched) :
    toRatingFX row m.1 = toRating sell := by
  rw [toRatingFX_congr hrow]
  obtain ⟨-, -, ⟨hone, rfl⟩ | ⟨rfl, -⟩⟩ := convertRate_cases h
  · have hrate : roundTo scale sell.ratePerMin = sell.ratePerMin := sell.ratePerMin_scale
    have hfee : roundTo scale sell.connectFee = sell.connectFee := sell.connectFee_scale
    simp [toRatingFX, toRating, hone, hrate, hfee]
  · simp [toRatingFX, toRating, convert, hm]

theorem storedFX_multiplier {stored : Decimal} (hscale : OnScale 8 m.1) (hm : m.1 ≠ 0)
    (h : asFX (storedFX m.1) = some stored) : stored = m.1 := by
  rw [asFX_eq h, storedFX, if_neg hm]
  exact hscale

end Conversion

/-- What stands between a setup and its hangup. `record` is the row the setup
inserted, `rate` how the matched row prices calls, `sold` the converted rate. -/
structure Standing (acts : ℕ → Act) (callUUID sellId : UUID) (record : CDR) (rate : Rate)
    (quote : SellRate) (history : List ActCommit) (db : DB) : Prop where
  priced : PricedAs db sellId rate
  known : db.row (.cdr callUUID) ≠ none
  pending : ∀ cdr, db.row (.cdr callUUID) = some cdr → cdr.billedAt = none → cdr = record
  billed : ∀ c ∈ history, BilledAsQuoted acts callUUID quote c

/-- What the record and the matched row say about the quote. -/
structure Sold (record : CDR) (sellId : UUID) (rate : Rate) (quote : SellRate) : Prop where
  rateId : record.sellRateId = some sellId
  perMinute : record.sellRatePerMin = some quote.ratePerMin
  converts : ∀ row, toRating row = rate → toRatingFX row record.sellFX = quotedRate quote

variable {acts : ℕ → Act} {callUUID sellId : UUID} {record : CDR} {rate : Rate}
  {quote : SellRate} {history : List ActCommit} {db after : DB} {seen : DB → Prop} {t : ℕ}

/-- A settlement of the pending record is at the quote. -/
theorem Sold.billed (hsold : Sold record sellId rate quote) {now : Time} {h : HangupInfo}
    {out : Outcome} (hcall : h.callUUID = callUUID) (hanswered : h.answerTime.isSome)
    (hout : out.alreadyBilled = false) (hseen : ∀ d, seen d → PricedAs d sellId rate)
    (hknown : ∀ d, seen d → d.row (.cdr callUUID) ≠ none)
    (hpending : ∀ cdr, db.row (.cdr callUUID) = some cdr → cdr.billedAt = none → cdr = record)
    (billed : Billed seen now h db after out) :
    out.price = (price h.billsec (quotedRate quote)).2 ∧
    ∃ row, after.row (.cdr callUUID) = some row ∧ row.sellPrice = out.price ∧
      row.sellRatePerMin = some quote.ratePerMin ∧
      row.sellPrice = amount row.sellBilledSeconds quote.ratePerMin quote.connectFee := by
  subst hcall
  cases billed with
  | noCDR _ _ d hd hmissing => exact absurd hmissing (hknown d hd)
  | already _ _ _ halready _ => exact absurd halready (by simp [hout])
  | settled cdr row ac paid mid hcdr hopen _ _ _ hsellPrice hsellRate hquoted _ hcosts hsettled
      hresult =>
      obtain rfl := hpending cdr hcdr hopen
      have hid := hsold.rateId
      obtain ⟨sold, d, sell, -, hsoldId, hd, hsell, hprice⟩ | ⟨hnone | hnone, -⟩ := hquoted
      · obtain rfl : sold = sellId := Option.some.inj (hsoldId.symm.trans hid)
        obtain ⟨found, hfound, hsame⟩ := hseen d hd
        obtain rfl : sell = found := Option.some.inj (hsell.symm.trans hfound)
        rw [hsold.converts sell hsame, price_clamped] at hprice
        have hpaid : paid = (price h.billsec (quotedRate quote)).2 := congrArg Prod.snd hprice
        have hseconds : row.sellBilledSeconds = (price h.billsec (quotedRate quote)).1 :=
          congrArg Prod.fst hprice
        have hrecord : row.sellPrice = paid := hsellPrice hanswered (by simp [hid])
        refine ⟨by rw [hresult.2.2.1, hpaid], row, ?_, by rw [hrecord, hresult.2.2.1], ?_, ?_⟩
        · exact CustomerSettled.record hsettled (CostLines.row_of_ne hcosts (by simp))
        · rw [hsellRate, hsold.perMinute]
        · rw [hrecord, hpaid, hseconds]
          rfl
      · rw [hnone] at hanswered
        cases hanswered
      · rw [hid] at hnone
        cases hnone

theorem record_pending {job : Job} {result : JobResult} (hdid : Job.Did seen db after job result)
    (hknown : db.row (.cdr callUUID) ≠ none) :
    after.row (.cdr callUUID) ≠ none ∧
      ∀ cdr, after.row (.cdr callUUID) = some cdr → cdr.billedAt = none →
        db.row (.cdr callUUID) = some cdr := by
  rcases record_did hdid callUUID with hsame | hsets | ⟨hbilled, -⟩
  · rw [hsame]
    exact ⟨hknown, fun _ hcdr _ => hcdr⟩
  · -- a repeated setup meets the record
    have hsame : after.row (.cdr callUUID) = db.row (.cdr callUUID) := by
      cases hdid with
      | reserve granted => exact record_granted_kept granted hknown
      | _ => cases hsets
    rw [hsame]
    exact ⟨hknown, fun _ hcdr _ => hcdr⟩
  · refine ⟨?_, fun cdr hcdr hopen => absurd hopen (hbilled.not_pending hcdr)⟩
    obtain ⟨cdr, hcdr, -⟩ := hbilled
    simp [hcdr]

theorem Standing.job (h : Standing acts callUUID sellId record rate quote history db)
    (hsold : Sold record sellId rate quote) {job : Job} {result : JobResult}
    (hact : acts t = .job job)
    (hseen : ∀ d, seen d → PricedAs d sellId rate ∧ d.row (.cdr callUUID) ≠ none)
    (hdid : Job.Did seen db after job result) :
    Standing acts callUUID sellId record rate quote
      (⟨t, .job result, db, after⟩ :: history) after := by
  have hframe : Frame db after := Frame.did hdid
  obtain ⟨hknown, hrecord⟩ := record_pending hdid h.known
  refine ⟨?_, hknown, fun cdr hcdr hopen => h.pending cdr (hrecord cdr hcdr hopen) hopen, ?_⟩
  · obtain ⟨row, hrow, hsame⟩ := h.priced
    exact ⟨row, (hframe.static_eq (.rate sellId) trivial).trans hrow, hsame⟩
  · intro c hc
    rcases List.mem_cons.mp hc with rfl | hc
    · intro e now info out hjob hcall hanswered hvalue hout
      obtain rfl : job = .bill e now info := Act.job.inj (hact.symm.trans hjob)
      obtain rfl : result = .billed out := ActResult.job.inj hvalue
      cases hdid with
      | bill billed =>
        exact hsold.billed hcall hanswered hout (fun d hd => (hseen d hd).1)
          (fun d hd => (hseen d hd).2) h.pending billed.billed
    · exact h.billed c hc

theorem Standing.rates (h : Standing acts callUUID sellId record rate quote history db)
    {action : RateAction} (hact : acts t = .rates action)
    (hedited : RatesEdited sellId rate db after) :
    Standing acts callUUID sellId record rate quote
      (⟨t, .rates, db, after⟩ :: history) after := by
  have hrow : after.row (.cdr callUUID) = db.row (.cdr callUUID) :=
    hedited.others _ (by simp)
  refine ⟨hedited.kept h.priced, hrow ▸ h.known, hrow ▸ h.pending, fun c hc => ?_⟩
  rcases List.mem_cons.mp hc with rfl | hc
  · intro e now info out hjob
    rw [hact] at hjob
    cases hjob
  · exact h.billed c hc

theorem Standing.run {start : DB} {σ : ActServer}
    (hrun : Reachable (fun t => (acts t).tx) start σ)
    (hstart : Standing acts callUUID sellId record rate quote [] start)
    (hsold : Sold record sellId rate quote)
    (hkeeps : ∀ t action, acts t = .rates action → action.Keeps sellId rate) :
    Standing acts callUUID sellId record rate quote σ.history σ.db := by
  refine Reachable.invariant hrun hstart (fun t history before _ hinv => ?_)
  cases hact : acts t with
  | job j =>
    refine (wp_bind _ _ _).mpr (Job.wp_tx j (fun result q hdid => ?_))
    refine hinv.job hsold hact ?_ hdid
    rintro d ⟨older, -, hd⟩
    exact ⟨hd.priced, hd.known⟩
  | rates action =>
    refine (wp_bind _ _ _).mpr (action.wp_tx (hkeeps t action hact)
      (fun q (hedited : RatesEdited sellId rate _ _) => ?_))
    rw [Progress.effects_start, Database.apply_nil] at hedited
    exact hinv.rates hact hedited

end Ledger

/-- A setup that dials a new call fixes its price. Let the rate tables in memory
agree with the store at the setup and no inverse of an exchange rate round to
zero. Then in every interleaving of jobs and operators' actions on rates after
the setup, in which no action deletes the matched row or changes how it prices
calls, every delivery that settles the answered call charges the price of its
duration at the quoted rate, and the record's price is that of its own seconds
and rate. -/
theorem billed_as_quoted (cfg : Config) (now : Time) (r : Replies) (req : SetupRequest) (db : DB)
    (resp : SetupResponse) (quote : SellRate) (callUUID : UUID) (acts : ℕ → Act) (σ : ActServer)
    (hcall : req.callUUID = some callUUID)
    (hresponse : (setup cfg now r req db).response = .ok resp) (hdial : resp.action = .dial)
    (hquote : resp.sell = some quote) (hnew : db.row (.cdr callUUID) = none)
    (htables : RatesInStep r db) (hfx : InverseInScale r)
    (hkeeps : ∀ row, db.row (.rate quote.rateId) = some row →
      ∀ t action, acts t = .rates action → action.Keeps quote.rateId (toRating row))
    (hrun : Reachable (fun t => (acts t).tx) (setup cfg now r req db).db σ) :
    ∀ c ∈ σ.history, BilledAsQuoted acts callUUID quote c := by
  obtain ⟨dialled⟩ := dialled_of_setup hcall hresponse hdial
  obtain ⟨granted⟩ := granted_of_run dialled.reserved
  obtain ⟨-, ⟨sale⟩⟩ := quoteSell_sale dialled.quoted.quoted
  obtain rfl : quote = quoteOf dialled.sell := Option.some.inj (hquote.symm.trans dialled.sell_eq)
  obtain ⟨hscale, hid, hconversion⟩ := convertRate_cases sale.converted
  have hmultiplier : sale.m.1 ≠ 0 := by
    rcases hconversion with ⟨hone, -⟩ | ⟨-, base, quote, hfound⟩
    · rw [hone]
      exact one_ne_zero
    · exact fx_ne_zero hfx hfound
  obtain ⟨row, hrow, hsame⟩ := htables sale.group _ sale.matched sale.matched_eq
  rw [← hid] at hrow
  have hframe : Frame db dialled.after :=
    Frame.did (Job.Did.reserve granted)
  obtain ⟨record, hrecord, hset⟩ := granted.insertedCDR.exists_row (fun d hd => hd ▸ hnew)
  have hfound : dialled.after.row (.cdr callUUID) = some record :=
    (granted.record_row callUUID).trans hset
  obtain ⟨hrecordId, hrecordFX, hrecordRate⟩ := setupRow_some hrecord
  have hperMinute : record.sellRatePerMin = some dialled.sell.ratePerMin := by
    have hstored : asMoney? (some dialled.sell.ratePerMin) = some record.sellRatePerMin :=
      sale.sellRate_eq ▸ hrecordRate
    obtain ⟨x, hx, hsome⟩ := Option.map_eq_some_iff.mp hstored
    have hexact : roundTo scale dialled.sell.ratePerMin = dialled.sell.ratePerMin :=
      dialled.sell.ratePerMin_scale
    rw [← hsome, asMoney_eq hx, hexact]
  have hfxStored : record.sellFX = sale.m.1 :=
    storedFX_multiplier hscale hmultiplier (sale.sellFX_eq ▸ hrecordFX)
  have hsold : Sold record dialled.sell.id (toRating sale.matched) (quoteOf dialled.sell) := by
    refine ⟨hrecordId.trans sale.sellRateId_eq, hperMinute, fun other hother => ?_⟩
    rw [hfxStored]
    exact toRatingFX_convertRate sale.converted hmultiplier hother
  have hstart : Standing acts callUUID dialled.sell.id record (toRating sale.matched)
      (quoteOf dialled.sell) [] (setup cfg now r req db).db := by
    rw [dialled.db_eq]
    refine ⟨⟨row, (hframe.static_eq (.rate _) trivial).trans hrow, hsame⟩, by simp [hfound],
      fun cdr hcdr _ => ?_, by simp⟩
    exact (Option.some.inj (hfound.symm.trans hcdr)).symm
  exact (Standing.run hrun hstart hsold
    (fun t action hact => hsame ▸ hkeeps row hrow t action hact)).billed

/-- A rate edit by an operator, then the hangup of the sample call. -/
def sampleEdit (ratePerMin : Decimal) : ℕ → Act
  | 0 => .rates (.updateRate 9 ⟨"49", "Germany (all)", ratePerMin, 0, 60, 60, 0⟩)
  | _ => .job (sampleHangup 42 61)

/-- Which commits of a run billed a call, and at what price. -/
def billedPrices (history : List ActCommit) : List (ℕ × Bool × Decimal) :=
  history.filterMap (fun c =>
    match c.value with
    | .job (.billed out) => some (c.id, out.alreadyBilled, out.price)
    | _ => none)

theorem mem_billedPrices {history : List ActCommit} {t : ℕ} {already : Bool} {price : Decimal}
    (h : (t, already, price) ∈ billedPrices history) :
    ∃ c ∈ history, c.id = t ∧ ∃ out, c.value = .job (.billed out) ∧
      out.alreadyBilled = already ∧ out.price = price := by
  obtain ⟨c, hc, hsome⟩ := List.mem_filterMap.mp h
  split at hsome
  · rename_i out hvalue
    obtain ⟨rfl, hrest⟩ := Prod.mk.inj (Option.some.inj hsome)
    obtain ⟨rfl, rfl⟩ := Prod.mk.inj hrest
    exact ⟨c, hc, rfl, out, hvalue, rfl, rfl⟩
  · cases hsome

theorem ratesInStep_sample (balance : Money) :
    RatesInStep (sampleReplies sampleRate) (sampleStore balance) := by
  intro group called matched hmatched
  obtain rfl : sampleRate = matched := Option.some.inj (Except.ok.inj hmatched)
  refine ⟨sampleRate, ?_, rfl⟩
  rw [sampleStore]
  exact Database.row_set_self _ _ _

theorem inverseInScale_sample (rate : RateRow) : InverseInScale (sampleReplies rate) := by
  intro table base quote found htable _ _
  cases htable

/-- An edit that leaves the price as it is: the hangup bills the quote. -/
theorem billed_as_quoted_sampleEdit :
    ∃ resp quote, (CallControl.sampleDial sampleRate ⟨10000000, by decide⟩).response = .ok resp ∧
      resp.action = .dial ∧ resp.sell = some quote ∧
      ∃ σ : ActServer, Reachable (fun t => (sampleEdit (6 / 100) t).tx)
          (CallControl.sampleDial sampleRate ⟨10000000, by decide⟩).db σ ∧
        billedPrices σ.history = [(1, false, 12 / 100)] ∧
        ∀ c ∈ σ.history, BilledAsQuoted (sampleEdit (6 / 100)) 42 quote c := by
  have hdials : (CallControl.sampleDial sampleRate ⟨10000000, by decide⟩).response.toOption.map
      (fun resp => (resp.action, resp.sell.map (·.rateId))) = some (.dial, some 9) := by
    decide +kernel
  obtain ⟨resp, hresponse, hfields⟩ := Option.map_eq_some_iff.mp hdials
  obtain ⟨hdial, hsell⟩ := Prod.mk.inj hfields
  obtain ⟨quote, hquote, hrateId⟩ := Option.map_eq_some_iff.mp hsell
  have hserial : (serial (fun t => (sampleEdit (6 / 100) t).tx) [0, 1]
      (CallControl.sampleDial sampleRate ⟨10000000, by decide⟩).db).map
        (fun out => billedPrices out.2) =
        some [(1, false, 12 / 100)] := by
    decide +kernel
  obtain ⟨σ, hσ, hprices⟩ := reachable_serial hserial
  have hok := ok_of_toOption hresponse
  refine ⟨resp, quote, hok, hdial, hquote, σ, hσ, hprices,
    billed_as_quoted _ _ _ _ _ resp quote 42 _ σ rfl hok hdial hquote (unrecorded_sample _ _)
      (ratesInStep_sample _) (inverseInScale_sample _) (fun row hrow t action hact => ?_) hσ⟩
  rw [hrateId, sampleStore] at hrow
  obtain rfl : sampleRate = row :=
    Option.some.inj ((Database.row_set_self _ (Key.rate 9) _).symm.trans hrow)
  cases t with
  | zero =>
    obtain rfl := Act.rates.inj hact
    intro _
    decide +kernel
  | succ t => cases hact

/-- Doubling the rate while the call is up: the hangup charges twice the quote
for its seconds. -/
theorem edited_rate_bills_past_quote :
    ∃ resp quote, (CallControl.sampleDial sampleRate ⟨10000000, by decide⟩).response = .ok resp ∧
      resp.action = .dial ∧ resp.sell = some quote ∧
      (sampleStore ⟨10000000, by decide⟩).row (.cdr 42) = none ∧
      RatesInStep (sampleReplies sampleRate) (sampleStore ⟨10000000, by decide⟩) ∧
      InverseInScale (sampleReplies sampleRate) ∧
      ∃ σ : ActServer, Reachable (fun t => (sampleEdit (12 / 100) t).tx)
          (CallControl.sampleDial sampleRate ⟨10000000, by decide⟩).db σ ∧
        ∃ c ∈ σ.history, c.id = 1 ∧ ∃ out, c.value = .job (.billed out) ∧
          out.alreadyBilled = false ∧ out.price = 24 / 100 ∧
          (price 61 (quotedRate quote)).2 = 12 / 100 := by
  have hdials : (CallControl.sampleDial sampleRate ⟨10000000, by decide⟩).response.toOption.map
      (fun resp => (resp.action, resp.sell.map (fun quote => (price 61 (quotedRate quote)).2))) =
        some (.dial, some (12 / 100)) := by
    decide +kernel
  obtain ⟨resp, hresponse, hfields⟩ := Option.map_eq_some_iff.mp hdials
  obtain ⟨hdial, hsell⟩ := Prod.mk.inj hfields
  obtain ⟨quote, hquote, hquoted⟩ := Option.map_eq_some_iff.mp hsell
  have hserial : (serial (fun t => (sampleEdit (12 / 100) t).tx) [0, 1]
      (CallControl.sampleDial sampleRate ⟨10000000, by decide⟩).db).map
        (fun out => billedPrices out.2) =
        some [(1, false, 24 / 100)] := by
    decide +kernel
  obtain ⟨σ, hσ, hprices⟩ := reachable_serial hserial
  obtain ⟨c, hc, hid, out, hvalue, hfirst, hprice⟩ :=
    mem_billedPrices (hprices ▸ List.mem_singleton.mpr rfl)
  exact ⟨resp, quote, ok_of_toOption hresponse, hdial, hquote, unrecorded_sample _ _,
    ratesInStep_sample _, inverseInScale_sample _, σ, hσ, c, hc, hid, out, hvalue, hfirst, hprice,
    hquoted⟩

end SuperSbc
