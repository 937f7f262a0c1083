import SuperSbc.Ledger.Overdraft
import SuperSbc.Ledger.Rows

/-!
What talk time limits are worth. A setup computes `max_call_seconds` from the
whole amount that was available, not from what it reserves, so the price of the
talk time is a promise: a call that keeps to its limit costs no more. The
invariant here is that an account has what it promised to its open calls, up to
the increments of the calls billed so far.
-/

namespace SuperSbc

open FixedPoint Rating ReadCommitted Store Billing CallControl Ledger

def sellRate (db : DB) (callUUID : UUID) : Option Rate := do
  let cdr ← db.row (.cdr callUUID)
  let sellId ← cdr.sellRateId
  let row ← db.row (.rate sellId)
  pure (toRatingFX row cdr.sellFX)

/-- The price of one subsequent increment, and a unit for rounding. -/
def tolerance (r : Rate) : Decimal := r.perMinute * r.subsequent / 60 + 1 / 10 ^ 6

/-- The tolerance of the call a commit billed on an account. -/
def increment (jobs : ℕ → Job) (id : UUID) (c : JobCommit) : Decimal :=
  match billedOn jobs id c with
  | some (callUUID, _) => ((sellRate c.before callUUID).map tolerance).getD 0
  | none => 0

/-- The price of the talk time a setup returned, less the tolerance, as long
as its call holds a reservation on the account. -/
def promise (jobs : ℕ → Job) (id : UUID) (db : DB) (c : JobCommit) : Decimal :=
  match jobs c.id, c.value with
  | .reserve _ _ rate callUUID _, .reserved result =>
    if (db.row (.active callUUID)).map (·.accountId) = some id then
      max ((price result.maxCallSeconds (toRating rate)).2 - tolerance (toRating rate)) 0
    else 0
  | _, _ => 0

def promised (jobs : ℕ → Job) (id : UUID) (history : List JobCommit) (db : DB) : Decimal :=
  (history.map (promise jobs id db)).sum

/-- Whenever the account is granted a reservation, it has what is promised to
all of its open calls, the new one included. -/
def PromisesCovered (jobs : ℕ → Job) (id : UUID) (history : List JobCommit) : Prop :=
  ∀ c older callUUID, (c :: older) <:+ history → (jobs c.id).setsUp = some callUUID →
    (c.after.row (.active callUUID)).map (·.accountId) = some id →
    promised jobs id (c :: older) c.after ≤ funds c.after id

/-- The sell rate a setup works with is the row and the exchange rate its
record points to. -/
def Job.SellsFrom (db : DB) : Job → Prop
  | .reserve _ _ rate _ cdr => ∃ sellId row fx, cdr.sellRateId = some sellId ∧
      db.row (.rate sellId) = some row ∧ asFX (storedFX cdr.sellFX) = some fx ∧
      toRatingFX row fx = toRating rate
  | _ => True

/-- New calls at unchanged rates that hang up within their talk time. -/
structure TalkTimeKept (jobs : ℕ → Job) (start : DB) (history : List JobCommit) : Prop where
  unrecorded : ∀ t callUUID, (jobs t).setsUp = some callUUID → start.row (.cdr callUUID) = none
  sells : ∀ t, (jobs t).SellsFrom start
  within : ∀ c ∈ history, ∀ e now h, jobs c.id = .bill e now h →
    ∀ c' ∈ history, (jobs c'.id).setsUp = some h.callUUID → ∀ result, c'.value = .reserved result →
      h.billsec ≤ result.maxCallSeconds

theorem TalkTimeKept.of_suffix {jobs : ℕ → Job} {start : DB} {older history : List JobCommit}
    (h : TalkTimeKept jobs start history) (hsub : older <:+ history) :
    TalkTimeKept jobs start older where
  unrecorded := h.unrecorded
  sells := h.sells
  within c hc e now info hjob c' hc' :=
    h.within c (hsub.subset hc) e now info hjob c' (hsub.subset hc')

theorem PromisesCovered.of_suffix {jobs : ℕ → Job} {id : UUID} {older history : List JobCommit}
    (h : PromisesCovered jobs id history) (hsub : older <:+ history) :
    PromisesCovered jobs id older :=
  fun c rest callUUID hrest => h c rest callUUID (hrest.trans hsub)

namespace Ledger

variable {jobs : ℕ → Job} {history older : List JobCommit} {start db after : DB} {id : UUID}
  {t : ℕ} {result : JobResult} {seen : DB → Prop} {job : Job}

section Sums

/-- When one summand drops by an amount and none grows, so does the sum. -/
theorem sum_map_add_le {α : Type*} {f g : α → ℚ} {l : List α} (hle : ∀ x ∈ l, f x ≤ g x)
    {x : α} (hx : x ∈ l) {amount : ℚ} (hdrop : f x + amount ≤ g x) :
    (l.map f).sum + amount ≤ (l.map g).sum := by
  induction l with
  | nil => cases hx
  | cons y rest ih =>
    have hrest : ∀ z ∈ rest, f z ≤ g z := fun z hz => hle z (List.mem_cons_of_mem _ hz)
    rw [List.map_cons, List.map_cons, List.sum_cons, List.sum_cons]
    rcases List.mem_cons.mp hx with rfl | hmem
    · have hsum : (rest.map f).sum ≤ (rest.map g).sum := List.sum_le_sum hrest
      linarith
    · have hhead := hle y List.mem_cons_self
      have htail := ih hrest hmem
      linarith

theorem promise_nonneg (jobs : ℕ → Job) (id : UUID) (db : DB) (c : JobCommit) :
    0 ≤ promise jobs id db c := by
  unfold promise
  split
  · split_ifs
    · exact le_max_right _ _
    · exact le_rfl
  · exact le_rfl

theorem promised_nonneg (jobs : ℕ → Job) (id : UUID) (history : List JobCommit) (db : DB) :
    0 ≤ promised jobs id history db := by
  refine List.sum_nonneg (fun x hx => ?_)
  obtain ⟨c, -, rfl⟩ := List.mem_map.mp hx
  exact promise_nonneg jobs id db c

theorem promise_of_setsUp_none {c : JobCommit} (hsets : (jobs c.id).setsUp = none) :
    promise jobs id db c = 0 := by
  unfold promise
  cases hjob : jobs c.id with
  | reserve =>
    rw [hjob] at hsets
    cases hsets
  | _ => rfl

theorem promise_eq_zero {callUUID : UUID} {c : JobCommit}
    (hsets : (jobs c.id).setsUp = some callUUID)
    (hother : (db.row (.active callUUID)).map (·.accountId) ≠ some id) :
    promise jobs id db c = 0 := by
  unfold promise
  split
  · rename_i hjob _
    rw [hjob] at hsets
    rw [Option.some.inj hsets, if_neg hother]
  · rfl

theorem promise_congr {callUUID : UUID} {c : JobCommit}
    (hsets : (jobs c.id).setsUp = some callUUID)
    (hsame : after.row (.active callUUID) = db.row (.active callUUID)) :
    promise jobs id after c = promise jobs id db c := by
  unfold promise
  split
  · rename_i hjob _
    rw [hjob] at hsets
    rw [Option.some.inj hsets, hsame]
  · rfl

theorem promise_le
    (hrows : ∀ callUUID ∈ setUps jobs history,
      after.row (.active callUUID) = db.row (.active callUUID) ∨
        after.row (.active callUUID) = none) :
    ∀ c ∈ history, promise jobs id after c ≤ promise jobs id db c := by
  intro c hc
  cases hsets : (jobs c.id).setsUp with
  | none => rw [promise_of_setsUp_none hsets, promise_of_setsUp_none hsets]
  | some callUUID =>
    rcases hrows callUUID (List.mem_filterMap.mpr ⟨c, hc, hsets⟩) with hsame | hnone
    · exact (promise_congr hsets hsame).le
    · rw [promise_eq_zero hsets (by simp [hnone])]
      exact promise_nonneg jobs id db c

end Sums

/-- The setup behind an open reservation. While the record is pending it is
the one that setup inserted. -/
inductive SetUpBy (jobs : ℕ → Job) (db : DB) (callUUID : UUID) (a : ActiveCall)
    (c : JobCommit) : Prop where
  | intro (cfg : Config) (customerId : UUID) (rate : RateRow) (cdr : CDR) (granted : ReserveResult)
      (hjob : jobs c.id = .reserve cfg customerId rate callUUID cdr)
      (hvalue : c.value = .reserved granted)
      (hseconds : granted.maxCallSeconds =
        maxCallSeconds granted.available (toRating rate) cfg.capSeconds)
      (hrecord : ∀ row, db.row (.cdr callUUID) = some row → row.billedAt = none →
        setupRow { cdr with
          reservedAmount := granted.reservedAmount, disposition := .pending } = some row)

/-- The invariant behind the bound of one increment a call. -/
structure Promises (jobs : ℕ → Job) (start : DB) (id : UUID) (history : List JobCommit)
    (db : DB) : Prop where
  setUp : ∀ callUUID a, db.row (.active callUUID) = some a →
    ∃ c ∈ history, SetUpBy jobs db callUUID a c
  unrecorded : ∀ callUUID, callUUID ∉ setUps jobs history → start.row (.cdr callUUID) = none →
    db.row (.cdr callUUID) = none
  slack : 0 ≤ (history.map (increment jobs id)).sum
  covered : min (funds start id) 0 + promised jobs id history db ≤
    funds db id + (history.map (increment jobs id)).sum

theorem Promises.initial (h : NoReservations db) : Promises jobs db id [] db where
  setUp callUUID a ha := by simp [h.none_open callUUID] at ha
  unrecorded _ _ hnone := hnone
  slack := by simp
  covered := by simp [promised]

theorem SetUpBy.keep {callUUID : UUID} {a : ActiveCall} {c : JobCommit}
    (h : SetUpBy jobs db callUUID a c) (hnew : job.setsUp ≠ some callUUID)
    (hdid : Job.Did seen db after job result) : SetUpBy jobs after callUUID a c := by
  obtain ⟨cfg, customerId, rate, cdr, granted, hjob, hvalue, hseconds, hrecord⟩ := h
  refine ⟨cfg, customerId, rate, cdr, granted, hjob, hvalue, hseconds, ?_⟩
  intro row hrow hpending
  rcases record_did hdid callUUID with hsame | hsets | ⟨hbilled, -⟩
  · exact hrecord row (hsame ▸ hrow) hpending
  · exact absurd hsets hnew
  · exact absurd hpending (hbilled.not_pending hrow)

/-- The parts of the invariant that do not speak about money, for a job that
sets up no call. -/
theorem Promises.keep (h : Promises jobs start id history db)
    (hsets : (jobs t).setsUp = none) (hdid : Job.Did seen db after (jobs t) result)
    (hslack : 0 ≤ increment jobs id ⟨t, result, db, after⟩)
    (hcovered : min (funds start id) 0 + promised jobs id history after ≤
      funds after id + (increment jobs id ⟨t, result, db, after⟩ +
        (history.map (increment jobs id)).sum)) :
    Promises jobs start id (⟨t, result, db, after⟩ :: history) after := by
  have hsetUps : setUps jobs (⟨t, result, db, after⟩ :: history) = setUps jobs history := by
    simp [setUps, hsets]
  refine ⟨fun callUUID a ha => ?_, fun callUUID hnew hnone => ?_, ?_, ?_⟩
  · rcases active_did hdid callUUID with hsame | hself | hgone
    · obtain ⟨c, hc, hsetUp⟩ := h.setUp callUUID a (hsame ▸ ha)
      exact ⟨c, List.mem_cons_of_mem _ hc, hsetUp.keep (by simp [hsets]) hdid⟩
    · rw [hsets] at hself
      cases hself
    · rw [hgone] at ha
      cases ha
  · rw [hsetUps] at hnew
    have hold := h.unrecorded callUUID hnew hnone
    rcases record_did hdid callUUID with hsame | hself | ⟨-, hsome, -⟩
    · rw [hsame, hold]
    · rw [hsets] at hself
      cases hself
    · exact absurd hold hsome
  · rw [List.map_cons, List.sum_cons]
    exact add_nonneg hslack h.slack
  · have hhead : promise jobs id after ⟨t, result, db, after⟩ = 0 :=
      promise_of_setsUp_none hsets
    rw [promised, List.map_cons, List.sum_cons, hhead, zero_add, List.map_cons, List.sum_cons]
    exact hcovered

theorem Promises.quiet (h : Promises jobs start id history db)
    (hsets : (jobs t).setsUp = none) (hdid : Job.Did seen db after (jobs t) result)
    (hbilled : billedOn jobs id ⟨t, result, db, after⟩ = none)
    (hfunds : funds db id ≤ funds after id) :
    Promises jobs start id (⟨t, result, db, after⟩ :: history) after := by
  have hzero : increment jobs id ⟨t, result, db, after⟩ = 0 := by
    simp only [increment, hbilled]
  have hless : promised jobs id history after ≤ promised jobs id history db := by
    refine List.sum_le_sum (promise_le (fun callUUID _ => ?_))
    rcases active_did hdid callUUID with hsame | hself | hgone
    · exact .inl hsame
    · rw [hsets] at hself
      cases hself
    · exact .inr hgone
  refine h.keep hsets hdid hzero.ge ?_
  rw [hzero]
  linarith [h.covered]

theorem tolerance_nonneg {r : Rate} (hr : r.Valid) : 0 ≤ tolerance r := by
  have hrate := hr.perMinute_nonneg
  have hsub : (0 : ℚ) ≤ r.subsequent := by exact_mod_cast hr.subsequent_pos.le
  unfold tolerance
  positivity

theorem fits_maxCallSeconds (cfg : Config) (rate : RateRow) (available : Decimal) :
    (toRating rate).Fits (maxCallSeconds available (toRating rate) cfg.capSeconds) := by
  refine maxCallSeconds_fits _ (toRating_valid rate) ?_
  have hduration := cfg.maxCallDuration_lt
  have hincrement : (toRating rate).subsequent < 2 ^ 31 := rate.subsequentIncrement_lt
  rcases capSeconds_cases cfg with ⟨-, hnone⟩ | hcap <;> omega

/-- What a call costs that kept to its talk time, against what it was
promised. -/
theorem SetUpBy.price_le {h : HangupInfo} {a : ActiveCall} {c : JobCommit} {price : Decimal}
    (hsetUp : SetUpBy jobs db h.callUUID a c) (hsells : (jobs c.id).SellsFrom start)
    (hopen : db.row (.active h.callUUID) = some a) (hid : a.accountId = id)
    (hframe : Frame start db) (hseen : ∀ d, seen d → Frame start d)
    (hpriced : PricedBy seen h db price)
    (hwithin : h.answerTime.isSome → ∀ r, c.value = .reserved r → h.billsec ≤ r.maxCallSeconds) :
    ∃ rate, sellRate db h.callUUID = some rate ∧ 0 ≤ tolerance rate ∧
      price ≤ promise jobs id db c + tolerance rate := by
  have hpromised := promise_nonneg jobs id db c
  obtain ⟨cfg, customerId, rate, cdr, granted, hjob, hvalue, hseconds, hrecord⟩ := hsetUp
  obtain ⟨record, billed, hcdr, hpending, hquoted⟩ := hpriced
  rw [hjob] at hsells
  obtain ⟨sellId, row, fx, hsellId, hrow, hfx, hrate⟩ := hsells
  obtain ⟨hrecordId, hrecordFX, -⟩ := setupRow_some (hrecord record hcdr hpending)
  have hsold : record.sellRateId = some sellId := hrecordId.trans hsellId
  obtain rfl : fx = record.sellFX := Option.some.inj (hfx.symm.trans hrecordFX)
  have hvalid := toRating_valid rate
  have htolerance := tolerance_nonneg hvalid
  refine ⟨toRating rate, ?_, htolerance, ?_⟩
  · have hhere : db.row (.rate sellId) = some row :=
      (hframe.static_eq (.rate sellId) trivial).trans hrow
    simp [sellRate, hcdr, hsold, hhere, hrate]
  · rcases hquoted with ⟨quotedId, d, sell, hanswered, hquotedId, hd, hsell, hprice⟩ | ⟨-, rfl⟩
    · obtain rfl : quotedId = sellId := Option.some.inj (hquotedId.symm.trans hsold)
      obtain rfl : sell = row := by
        rw [(hseen d hd).static_eq (.rate quotedId) trivial, hrow] at hsell
        exact (Option.some.inj hsell).symm
      have hbillsec : (if h.billsec < 0 then 0 else h.billsec) ≤ granted.maxCallSeconds := by
        split_ifs
        · rw [hseconds]
          exact maxCallSeconds_nonneg
        · exact hwithin hanswered granted hvalue
      rw [hrate] at hprice
      have hpaid : price = (Rating.price _ (toRating rate)).2 := congrArg Prod.snd hprice
      have hmost := price_mono hvalid.perMinute_nonneg hvalid.connectFee_nonneg
        (hseconds ▸ fits_maxCallSeconds cfg rate granted.available) hbillsec
      have hhere : promise jobs id db c = max ((Rating.price granted.maxCallSeconds
          (toRating rate)).2 - tolerance (toRating rate)) 0 := by
        simp [promise, hjob, hvalue, hopen, hid]
      rw [hpaid, hhere]
      linarith [le_max_left ((Rating.price granted.maxCallSeconds (toRating rate)).2 -
        tolerance (toRating rate)) 0]
    · linarith

/-- A settled call gives its promise back and costs no more than that and its
tolerance. -/
theorem Promises.settled (h : Promises jobs start id history db) {info : HangupInfo}
    {ac : Option ActiveCall} {out : Outcome} (hkept : TalkTimeKept jobs start history)
    (hjob : (jobs t).bills = some info.callUUID) (hframe : Frame start db)
    (hseen : ∀ d, seen d → Frame start d)
    (hdid : Job.Did seen db after (jobs t) (.billed out))
    (hwithin : info.answerTime.isSome → ∀ c ∈ history, (jobs c.id).setsUp = some info.callUUID →
      ∀ r, c.value = .reserved r → info.billsec ≤ r.maxCallSeconds)
    (htakes : TakesFrom id db after info.callUUID ac out.price)
    (hpriced : PricedBy seen info db out.price) :
    Promises jobs start id (⟨t, .billed out, db, after⟩ :: history) after := by
  have hsets : (jobs t).setsUp = none := by
    cases hcase : jobs t <;> simp_all [Job.bills, Job.setsUp]
  have hbilled : billedOn jobs id ⟨t, .billed out, db, after⟩ = _ :=
    billedOn_of_closed ac hjob htakes.found (by simpa using htakes.rows info.callUUID) id
  have hfunds := htakes.funds_eq
  by_cases hhere : ac.map (·.accountId) = some id
  · obtain ⟨a, rfl, hid⟩ := Option.map_eq_some_iff.mp hhere
    obtain ⟨c, hc, hsetUp⟩ := h.setUp info.callUUID a (htakes.found a rfl)
    have hsetsUp : (jobs c.id).setsUp = some info.callUUID := by
      obtain ⟨_, _, _, _, _, hreserve, _, _, _⟩ := hsetUp
      rw [hreserve]
      rfl
    obtain ⟨rate, hrate, htolerance, hprice⟩ :=
      hsetUp.price_le (hkept.sells c.id) (htakes.found a rfl) hid hframe hseen hpriced
        (fun hanswered => hwithin hanswered c hc hsetsUp)
    have hincrement : increment jobs id ⟨t, .billed out, db, after⟩ = tolerance rate := by
      have hfound : billedOn jobs id ⟨t, .billed out, db, after⟩ = some (info.callUUID, a) := by
        rw [hbilled]
        simp [Option.filter, hid]
      simp only [increment, hfound, hrate, Option.map_some, Option.getD_some]
    have hgone : after.row (.active info.callUUID) = none := by
      simpa using htakes.rows info.callUUID
    have hback : promised jobs id history after + promise jobs id db c ≤
        promised jobs id history db := by
      refine sum_map_add_le (promise_le (fun callUUID _ => ?_)) hc ?_
      · rw [htakes.rows callUUID]
        split_ifs
        · exact .inr rfl
        · exact .inl rfl
      · rw [promise_eq_zero hsetsUp (by simp [hgone]), zero_add]
    refine h.keep hsets hdid (hincrement ▸ htolerance) ?_
    have hcharge : max out.price 0 ≤ promise jobs id db c + tolerance rate :=
      max_le hprice (add_nonneg (promise_nonneg jobs id db c) htolerance)
    rw [if_pos hhere] at hfunds
    rw [hincrement]
    linarith [h.covered]
  · refine h.quiet hsets hdid ?_ (by rw [hfunds, if_neg hhere, sub_zero])
    rw [hbilled]
    cases ac with
    | none => rfl
    | some a =>
      have hid : a.accountId ≠ id := by simpa using hhere
      simp [Option.filter, hid]

/-- A granted reservation is a promise the account can keep, if it is on the
account at all. -/
theorem Promises.granted (h : Promises jobs start id history db) {cfg : Config}
    {customerId callUUID : UUID} {rate : RateRow} {cdr : CDR} {granting : ReserveResult}
    (hjob : jobs t = .reserve cfg customerId rate callUUID cdr)
    (hnew : callUUID ∉ setUps jobs history)
    (hopened : ∀ d, seen d → d.row (.active callUUID) = none)
    (hrecorded : ∀ d, seen d → d.row (.cdr callUUID) = none)
    (hfits : (after.row (.active callUUID)).map (·.accountId) = some id →
      promised jobs id (⟨t, .reserved granting, db, after⟩ :: history) after ≤ funds after id)
    (hframe : Frame db after)
    (granted : Granted seen cfg customerId rate callUUID cdr db after granting) :
    Promises jobs start id (⟨t, .reserved granting, db, after⟩ :: history) after := by
  have hdid : Job.Did seen db after (.reserve cfg customerId rate callUUID cdr)
      (.reserved granting) := .reserve granted
  have hsets : (jobs t).setsUp = some callUUID := by rw [hjob]; rfl
  have hsetUps : setUps jobs (⟨t, .reserved granting, db, after⟩ :: history) =
      callUUID :: setUps jobs history := by
    simp [setUps, hsets]
  have hothers : ∀ other, other ≠ callUUID →
      (Job.reserve cfg customerId rate callUUID cdr).setsUp ≠ some other := by
    intro other hother heq
    exact hother (Option.some.inj heq).symm
  have hzero : increment jobs id ⟨t, .reserved granting, db, after⟩ = 0 := by
    have hnone : billedOn jobs id ⟨t, .reserved granting, db, after⟩ = none :=
      billedOn_of_other (by rw [hjob]; rfl) id
    simp only [increment, hnone]
  have hbefore : ∀ c ∈ history, promise jobs id after c ≤ promise jobs id db c := by
    refine promise_le (fun other hother => ?_)
    have hne : other ≠ callUUID := fun heq => hnew (heq ▸ hother)
    rcases active_did hdid other with hsame | hself | hgone
    · exact .inl hsame
    · exact absurd hself (hothers other hne)
    · exact .inr hgone
  have hfunds : funds after id = funds db id := by
    have hsub := funds_sub id hframe
    have hbalance : (reconcile after id).balance = (reconcile db id).balance := by
      rw [reconcile_reserved granted]
      simp only [reconcile, granted_account_row granted id]
    linarith
  -- the two inserts met no row, so what the store now holds is this setup's
  obtain ⟨record, active, hrecord, -, hrecordRow, hrow⟩ := granted.first_rows hrecorded hopened
  refine ⟨fun other a ha => ?_, fun other hother hstart => ?_, ?_, ?_⟩
  · by_cases hself : other = callUUID
    · subst hself
      refine ⟨_, List.mem_cons_self, cfg, customerId, rate, cdr, granting, hjob, rfl, ?_, ?_⟩
      · rw [granted.seconds_eq, granted.available_eq]
      · intro row hfound _
        obtain rfl := Option.some.inj (hrecordRow.symm.trans hfound)
        exact hrecord
    · rcases active_did hdid other with hsame | hmine | hgone
      · obtain ⟨c, hc, hsetUp⟩ := h.setUp other a (hsame ▸ ha)
        exact ⟨c, List.mem_cons_of_mem _ hc, hsetUp.keep (hothers other hself) hdid⟩
      · exact absurd hmine (hothers other hself)
      · rw [hgone] at ha
        cases ha
  · rw [hsetUps, List.mem_cons, not_or] at hother
    have hold := h.unrecorded other hother.2 hstart
    rcases record_did hdid other with hsame | hmine | ⟨-, hsome, -⟩
    · rw [hsame, hold]
    · exact absurd hmine (hothers other hother.1)
    · exact absurd hold hsome
  · rw [List.map_cons, List.sum_cons, hzero, zero_add]
    exact h.slack
  · rw [List.map_cons, List.sum_cons, hzero, zero_add]
    by_cases hid : active.accountId = id
    · have hkeeps := hfits (by rw [hrow, Option.map_some, hid])
      have hneg : min (funds start id) 0 ≤ 0 := min_le_right _ _
      linarith [h.slack]
    · have hhead : promise jobs id after ⟨t, .reserved granting, db, after⟩ = 0 :=
        promise_eq_zero hsets (by simpa [hrow] using hid)
      have hrest : promised jobs id history after ≤ promised jobs id history db :=
        List.sum_le_sum hbefore
      rw [promised, List.map_cons, List.sum_cons, hhead, zero_add, hfunds]
      exact (add_le_add_right hrest _).trans h.covered

theorem Promises.did (h : Promises jobs start id history db) (hframe : Frame start db)
    (hraised : NeverLowered jobs) (hcustomer : IsCustomers start id)
    (hkept : TalkTimeKept jobs start (⟨t, result, db, after⟩ :: history))
    (hcovered : PromisesCovered jobs id (⟨t, result, db, after⟩ :: history))
    (hnodup : (setUps jobs (⟨t, result, db, after⟩ :: history)).Nodup)
    (hopened : ∀ d, seen d → ∀ callUUID, callUUID ∉ setUps jobs history →
      d.row (.active callUUID) = none)
    (hrecorded : ∀ d, seen d → ∀ callUUID, callUUID ∉ setUps jobs history →
      start.row (.cdr callUUID) = none → d.row (.cdr callUUID) = none)
    (hseen : ∀ d, seen d → Frame start d) (hdid : Job.Did seen db after (jobs t) result) :
    Promises jobs start id (⟨t, result, db, after⟩ :: history) after := by
  have hstep : Frame db after := Frame.did hdid
  have hlocal : ∀ d, seen d → Frame db d := fun d hd => hframe.symm.trans (hseen d hd)
  have hhere := hframe.isCustomers hcustomer
  have hkeptOld := hkept.of_suffix (List.suffix_cons _ history)
  have hbill : ∀ (info : HangupInfo) (now : Time) (out : Outcome),
      result = .billed out → (jobs t).bills = some info.callUUID →
      (info.answerTime.isSome → ∀ c ∈ history, (jobs c.id).setsUp = some info.callUUID →
        ∀ r, c.value = .reserved r → info.billsec ≤ r.maxCallSeconds) →
      Billed seen now info db after out →
      Promises jobs start id (⟨t, result, db, after⟩ :: history) after := by
    intro info now out hresult hjob hwithin billed
    subst hresult
    rcases takesFrom_of_billed hlocal hhere billed with hsame | ⟨ac, htakes, hpriced⟩
    · have hsets : (jobs t).setsUp = none := by
        cases hcase : jobs t <;> simp_all [Job.bills, Job.setsUp]
      refine h.quiet hsets hdid ?_ (by rw [hsame])
      subst hsame
      have hnothing : billedOn jobs id ⟨t, .billed out, after, after⟩ = _ :=
        billedOn_of_closed none hjob (by simp) (by simp) id
      simpa using hnothing
    · exact h.settled hkeptOld hjob hframe hseen hdid hwithin htakes hpriced
  have hall := hdid
  generalize hjob : jobs t = job at hdid
  cases hdid with
  | @reserve cfg customerId rate callUUID cdr granting granted =>
    have hsets : (jobs t).setsUp = some callUUID := by rw [hjob]; rfl
    have hnew : callUUID ∉ setUps jobs history := by
      have hcons : (callUUID :: setUps jobs history).Nodup := by
        simpa [setUps, hsets] using hnodup
      exact (List.nodup_cons.mp hcons).1
    refine h.granted hjob hnew (fun d hd => hopened d hd callUUID hnew)
      (fun d hd => hrecorded d hd callUUID hnew (hkept.unrecorded t callUUID hsets)) ?_ hstep
      granted
    exact fun hid => hcovered _ history callUUID (List.suffix_refl _) hsets hid
  | @bill e now info out billed =>
    refine hbill info now out rfl (by rw [hjob]; rfl) (fun _ c hc hsets r hr => ?_)
      billed.billed
    exact hkept.within _ List.mem_cons_self e now info hjob c (List.mem_cons_of_mem _ hc)
      hsets r hr
  | @reconcile e now callUUID out billed =>
    refine hbill (orphanHangup now callUUID) now out rfl (by rw [hjob]; rfl) ?_ billed.billed
    -- an orphan was never answered
    exact fun hanswered => absurd hanswered (by simp [orphanHangup])
  | releaseReservation released =>
    refine h.quiet (by rw [hjob]; rfl) hall
      (billedOn_of_other (by rw [hjob]; rfl) id) ?_
    have hsub := funds_sub id hstep
    have hbalance : (reconcile after id).balance = (reconcile db id).balance := by
      cases released with
      | already _ _ _ hsame => rw [hsame]
      | settled _ _ _ _ _ _ hactive _ _ hmid hafter =>
        rw [reconcile_gaveBack hactive hmid hafter]
    linarith
  | @postMoney r _ _ moved =>
    exact h.quiet (by rw [hjob]; rfl) hall (billedOn_of_other (by rw [hjob]; rfl) id)
      (funds_posted moved (roundTo_nonneg _ (hraised t r hjob)))
  | topup hpositive _ _ moved =>
    exact h.quiet (by rw [hjob]; rfl) hall (billedOn_of_other (by rw [hjob]; rfl) id)
      (funds_posted moved hpositive.le)
  | payment _ hsame =>
    exact h.quiet (by rw [hjob]; rfl) hall (billedOn_of_other (by rw [hjob]; rfl) id)
      (by rw [hsame])

end Ledger

end SuperSbc
