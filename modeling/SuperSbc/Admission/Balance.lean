import SuperSbc.Admission.Slots

/-!
The slots of a call over a whole run: a setup, then any interleaving of
deliveries. Billing the record gives back what the call holds, so as long as
nothing else closes the record the slots are given back once.
-/

namespace SuperSbc

open FixedPoint Rating ReadCommitted Transaction Store Billing CallControl Ledger

/-- A request to `/call/release`, with its defaults filled in. -/
def releaseCall (cfg : Config) (now : Time) (callUUID : UUID) (sipCode : ℤ) (reason : String) :
    Job :=
  .releaseReservation cfg now callUUID (if sipCode = 0 then 503 else sipCode)
    (if reason = "" then "released" else reason) .failed "" ""

/-- A commit that does not release a record still to be billed. -/
def ReleasesNothing (jobs : ℕ → Job) (callUUID : UUID) (c : JobCommit) : Prop :=
  (jobs c.id).releases = some callUUID → NotOpen c.before callUUID

/-- A hangup of the call has been processed. -/
def HungUp (jobs : ℕ → Job) (callUUID : UUID) (history : List JobCommit) : Prop :=
  ∃ c ∈ history, ∃ h, (jobs c.id).hangup = some h ∧ h.callUUID = callUUID

/-- The call's changes of the counters, by its setup and by what came after. -/
def callSlots (cfg : Config) (jobs : ℕ → Job) (left : ℕ → Scope → Bool) (callUUID : UUID)
    (slots : List SlotOp) (history : List JobCommit) : List SlotOp :=
  slots ++ history.flatMap (deliverySlots cfg jobs left callUUID)

namespace Admission

section Run

variable {cfg : Config} {jobs : ℕ → Job} {left : ℕ → Scope → Bool} {callUUID : UUID}
  {slots : List SlotOp} {start before after : DB} {history : List JobCommit}
  {seen : DB → Prop} {result : JobResult} {t : ℕ}

variable {h : HangupInfo}

/-- What holds after every commit. -/
structure Stands (cfg : Config) (jobs : ℕ → Job) (left : ℕ → Scope → Bool) (callUUID : UUID)
    (slots : List SlotOp) (start : DB) (history : List JobCommit) (db : DB) : Prop where
  known : db.row (.cdr callUUID) = none ↔ start.row (.cdr callUUID) = none
  stand : SlotsStand cfg callUUID
    (fun scope => heldSlots scope (callSlots cfg jobs left callUUID slots history)) db
  hungUp : HungUp jobs callUUID history → NotOpen db callUUID

theorem NotOpen.of_billed {db : DB} (h : RecordBilled db callUUID) : NotOpen db callUUID := by
  obtain ⟨billed, hrow, hbilled⟩ := h
  intro row hfound
  obtain rfl := Option.some.inj (hrow.symm.trans hfound)
  exact hbilled

theorem heldSlots_cons (scope : Scope) (c : JobCommit) :
    heldSlots scope (callSlots cfg jobs left callUUID slots (c :: history)) =
      heldSlots scope (callSlots cfg jobs left callUUID slots history) +
        heldSlots scope (deliverySlots cfg jobs left callUUID c) := by
  simp only [callSlots, List.flatMap_cons, heldSlots_append]
  ring

theorem hungUp_cons {c : JobCommit} (h : HungUp jobs callUUID (c :: history)) :
    (∃ hangup, (jobs c.id).hangup = some hangup ∧ hangup.callUUID = callUUID) ∨
      HungUp jobs callUUID history := by
  obtain ⟨found, hfound, hhangup⟩ := h
  rcases List.mem_cons.mp hfound with rfl | hold
  · exact .inl hhangup
  · exact .inr ⟨found, hold, hhangup⟩

theorem heldSlots_leaveAnswered {done : Scope → Bool} (hdone : ∀ scope, done scope = true)
    {scope : Scope} (hscope : scope.OfAdmission) : heldSlots scope (leaveAnswered h done) = 0 := by
  unfold leaveAnswered
  cases h.answeredCarrierId with
  | none => rfl
  | some id =>
    dsimp only
    rw [hdone, heldSlots_leave, if_neg, neg_zero]
    rintro rfl
    exact hscope

theorem heldSlots_leaveBilled {out : Outcome} {customerId : UUID} {done : Scope → Bool}
    (hfirst : out.alreadyBilled = false ∧ out.noCDR = false)
    (hcustomer : out.customerId = some customerId) (hdone : ∀ scope, done scope = true)
    {scope : Scope} (hscope : scope.OfAdmission) :
    heldSlots scope (leaveBilled cfg h out done) = -admittedSlots cfg customerId scope := by
  rw [leaveBilled, hfirst.1, hfirst.2, if_neg (by simp), hcustomer]
  dsimp only
  rw [heldSlots_append, heldSlots_leaveAnswered hdone hscope, hdone, hdone,
    heldSlots_leaveAdmission, add_zero]

theorem billed_of_hangup {job : Job} (hdid : Job.Did seen before after job result)
    (hhangup : job.hangup = some h) :
    ∃ now out, result = .billed out ∧ Billed seen now h before after out := by
  cases hdid with
  | bill billed | reconcile billed =>
    obtain rfl := Option.some.inj hhangup
    exact ⟨_, _, rfl, billed.billed⟩
  | _ => cases hhangup

/-- A hangup of the call is processed: what it holds is given back. -/
theorem Stands.billed {out : Outcome} {now : Time}
    (hstands : Stands cfg jobs left callUUID slots start history before)
    (hhangup : (jobs t).hangup = some h) (hcall : h.callUUID = callUUID)
    (hseen : ∀ d, seen d → (d.row (.cdr callUUID) = none ↔ start.row (.cdr callUUID) = none))
    (hleft : ∀ scope, left t scope = true) (billed : Billed seen now h before after out) :
    Stands cfg jobs left callUUID slots start (⟨t, .billed out, before, after⟩ :: history)
      after := by
  have hslots : deliverySlots cfg jobs left callUUID ⟨t, .billed out, before, after⟩ =
      leaveBilled cfg h out (left t) := by
    simp [deliverySlots, hhangup, hcall]
  have hkept : NotOpen before callUUID → leaveBilled cfg h out (left t) = [] → after = before →
      Stands cfg jobs left callUUID slots start (⟨t, .billed out, before, after⟩ :: history)
        after := by
    rintro hclosed hnone rfl
    refine ⟨hstands.known, .free hclosed (fun scope hscope => ?_), fun _ => hclosed⟩
    rw [heldSlots_cons, hslots, hnone, heldSlots_nil, add_zero]
    exact hstands.stand.zero hclosed hscope
  cases billed with
  | noCDR hout hsame d hd hmissing =>
    rw [hcall] at hmissing
    have hnone : before.row (.cdr callUUID) = none :=
      hstands.known.mpr ((hseen d hd).mp hmissing)
    exact hkept (by simp [NotOpen, hnone]) (by simp [leaveBilled, hout]) hsame
  | already cdr hcdr hbilled hout hsame =>
    rw [hcall] at hcdr
    exact hkept (NotOpen.of_billed ⟨cdr, hcdr, hbilled⟩) (by simp [leaveBilled, hout]) hsame
  | settled cdr row ac price mid hcdr hpending _ _ hrow _ _ _ _ hcosts hsettled hout =>
    rw [hcall] at hcdr
    have hafter : after.row (.cdr callUUID) = some row := by
      rw [← hcall]
      exact CustomerSettled.record hsettled (CostLines.row_of_ne hcosts (by simp))
    have hclosed : NotOpen after callUUID :=
      NotOpen.of_billed ⟨row, hafter, by simp [hrow]⟩
    have hknown : after.row (.cdr callUUID) = none ↔ start.row (.cdr callUUID) = none := by
      rw [← hstands.known, hafter, hcdr]
      simp
    refine ⟨hknown, .free hclosed (fun scope hscope => ?_), fun _ => hclosed⟩
    rw [heldSlots_cons, hslots]
    cases hstands.stand with
    | free hunopened _ =>
      have hbilled := hunopened cdr hcdr
      rw [hpending] at hbilled
      cases hbilled
    | taken customerId found hfound _ hcustomer hheld =>
      obtain rfl := Option.some.inj (hfound.symm.trans hcdr)
      rw [heldSlots_leaveBilled ⟨hout.1, hout.2.1⟩ (hout.2.2.2.trans hcustomer) hleft hscope]
      exact add_neg_eq_zero.mpr (hheld scope hscope)

/-- Any other job leaves the slots alone, unless it releases an open record. -/
theorem Stands.other (hstands : Stands cfg jobs left callUUID slots start history before)
    (hhangup : ¬ ∃ h, (jobs t).hangup = some h ∧ h.callUUID = callUUID)
    (hsets : (jobs t).setsUp ≠ some callUUID)
    (hreleases : (jobs t).releases = some callUUID → NotOpen before callUUID)
    (hdid : Job.Did seen before after (jobs t) result) :
    Stands cfg jobs left callUUID slots start (⟨t, result, before, after⟩ :: history) after := by
  have hslots : deliverySlots cfg jobs left callUUID ⟨t, result, before, after⟩ = [] := by
    unfold deliverySlots
    split
    · rename_i h out hbills _
      rw [if_neg]
      exact fun hcall => hhangup ⟨h, hbills, hcall⟩
    · rfl
  have hheld : ∀ scope, heldSlots scope (callSlots cfg jobs left callUUID slots
      (⟨t, result, before, after⟩ :: history)) =
        heldSlots scope (callSlots cfg jobs left callUUID slots history) := by
    intro scope
    rw [heldSlots_cons, hslots, heldSlots_nil, add_zero]
  rcases record_did hdid callUUID with hsame | hmine | ⟨hbilled, hsome, hends⟩
  · refine ⟨hsame ▸ hstands.known, ?_, fun hup => ?_⟩
    · simp only [hheld]
      cases hstands.stand with
      | free hclosed hzero => exact .free (fun row hrow => hclosed row (hsame ▸ hrow)) hzero
      | taken customerId row hrow hpending hcustomer htaken =>
        exact .taken customerId row (hsame.trans hrow) hpending hcustomer htaken
    · rcases hungUp_cons hup with hnow | hearlier
      · exact absurd hnow hhangup
      · exact fun row hrow => hstands.hungUp hearlier row (hsame ▸ hrow)
  · exact absurd hmine hsets
  · have hreleased : (jobs t).releases = some callUUID := by
      cases hjob : jobs t with
      | releaseReservation _ _ call _ _ _ _ _ =>
        rw [hjob] at hends
        exact congrArg some hends
      | bill e now h =>
        rw [hjob] at hends hhangup
        exact absurd ⟨h, rfl, hends⟩ hhangup
      | reconcile e now call =>
        rw [hjob] at hends hhangup
        exact absurd ⟨_, rfl, hends⟩ hhangup
      | _ =>
        rw [hjob] at hends
        exact hends.elim
    have hclosed : NotOpen after callUUID := NotOpen.of_billed hbilled
    refine ⟨?_, .free hclosed (fun scope hscope => ?_), fun _ => hclosed⟩
    · obtain ⟨row, hrow, -⟩ := hbilled
      rw [← hstands.known, hrow]
      exact iff_of_false (by simp) hsome
    · rw [hheld]
      exact hstands.stand.zero (hreleases hreleased) hscope

theorem Stands.run {σ : JobServer} (hrun : Runs jobs start σ)
    (hstart : SlotsStand cfg callUUID (fun scope => heldSlots scope slots) start)
    (honce : ∀ t, (jobs t).setsUp ≠ some callUUID) (hleft : ∀ t scope, left t scope = true)
    (hreleases : ∀ c ∈ σ.history, ReleasesNothing jobs callUUID c) :
    Stands cfg jobs left callUUID slots start σ.history σ.db := by
  refine Runs.invariant hrun (fun history db => (∀ c ∈ history, ReleasesNothing jobs callUUID c) →
    Stands cfg jobs left callUUID slots start history db) (fun _ => ?_) ?_ hreleases
  · refine ⟨Iff.rfl, ?_, ?_⟩
    · simpa [callSlots] using hstart
    · rintro ⟨c, hc, -⟩
      cases hc
  · intro t history before after result _ hinv hdid hnothing
    have hpast : ∀ c ∈ history, ReleasesNothing jobs callUUID c :=
      fun c hc => hnothing c (List.mem_cons_of_mem _ hc)
    have hstands := hinv hpast
    by_cases hhangup : ∃ h, (jobs t).hangup = some h ∧ h.callUUID = callUUID
    · obtain ⟨h, hbills, hcall⟩ := hhangup
      obtain ⟨now, out, rfl, billed⟩ := billed_of_hangup hdid hbills
      refine hstands.billed hbills hcall ?_ (hleft t) billed
      rintro d ⟨older, holder, hseen⟩
      exact (hseen (fun c hc => hpast c (holder.subset hc))).known
    · exact hstands.other hhangup (honce t) (hnothing _ List.mem_cons_self) hdid

end Run

end Admission

/-- A call gives back every slot it took, once. For every setup of a new call
for which nothing fails between its admission and its reservation and its
release is served, and every interleaving of deliveries after it whose
decrements are served and in which no release meets an open record: the call
never gives back more than it took, and holds nothing once a hangup of it has
been processed. -/
theorem slots_given_back_once (cfg : Config) (now : Time) (r : Replies) (req : SetupRequest)
    (db : DB) (callUUID : UUID) (jobs : ℕ → Job) (left : ℕ → Scope → Bool) (σ : JobServer)
    (hcall : req.callUUID = some callUUID) (hcdr : db.row (.cdr callUUID) = none)
    (hactive : db.row (.active callUUID) = none) (hserved : SlotsServed cfg now r req db)
    (honce : ∀ t, (jobs t).setsUp ≠ some callUUID) (hleft : ∀ t scope, left t scope = true)
    (hreleases : ∀ c ∈ σ.history, ReleasesNothing jobs callUUID c)
    (hrun : Runs jobs (setup cfg now r req db).db σ) :
    ∀ scope, scope.OfAdmission →
      0 ≤ heldSlots scope
        (callSlots cfg jobs left callUUID (setup cfg now r req db).slots σ.history) ∧
      (HungUp jobs callUUID σ.history → heldSlots scope
        (callSlots cfg jobs left callUUID (setup cfg now r req db).slots σ.history) = 0) := by
  have hstands : Admission.Stands cfg jobs left callUUID (setup cfg now r req db).slots
      (setup cfg now r req db).db σ.history σ.db :=
    Admission.Stands.run hrun (setup_slots hcall hcdr hactive hserved) honce hleft hreleases
  intro scope hscope
  refine ⟨?_, fun hup => hstands.stand.zero (hstands.hungUp hup) hscope⟩
  cases hstands.stand with
  | free _ hzero => exact (hzero scope hscope).ge
  | taken customerId _ _ _ _ hheld =>
    rw [hheld scope hscope]
    exact admittedSlots_nonneg cfg customerId scope

def sampleAdmission (r : Replies) : SetupRun :=
  setup { sampleConfig with globalMaxChannels := 10 } 0 r (sampleRequest 42)
    (sampleStore ⟨10000000, sampleBalance_bound⟩)

/-- What the call holds of both counters after some jobs, and whether it hung
up. -/
def sampleSlots (r : Replies) (jobs : ℕ → Job) (history : List JobCommit) : ℤ × ℤ × Bool :=
  let ops := callSlots { sampleConfig with globalMaxChannels := 10 } jobs (fun _ _ => true) 42
    (sampleAdmission r).slots history
  (heldSlots (.customer 7) ops, heldSlots .global ops,
    history.any (fun c => (jobs c.id).hangup.any (fun h => h.callUUID = 42)))

theorem hungUp_of_sampleSlots {r : Replies} {jobs : ℕ → Job} {history : List JobCommit}
    {customer all : ℤ} (h : sampleSlots r jobs history = (customer, all, true)) :
    HungUp jobs 42 history := by
  have hany := (Prod.mk.inj (Prod.mk.inj h).2).2
  obtain ⟨c, hc, hbills⟩ := List.any_eq_true.mp hany
  obtain ⟨hangup, hhangup, hcall⟩ := (Option.any_eq_true _ _).mp hbills
  exact ⟨c, hc, hangup, hhangup, of_decide_eq_true hcall⟩

theorem runs_sample {r : Replies} {jobs : ℕ → Job} {customer all : ℤ} (order : List ℕ)
    (h : (runSerially jobs order (sampleAdmission r).db).map (fun done =>
      sampleSlots r jobs done.2) = some (customer, all, true)) :
    ∃ σ, Runs jobs (sampleAdmission r).db σ ∧ HungUp jobs 42 σ.history ∧
      sampleSlots r jobs σ.history = (customer, all, true) := by
  obtain ⟨σ, hσ, hslots⟩ := runs_serially h
  exact ⟨σ, hσ, hungUp_of_sampleSlots hslots, hslots⟩

/-- Whether a quote fits its columns. -/
def quoteFits (cfg : Config) (customerId : UUID) (db : DB) (quote : Draft × RateRow) : Bool :=
  let amount := reserveAmount cfg.reserveMinutes (toRating quote.2)
  (setupRow { quote.1.cdr with reservedAmount := amount, disposition := .pending }).isSome &&
    (findAccount db ⟨.customer, customerId⟩).all
      (fun found => (Numeric.assign 18 6 (found.2.reserved.val + amount)).isSome)

theorem slotsServed_sample :
    SlotsServed { sampleConfig with globalMaxChannels := 10 } 0 (sampleReplies sampleRate)
      (sampleRequest 42) (sampleStore ⟨10000000, by decide⟩) where
  undoes := ⟨rfl, rfl, rfl⟩
  leaveGlobal := rfl
  rates _ _ _ h := by cases h
  reserve := rfl
  fits cust s d sell hquoted := by
    have hadmitted : (authOf { sampleConfig with globalMaxChannels := 10 }
        (sampleReplies sampleRate) (sampleRequest 42)).1 = .admitted sampleCustomer := rfl
    obtain rfl := AuthResult.admitted.inj (hadmitted.symm.trans hquoted.auth)
    have hfits : ((screen { sampleConfig with globalMaxChannels := 10 } (sampleReplies sampleRate)
        (sampleRequest 42) sampleCustomer (withCustomer sampleCustomer
          (startDraft { sampleConfig with globalMaxChannels := 10 } 0
            (sampleRequest 42)))).toOption.bind
        (fun s => (quoteSell { sampleConfig with globalMaxChannels := 10 }
          (sampleReplies sampleRate) sampleCustomer s
          (sampleStore ⟨10000000, by decide⟩)).toOption)).all
        (quoteFits { sampleConfig with globalMaxChannels := 10 } 7
          (sampleStore ⟨10000000, by decide⟩)) = true := by
      decide +kernel
    rw [hquoted.screened] at hfits
    simp only [Except.toOption, Option.bind_some, hquoted.quoted, Option.all_some, quoteFits,
      Bool.and_eq_true] at hfits
    refine ⟨hfits.1, fun accountId a hfound => ?_⟩
    have hall := hfits.2
    rw [show sampleCustomer.id = 7 from rfl] at hfound
    rw [hfound] at hall
    exact hall
  release := rfl

def sampleUnanswered : Job :=
  .bill sampleEngine 90000000000
    { callUUID := 42
      endTime := 90000000000
      hangupCause := "NORMAL_TEMPORARY_FAILURE"
      source := .esl }

/-- A dialled call whose hangup is delivered twice. -/
theorem slots_given_back_once_sampleHangup :
    ∃ σ, Runs (fun _ => sampleHangup 42 61) (sampleAdmission (sampleReplies sampleRate)).db σ ∧
      HungUp (fun _ => sampleHangup 42 61) 42 σ.history ∧
      heldSlots .global (callSlots { sampleConfig with globalMaxChannels := 10 }
        (fun _ => sampleHangup 42 61) (fun _ _ => true) 42
        (sampleAdmission (sampleReplies sampleRate)).slots σ.history) = 0 := by
  have hserial : (runSerially (fun _ => sampleHangup 42 61) [0, 1]
      (sampleAdmission (sampleReplies sampleRate)).db).map (fun done =>
        sampleSlots (sampleReplies sampleRate) (fun _ => sampleHangup 42 61) done.2) =
      some (0, 0, true) := by
    decide +kernel
  obtain ⟨σ, hrun, hup, -⟩ := runs_sample [0, 1] hserial
  have hquiet : ∀ c ∈ σ.history, ReleasesNothing (fun _ => sampleHangup 42 61) 42 c :=
    fun c _ hreleases => by cases hreleases
  refine ⟨σ, hrun, hup, ?_⟩
  exact (slots_given_back_once _ _ _ _ _ 42 _ _ σ rfl (unrecorded_sample _ _)
    (by rw [sampleStore]; rfl) slotsServed_sample (by simp [sampleHangup, Job.setsUp])
    (by simp) hquiet hrun .global trivial).2 hup

/-- Slots that are kept for good or given back twice: the rate lookup of the
setup fails, so there is no record to bill; the release inside a rejection
fails, so the hangup bills a record whose slots are already back; and
`/call/release` closes the record without giving anything back. -/
theorem slots_kept_or_given_back_twice :
    (∃ σ, Runs (fun _ => sampleUnanswered) (sampleAdmission
        { sampleReplies sampleRate with matchRate := fun _ _ => .error "query failed" }).db σ ∧
      HungUp (fun _ => sampleUnanswered) 42 σ.history ∧
      sampleSlots { sampleReplies sampleRate with matchRate := fun _ _ => .error "query failed" }
        (fun _ => sampleUnanswered) σ.history = (1, 1, true)) ∧
    (∃ σ, Runs (fun _ => sampleUnanswered) (sampleAdmission { sampleReplies sampleRate with
        routeWith := fun _ _ _ _ _ => .ok ⟨none, [], []⟩, releaseServed := false }).db σ ∧
      HungUp (fun _ => sampleUnanswered) 42 σ.history ∧
      sampleSlots { sampleReplies sampleRate with
          routeWith := fun _ _ _ _ _ => .ok ⟨none, [], []⟩, releaseServed := false }
        (fun _ => sampleUnanswered) σ.history = (-1, -1, true)) ∧
    ∃ σ, Runs (fun t => if t = 0 then releaseCall sampleConfig 0 42 0 "" else sampleUnanswered)
        (sampleAdmission (sampleReplies sampleRate)).db σ ∧
      HungUp (fun t => if t = 0 then releaseCall sampleConfig 0 42 0 "" else sampleUnanswered) 42
        σ.history ∧
      sampleSlots (sampleReplies sampleRate)
        (fun t => if t = 0 then releaseCall sampleConfig 0 42 0 "" else sampleUnanswered)
        σ.history = (1, 1, true) := by
  refine ⟨runs_sample [0] ?_, runs_sample [0] ?_,
    runs_sample [0, 1] ?_⟩
  · decide +kernel
  · decide +kernel
  · decide +kernel

end SuperSbc
