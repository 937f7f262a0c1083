import SuperSbc.Admission.Balance
import SuperSbc.CallControl.Dialling

/-!
The slots a call takes at carriers. The bridge loop takes one before each
attempt; the report of a failed attempt gives it back, and the hangup of an
answered call does for the last. Who gives back does not know who took: the
loop dials without a slot when it got no answer, and the reconciler bills
without knowing who answered.
-/

namespace SuperSbc

open FixedPoint Rating ReadCommitted Transaction Store Billing CallControl Ledger Text

namespace CallControl

/-- Redis serves what an attempt asks of it. -/
structure World.RedisServes (w : World) : Prop where
  counted : w.admission.counts.isSome
  undone : w.admission.undone = true
  left : w.left = true

namespace Tried

variable (t : Tried)

def took : Bool := (t.world.begun t.choice).1.any (·.1)

def answers : Bool := t.dialled && t.world.bridge.answered

def stored : Bool := t.world.report.arrives && t.world.appended

def beginSlots : List SlotOp := (t.world.begun t.choice).2

def reportSlots (rules : Rules) (callUUID : UUID) : List SlotOp :=
  if t.dialled then (t.world.reported t.choice rules callUUID t.seq).2 else []

/-- How often the slot of the attempt is given back, by its report and by the
bills of the call. -/
def givenBack (rules : Rules) (callUUID : UUID) (bills : List SlotOp) : ℕ :=
  (t.reportSlots rules callUUID).count (.decr (.carrier t.choice.carrierId)) +
    if t.answers then bills.count (.decr (.carrier t.choice.carrierId)) else 0

/-- The slot is given back once when it was taken, and not otherwise. -/
def Paired (rules : Rules) (callUUID : UUID) (bills : List SlotOp) : Prop :=
  t.givenBack rules callUUID bills = if t.took then 1 else 0

/-- For a dialled carrier, the slot was taken exactly when someone will give it
back. That is the hangup of the switch for the attempt that was answered, and
the stored report for the others. Nobody does where the script ends with an
error. -/
structure Covered (fromSwitch : Bool) : Prop where
  dialled : t.allowed = true → ¬ t.Breaks →
    t.took = if t.world.bridge.answered then fromSwitch else t.stored
  broken : t.Breaks → t.took = false

end Tried

/-- All counter changes of the loop. -/
def DialRun.slots (run : DialRun) (rules : Rules) (callUUID : UUID) : List SlotOp :=
  run.tried.flatMap (fun t => t.beginSlots ++ t.reportSlots rules callUUID)

end CallControl

/-- A hangup from the switch is built from the channel's variables, two of
which the loop has set last. -/
def Job.Delivers (callUUID : UUID) (run : DialRun) : Job → Prop
  | .bill _ _ h => h.callUUID = callUUID → ∃ fmt clock v source r,
      fromVariables fmt clock v source = some r ∧ r.info = h ∧
      valueOf v "sbc_answered" = valueOf run.vars "sbc_answered" ∧
      valueOf v "sbc_carrier_id" = valueOf run.vars "sbc_carrier_id"
  | _ => True

def Job.fromSwitch : Job → Bool
  | .bill _ _ _ => true
  | _ => false

/-- A commit that billed the call. -/
def Settles (jobs : ℕ → Job) (callUUID : UUID) (c : JobCommit) : Prop :=
  ∃ h out, (jobs c.id).hangup = some h ∧ h.callUUID = callUUID ∧ c.value = .billed out ∧
    out.noCDR = false ∧ out.alreadyBilled = false

namespace CallControl

theorem heldSlots_beginAttempt {carrierId id : UUID} {limits : Option CarrierLimits}
    {reply : AdmitReply} {answer : Option (Bool × String)} {ops : List SlotOp}
    (hundone : reply.undone = true) (h : beginAttempt carrierId limits reply = (answer, ops)) :
    heldSlots (.carrier id) ops = if answer.any (·.1) ∧ carrierId = id then 1 else 0 := by
  unfold beginAttempt at h
  cases limits with
  | none =>
    obtain ⟨rfl, rfl⟩ := Prod.mk.inj h
    simp
  | some c =>
    dsimp only at h
    cases hcounted : admitCall (.carrier carrierId) c.maxConcurrentCalls c.maxCPS reply with
    | mk result changes =>
      have hheld := @heldSlots_admitCall (.carrier id) _ _ _ _ _ _ hundone hcounted
      rw [hcounted] at h
      cases result with
      | none =>
        obtain ⟨rfl, rfl⟩ := Prod.mk.inj h
        simpa using hheld
      | some r =>
        dsimp only at h
        by_cases hconcurrent : r.concurrentExceeded = true
        · rw [if_pos hconcurrent] at h
          obtain ⟨rfl, rfl⟩ := Prod.mk.inj h
          simpa [AdmitResult.exceeded, hconcurrent] using hheld
        · rw [if_neg hconcurrent] at h
          by_cases hcps : r.cpsExceeded = true
          · rw [if_pos hcps] at h
            obtain ⟨rfl, rfl⟩ := Prod.mk.inj h
            simpa [AdmitResult.exceeded, hcps] using hheld
          · rw [if_neg hcps] at h
            obtain ⟨rfl, rfl⟩ := Prod.mk.inj h
            simpa [AdmitResult.exceeded, hconcurrent, hcps] using hheld

namespace Tried

variable {t : Tried} {rules : Rules} {callUUID : UUID}

theorem heldSlots_beginSlots (hredis : t.world.RedisServes) (id : UUID) :
    heldSlots (.carrier id) t.beginSlots =
      if t.took ∧ t.choice.carrierId = id then 1 else 0 := by
  unfold beginSlots took World.begun
  by_cases harrives : t.world.beginCall.arrives = true
  · rw [if_pos harrives]
    exact heldSlots_beginAttempt hredis.undone rfl
  · rw [if_neg harrives]
    simp

theorem reportSlots_eq (hredis : t.world.RedisServes) :
    t.reportSlots rules callUUID =
      if t.dialled ∧ t.stored ∧ t.world.bridge.answered = false then
        [.decr (.carrier t.choice.carrierId)] else [] := by
  unfold reportSlots World.reported recordAttempt stored
  by_cases hdialled : t.dialled = true
  · cases harrives : t.world.report.arrives with
    | false => simp
    | true =>
      cases happended : t.world.appended with
      | false => simp
      | true =>
        cases hanswered : t.world.bridge.answered with
        | false => simp [hdialled, World.request, hanswered, leave, hredis.left]
        | true => simp [hdialled, World.request, hanswered]
  · simp [hdialled]

theorem heldSlots_reportSlots (hredis : t.world.RedisServes) (id : UUID) :
    heldSlots (.carrier id) (t.reportSlots rules callUUID) =
      -((t.reportSlots rules callUUID).count (.decr (.carrier id)) : ℤ) := by
  rw [reportSlots_eq hredis, heldSlots]
  split_ifs <;> simp

end Tried

section Loop

variable {rules : Rules} {callUUID : UUID} {vars : Variables} {relay : Reject} {run : DialRun}
  {t : Tried} {raised : Bool}

/-- What the loop says about who answered: one of its attempts did, or none,
and the channel's variables say the same. -/
structure DialRun.Consistent (run : DialRun) : Prop where
  count_answers : ∀ id, run.tried.countP (fun t => t.answers && t.choice.carrierId == id) =
    if run.answered = some id then 1 else 0
  answered_vars : ∀ id, run.answered = some id →
    valueOf run.vars "sbc_answered" = "true" ∧ valueOf run.vars "sbc_carrier_id" = uuidText id
  unanswered_vars : run.answered = none → valueOf run.vars "sbc_answered" = "false"

theorem DialRun.Consistent.nobody (hvars : valueOf vars "sbc_answered" = "false") :
    (⟨[], vars, none, relay, raised⟩ : DialRun).Consistent where
  count_answers id := by simp
  answered_vars id h := by cases h
  unanswered_vars _ := hvars

/-- An attempt nobody answered, in front of a loop. -/
theorem DialRun.Consistent.after (h : run.Consistent) (ht : t.answers = false) :
    (run.after t).Consistent where
  count_answers id := by
    change (t :: run.tried).countP _ = if run.answered = some id then 1 else 0
    rw [List.countP_cons_of_neg (by simp [ht])]
    exact h.count_answers id
  answered_vars := h.answered_vars
  unanswered_vars := h.unanswered_vars

/-- The attempt that was answered ends the loop. -/
theorem DialRun.Consistent.answered (ht : t.answers = true) :
    (DialRun.after t ⟨[], setValue (setValue vars "sbc_carrier_id" (uuidText t.choice.carrierId))
      "sbc_answered" "true", some t.choice.carrierId, relay, false⟩).Consistent where
  count_answers id := by
    change [t].countP _ = if some t.choice.carrierId = some id then 1 else 0
    by_cases hid : t.choice.carrierId = id
    · simp [ht, hid]
    · simp [hid]
  answered_vars id h := by
    obtain rfl := Option.some.inj h
    refine ⟨valueOf_setValue_self _ _ _, ?_⟩
    change valueOf (setValue _ "sbc_answered" "true") "sbc_carrier_id" = _
    rw [valueOf_setValue_of_ne (by decide), valueOf_setValue_self]
  unanswered_vars h := by cases h

theorem dialLoop_consistent (entries : List (DialChoice × World)) (seq : ℤ) (vars : Variables)
    (relay : Reject) (hvars : valueOf vars "sbc_answered" = "false") :
    (dialLoop rules callUUID seq vars relay entries).Consistent := by
  induction entries generalizing seq vars relay with
  | nil => exact .nobody hvars
  | cons entry rest ih =>
    obtain ⟨c, w⟩ := entry
    have hset : valueOf (setValue vars "sbc_carrier_id" (uuidText c.carrierId))
        "sbc_answered" = "false" := by
      rw [valueOf_setValue_of_ne (by decide), hvars]
    unfold dialLoop
    by_cases hready : w.ready = true
    · rw [if_pos hready]
      by_cases hskips : w.skips c = true
      · rw [if_pos hskips]
        exact (ih _ _ _ hvars).after (by simp [Tried.answers, Tried.dialled, Tried.allowed, hskips])
      · rw [if_neg hskips]
        dsimp only
        cases hdial : w.dialString c with
        | none =>
          exact (DialRun.Consistent.nobody hset).after
            (by simp [Tried.answers, Tried.dialled, hdial])
        | some out =>
          dsimp only
          by_cases hanswered : w.bridge.answered = true
          · rw [if_pos hanswered]
            exact .answered (t := ⟨seq, c, w⟩)
              (by simp [Tried.answers, Tried.dialled, Tried.allowed, hskips, hdial, hanswered])
          · have hfailed : Tried.answers ⟨seq, c, w⟩ = false := by
              simp [Tried.answers, hanswered]
            rw [if_neg hanswered]
            by_cases hgone : w.bridge.alegGone = true
            · rw [if_pos hgone]
              exact (DialRun.Consistent.nobody hset).after hfailed
            · rw [if_neg hgone]
              cases w.verdict c rules callUUID seq with
              | none => exact (DialRun.Consistent.nobody hset).after hfailed
              | some answer =>
                dsimp only
                split_ifs
                · exact (ih _ _ _ hset).after hfailed
                · exact (DialRun.Consistent.nobody hset).after hfailed
    · rw [if_neg hready]
      exact .nobody hvars

theorem dial_consistent (rules : Rules) (callUUID : UUID) (vars : Variables)
    (entries : List (DialChoice × World)) : (dial rules callUUID vars entries).Consistent :=
  dialLoop_consistent entries _ _ _ (valueOf_setValue_self _ _ _)

theorem DialRun.Consistent.answeredCarrier (h : run.Consistent) {v : Variables}
    (hanswered : valueOf v "sbc_answered" = valueOf run.vars "sbc_answered")
    (hcarrier : valueOf v "sbc_carrier_id" = valueOf run.vars "sbc_carrier_id") :
    Billing.answeredCarrier v = run.answered := by
  unfold Billing.answeredCarrier
  rw [hanswered, hcarrier]
  cases hrun : run.answered with
  | none => rw [h.unanswered_vars hrun, if_neg (by decide)]
  | some id =>
    obtain ⟨htrue, hid⟩ := h.answered_vars id hrun
    rw [htrue, if_pos rfl, hid, parseUUID_uuidText]

end Loop

end CallControl

namespace Admission

section Run

variable {cfg : Config} {jobs : ℕ → Job} {left : ℕ → Scope → Bool} {callUUID : UUID}
  {history : List JobCommit} {c : JobCommit}

theorem deliverySlots_of_not_settles (h : ¬ Settles jobs callUUID c) :
    deliverySlots cfg jobs left callUUID c = [] := by
  unfold deliverySlots
  split
  · rename_i hangup out hhangup hvalue
    by_cases hcall : hangup.callUUID = callUUID
    · rw [if_pos hcall, leaveBilled, if_pos]
      by_contra hfirst
      simp only [Bool.or_eq_true, not_or, Bool.not_eq_true] at hfirst
      exact h ⟨hangup, out, hhangup, hcall, hvalue, hfirst⟩
    · rw [if_neg hcall]
  · rfl

/-- The commits that concern a call: once one has billed it, it is billed and
no other gives anything back. -/
structure BilledOnce (cfg : Config) (jobs : ℕ → Job) (left : ℕ → Scope → Bool) (callUUID : UUID)
    (history : List JobCommit) (db : DB) : Prop where
  billed : ∀ c ∈ history, Settles jobs callUUID c → RecordBilled db callUUID
  alone : ∀ c ∈ history, Settles jobs callUUID c →
    history.flatMap (deliverySlots cfg jobs left callUUID) =
      deliverySlots cfg jobs left callUUID c

theorem deliveries_silent (h : ∀ c ∈ history, ¬ Settles jobs callUUID c) :
    history.flatMap (deliverySlots cfg jobs left callUUID) = [] :=
  List.flatMap_eq_nil_iff.mpr (fun c hc => deliverySlots_of_not_settles (h c hc))

theorem settles_did {seen : DB → Prop} {before after : DB} {result : JobResult} {t : ℕ}
    (hsettles : Settles jobs callUUID ⟨t, result, before, after⟩)
    (hdid : Job.Did seen before after (jobs t) result) :
    ¬ RecordBilled before callUUID ∧ RecordBilled after callUUID := by
  obtain ⟨h, out, hhangup, rfl, rfl, hknown, hfirst⟩ := hsettles
  obtain ⟨now, found, hresult, billed⟩ := billed_of_hangup hdid hhangup
  obtain rfl := JobResult.billed.inj hresult
  cases billed with
  | noCDR hout _ _ _ _ =>
    rw [hknown] at hout
    cases hout
  | already _ _ _ hout _ =>
    rw [hfirst] at hout
    cases hout
  | settled cdr row ac _ mid hcdr hpending _ _ hrow _ _ _ _ hcosts hsettled _ =>
    refine ⟨fun hbilled => hbilled.not_pending hcdr hpending, ⟨row, ?_, by simp [hrow]⟩⟩
    exact CustomerSettled.record hsettled (CostLines.row_of_ne hcosts (by simp))

theorem BilledOnce.run {db : DB} {σ : JobServer} (hrun : Runs jobs db σ) :
    BilledOnce cfg jobs left callUUID σ.history σ.db := by
  refine Runs.invariant hrun (BilledOnce cfg jobs left callUUID) ⟨by simp, by simp⟩ ?_
  intro t history before after result _ hinv hdid
  by_cases hsettles : Settles jobs callUUID ⟨t, result, before, after⟩
  · obtain ⟨hopen, hbilled⟩ := settles_did hsettles hdid
    have hnobody : ∀ c ∈ history, ¬ Settles jobs callUUID c :=
      fun c hc hearlier => hopen (hinv.billed c hc hearlier)
    refine ⟨fun _ _ _ => hbilled, fun c hc hc' => ?_⟩
    rcases List.mem_cons.mp hc with rfl | hold
    · rw [List.flatMap_cons, deliveries_silent hnobody, List.append_nil]
    · exact absurd hc' (hnobody c hold)
  · refine ⟨fun c hc hc' => ?_, fun c hc hc' => ?_⟩
    all_goals
      rcases List.mem_cons.mp hc with rfl | hold
    · exact absurd hc' hsettles
    · exact recordBilled_did (hinv.billed c hold hc') hdid
    · exact absurd hc' hsettles
    · rw [List.flatMap_cons, deliverySlots_of_not_settles hsettles, List.nil_append]
      exact hinv.alone c hold hc'

/-- The slots of carriers a bill gives back: that of the carrier the hangup
names. -/
theorem carrier_leaveBilled {h : HangupInfo} {out : Outcome} {done : Scope → Bool}
    (hfirst : out.noCDR = false ∧ out.alreadyBilled = false) (hdone : ∀ scope, done scope = true)
    (id : UUID) :
    (leaveBilled cfg h out done).count (.decr (.carrier id)) =
        (if h.answeredCarrierId = some id then 1 else 0) ∧
      (leaveBilled cfg h out done).count (.incr (.carrier id)) = 0 := by
  have hanswered : (leaveAnswered h done).count (.decr (.carrier id)) =
        (if h.answeredCarrierId = some id then 1 else 0) ∧
      (leaveAnswered h done).count (.incr (.carrier id)) = 0 := by
    unfold leaveAnswered
    cases h.answeredCarrierId with
    | none => simp
    | some other => simp [leave, hdone, List.count_singleton]
  unfold leaveBilled
  rw [if_neg (by simp [hfirst])]
  cases out.customerId with
  | none => exact hanswered
  | some customerId =>
    have hadmission : ∀ op : SlotOp, op = .decr (.carrier id) ∨ op = .incr (.carrier id) →
        (leaveAdmission cfg customerId (done (.customer customerId)) (done .global)).count op =
          0 := by
      rintro op (rfl | rfl)
      all_goals
        unfold leaveAdmission leave
        split_ifs <;> simp
    dsimp only
    rw [List.count_append, List.count_append, hadmission _ (.inl rfl), hadmission _ (.inr rfl)]
    simpa using hanswered

/-- The slots of carriers all bills of a call give back, once it is billed. -/
theorem carrier_deliveries (cfg : Config) {db : DB} {σ : JobServer} {run : DialRun}
    (hrun : Runs jobs db σ)
    (hloop : run.Consistent) (hdeliver : ∀ t, (jobs t).Delivers callUUID run)
    (hleft : ∀ t scope, left t scope = true) (hc : c ∈ σ.history)
    (hbilled : Settles jobs callUUID c) (id : UUID) :
    (σ.history.flatMap (deliverySlots cfg jobs left callUUID)).count (.decr (.carrier id)) =
        (if (jobs c.id).fromSwitch ∧ run.answered = some id then 1 else 0) ∧
      (σ.history.flatMap (deliverySlots cfg jobs left callUUID)).count (.incr (.carrier id)) =
        0 := by
  rw [(BilledOnce.run hrun).alone c hc hbilled]
  obtain ⟨h, out, hhangup, hcall, hvalue, hfirst⟩ := hbilled
  have hslots : deliverySlots cfg jobs left callUUID c = leaveBilled cfg h out (left c.id) := by
    simp [deliverySlots, hhangup, hvalue, hcall]
  have hcarrier : h.answeredCarrierId = some id ↔
      (jobs c.id).fromSwitch = true ∧ run.answered = some id := by
    cases hjob : jobs c.id with
    | bill e now info =>
      rw [hjob] at hhangup
      obtain rfl := Option.some.inj hhangup
      have hbuilt := hdeliver c.id
      rw [hjob] at hbuilt
      obtain ⟨fmt, clock, v, source, r, hr, rfl, hanswered, hid⟩ := hbuilt hcall
      obtain ⟨call, -, rfl⟩ := Option.map_eq_some_iff.mp hr
      change answeredCarrier v = some id ↔ _
      rw [hloop.answeredCarrier hanswered hid]
      simp [Job.fromSwitch]
    | reconcile e now call =>
      rw [hjob] at hhangup
      obtain rfl := Option.some.inj hhangup
      simp [Job.fromSwitch, orphanHangup]
    | _ =>
      rw [hjob] at hhangup
      cases hhangup
  rw [hslots]
  refine ⟨?_, (carrier_leaveBilled hfirst (hleft c.id) id).2⟩
  rw [(carrier_leaveBilled hfirst (hleft c.id) id).1]
  exact if_congr hcarrier rfl rfl

end Run

section Attempts

variable {rules : Rules} {callUUID : UUID} {t : Tried} {run : DialRun} {bills : List SlotOp}
  {fromSwitch : Bool}

theorem answered_of_answers (hloop : run.Consistent) (ht : t ∈ run.tried)
    (hanswers : t.answers = true) : run.answered = some t.choice.carrierId := by
  by_contra hother
  have hcount := hloop.count_answers t.choice.carrierId
  rw [if_neg hother, List.countP_eq_zero] at hcount
  exact hcount t ht (by simp [hanswers])

theorem not_took_of_skipped (hskipped : t.allowed = false) : t.took = false := by
  unfold Tried.allowed World.skips at hskipped
  unfold Tried.took
  cases hbegun : (t.world.begun t.choice).1 with
  | none => rfl
  | some answer =>
    have hrefused : t.world.beginCall.returns = true ∧ answer.1 = false := by
      simpa [hbegun] using hskipped
    exact hrefused.2

theorem covered_iff :
    t.Covered fromSwitch ↔
      t.took = (t.dialled && if t.world.bridge.answered then fromSwitch else t.stored) := by
  cases hdialled : t.dialled with
  | true =>
    obtain ⟨hallowed, hintact⟩ := t.dialled_iff.mp hdialled
    exact ⟨fun h => h.dialled hallowed hintact,
      fun h => ⟨fun _ _ => h, fun hbreaks => absurd hbreaks hintact⟩⟩
  | false =>
    have hnot : t.allowed = true → t.Breaks := by
      intro hallowed
      by_contra hintact
      rw [t.dialled_iff.mpr ⟨hallowed, hintact⟩] at hdialled
      cases hdialled
    refine ⟨fun h => ?_, fun h =>
      ⟨fun hallowed hintact => absurd (hnot hallowed) hintact, fun _ => h⟩⟩
    cases hallowed : t.allowed with
    | true => exact h.broken (hnot hallowed)
    | false => exact not_took_of_skipped hallowed

theorem paired_iff_covered (hredis : t.world.RedisServes) (hloop : run.Consistent)
    (ht : t ∈ run.tried)
    (hbills : ∀ id, bills.count (.decr (.carrier id)) =
      if fromSwitch ∧ run.answered = some id then 1 else 0) :
    t.Paired rules callUUID bills ↔ t.Covered fromSwitch := by
  unfold Tried.Paired Tried.givenBack
  rw [Tried.reportSlots_eq hredis, hbills, covered_iff]
  cases hdialled : t.dialled with
  | false => cases t.took <;> simp [Tried.answers, hdialled]
  | true =>
    cases hanswered : t.world.bridge.answered with
    | true =>
      have hanswers : t.answers = true := by simp [Tried.answers, hdialled, hanswered]
      rw [answered_of_answers hloop ht hanswers]
      cases t.took <;> cases fromSwitch <;> simp [hanswers]
    | false =>
      have hfailed : t.answers = false := by simp [Tried.answers, hanswered]
      cases t.took <;> cases t.stored <;> simp [hfailed]

/-- What a paired attempt leaves for the bill of the call to give back. -/
theorem heldSlots_paired (hredis : t.world.RedisServes) (hpaired : t.Paired rules callUUID bills)
    (id : UUID) :
    heldSlots (.carrier id) (t.beginSlots ++ t.reportSlots rules callUUID) =
      if t.answers && t.choice.carrierId == id then
        (bills.count (.decr (.carrier id)) : ℤ) else 0 := by
  rw [heldSlots_append, Tried.heldSlots_beginSlots hredis, Tried.heldSlots_reportSlots hredis]
  by_cases hid : t.choice.carrierId = id
  · subst hid
    have hcast : ((t.reportSlots rules callUUID).count (.decr (.carrier t.choice.carrierId)) : ℤ) +
        (if t.answers then (bills.count (.decr (.carrier t.choice.carrierId)) : ℤ) else 0) =
          if t.took then 1 else 0 := by
      exact_mod_cast hpaired
    simp only [and_true, beq_self_eq_true, Bool.and_true]
    linarith
  · have hnone : (t.reportSlots rules callUUID).count (.decr (.carrier id)) = 0 := by
      rw [Tried.reportSlots_eq hredis]
      split_ifs <;> simp [hid]
    simp [hid, hnone]

theorem sum_ite_countP {α : Type} (p : α → Bool) (k : ℤ) (l : List α) :
    (l.map (fun x => if p x then k else 0)).sum = l.countP p * k := by
  induction l with
  | nil => simp
  | cons x rest ih =>
    rw [List.map_cons, List.sum_cons, ih, List.countP_cons]
    split_ifs
    · push_cast
      ring
    · simp

theorem heldSlots_flatMap {α : Type} (scope : Scope) (f : α → List SlotOp) (l : List α) :
    heldSlots scope (l.flatMap f) = (l.map (fun x => heldSlots scope (f x))).sum := by
  induction l with
  | nil => rfl
  | cons x rest ih => rw [List.flatMap_cons, heldSlots_append, ih, List.map_cons, List.sum_cons]

/-- When every attempt is paired, no counter keeps anything of the call. -/
theorem heldSlots_of_paired (hloop : run.Consistent)
    (hredis : ∀ t ∈ run.tried, t.world.RedisServes)
    (hpaired : ∀ t ∈ run.tried, t.Paired rules callUUID bills) (id : UUID)
    (hbills : bills.count (.decr (.carrier id)) =
      if fromSwitch ∧ run.answered = some id then 1 else 0)
    (hnone : bills.count (.incr (.carrier id)) = 0) :
    heldSlots (.carrier id) (run.slots rules callUUID ++ bills) = 0 := by
  have hloop' : heldSlots (.carrier id) (run.slots rules callUUID) =
      (if run.answered = some id then 1 else 0) * (bills.count (.decr (.carrier id)) : ℤ) := by
    have hterms : run.tried.map (fun t => heldSlots (.carrier id)
        (t.beginSlots ++ t.reportSlots rules callUUID)) =
          run.tried.map (fun t => if t.answers && t.choice.carrierId == id then
            (bills.count (.decr (.carrier id)) : ℤ) else 0) :=
      List.map_congr_left (fun t ht => heldSlots_paired (hredis t ht) (hpaired t ht) id)
    rw [DialRun.slots, heldSlots_flatMap, hterms, sum_ite_countP, hloop.count_answers]
    split_ifs <;> simp
  rw [heldSlots_append, hloop', heldSlots, hnone, hbills]
  by_cases hanswered : run.answered = some id
  · simp [hanswered]
  · simp [hanswered]

end Attempts

end Admission

/-- The slots of a call at carriers are paired exactly when every carrier that
was dialled had taken a slot that someone gives back, or neither. For every
dial list and everything that can happen around its entries, with Redis
serving, and every interleaving of deliveries in which some delivery `c` has
billed the call; and then no carrier's counter keeps anything of the call. -/
theorem carrier_slots_paired_iff (cfg : Config) (rules : Rules) (callUUID : UUID)
    (vars : Variables) (entries : List (DialChoice × World)) (run : DialRun) (db : DB)
    (jobs : ℕ → Job) (left : ℕ → Scope → Bool) (σ : JobServer) (c : JobCommit)
    (hdial : run = dial rules callUUID vars entries)
    (hredis : ∀ t ∈ run.tried, t.world.RedisServes) (hleft : ∀ t scope, left t scope = true)
    (hdeliver : ∀ t, (jobs t).Delivers callUUID run) (hrun : Runs jobs db σ)
    (hc : c ∈ σ.history) (hbilled : Settles jobs callUUID c) :
    ((∀ t ∈ run.tried, t.Paired rules callUUID
        (σ.history.flatMap (deliverySlots cfg jobs left callUUID))) ↔
      ∀ t ∈ run.tried, t.Covered (jobs c.id).fromSwitch) ∧
    ((∀ t ∈ run.tried, t.Covered (jobs c.id).fromSwitch) → ∀ id,
      heldSlots (.carrier id) (run.slots rules callUUID ++
        σ.history.flatMap (deliverySlots cfg jobs left callUUID)) = 0) := by
  have hloop : run.Consistent := hdial ▸ dial_consistent rules callUUID vars entries
  have hcounts := Admission.carrier_deliveries cfg hrun hloop hdeliver hleft hc hbilled
  have hiff : ∀ t ∈ run.tried, (t.Paired rules callUUID
      (σ.history.flatMap (deliverySlots cfg jobs left callUUID)) ↔
        t.Covered (jobs c.id).fromSwitch) :=
    fun t ht => Admission.paired_iff_covered (hredis t ht) hloop ht (fun id => (hcounts id).1)
  refine ⟨forall₂_congr hiff, fun hcovered id => ?_⟩
  exact Admission.heldSlots_of_paired hloop hredis (fun t ht => (hiff t ht).mpr (hcovered t ht)) id
    (hcounts id).1 (hcounts id).2

def sampleWorld (answered : Bool) : World where
  ready := true
  beginCall := ⟨true, true⟩
  limits := some ⟨10, 0⟩
  admission := ⟨some ⟨1, 1⟩, true⟩
  getVariable := fun _ => none
  bridge :=
    { answered := answered
      alegGone := false
      sipCode := if answered then 0 else 503
      hangupCause := if answered then "NORMAL_CLEARING" else "NORMAL_TEMPORARY_FAILURE"
      ringSeconds := 0
      pddMs := none
      startedAt := 0
      endedAt := 1000000000 }
  report := ⟨true, true⟩
  override := []
  appended := true
  left := true

/-- The loop over attempts at carrier 21. -/
def sampleLoop (worlds : List World) : DialRun :=
  dial Rules.default 42 [] (worlds.map (fun w => (⟨⟨21, "\x7b\x7d"⟩, none, ["X-Tag"]⟩, w)))

def sampleVariables (run : DialRun) : Variables :=
  [("uuid", uuidText 42), ("end_uepoch", "62000000"),
    ("answer_uepoch", if run.answered.isSome then "1000000" else ""),
    ("sbc_answered", valueOf run.vars "sbc_answered"),
    ("sbc_carrier_id", valueOf run.vars "sbc_carrier_id")]

/-- The setup of the call, and then its hangup as the switch or the reconciler
delivers it. -/
def sampleSettlement (run : DialRun) (fromSwitch : Bool) : ℕ → Job
  | 0 => sampleSetup 42 sampleRate
  | _ =>
    if fromSwitch then
      .bill sampleEngine 90000000000
        (reportOf printedFloats 0 (sampleVariables run) .esl 42).info
    else .reconcile sampleEngine 90000000000 42

def settlesCall (jobs : ℕ → Job) (callUUID : UUID) (c : JobCommit) : Bool :=
  match (jobs c.id).hangup, c.value with
  | some h, .billed out => h.callUUID = callUUID && !out.noCDR && !out.alreadyBilled
  | _, _ => false

theorem settles_of_settlesCall {jobs : ℕ → Job} {callUUID : UUID} {c : JobCommit}
    (h : settlesCall jobs callUUID c = true) : Settles jobs callUUID c := by
  unfold settlesCall at h
  split at h
  · rename_i hangup out hhangup hvalue
    simp only [Bool.and_eq_true, decide_eq_true_eq, Bool.not_eq_true'] at h
    exact ⟨hangup, out, hhangup, h.1.1, hvalue, h.1.2, h.2⟩
  · cases h

/-- The call is set up, dialled and billed, and carrier 21 keeps so much. -/
def SampleKeeps (worlds : List World) (fromSwitch : Bool) (held : ℤ) : Prop :=
  ∃ σ, Runs (sampleSettlement (sampleLoop worlds) fromSwitch)
      (sampleStore ⟨10000000, sampleBalance_bound⟩) σ ∧
    (∃ c ∈ σ.history, Settles (sampleSettlement (sampleLoop worlds) fromSwitch) 42 c) ∧
    heldSlots (.carrier 21) ((sampleLoop worlds).slots Rules.default 42 ++ σ.history.flatMap
      (deliverySlots sampleConfig (sampleSettlement (sampleLoop worlds) fromSwitch)
        (fun _ _ => true) 42)) = held

theorem sampleKeeps_of_serial {worlds : List World} {fromSwitch : Bool} {held : ℤ}
    (h : (runSerially (sampleSettlement (sampleLoop worlds) fromSwitch) [0, 1]
        (sampleStore ⟨10000000, by decide⟩)).map
      (fun done => (done.2.any (settlesCall (sampleSettlement (sampleLoop worlds) fromSwitch) 42),
        heldSlots (.carrier 21) ((sampleLoop worlds).slots Rules.default 42 ++ done.2.flatMap
          (deliverySlots sampleConfig (sampleSettlement (sampleLoop worlds) fromSwitch)
            (fun _ _ => true) 42)))) = some (true, held)) :
    SampleKeeps worlds fromSwitch held := by
  obtain ⟨σ, hσ, hdone⟩ := runs_serially h
  obtain ⟨hany, hheld⟩ := Prod.mk.inj hdone
  obtain ⟨c, hc, hsettles⟩ := List.any_eq_true.mp hany
  exact ⟨σ, hσ, ⟨c, hc, settles_of_settlesCall hsettles⟩, hheld⟩

theorem sampleDialled_delivers (run : DialRun) (t : ℕ) :
    (sampleSettlement run true t).Delivers 42 run := by
  cases t with
  | zero => trivial
  | succ t =>
    intro _
    refine ⟨printedFloats, 0, sampleVariables run, .esl, _, ?_, rfl, rfl, rfl⟩
    rw [fromVariables, sampleVariables, valueOf_cons_self, parseUUID_uuidText, Option.map_some]

/-- One attempt fails, the next is answered, and the switch reports the
hangup. -/
theorem carrier_slots_paired_iff_sampleDial :
    ∃ σ, Runs (sampleSettlement (sampleLoop [sampleWorld false, sampleWorld true]) true)
        (sampleStore ⟨10000000, by decide⟩) σ ∧
      (∀ t ∈ (sampleLoop [sampleWorld false, sampleWorld true]).tried, t.took = true ∧
        t.Paired Rules.default 42 (σ.history.flatMap (deliverySlots sampleConfig
          (sampleSettlement (sampleLoop [sampleWorld false, sampleWorld true]) true)
            (fun _ _ => true) 42))) := by
  have hserved : ∀ t ∈ (sampleLoop [sampleWorld false, sampleWorld true]).tried,
      t.world.RedisServes ∧ t.Covered true ∧ t.took = true := by
    have hall : (sampleLoop [sampleWorld false, sampleWorld true]).tried.all (fun t =>
        t.world.admission.counts.isSome && t.world.admission.undone && t.world.left && t.took &&
          t.dialled && (t.world.bridge.answered || t.stored)) = true := by
      decide +kernel
    intro t ht
    have hone := List.all_eq_true.mp hall t ht
    simp only [Bool.and_eq_true, Bool.or_eq_true] at hone
    obtain ⟨⟨⟨⟨⟨hcounted, hundone⟩, hleft⟩, htook⟩, hdialled⟩, hback⟩ := hone
    refine ⟨⟨hcounted, hundone, hleft⟩, Admission.covered_iff.mpr ?_, htook⟩
    rcases hback with hanswered | hstored
    · rw [htook, hdialled, hanswered, if_pos rfl, Bool.true_and]
    · rw [htook, hdialled, hstored, ite_self, Bool.true_and]
  have hkeeps : SampleKeeps [sampleWorld false, sampleWorld true] true 0 :=
    sampleKeeps_of_serial (by decide +kernel)
  obtain ⟨σ, hrun, ⟨c, hc, hbilled⟩, -⟩ := hkeeps
  have hswitch : (sampleSettlement (sampleLoop [sampleWorld false, sampleWorld true]) true
      c.id).fromSwitch = true := by
    obtain ⟨h, out, hhangup, -⟩ := hbilled
    cases hid : c.id with
    | zero =>
      rw [hid] at hhangup
      cases hhangup
    | succ t => rfl
  have hcovered : ∀ t ∈ (sampleLoop [sampleWorld false, sampleWorld true]).tried,
      t.Covered (sampleSettlement (sampleLoop [sampleWorld false, sampleWorld true]) true
        c.id).fromSwitch := by
    rw [hswitch]
    exact fun t ht => (hserved t ht).2.1
  have hpaired := (carrier_slots_paired_iff sampleConfig Rules.default 42 []
    ([sampleWorld false, sampleWorld true].map (fun w => (⟨⟨21, "\x7b\x7d"⟩, none, ["X-Tag"]⟩, w)))
    (sampleLoop [sampleWorld false, sampleWorld true]) _ _ (fun _ _ => true) σ c rfl
    (fun t ht => (hserved t ht).1) (by simp) (sampleDialled_delivers _) hrun hc hbilled).1.mpr
    hcovered
  exact ⟨σ, hrun, fun t ht => ⟨(hserved t ht).2.2, hpaired t ht⟩⟩

/-- A slot too many is given back when the request for it got lost. Slots are
kept when the report of a failed attempt cannot be stored, when the reconciler
bills an answered call, and when a header the customer sends ends the script. -/
theorem carrier_slots_unpaired :
    SampleKeeps [{ sampleWorld false with beginCall := ⟨false, false⟩ }] true (-1) ∧
    SampleKeeps [{ sampleWorld false with appended := false }] true 1 ∧
    SampleKeeps [sampleWorld true] false 1 ∧
    SampleKeeps [{ sampleWorld true with getVariable := fun _ => some (asciiBytes "100%") }]
      true 1 := by
  refine ⟨sampleKeeps_of_serial ?_, sampleKeeps_of_serial ?_, sampleKeeps_of_serial ?_,
    sampleKeeps_of_serial ?_⟩
  · decide +kernel
  · decide +kernel
  · decide +kernel
  · decide +kernel

end SuperSbc
