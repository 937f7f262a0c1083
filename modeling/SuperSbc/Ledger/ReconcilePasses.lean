import SuperSbc.Billing.Orphans
import SuperSbc.Ledger.LockOrder
import SuperSbc.Ledger.Rows
import SuperSbc.Query.Batches
import SuperSbc.ReadCommitted.Serial

/-!
The reconciler over several passes. A pass lists the oldest reservations, at
most 500 of them, leaves out those whose channel is alive and bills the others.
A reservation that is left out stays where it is and takes a place in every
later list. So live calls are never billed, but how many passes it takes to
reach an orphaned reservation depends on how many live ones are older.
-/

namespace SuperSbc.Billing

open ReadCommitted Store Query

def openCalls (db : DB) : Finset (UUID × ActiveCall) :=
  db.keys.biUnion (fun key => match key with
    | .active callUUID => (db.row (.active callUUID)).toFinset.image (fun ac => (callUUID, ac))
    | _ => ∅)

theorem mem_openCalls {db : DB} {call : UUID × ActiveCall} :
    call ∈ openCalls db ↔ db.row (.active call.1) = some call.2 := by
  obtain ⟨callUUID, ac⟩ := call
  constructor
  · intro h
    obtain ⟨key, -, hkey⟩ := Finset.mem_biUnion.mp h
    cases key with
    | active other =>
      obtain ⟨a, ha, hpair⟩ := Finset.mem_image.mp hkey
      obtain ⟨rfl, rfl⟩ := Prod.mk.inj hpair
      exact Option.mem_toFinset.mp ha
    | _ => simp at hkey
  · intro hrow
    refine Finset.mem_biUnion.mpr ⟨.active callUUID, ?_, ?_⟩
    · exact (db.mem_keys _).mpr (by simp [hrow])
    · exact Finset.mem_image.mpr ⟨ac, Option.mem_toFinset.mpr hrow, rfl⟩

/-- The rows `Once` starts from, over a store at its time of reading: those of
`StaleActiveCalls` with FreeSWITCH connected, of `ExpiredActiveCalls` without. -/
def Candidates (node : String) (orphanTimeout : ℤ) (live : Option (List UUID)) (now : Time)
    (db : DB) (batch : List (UUID × ActiveCall)) : Prop :=
  match live with
  | some _ => Batch (fun c : UUID × ActiveCall => c.2.startedAt)
      (fun c => c ∈ openCalls db ∧ isStale node orphanTimeout now c.2) 500 batch
  | none => Batch (fun c : UUID × ActiveCall => c.2.expiresAt)
      (fun c => c ∈ openCalls db ∧ isExpired orphanTimeout now c.2) 200 batch

/-- The loop of a pass. A bill that fails is logged and passed over; the number
is what `Once` returns. The clock is read anew for every bill. -/
def billEach (e : Engine) (clock : UUID → Time) : List HangupInfo → DB → DB × ℕ
  | [], db => (db, 0)
  | h :: rest, db =>
    match (bill e (clock h.callUUID) h).run db with
    | .ok (_, after) => ((billEach e clock rest after).1, (billEach e clock rest after).2 + 1)
    | .error _ => billEach e clock rest db

/-- A pass in which every bill succeeds, and the hangups it bills. -/
def ReconcilePass (e : Engine) (orphanTimeout : ℤ) (live : Option (List UUID)) (now : Time)
    (billed : List HangupInfo) (db after : DB) : Prop :=
  ∃ (batch : List (UUID × ActiveCall)) (ended clock : UUID → Time),
    Candidates e.nodeName orphanTimeout live now db batch ∧
    billed = batch.flatMap (fun c => once (ended c.1) [c] live) ∧
    billEach e clock billed db = (after, billed.length)

inductive Passes (e : Engine) (orphanTimeout : ℤ) (live : Option (List UUID)) :
    List Time → List HangupInfo → DB → DB → Prop where
  | done (db : DB) : Passes e orphanTimeout live [] [] db db
  | pass {now : Time} {times : List Time} {billed later : List HangupInfo} {db mid after : DB}
      (hpass : ReconcilePass e orphanTimeout live now billed db mid)
      (rest : Passes e orphanTimeout live times later mid after) :
      Passes e orphanTimeout live (now :: times) (billed ++ later) db after

/-- The reservations past the orphan timeout. -/
def staleCalls (node : String) (orphanTimeout : ℤ) (now : Time) (db : DB) :
    Finset (UUID × ActiveCall) :=
  (openCalls db).filter (fun c => isStale node orphanTimeout now c.2)

/-- A call with a record that has not been billed. -/
def AwaitsBill (db : DB) (callUUID : UUID) : Prop :=
  ∃ cdr, db.row (.cdr callUUID) = some cdr ∧ cdr.billedAt = none

end SuperSbc.Billing

namespace SuperSbc.Ledger

open ReadCommitted Store Billing Query

variable {e : Engine} {orphanTimeout : ℤ} {db mid after final : DB} {seen : DB → Prop}

section Bill

variable {now : Time} {h : HangupInfo} {out : Outcome}

theorem active_billed_other (billed : Billed seen now h db after out) {other : UUID}
    (hother : h.callUUID ≠ other) : after.row (.active other) = db.row (.active other) := by
  cases billed with
  | noCDR _ hsame _ _ _ | already _ _ _ _ hsame => rw [hsame]
  | settled _ _ ac _ mid _ _ _ _ _ _ _ _ _ hcosts hsettled _ =>
    rw [CustomerSettled.active hsettled (CostLines.row_of_ne hcosts (by simp)),
      if_neg (fun hsame => hother hsame.1.symm)]

theorem record_billed_other (billed : Billed seen now h db after out) {other : UUID}
    (hother : h.callUUID ≠ other) : after.row (.cdr other) = db.row (.cdr other) := by
  rcases record_billed billed other with hsame | ⟨-, -, hcall⟩
  · exact hsame
  · exact absurd hcall hother

/-- A bill alone closes the reservation of a call that was not billed. -/
theorem active_billed_self (billed : Billed (fun d => d = db) now h db after out)
    (hunbilled : AwaitsBill db h.callUUID) : after.row (.active h.callUUID) = none := by
  obtain ⟨cdr, hcdr, hpending⟩ := hunbilled
  cases billed with
  | noCDR _ _ d hseen hmissing =>
    rw [hseen, hcdr] at hmissing
    cases hmissing
  | already other hother hbilled _ _ =>
    obtain rfl : cdr = other := Option.some.inj (hcdr.symm.trans hother)
    simp [hpending] at hbilled
  | settled _ _ ac _ mid _ _ _ hmissed _ _ _ _ _ hcosts hsettled _ =>
    rw [CustomerSettled.active hsettled (CostLines.row_of_ne hcosts (by simp))]
    cases ac with
    | none =>
      obtain ⟨d, rfl, hnone⟩ := hmissed rfl
      simpa using hnone
    | some a => simp

theorem billed_of_run (hrun : (bill e now h).run db = .ok (out, after)) :
    Billed (fun d => d = db) now h db after out := by
  obtain ⟨q, rfl, billed⟩ := Transaction.run_of_wp (wp_bill (fun _ _ billed => billed)) hrun
  exact billed

end Bill

section Loop

variable {clock : UUID → Time} {hangups : List HangupInfo}

theorem billEach_count_le (e : Engine) (clock : UUID → Time) (hangups : List HangupInfo) (db : DB) :
    (billEach e clock hangups db).2 ≤ hangups.length := by
  induction hangups generalizing db with
  | nil => exact le_refl 0
  | cons h rest ih =>
    unfold billEach
    split
    · rename_i mid _
      exact Nat.succ_le_succ (ih mid)
    · exact Nat.le_succ_of_le (ih db)

theorem billEach_cons {h : HangupInfo}
    (hall : billEach e clock (h :: hangups) db = (after, (h :: hangups).length)) :
    ∃ out mid, (bill e (clock h.callUUID) h).run db = .ok (out, mid) ∧
      billEach e clock hangups mid = (after, hangups.length) := by
  unfold billEach at hall
  split at hall
  · rename_i out mid hrun
    obtain ⟨hafter, hcount⟩ := Prod.mk.inj hall
    exact ⟨out, mid, hrun, Prod.ext hafter (Nat.succ.inj hcount)⟩
  · have hcount := billEach_count_le e clock hangups db
    rw [hall, List.length_cons] at hcount
    exact absurd hcount (Nat.not_succ_le_self _)

/-- The reservations and records of other calls are left alone. -/
theorem rows_billEach (hall : billEach e clock hangups db = (after, hangups.length)) {call : UUID}
    (hcall : ∀ h ∈ hangups, h.callUUID ≠ call) :
    after.row (.active call) = db.row (.active call) ∧
      after.row (.cdr call) = db.row (.cdr call) := by
  induction hangups generalizing db with
  | nil =>
    obtain ⟨rfl, -⟩ := Prod.mk.inj hall
    exact ⟨rfl, rfl⟩
  | cons h rest ih =>
    obtain ⟨out, mid, hrun, hrest⟩ := billEach_cons hall
    have billed := billed_of_run hrun
    have hother := hcall h (List.mem_cons_self ..)
    obtain ⟨hactive, hrecord⟩ := ih hrest (fun g hg => hcall g (List.mem_cons_of_mem h hg))
    exact ⟨hactive.trans (active_billed_other billed hother),
      hrecord.trans (record_billed_other billed hother)⟩

theorem active_billEach (hall : billEach e clock hangups db = (after, hangups.length))
    (call : UUID) :
    after.row (.active call) = db.row (.active call) ∨ after.row (.active call) = none := by
  induction hangups generalizing db with
  | nil =>
    obtain ⟨rfl, -⟩ := Prod.mk.inj hall
    exact .inl rfl
  | cons h rest ih =>
    obtain ⟨out, mid, hrun, hrest⟩ := billEach_cons hall
    rcases ih hrest with hsame | hnone
    · rw [hsame]
      exact active_billed (billed_of_run hrun) call
    · exact .inr hnone

/-- The loop closes the reservation of every unbilled call it bills. -/
theorem closed_billEach (hall : billEach e clock hangups db = (after, hangups.length))
    {h : HangupInfo} (hmem : h ∈ hangups) (hunbilled : AwaitsBill db h.callUUID) :
    after.row (.active h.callUUID) = none := by
  induction hangups generalizing db with
  | nil => simp at hmem
  | cons g rest ih =>
    obtain ⟨out, mid, hrun, hrest⟩ := billEach_cons hall
    have billed := billed_of_run hrun
    by_cases hsame : g.callUUID = h.callUUID
    · have hclosed := active_billed_self billed (hsame ▸ hunbilled)
      rw [hsame] at hclosed
      rcases active_billEach hrest h.callUUID with hkept | hnone
      · exact hkept.trans hclosed
      · exact hnone
    · have hrecord := record_billed_other billed hsame
      have hlater : h ∈ rest := by
        rcases List.mem_cons.mp hmem with rfl | hlater
        · exact absurd rfl hsame
        · exact hlater
      obtain ⟨cdr, hcdr, hpending⟩ := hunbilled
      exact ih hrest hlater ⟨cdr, hrecord.trans hcdr, hpending⟩

end Loop

section Passes

variable {live : List UUID} {now first : Time} {times : List Time} {billed : List HangupInfo}

variable {c : UUID × ActiveCall}

/-- What a pass with FreeSWITCH connected did: it listed a batch of stale
reservations, billed those without a channel and closed the unbilled ones. -/
structure PassDone (e : Engine) (orphanTimeout : ℤ) (live : List UUID) (now : Time)
    (billed : List HangupInfo) (batch : List (UUID × ActiveCall)) (db after : DB) : Prop where
  listed : Batch (fun c : UUID × ActiveCall => c.2.startedAt)
    (fun c => c ∈ openCalls db ∧ isStale e.nodeName orphanTimeout now c.2) 500 batch
  dead : ∀ h ∈ billed, h.callUUID ∉ live
  kept : ∀ call, (call ∈ live ∨ ∀ c ∈ batch, c.1 ≠ call) →
    after.row (.active call) = db.row (.active call) ∧ after.row (.cdr call) = db.row (.cdr call)
  shrinks : ∀ call,
    after.row (.active call) = db.row (.active call) ∨ after.row (.active call) = none
  closed : ∀ c ∈ batch, c.1 ∉ live → AwaitsBill db c.1 → after.row (.active c.1) = none
  idle : (∀ c ∈ batch, c.1 ∈ live) → billed = [] ∧ after = db

theorem mem_once {now : Time} {h : HangupInfo} :
    h ∈ once now [c] (some live) ↔ c.1 ∉ live ∧ h = orphanHangup now c.1 := by
  by_cases hlive : c.1 ∈ live <;> simp [once, hlive]

theorem pass_spec (hpass : ReconcilePass e orphanTimeout (some live) now billed db after) :
    ∃ batch, PassDone e orphanTimeout live now billed batch db after := by
  obtain ⟨batch, ended, clock, hlisted, rfl, hall⟩ := hpass
  have hmem : ∀ h, h ∈ batch.flatMap (fun c => once (ended c.1) [c] (some live)) ↔
      ∃ c ∈ batch, c.1 ∉ live ∧ h = orphanHangup (ended c.1) c.1 := by
    intro h
    simp only [List.mem_flatMap, mem_once]
  refine ⟨batch, hlisted, ?_, ?_, active_billEach hall, ?_, ?_⟩
  · intro h hh
    obtain ⟨c, -, hdead, rfl⟩ := (hmem h).mp hh
    exact hdead
  · intro call hcall
    refine rows_billEach hall (fun h hh hsame => ?_)
    obtain ⟨c, hc, hdead, rfl⟩ := (hmem h).mp hh
    obtain rfl : c.1 = call := hsame
    rcases hcall with hlive | hout
    · exact hdead hlive
    · exact hout c hc rfl
  · intro c hc hdead hunbilled
    exact closed_billEach hall ((hmem _).mpr ⟨c, hc, hdead, rfl⟩) hunbilled
  · intro hlive
    have hnone : batch.flatMap (fun c => once (ended c.1) [c] (some live)) = [] := by
      refine List.eq_nil_iff_forall_not_mem.mpr (fun h hh => ?_)
      obtain ⟨c, hc, hdead, -⟩ := (hmem h).mp hh
      exact hdead (hlive c hc)
    rw [hnone] at hall
    exact ⟨hnone, (congrArg Prod.fst hall).symm⟩

theorem mem_staleCalls {node : String} :
    c ∈ staleCalls node orphanTimeout now db ↔
      c ∈ openCalls db ∧ isStale node orphanTimeout now c.2 = true :=
  Finset.mem_filter

/-- What was stale earlier sorts before what became stale since. -/
theorem sortsFirst_staleCalls (node : String) (hfirst : first ≤ now) :
    SortsFirst (fun c : UUID × ActiveCall => c.2.startedAt)
      (fun c => c ∈ openCalls db ∧ isStale node orphanTimeout now c.2)
      (staleCalls node orphanTimeout first db) := by
  have hlate : ∀ c : ActiveCall, isStale node orphanTimeout first c →
      isStale node orphanTimeout now c := by
    intro c hc
    simp only [isStale, Bool.and_eq_true, decide_eq_true_eq] at hc ⊢
    exact ⟨hc.1, lt_of_lt_of_le hc.2 hfirst⟩
  constructor
  · intro c hc
    obtain ⟨hopen, hstale⟩ := mem_staleCalls.mp hc
    exact ⟨hopen, hlate c.2 hstale⟩
  · intro c hc other hother hout
    obtain ⟨-, hstale⟩ := mem_staleCalls.mp hc
    have hfresh : ¬ isStale node orphanTimeout first other.2 = true :=
      fun hold => hout (mem_staleCalls.mpr ⟨hother.1, hold⟩)
    have hlisted := hother.2
    simp only [isStale, Bool.and_eq_true, decide_eq_true_eq] at hstale hfresh hlisted
    have hyoung : ¬ other.2.startedAt + orphanTimeout < first := fun h => hfresh ⟨hlisted.1, h⟩
    exact lt_of_add_lt_add_right (lt_of_lt_of_le hstale.2 (not_lt.mp hyoung))

/-- Every call with a stale reservation and no channel can still be billed. -/
def Billable (node : String) (orphanTimeout : ℤ) (live : List UUID) (first : Time) (db : DB) :
    Prop :=
  ∀ c ∈ staleCalls node orphanTimeout first db, c.1 ∉ live → AwaitsBill db c.1

variable {batch : List (UUID × ActiveCall)}

/-- One call has one reservation, so that of a call that is not listed is left
alone, and so is the call's record. -/
theorem PassDone.kept_unlisted (done : PassDone e orphanTimeout live now billed batch db after)
    (hopen : c ∈ openCalls db) (hout : c ∉ batch) :
    after.row (.active c.1) = db.row (.active c.1) ∧
      after.row (.cdr c.1) = db.row (.cdr c.1) := by
  refine done.kept c.1 (.inr (fun other hother hsame => hout ?_))
  have hrow := mem_openCalls.mp (done.listed.mem other hother).1
  rw [hsame, mem_openCalls.mp hopen] at hrow
  rwa [← Prod.ext hsame (Option.some.inj hrow).symm]

/-- A pass takes the listed reservations without a channel off those that were
stale at an earlier time. -/
theorem staleCalls_pass (done : PassDone e orphanTimeout live now billed batch db after)
    (hbillable : Billable e.nodeName orphanTimeout live first db) :
    staleCalls e.nodeName orphanTimeout first after =
      leftOver (fun c => c.1 ∈ live) batch (staleCalls e.nodeName orphanTimeout first db) := by
  ext c
  rw [mem_leftOver, mem_staleCalls, mem_staleCalls, mem_openCalls, mem_openCalls]
  constructor
  · rintro ⟨hopen, hstale⟩
    have hbefore : db.row (.active c.1) = some c.2 := by
      rcases done.shrinks c.1 with hsame | hnone
      · exact hsame.symm.trans hopen
      · exact absurd (hnone.symm.trans hopen) (by simp)
    refine ⟨⟨hbefore, hstale⟩, ?_⟩
    by_contra hdead
    obtain ⟨hdead, hlisted⟩ := not_or.mp hdead
    have hunbilled := hbillable c (mem_staleCalls.mpr ⟨mem_openCalls.mpr hbefore, hstale⟩) hdead
    have hclosed := done.closed c (not_not.mp hlisted) hdead hunbilled
    exact absurd (hclosed.symm.trans hopen) (by simp)
  · rintro ⟨⟨hopen, hstale⟩, hleft⟩
    refine ⟨?_, hstale⟩
    rcases hleft with hlive | hout
    · rw [(done.kept c.1 (.inl hlive)).1, hopen]
    · rw [(done.kept_unlisted (mem_openCalls.mpr hopen) hout).1, hopen]

theorem billable_pass (done : PassDone e orphanTimeout live now billed batch db after)
    (hbillable : Billable e.nodeName orphanTimeout live first db) :
    Billable e.nodeName orphanTimeout live first after := by
  intro c hc hdead
  rw [staleCalls_pass done hbillable] at hc
  obtain ⟨hstale, hleft⟩ := mem_leftOver.mp hc
  obtain ⟨cdr, hcdr, hpending⟩ := hbillable c hstale hdead
  have hkept := done.kept_unlisted (mem_staleCalls.mp hstale).1 (hleft.resolve_left hdead)
  exact ⟨cdr, hkept.2.trans hcdr, hpending⟩

/-- No pass bills a live call, and none touches its reservation or record. -/
theorem passes_dead (hpasses : Passes e orphanTimeout (some live) times billed db final) :
    (∀ h ∈ billed, h.callUUID ∉ live) ∧ ∀ call ∈ live,
      final.row (.active call) = db.row (.active call) ∧
        final.row (.cdr call) = db.row (.cdr call) := by
  induction hpasses with
  | done db => exact ⟨by simp, fun _ _ => ⟨rfl, rfl⟩⟩
  | pass hpass _ ih =>
    obtain ⟨batch, done⟩ := pass_spec hpass
    obtain ⟨hdead, hkept⟩ := ih
    refine ⟨fun h hh => ?_, fun call hcall => ?_⟩
    · rcases List.mem_append.mp hh with hnow | hlater
      · exact done.dead h hnow
      · exact hdead h hlater
    · obtain ⟨hactive, hrecord⟩ := done.kept call (.inl hcall)
      exact ⟨(hkept call hcall).1.trans hactive, (hkept call hcall).2.trans hrecord⟩

/-- Passes work off the reservations that were stale when they began. -/
theorem drains_passes (hpasses : Passes e orphanTimeout (some live) times billed db final)
    (htimes : ∀ now ∈ times, first ≤ now)
    (hbillable : Billable e.nodeName orphanTimeout live first db) :
    Drains (fun c : UUID × ActiveCall => c.2.startedAt) 500 (fun c => c.1 ∈ live) times.length
      (staleCalls e.nodeName orphanTimeout first db)
      (staleCalls e.nodeName orphanTimeout first final) := by
  induction hpasses with
  | done db => exact .done _
  | @pass now times billed later db mid after hpass _ ih =>
    obtain ⟨batch, done⟩ := pass_spec hpass
    have hrest := ih (fun t ht => htimes t (List.mem_cons_of_mem now ht))
      (billable_pass done hbillable)
    rw [staleCalls_pass done hbillable] at hrest
    exact .batch done.listed
      (sortsFirst_staleCalls e.nodeName (htimes now (List.mem_cons_self ..))) hrest

/-- The reconciler never bills a live call. After one pass for each 500
reservations that were stale when it began, and one more, those without a
channel are gone, when their number is within what the live ones leave room for
in the lists of these passes. -/
theorem passes_release_orphans
    (hpasses : Passes e orphanTimeout (some live) times billed db final) :
    (∀ h ∈ billed, h.callUUID ∉ live) ∧
      ∀ first, (∀ now ∈ times, first ≤ now) →
        (staleCalls e.nodeName orphanTimeout first db).card / 500 + 1 ≤ times.length →
        Billable e.nodeName orphanTimeout live first db →
        ((staleCalls e.nodeName orphanTimeout first db).filter (fun c => c.1 ∉ live)).card ≤
          ((staleCalls e.nodeName orphanTimeout first db).card / 500 + 1) *
            (500 - ((staleCalls e.nodeName orphanTimeout first db).filter
              (fun c => c.1 ∈ live)).card) →
        ∀ c ∈ openCalls final, isStale e.nodeName orphanTimeout first c.2 → c.1 ∈ live := by
  refine ⟨(passes_dead hpasses).1, ?_⟩
  intro first htimes hlength hbillable hroom c hopen hstale
  have hleft := (drains_passes hpasses htimes hbillable).remaining_le
  have hworked := Nat.mul_le_mul_right
    (500 - ((staleCalls e.nodeName orphanTimeout first db).filter (fun c => c.1 ∈ live)).card)
    hlength
  have hnone : ((staleCalls e.nodeName orphanTimeout first final).filter
      (fun c => ¬ c.1 ∈ live)).card = 0 := by
    omega
  by_contra hdead
  have hmem : c ∈ (staleCalls e.nodeName orphanTimeout first final).filter
      (fun c => ¬ c.1 ∈ live) :=
    Finset.mem_filter.mpr ⟨mem_staleCalls.mpr ⟨hopen, hstale⟩, hdead⟩
  rw [Finset.card_eq_zero.mp hnone] at hmem
  exact Finset.notMem_empty c hmem

/-- A whole list of live calls in front of all other stale reservations stops
the reconciler. -/
theorem passes_idle {front : Finset (UUID × ActiveCall)}
    (hpasses : Passes e orphanTimeout (some live) times billed db final)
    (hfront : ∀ now ∈ times, SortsFirst (fun c : UUID × ActiveCall => c.2.startedAt)
      (fun c => c ∈ openCalls db ∧ isStale e.nodeName orphanTimeout now c.2) front)
    (hfull : 500 ≤ front.card) (hlive : ∀ c ∈ front, c.1 ∈ live) : billed = [] ∧ final = db := by
  induction hpasses with
  | done db => exact ⟨rfl, rfl⟩
  | @pass now times billed later db mid after hpass _ ih =>
    obtain ⟨batch, done⟩ := pass_spec hpass
    have hnow := hfront now (List.mem_cons_self ..)
    obtain ⟨rfl, rfl⟩ := done.idle
      (fun c hc => hlive c (done.listed.mem_front hnow hfull hc))
    exact ih (fun t ht => hfront t (List.mem_cons_of_mem now ht))

end Passes

def sampleAbandoned : DB :=
  ((sampleCarriers.set (.cdr 42) (some {})).set (.active 42) (some sampleReservation)).set
    (.active 43) (some { sampleReservation with startedAt := 1 })

theorem passes_sampleAbandoned :
    ∃ billed final, Passes sampleEngine 60000000000 (some [43]) [90000000000] billed
        sampleAbandoned final ∧ billed.map (·.callUUID) = [42] ∧
      ∀ c ∈ openCalls final, isStale "sbc-1" 60000000000 90000000000 c.2 → c.1 ∈ [43] := by
  have hcandidates : Candidates "sbc-1" 60000000000 (some [43]) 90000000000 sampleAbandoned
      [(42, sampleReservation), (43, { sampleReservation with startedAt := 1 })] := by
    have hlisted : ∀ c ∈ openCalls sampleAbandoned,
        c ∈ [(42, sampleReservation), (43, { sampleReservation with startedAt := 1 })] := by
      decide +kernel
    exact ⟨by decide, by decide +kernel, by decide, by decide,
      fun c hc hout => absurd (hlisted c hc.1) hout⟩
  have hcount : (billEach sampleEngine (fun _ => 90000000000)
      [orphanHangup 90000000000 42] sampleAbandoned).2 = 1 := by
    decide +kernel
  have hpass : ReconcilePass sampleEngine 60000000000 (some [43]) 90000000000
      [orphanHangup 90000000000 42] sampleAbandoned _ :=
    ⟨_, fun _ => 90000000000, fun _ => 90000000000, hcandidates, rfl, Prod.ext rfl hcount⟩
  have hpasses := Passes.pass hpass (.done _)
  refine ⟨_, _, hpasses, rfl, ?_⟩
  have hbillable : Billable "sbc-1" 60000000000 [43] 90000000000 sampleAbandoned := by
    intro c hc hdead
    have hcall : ∀ c ∈ staleCalls "sbc-1" 60000000000 90000000000 sampleAbandoned,
        c.1 ∉ [43] → c.1 = 42 := by
      decide +kernel
    rw [hcall c hc hdead]
    exact ⟨{}, rfl, rfl⟩
  exact (passes_release_orphans hpasses).2 90000000000 (by simp) (by decide +kernel) hbillable
    (by decide +kernel)

def sampleHeld (n : ℕ) : UUID × ActiveCall :=
  (BitVec.ofNat 128 n, { sampleReservation with startedAt := n })

theorem sampleHeld_toNat (callUUID : UUID) : (sampleHeld callUUID.toNat).1 = callUUID := by
  simp [sampleHeld]

theorem toNat_sampleHeld {n : ℕ} (hn : n ≤ 500) : (sampleHeld n).1.toNat = n := by
  rw [sampleHeld, BitVec.toNat_ofNat, Nat.mod_eq_of_lt (by omega)]

/-- Five hundred live calls and, started after them, an orphaned one. Too large
to be unfolded by accident. -/
@[irreducible]
def sampleCrowd : DB where
  row
    | .active callUUID =>
      if callUUID.toNat ≤ 500 then some (sampleHeld callUUID.toNat).2 else none
    | .cdr callUUID => if callUUID = 500 then some {} else none
    | _ => none
  keys := insert (.cdr 500) ((Finset.range 501).image (fun n => .active (sampleHeld n).1))
  mem_keys := by
    intro key
    cases key with
    | active callUUID =>
      simp only [Finset.mem_insert, reduceCtorEq, false_or, Finset.mem_image, Finset.mem_range,
        Key.active.injEq]
      constructor
      · rintro ⟨n, hn, rfl⟩
        have hsmall : n ≤ 500 := by omega
        simp [toNat_sampleHeld hsmall, hsmall]
      · intro hsome
        have hsmall : callUUID.toNat ≤ 500 := by
          by_contra hlarge
          simp [hlarge] at hsome
        exact ⟨callUUID.toNat, by omega, sampleHeld_toNat callUUID⟩
    | cdr callUUID =>
      by_cases hcall : callUUID = 500 <;> simp [hcall]
    | _ => simp
  log := []

def sampleLive : List UUID := (List.range 500).map (fun n => (sampleHeld n).1)

theorem mem_sampleCrowd {c : UUID × ActiveCall} :
    c ∈ openCalls sampleCrowd ↔ ∃ n ≤ 500, c = sampleHeld n := by
  rw [mem_openCalls]
  constructor
  · intro hrow
    have hsmall : c.1.toNat ≤ 500 := by
      by_contra hlarge
      simp [sampleCrowd, hlarge] at hrow
    refine ⟨c.1.toNat, hsmall, Prod.ext (sampleHeld_toNat c.1).symm ?_⟩
    simpa [sampleCrowd, hsmall] using hrow.symm
  · rintro ⟨n, hn, rfl⟩
    simp [sampleCrowd, toNat_sampleHeld hn, hn]

theorem isStale_sampleHeld {n : ℕ} {now : Time} (hn : n ≤ 500) (hnow : 60000000501 ≤ now) :
    isStale "sbc-1" 60000000000 now (sampleHeld n).2 = true := by
  have hstarted : (n : ℤ) + 60000000000 < now := lt_of_lt_of_le (by omega) hnow
  rw [isStale, Bool.and_eq_true]
  exact ⟨rfl, decide_eq_true hstarted⟩

theorem sampleHeld_injective {n m : ℕ} (h : sampleHeld n = sampleHeld m) : n = m := by
  have hstarted := congrArg (fun c => c.2.startedAt) h
  exact Int.ofNat.inj hstarted

theorem sortsFirst_sampleCrowd {now : Time} (hnow : 60000000501 ≤ now) :
    SortsFirst (fun c : UUID × ActiveCall => c.2.startedAt)
      (fun c => c ∈ openCalls sampleCrowd ∧ isStale "sbc-1" 60000000000 now c.2)
      ((Finset.range 500).image sampleHeld) := by
  constructor
  · intro c hc
    obtain ⟨n, hn, rfl⟩ := Finset.mem_image.mp hc
    have hsmall : n ≤ 500 := (Finset.mem_range.mp hn).le
    exact ⟨mem_sampleCrowd.mpr ⟨n, hsmall, rfl⟩, isStale_sampleHeld hsmall hnow⟩
  · intro c hc other hother hout
    obtain ⟨n, hn, rfl⟩ := Finset.mem_image.mp hc
    obtain ⟨m, hm, rfl⟩ := mem_sampleCrowd.mp hother.1
    have hlast : ¬ m < 500 := fun hlt =>
      hout (Finset.mem_image.mpr ⟨m, Finset.mem_range.mpr hlt, rfl⟩)
    have hn := Finset.mem_range.mp hn
    exact Int.ofNat_lt.mpr (by omega)

theorem candidates_sampleCrowd {now : Time} (hnow : 60000000501 ≤ now) :
    Candidates "sbc-1" 60000000000 (some sampleLive) now sampleCrowd
      ((List.range 500).map sampleHeld) := by
  have hfirst := sortsFirst_sampleCrowd hnow
  refine ⟨?_, ?_, ?_, by simp, ?_⟩
  · exact List.nodup_range.map (fun n m h => sampleHeld_injective h)
  · intro c hc
    obtain ⟨n, hn, rfl⟩ := List.mem_map.mp hc
    exact hfirst.mem _ (Finset.mem_image.mpr
      ⟨n, Finset.mem_range.mpr (List.mem_range.mp hn), rfl⟩)
  · rw [List.pairwise_map]
    exact List.pairwise_lt_range.imp (fun h => Int.ofNat_le.mpr h.le)
  · intro c hc hout
    refine ⟨by simp, fun b hb => ?_⟩
    obtain ⟨n, hn, rfl⟩ := List.mem_map.mp hb
    obtain ⟨m, hm, rfl⟩ := mem_sampleCrowd.mp hc.1
    have hlast : ¬ m < 500 := fun hlt => hout (List.mem_map_of_mem (List.mem_range.mpr hlt))
    have hn := List.mem_range.mp hn
    exact Int.ofNat_le.mpr (by omega)

/-- However many passes are made over the crowd, none bills anything, and the
orphaned reservation of an unbilled call stays. -/
theorem live_calls_hold_up_orphan :
    sampleHeld 500 ∈ openCalls sampleCrowd ∧ (sampleHeld 500).1 ∉ sampleLive ∧
      isStale "sbc-1" 60000000000 60000000501 (sampleHeld 500).2 = true ∧
      AwaitsBill sampleCrowd (sampleHeld 500).1 ∧
      ∀ times : List Time, (∀ now ∈ times, 60000000501 ≤ now) →
        Passes sampleEngine 60000000000 (some sampleLive) times [] sampleCrowd sampleCrowd ∧
        ∀ billed final, Passes sampleEngine 60000000000 (some sampleLive) times billed
          sampleCrowd final → billed = [] ∧ final = sampleCrowd := by
  refine ⟨mem_sampleCrowd.mpr ⟨500, le_refl 500, rfl⟩, ?_, isStale_sampleHeld (le_refl 500) le_rfl,
    ⟨{}, by simp [sampleCrowd, sampleHeld], rfl⟩,
    fun times htimes => ⟨?_, fun billed final hpasses => ?_⟩⟩
  · intro hlive
    obtain ⟨n, hn, hsame⟩ := List.mem_map.mp hlive
    have hn := List.mem_range.mp hn
    have hnumber := congrArg BitVec.toNat hsame
    rw [toNat_sampleHeld hn.le, toNat_sampleHeld (le_refl 500)] at hnumber
    omega
  · induction times with
    | nil => exact .done _
    | cons now rest ih =>
      have hnone : ((List.range 500).map sampleHeld).flatMap
          (fun c => once now [c] (some sampleLive)) = [] := by
        refine List.eq_nil_iff_forall_not_mem.mpr (fun h hh => ?_)
        obtain ⟨c, hc, hh⟩ := List.mem_flatMap.mp hh
        obtain ⟨n, hn, rfl⟩ := List.mem_map.mp hc
        exact (mem_once.mp hh).1 (List.mem_map_of_mem hn)
      have hpass : ReconcilePass sampleEngine 60000000000 (some sampleLive) now [] sampleCrowd
          sampleCrowd :=
        ⟨_, fun _ => now, fun _ => now,
          candidates_sampleCrowd (htimes now (List.mem_cons_self ..)), hnone.symm, rfl⟩
      exact .pass hpass (ih (fun t ht => htimes t (List.mem_cons_of_mem now ht)))
  · refine passes_idle hpasses (fun now hnow => sortsFirst_sampleCrowd (htimes now hnow)) ?_ ?_
    · rw [Finset.card_image_of_injective _ (fun n m h => sampleHeld_injective h),
        Finset.card_range]
    · intro c hc
      obtain ⟨n, hn, rfl⟩ := Finset.mem_image.mp hc
      exact List.mem_map_of_mem (List.mem_range.mpr (Finset.mem_range.mp hn))

end SuperSbc.Ledger
