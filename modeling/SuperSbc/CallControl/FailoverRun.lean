import SuperSbc.CallControl.Dialling

/-!
What the script does to the outside in one call: the requests and bridges of
its loop, then the response to the customer. The carriers that should be dialled
are read off the list alone, with what is around each entry, and the run of the
loop is compared with that.
-/

namespace SuperSbc.CallControl

open Billing

inductive ScriptAction where
  | beginAttempt (seq : ℤ) (carrierId : UUID)
  | bridge (seq : ℤ) (choice : DialChoice)
  | report (req : AttemptRequest)
  | respond (r : Reject)
  | requestTerminated

/-- Whether the customer's leg is up when the loop is over, and again when the
response is sent. -/
structure Ending where
  ready : Bool
  readyToRespond : Bool

def Tried.verdict (rules : Rules) (callUUID : UUID) (t : Tried) : Option AttemptResponse :=
  t.world.verdict t.choice rules callUUID t.seq

/-- One pass: the carrier is asked for, dialled unless it is refused or the
script stops, and the attempt is reported. -/
def Tried.actions (callUUID : UUID) (t : Tried) : List ScriptAction :=
  .beginAttempt t.seq t.choice.carrierId ::
    if t.dialled then
      [.bridge t.seq t.choice, .report (t.world.request t.choice callUUID t.seq)]
    else []

/-- The end of the script: nothing after an answer, otherwise a response if
there is someone to send it to. `sbc_inbound.lua` catches the error. -/
def DialRun.conclude (e : Ending) (run : DialRun) : List ScriptAction :=
  if run.raised then
    if e.ready then [.respond internalError] else []
  else if run.answered.isSome then []
  else if e.ready then
    if e.readyToRespond then [.respond run.relay] else []
  else [.requestTerminated]

def DialRun.actions (callUUID : UUID) (e : Ending) (run : DialRun) : List ScriptAction :=
  run.tried.flatMap (Tried.actions callUUID) ++ run.conclude e

def ScriptAction.bridge? : ScriptAction → Option (ℤ × DialChoice)
  | .bridge seq choice => some (seq, choice)
  | _ => none

def ScriptAction.report? : ScriptAction → Option AttemptRequest
  | .report req => some req
  | _ => none

def ScriptAction.response? : ScriptAction → Option Reject
  | .respond r => some r
  | _ => none

/-- The dial list with the sequence numbers Lua counts. -/
def numbered : ℤ → List (DialChoice × World) → List Tried
  | _, [] => []
  | seq, (c, w) :: rest => ⟨seq, c, w⟩ :: numbered (seq + 1) rest

/-- An attempt after which nobody else is dialled. -/
def Tried.Final (rules : Rules) (callUUID : UUID) (t : Tried) : Prop :=
  t.world.bridge.answered = true ∨ t.world.bridge.alegGone = true ∨
    t.verdict rules callUUID = none ∨
    ∃ v, t.verdict rules callUUID = some v ∧ v.classification ≠ .carrierFault

/-- The next entry is to be tried. -/
def Tried.Passed (rules : Rules) (callUUID : UUID) (t : Tried) : Prop :=
  t.world.ready = true ∧ (t.allowed = false ∨ ¬ t.Final rules callUUID)

/-- The loop goes on to the next entry. -/
def Tried.GoesOn (rules : Rules) (callUUID : UUID) (t : Tried) : Prop :=
  t.Passed rules callUUID ∧ (t.allowed = true → ¬ t.Breaks)

/-- What the customer is told after the attempts that were made. -/
def finalResponse (rules : Rules) (callUUID : UUID) (first : Reject) (dialled : List Tried) :
    Reject :=
  match dialled.getLast? with
  | none => first
  | some t => ((t.verdict rules callUUID).map (·.relay)).getD internalError

section Loop

variable {rules : Rules} {callUUID : UUID} {t : Tried} {seq : ℤ} {vars : Variables}
  {relay : Reject} {entries : List (DialChoice × World)}

/-- A verdict says to go on exactly when it blames the carrier. -/
theorem Tried.continues_iff {v : AttemptResponse} (h : t.verdict rules callUUID = some v) :
    v.continues = true ↔ v.classification = .carrierFault := by
  unfold Tried.verdict World.verdict World.reported recordAttempt at h
  split_ifs at h
  · obtain rfl := Option.some.inj h
    exact beq_iff_eq
  · obtain rfl := Option.some.inj h
    exact beq_iff_eq

/-- What the loop does with an entry: it stops in front of it, stops behind it,
or goes past it. -/
inductive Step (rules : Rules) (callUUID : UUID) (relay : Reject) (t : Tried)
    (rest : List (DialChoice × World)) (run : DialRun) : Prop where
  | gone (hready : t.world.ready = false) (htried : run.tried = [])
      (hanswered : run.answered = none) (hraised : run.raised = false) (hrelay : run.relay = relay)
  | broken (hready : t.world.ready = true) (hallowed : t.allowed = true) (hbreaks : t.Breaks)
      (htried : run.tried = [t])
  | stopped (hready : t.world.ready = true) (hdialled : t.dialled = true)
      (hfinal : t.Final rules callUUID) (htried : run.tried = [t])
      (hanswered : run.answered.isSome = t.world.bridge.answered) (hraised : run.raised = false)
      (hrelay : t.world.bridge.answered = false → t.world.bridge.alegGone = false →
        run.relay = ((t.verdict rules callUUID).map (·.relay)).getD internalError)
  | skipped (vars : Variables) (hready : t.world.ready = true) (hallowed : t.allowed = false)
      (hrun : run = (dialLoop rules callUUID (t.seq + 1) vars relay rest).after t)
  | failed (vars : Variables) (v : AttemptResponse) (hready : t.world.ready = true)
      (hdialled : t.dialled = true) (hfinal : ¬ t.Final rules callUUID)
      (hanswered : t.world.bridge.answered = false) (hverdict : t.verdict rules callUUID = some v)
      (hrun : run = (dialLoop rules callUUID (t.seq + 1) vars v.relay rest).after t)

theorem dialLoop_step (rules : Rules) (callUUID : UUID) (seq : ℤ) (vars : Variables)
    (relay : Reject) (c : DialChoice) (w : World) (rest : List (DialChoice × World)) :
    Step rules callUUID relay ⟨seq, c, w⟩ rest
      (dialLoop rules callUUID seq vars relay ((c, w) :: rest)) := by
  rw [dialLoop]
  cases hready : w.ready with
  | false => exact .gone hready rfl rfl rfl rfl
  | true =>
    rw [if_pos rfl]
    cases hskips : w.skips c with
    | true => exact .skipped vars hready (by simp [Tried.allowed, hskips]) rfl
    | false =>
      have hallowed : (⟨seq, c, w⟩ : Tried).allowed = true := by simp [Tried.allowed, hskips]
      simp only [Bool.false_eq_true, if_false]
      cases hdial : w.dialString c with
      | none =>
      exact .broken hready hallowed ((Tried.dialString_eq_none_iff ⟨seq, c, w⟩).mp hdial) rfl
      | some out =>
        have hdialled : (⟨seq, c, w⟩ : Tried).dialled = true := by
          simp [Tried.dialled, hallowed, hdial]
        dsimp only
        cases hanswered : w.bridge.answered with
        | true =>
          refine .stopped hready hdialled (.inl hanswered) rfl hanswered.symm rfl ?_
          intro hno
          rw [hanswered] at hno
          cases hno
        | false =>
          simp only [Bool.false_eq_true, if_false]
          cases hgone : w.bridge.alegGone with
          | true =>
            refine .stopped hready hdialled (.inr (.inl hgone)) rfl hanswered.symm rfl ?_
            intro _ hno
            rw [hgone] at hno
            cases hno
          | false =>
            simp only [Bool.false_eq_true, if_false]
            cases hverdict : w.verdict c rules callUUID seq with
            | none =>
              refine .stopped hready hdialled (.inr (.inr (.inl hverdict))) rfl
                hanswered.symm rfl (fun _ _ => ?_)
              have hv : Tried.verdict rules callUUID ⟨seq, c, w⟩ = none := hverdict
              rw [hv]
              rfl
            | some v =>
              have hcontinues := Tried.continues_iff (t := ⟨seq, c, w⟩) hverdict
              cases hgoes : v.continues with
              | true =>
                refine .failed
                  (setValue vars "sbc_carrier_id" (Text.uuidText c.carrierId)) v
                  hready hdialled ?_ hanswered hverdict ?_
                · rintro (hyes | hyes | hnone | ⟨v', hv', hclass⟩)
                  · exact absurd (hanswered.symm.trans hyes) (by decide)
                  · exact absurd (hgone.symm.trans hyes) (by decide)
                  · exact absurd (hverdict.symm.trans hnone) (by simp)
                  · obtain rfl : v = v' := Option.some.inj (hverdict.symm.trans hv')
                    exact hclass (hcontinues.mp hgoes)
                · simp [hgoes]
              | false =>
                refine .stopped hready hdialled (.inr (.inr (.inr ⟨v, hverdict, ?_⟩)))
                  ?_ ?_ ?_ (fun _ _ => ?_)
                · intro hclass
                  rw [hcontinues.mpr hclass] at hgoes
                  cases hgoes
                · simp [hgoes, DialRun.after]
                · simp [hgoes, DialRun.after, hanswered]
                · simp [hgoes, DialRun.after]
                · have hv : Tried.verdict rules callUUID ⟨seq, c, w⟩ = some v := hverdict
                  simp [hv, hgoes, DialRun.after]

theorem dialLoop_tried_begins (entries : List (DialChoice × World)) (seq : ℤ) (vars : Variables)
    (relay : Reject) :
    (dialLoop rules callUUID seq vars relay entries).tried <+: numbered seq entries := by
  induction entries generalizing seq vars relay with
  | nil => exact List.prefix_rfl
  | cons e rest ih =>
    obtain ⟨c, w⟩ := e
    cases dialLoop_step rules callUUID seq vars relay c w rest with
    | gone _ htried =>
      rw [htried]
      exact List.nil_prefix
    | broken _ _ _ htried | stopped _ _ _ htried =>
      rw [htried]
      exact ⟨numbered (seq + 1) rest, rfl⟩
    | skipped vars' _ _ hrun =>
      rw [hrun]
      exact (List.prefix_cons_inj _).mpr (ih (seq + 1) vars' relay)
    | failed vars' v _ _ _ _ _ hrun =>
      rw [hrun]
      exact (List.prefix_cons_inj _).mpr (ih (seq + 1) vars' v.relay)

theorem le_of_mem_numbered (ht : t ∈ numbered seq entries) : seq ≤ t.seq := by
  induction entries generalizing seq with
  | nil => cases ht
  | cons e rest ih =>
    rcases List.mem_cons.mp ht with rfl | ht
    · exact le_rfl
    · have hle := ih ht
      omega

theorem numbered_pairwise : (numbered seq entries).Pairwise (fun a b => a.seq < b.seq) := by
  induction entries generalizing seq with
  | nil => exact List.Pairwise.nil
  | cons e rest ih =>
    refine List.pairwise_cons.mpr ⟨fun t ht => ?_, ih⟩
    exact Int.lt_of_add_one_le (le_of_mem_numbered ht)

/-- The loop comes to an entry exactly when every entry before it lets it go
on. -/
theorem mem_dialLoop_tried (entries : List (DialChoice × World)) (seq : ℤ) (vars : Variables)
    (relay : Reject) {before after : List Tried} {t : Tried}
    (hsplit : numbered seq entries = before ++ t :: after) :
    t ∈ (dialLoop rules callUUID seq vars relay entries).tried ↔
      t.world.ready = true ∧ ∀ y ∈ before, y.GoesOn rules callUUID := by
  induction entries generalizing seq vars relay before with
  | nil => simp [numbered] at hsplit
  | cons e rest ih =>
    obtain ⟨c, w⟩ := e
    have hstep := dialLoop_step rules callUUID seq vars relay c w rest
    cases before with
    | nil =>
      obtain ⟨rfl, -⟩ := List.cons.inj hsplit
      cases hstep with
      | gone hready htried | broken hready _ _ htried | stopped hready _ _ htried =>
        simpa [htried] using hready
      | skipped _ hready _ hrun | failed _ _ hready _ _ _ _ hrun =>
        simpa [hrun, DialRun.after] using hready
    | cons first before =>
      obtain ⟨rfl, hrest⟩ := List.cons.inj hsplit
      have hlater : t ≠ ⟨seq, c, w⟩ := by
        rintro rfl
        have hmem : (⟨seq, c, w⟩ : Tried) ∈ numbered (seq + 1) rest := by
          rw [hrest]
          exact List.mem_append_right _ List.mem_cons_self
        have hle : seq + 1 ≤ seq := le_of_mem_numbered hmem
        omega
      rw [List.forall_mem_cons]
      cases hstep with
      | gone hready htried =>
        have hstops : ¬ Tried.GoesOn rules callUUID ⟨seq, c, w⟩ := by
          rintro ⟨⟨hup, -⟩, -⟩
          rw [hready] at hup
          cases hup
        simp [htried, hstops]
      | broken hready hallowed hbreaks htried =>
        have hstops : ¬ Tried.GoesOn rules callUUID ⟨seq, c, w⟩ := fun h => h.2 hallowed hbreaks
        simp [htried, hlater, hstops]
      | stopped hready hdialled hfinal htried =>
        have hstops : ¬ Tried.GoesOn rules callUUID ⟨seq, c, w⟩ := by
          rintro ⟨⟨-, hskipped | hnot⟩, -⟩
          · rw [((Tried.dialled_iff _).mp hdialled).1] at hskipped
            cases hskipped
          · exact hnot hfinal
        simp [htried, hlater, hstops]
      | skipped vars' hready hallowed hrun =>
        rw [hrun]
        have hpassed : Tried.GoesOn rules callUUID ⟨seq, c, w⟩ :=
          ⟨⟨hready, .inl hallowed⟩, fun h => by rw [hallowed] at h; cases h⟩
        simpa [DialRun.after, hlater, hpassed] using ih (seq + 1) vars' relay hrest
      | failed vars' v hready hdialled hfinal _ _ hrun =>
        rw [hrun]
        have hpassed : Tried.GoesOn rules callUUID ⟨seq, c, w⟩ :=
          ⟨⟨hready, .inr hfinal⟩, fun _ => ((Tried.dialled_iff _).mp hdialled).2⟩
        simpa [DialRun.after, hlater, hpassed] using ih (seq + 1) vars' v.relay hrest

theorem finalResponse_cons {v : AttemptResponse} {dialled : List Tried}
    (h : t.verdict rules callUUID = some v) :
    finalResponse rules callUUID relay (t :: dialled) =
      finalResponse rules callUUID v.relay dialled := by
  unfold finalResponse
  rw [List.getLast?_cons]
  cases dialled.getLast? with
  | none => simp [h]
  | some last => rfl

/-- Without an answer or an error, and with the customer still there, the response
kept for the customer is that of the last attempt. -/
theorem dialLoop_relay (entries : List (DialChoice × World)) (seq : ℤ) (vars : Variables)
    (relay : Reject)
    (hintact : ∀ t ∈ (dialLoop rules callUUID seq vars relay entries).tried,
      t.allowed = true → ¬ t.Breaks)
    (hfailed : ∀ t ∈ (dialLoop rules callUUID seq vars relay entries).tried, t.dialled = true →
      t.world.bridge.answered = false ∧ t.world.bridge.alegGone = false) :
    (dialLoop rules callUUID seq vars relay entries).answered = none ∧
    (dialLoop rules callUUID seq vars relay entries).raised = false ∧
    (dialLoop rules callUUID seq vars relay entries).relay =
      finalResponse rules callUUID relay
        ((dialLoop rules callUUID seq vars relay entries).tried.filter Tried.dialled) := by
  induction entries generalizing seq vars relay with
  | nil => exact ⟨rfl, rfl, rfl⟩
  | cons e rest ih =>
    obtain ⟨c, w⟩ := e
    cases dialLoop_step rules callUUID seq vars relay c w rest with
    | gone _ htried hanswered hraised hrelay =>
      rw [htried, hanswered, hraised, hrelay]
      exact ⟨rfl, rfl, rfl⟩
    | broken _ hallowed hbreaks htried =>
      rw [htried] at hintact
      exact absurd hbreaks (hintact _ (List.mem_singleton_self _) hallowed)
    | stopped _ hdialled _ htried hanswered hraised hrelay =>
      rw [htried] at hfailed ⊢
      obtain ⟨hno, hup⟩ := hfailed _ (List.mem_singleton_self _) hdialled
      rw [hno] at hanswered
      refine ⟨Option.not_isSome_iff_eq_none.mp (by simp [hanswered]), hraised, ?_⟩
      rw [hrelay hno hup, List.filter_singleton, hdialled]
      rfl
    | skipped vars' _ hallowed hrun =>
      rw [hrun] at hintact hfailed ⊢
      have hdialled : Tried.dialled ⟨seq, c, w⟩ = false := by simp [Tried.dialled, hallowed]
      have hrest := ih (seq + 1) vars' relay
        (fun t ht => hintact t (List.mem_cons_of_mem _ ht))
        (fun t ht => hfailed t (List.mem_cons_of_mem _ ht))
      simpa [DialRun.after, List.filter_cons, hdialled] using hrest
    | failed vars' v _ hdialled _ _ hverdict hrun =>
      rw [hrun] at hintact hfailed ⊢
      have hrest := ih (seq + 1) vars' v.relay
        (fun t ht => hintact t (List.mem_cons_of_mem _ ht))
        (fun t ht => hfailed t (List.mem_cons_of_mem _ ht))
      simpa [DialRun.after, List.filter_cons, hdialled, finalResponse_cons hverdict]
        using hrest

end Loop

section Actions

variable {callUUID : UUID} {e : Ending} {run : DialRun}

theorem filterMap_passes {α : Type} (select : ScriptAction → Option α) (of : Tried → α)
    (hpass : ∀ t : Tried, (t.actions callUUID).filterMap select = if t.dialled then [of t] else [])
    (tried : List Tried) :
    (tried.flatMap (Tried.actions callUUID)).filterMap select =
      (tried.filter Tried.dialled).map of := by
  induction tried with
  | nil => rfl
  | cons t rest ih =>
    rw [List.flatMap_cons, List.filterMap_append, hpass, ih]
    cases hdialled : t.dialled <;> simp [hdialled]

theorem DialRun.bridges :
    (run.actions callUUID e).filterMap ScriptAction.bridge? =
      (run.tried.filter Tried.dialled).map (fun t => (t.seq, t.choice)) := by
  have hend : (run.conclude e).filterMap ScriptAction.bridge? = [] := by
    unfold conclude
    split_ifs <;> rfl
  rw [actions, List.filterMap_append, hend, List.append_nil]
  refine filterMap_passes _ _ (fun t => ?_) _
  unfold Tried.actions
  split_ifs <;> rfl

theorem DialRun.reports :
    (run.actions callUUID e).filterMap ScriptAction.report? =
      (run.tried.filter Tried.dialled).map
        (fun t => t.world.request t.choice callUUID t.seq) := by
  have hend : (run.conclude e).filterMap ScriptAction.report? = [] := by
    unfold conclude
    split_ifs <;> rfl
  rw [actions, List.filterMap_append, hend, List.append_nil]
  refine filterMap_passes _ _ (fun t => ?_) _
  unfold Tried.actions
  split_ifs <;> rfl

theorem DialRun.responses :
    (run.actions callUUID e).filterMap ScriptAction.response? =
      (run.conclude e).filterMap ScriptAction.response? := by
  have hpasses : (run.tried.flatMap (Tried.actions callUUID)).filterMap
      ScriptAction.response? = [] := by
    rw [List.filterMap_eq_nil_iff]
    intro a ha
    obtain ⟨t, -, hat⟩ := List.mem_flatMap.mp ha
    unfold Tried.actions at hat
    split_ifs at hat
    · simp only [List.mem_cons, List.not_mem_nil, or_false] at hat
      rcases hat with rfl | rfl | rfl <;> rfl
    · obtain rfl := List.mem_singleton.mp hat
      rfl
  rw [actions, List.filterMap_append, hpasses, List.nil_append]

end Actions

section Run

variable (rules : Rules) (callUUID : UUID) (vars : Variables) (entries : List (DialChoice × World))

/-- The entry is to be tried: the customer is there, and every entry before it
was refused or failed by a fault of the carrier. -/
def Reached (before : List Tried) (t : Tried) : Prop :=
  t.world.ready = true ∧ ∀ y ∈ before, y.Passed rules callUUID

/-- A call's failover follows its list. The carriers dialled are, in the order
of the list, those that were not refused, up to the first attempt that ends
the dialling or the customer's leaving. Each is reported once under its own
number. If nobody answered and the customer is still there, the response is
that of the last verdict, the internal error if there was none, and 503 if
nobody was dialled. -/
def FollowsList (e : Ending) : Prop :=
  ∃ dialled : List Tried, dialled.Sublist (numbered 1 entries) ∧
    (∀ before t after, numbered 1 entries = before ++ t :: after →
      (t ∈ dialled ↔ t.allowed = true ∧ Reached rules callUUID before t)) ∧
    ((dial rules callUUID vars entries).actions callUUID e).filterMap ScriptAction.bridge? =
      dialled.map (fun t => (t.seq, t.choice)) ∧
    ((dial rules callUUID vars entries).actions callUUID e).filterMap ScriptAction.report? =
      dialled.map (fun t => t.world.request t.choice callUUID t.seq) ∧
    (dialled.map (·.seq)).Pairwise (· < ·) ∧
    (e.ready = true → e.readyToRespond = true →
      (∀ t ∈ dialled, t.world.bridge.answered = false ∧ t.world.bridge.alegGone = false) →
      ((dial rules callUUID vars entries).actions callUUID e).filterMap
          ScriptAction.response? =
        [finalResponse rules callUUID ⟨503, "All carriers failed"⟩ dialled])

/-- No header breaks the dial string of a carrier that is to be dialled. -/
def Unbroken : Prop :=
  ∀ before t after, numbered 1 entries = before ++ t :: after →
    Reached rules callUUID before t → t.allowed = true → ¬ t.Breaks

variable {rules callUUID vars entries}

theorem eq_of_seq {a b : Tried} (ha : a ∈ numbered 1 entries) (hb : b ∈ numbered 1 entries)
    (hseq : a.seq = b.seq) : a = b := by
  have hdistinct : ((numbered 1 entries).map Tried.seq).Nodup :=
    List.pairwise_map.mpr (numbered_pairwise.imp ne_of_lt)
  exact List.inj_on_of_nodup_map hdistinct ha hb hseq

/-- Where nothing breaks, the loop comes to what is to be tried. -/
theorem Unbroken.reached_iff (h : Unbroken rules callUUID entries) {before after : List Tried}
    {t : Tried} (hsplit : numbered 1 entries = before ++ t :: after) :
    t ∈ (dial rules callUUID vars entries).tried ↔ Reached rules callUUID before t := by
  rw [dial, mem_dialLoop_tried entries 1 _ _ hsplit]
  refine and_congr_right (fun _ => ⟨fun hall y hy => (hall y hy).1, fun hall y hy => ?_⟩)
  obtain ⟨front, back, rfl⟩ := List.append_of_mem hy
  refine ⟨hall y hy, h front y (back ++ t :: after) (by simpa using hsplit) ⟨(hall y hy).1, ?_⟩⟩
  exact fun x hx => hall x (List.mem_append_left _ hx)

end Run

/-- Failover follows the list of a call exactly if no header the customer sends
breaks the dial string of a carrier that is to be dialled. -/
theorem failover_follows_list_iff (rules : Rules) (callUUID : UUID) (vars : Variables)
    (entries : List (DialChoice × World)) (e : Ending) :
    FollowsList rules callUUID vars entries e ↔ Unbroken rules callUUID entries := by
  have hbegins : (dial rules callUUID vars entries).tried <+: numbered 1 entries :=
    dialLoop_tried_begins entries 1 _ _
  have hsub : ((dial rules callUUID vars entries).tried.filter Tried.dialled).Sublist
      (numbered 1 entries) := List.filter_sublist.trans hbegins.sublist
  constructor
  · rintro ⟨dialled, -, hmem, hbridges, -⟩ before t after hsplit hreached hallowed
    -- its bridge is there, and a bridge is only made with a dial string
    have hbridge := List.mem_map_of_mem (f := fun t : Tried => (t.seq, t.choice))
      ((hmem before t after hsplit).mpr ⟨hallowed, hreached⟩)
    rw [← hbridges, DialRun.bridges] at hbridge
    obtain ⟨t', ht', hsame⟩ := List.mem_map.mp hbridge
    have ht : t ∈ numbered 1 entries := by
      rw [hsplit]
      exact List.mem_append_right _ List.mem_cons_self
    obtain rfl : t' = t := eq_of_seq (hsub.subset ht') ht (congrArg Prod.fst hsame)
    exact ((Tried.dialled_iff _).mp (List.mem_filter.mp ht').2).2
  · intro h
    have hintact : ∀ t ∈ (dial rules callUUID vars entries).tried,
        t.allowed = true → ¬ t.Breaks := by
      intro t ht
      obtain ⟨before, after, hsplit⟩ := List.append_of_mem (hbegins.subset ht)
      exact h before t after hsplit ((h.reached_iff hsplit).mp ht)
    refine ⟨(dial rules callUUID vars entries).tried.filter Tried.dialled, hsub, ?_,
      DialRun.bridges, DialRun.reports, ?_, ?_⟩
    · intro before t after hsplit
      rw [List.mem_filter, h.reached_iff hsplit, Tried.dialled_iff]
      exact ⟨fun ⟨hreached, hallowed, _⟩ => ⟨hallowed, hreached⟩, fun ⟨hallowed, hreached⟩ =>
        ⟨hreached, hallowed, h before t after hsplit hreached hallowed⟩⟩
    · exact List.pairwise_map.mpr (numbered_pairwise.sublist hsub)
    · intro hready hrespond hfailed
      obtain ⟨hnobody, hraised, hrelay⟩ := dialLoop_relay entries 1
        (setValue vars "sbc_answered" "false") ⟨503, "All carriers failed"⟩ hintact
        (fun t ht hdialled => hfailed t (List.mem_filter.mpr ⟨ht, hdialled⟩))
      rw [DialRun.responses, DialRun.conclude, dial, hraised, hnobody, hready, hrespond, hrelay]
      rfl

/-- An attempt that ends with a response, in a call that has one value for every
header. -/
def failsWith (code : ℤ) (header : String) : World where
  ready := true
  beginCall := ⟨true, true⟩
  limits := some ⟨10, 0⟩
  admission := ⟨some ⟨1, 1⟩, true⟩
  getVariable := fun _ => some (Text.asciiBytes header)
  bridge := ⟨false, false, code, "", 0, none, 0, 1000000000⟩
  report := ⟨true, true⟩
  override := []
  appended := true
  left := true

/-- A carrier that gets a header, and then one that does not. -/
def twoCarriers (header : String) : List (DialChoice × World) :=
  [(⟨⟨11, "\x7ba=1\x7dfirst"⟩, none, ["X-Tag"]⟩, failsWith 503 header),
    (⟨⟨12, "\x7ba=1\x7dsecond"⟩, none, []⟩, failsWith 486 header)]

example : ((dial Rules.default 42 [] (twoCarriers "100")).actions 42 ⟨true, true⟩).filterMap
    ScriptAction.response? = [⟨486, "Busy Here"⟩] := by decide +kernel

/-- With a percent sign in the header nobody is dialled, and the customer gets the
internal error. -/
theorem percent_ends_failover :
    ((dial Rules.default 42 [] (twoCarriers "100%")).actions 42 ⟨true, true⟩).filterMap
        ScriptAction.bridge? = [] ∧
      ((dial Rules.default 42 [] (twoCarriers "100%")).actions 42 ⟨true, true⟩).filterMap
        ScriptAction.response? = [internalError] ∧
      ¬ FollowsList Rules.default 42 [] (twoCarriers "100%") ⟨true, true⟩ := by
  have hnobody : ((dial Rules.default 42 [] (twoCarriers "100%")).actions 42
      ⟨true, true⟩).filterMap ScriptAction.bridge? = [] := by decide +kernel
  refine ⟨hnobody, by decide +kernel, ?_⟩
  rintro ⟨dialled, -, hmem, hbridges, -⟩
  rw [hnobody] at hbridges
  obtain rfl := List.map_eq_nil_iff.mp hbridges.symm
  have hfirst := (hmem [] _ _ rfl).mpr ⟨by decide +kernel, rfl, fun y hy => absurd hy (by simp)⟩
  exact List.not_mem_nil hfirst

end SuperSbc.CallControl
