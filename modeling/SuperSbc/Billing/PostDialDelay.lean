import SuperSbc.Billing.Hangup

/-!
Which attempt a hangup's two timestamps give a post dial delay to. An attempt
takes the first of them that lies in its window, and the window reaches one
second past the attempt's end.
-/

namespace SuperSbc.Billing

open Rating

inductive Stamp where
  | progress
  | answer
deriving DecidableEq

def Stamp.time (progress answer : Option Time) : Stamp → Option Time
  | .progress => progress
  | .answer => answer

/-- The window of an ended attempt. -/
def Covers (a : AttemptRecord) (t : Time) : Prop :=
  a.startedAt ≤ t ∧ ∃ ended, a.endedAt = some ended ∧ t ≤ ended

/-- The second after the attempt ended, in which billing still credits it. -/
def InGrace (a : AttemptRecord) (t : Time) : Prop :=
  ∃ ended, a.endedAt = some ended ∧ ended < t ∧ t ≤ ended + 1000000000

/-- Whether billing credits a time to an ended attempt. -/
def credits (a : AttemptRecord) (t : Time) : Bool :=
  match a.endedAt with
  | some ended => a.startedAt ≤ t && t ≤ ended + 1000000000
  | none => false

/-- The timestamp an attempt's delay is taken from. -/
def takes (progress answer : Option Time) (a : AttemptRecord) : Option Stamp :=
  if a.pddMs.isSome then none
  else if progress.any (credits a) then some .progress
  else if answer.any (credits a) then some .answer
  else none

/-- Attempts that ran one after the other and have no delay yet. -/
structure Untimed (attempts : List AttemptRecord) : Prop where
  ended : ∀ a ∈ attempts, a.pddMs = none ∧ ∃ ended, a.endedAt = some ended ∧ a.startedAt ≤ ended
  consecutive : attempts.Pairwise (fun a b => ∀ ended, a.endedAt = some ended → ended < b.startedAt)

/-- Both timestamps go to at most one attempt, and to one whose window has it. -/
structure Attributed (attempts : List AttemptRecord) (progress answer : Option Time) : Prop where
  once : ∀ (stamp : Stamp) (i j : ℕ) (a b : AttemptRecord),
    attempts[i]? = some a → attempts[j]? = some b →
    takes progress answer a = some stamp → takes progress answer b = some stamp → i = j
  covered : ∀ (stamp : Stamp), ∀ a ∈ attempts, takes progress answer a = some stamp →
    ∃ t, stamp.time progress answer = some t ∧ Covers a t

/-- No attempt is credited with a timestamp of the second after its end. -/
def GraceUnused (attempts : List AttemptRecord) (progress answer : Option Time) : Prop :=
  ∀ a ∈ attempts,
    (∀ t, progress = some t → ¬ InGrace a t) ∧
    (∀ t, answer = some t → InGrace a t → ∃ p, progress = some p ∧ Covers a p)

section Credit

variable {progress answer : Option Time} {a : AttemptRecord} {t : Time}

theorem credits_iff (h : ∃ ended, a.endedAt = some ended ∧ a.startedAt ≤ ended) :
    credits a t = true ↔ Covers a t ∨ InGrace a t := by
  obtain ⟨ended, hended, hle⟩ := h
  simp only [credits, Covers, InGrace, hended, Bool.and_eq_true, decide_eq_true_eq,
    Option.some.injEq, exists_eq_left']
  constructor
  · rintro ⟨hstart, hslack⟩
    rcases le_or_gt t ended with hin | hlate
    · exact .inl ⟨hstart, hin⟩
    · exact .inr ⟨hlate, hslack⟩
  · rintro (⟨hstart, hin⟩ | ⟨hlate, hslack⟩)
    · exact ⟨hstart, by linarith⟩
    · exact ⟨hle.trans hlate.le, hslack⟩

theorem not_inGrace_of_covers (h : Covers a t) : ¬ InGrace a t := by
  rintro ⟨ended, hended, hlt, -⟩
  obtain ⟨-, ended', hended', hle⟩ := h
  obtain rfl : ended = ended' := Option.some.inj (hended.symm.trans hended')
  exact not_le.mpr hlt hle

theorem firstTime_credits (hpdd : a.pddMs = none) :
    firstTime progress answer (credits a) =
      (takes progress answer a).bind (Stamp.time progress answer) := by
  unfold firstTime takes
  cases progress with
  | none =>
    cases answer with
    | none => simp [hpdd]
    | some t => cases ht : credits a t <;> simp [hpdd, Option.filter, Stamp.time, ht]
  | some p =>
    cases hp : credits a p with
    | true => simp [hpdd, Option.filter, Stamp.time, hp]
    | false =>
      cases answer with
      | none => simp [hpdd, Option.filter, hp]
      | some t => cases ht : credits a t <;> simp [hpdd, Option.filter, Stamp.time, hp, ht]

/-- The delay an attempt gets is counted from its start to the timestamp it
takes. -/
theorem fillPDD_pddMs (hpdd : a.pddMs = none) :
    (fillPDD progress answer a).pddMs =
      ((takes progress answer a).bind (Stamp.time progress answer)).map
        (fun t => max (toMilliseconds (t - a.startedAt)) 0) := by
  rw [← firstTime_credits hpdd]
  unfold fillPDD
  rw [hpdd]
  cases hended : a.endedAt with
  | none =>
    have hnone : credits a = fun _ => false := by
      funext t
      simp [credits, hended]
    cases progress <;> cases answer <;> simp [firstTime, Option.filter, hnone, hpdd]
  | some ended =>
    have hsome : credits a = fun t => decide (a.startedAt ≤ t) &&
        decide (t ≤ ended + 1000000000) := by
      funext t
      simp [credits, hended]
    rw [hsome]
    cases hfirst : firstTime progress answer (fun t => decide (a.startedAt ≤ t) &&
        decide (t ≤ ended + 1000000000)) <;> simp [hfirst, hpdd]

@[simp] theorem fillPDD_classification :
    (fillPDD progress answer a).classification = a.classification := by
  unfold fillPDD
  split
  · split <;> rfl
  · rfl

theorem takes_progress_iff (hpdd : a.pddMs = none) :
    takes progress answer a = some .progress ↔ ∃ t, progress = some t ∧ credits a t = true := by
  cases progress with
  | none => simp [takes, hpdd]
  | some t => cases ht : credits a t <;> simp [takes, hpdd, ht]

theorem takes_answer_iff (hpdd : a.pddMs = none) :
    takes progress answer a = some .answer ↔
      (∀ t, progress = some t → credits a t = false) ∧
        ∃ t, answer = some t ∧ credits a t = true := by
  cases progress with
  | none =>
    cases answer with
    | none => simp [takes, hpdd]
    | some t => cases ht : credits a t <;> simp [takes, hpdd, ht]
  | some p =>
    cases hp : credits a p with
    | true => simp [takes, hpdd, hp]
    | false =>
      cases answer with
      | none => simp [takes, hpdd, hp]
      | some t => cases ht : credits a t <;> simp [takes, hpdd, hp, ht]

end Credit

section Attempts

variable {attempts : List AttemptRecord} {progress answer : Option Time}

/-- Windows do not overlap, so a covered time finds its attempt. -/
theorem Untimed.index_unique (h : Untimed attempts) {i j : ℕ} {a b : AttemptRecord} {t : Time}
    (ha : attempts[i]? = some a) (hb : attempts[j]? = some b) (hat : Covers a t)
    (hbt : Covers b t) : i = j := by
  have before : ∀ {m n : ℕ} {x y : AttemptRecord}, attempts[m]? = some x →
      attempts[n]? = some y → Covers x t → Covers y t → ¬ m < n := by
    intro m n x y hx hy hxt hyt hlt
    obtain ⟨hm, rfl⟩ := List.getElem?_eq_some_iff.mp hx
    obtain ⟨hn, rfl⟩ := List.getElem?_eq_some_iff.mp hy
    obtain ⟨-, ended, hended, hle⟩ := hxt
    have hsep := List.pairwise_iff_getElem.mp h.consecutive m n hm hn hlt ended hended
    exact not_le.mpr hsep (hyt.1.trans hle)
  have hij := before ha hb hat hbt
  have hji := before hb ha hbt hat
  omega

theorem Untimed.attributed_iff (h : Untimed attempts) :
    Attributed attempts progress answer ↔ GraceUnused attempts progress answer := by
  constructor
  · intro hattr a ha
    obtain ⟨hpdd, hwindow⟩ := h.ended a ha
    refine ⟨?_, ?_⟩
    · intro t ht hgrace
      have htakes : takes progress answer a = some .progress :=
        (takes_progress_iff hpdd).mpr ⟨t, ht, (credits_iff hwindow).mpr (.inr hgrace)⟩
      obtain ⟨t', ht', hcovers⟩ := hattr.covered _ a ha htakes
      obtain rfl : t = t' := Option.some.inj (ht.symm.trans ht')
      exact not_inGrace_of_covers hcovers hgrace
    · intro t ht hgrace
      -- the answer would be taken unless the progress time is
      have hcredit : credits a t = true := (credits_iff hwindow).mpr (.inr hgrace)
      by_contra hnone
      have hprogress : ∀ p, progress = some p → credits a p = false := by
        intro p hp
        by_contra hcp
        have hcp' : credits a p = true := by simpa using hcp
        have htakes : takes progress answer a = some .progress :=
          (takes_progress_iff hpdd).mpr ⟨p, hp, hcp'⟩
        obtain ⟨p', hp', hcovers⟩ := hattr.covered _ a ha htakes
        exact hnone ⟨p', hp', hcovers⟩
      have htakes := (takes_answer_iff hpdd).mpr ⟨hprogress, t, ht, hcredit⟩
      obtain ⟨t', ht', hcovers⟩ := hattr.covered _ a ha htakes
      obtain rfl : t = t' := Option.some.inj (ht.symm.trans ht')
      exact not_inGrace_of_covers hcovers hgrace
  · intro hgrace
    have covered : ∀ (stamp : Stamp), ∀ a ∈ attempts, takes progress answer a = some stamp →
        ∃ t, stamp.time progress answer = some t ∧ Covers a t := by
      intro stamp a ha htakes
      obtain ⟨hpdd, hwindow⟩ := h.ended a ha
      obtain ⟨hprogress, hanswer⟩ := hgrace a ha
      cases stamp with
      | progress =>
        obtain ⟨t, ht, hcredit⟩ := (takes_progress_iff hpdd).mp htakes
        exact ⟨t, ht, ((credits_iff hwindow).mp hcredit).resolve_right (hprogress t ht)⟩
      | answer =>
        obtain ⟨hearlier, t, ht, hcredit⟩ := (takes_answer_iff hpdd).mp htakes
        refine ⟨t, ht, ((credits_iff hwindow).mp hcredit).resolve_right ?_⟩
        intro hin
        obtain ⟨p, hp, hcovers⟩ := hanswer t ht hin
        have hcredited : credits a p = true := (credits_iff hwindow).mpr (.inl hcovers)
        rw [hearlier p hp] at hcredited
        cases hcredited
    refine ⟨?_, covered⟩
    intro stamp i j a b ha hb hta htb
    obtain ⟨t, ht, hat⟩ := covered stamp a (List.mem_of_getElem? ha) hta
    obtain ⟨t', ht', hbt⟩ := covered stamp b (List.mem_of_getElem? hb) htb
    obtain rfl : t = t' := Option.some.inj (ht.symm.trans ht')
    exact h.index_unique ha hb hat hbt

theorem fillPDD_isSome {a : AttemptRecord} {t : Time} (hpdd : a.pddMs = none)
    (hanswer : answer = some t) (hcovers : Covers a t) :
    (fillPDD progress answer a).pddMs.isSome = true := by
  obtain ⟨hstart, ended, hended, hle⟩ := hcovers
  have hcredit : credits a t = true :=
    (credits_iff ⟨ended, hended, hstart.trans hle⟩).mpr (.inl ⟨hstart, ended, hended, hle⟩)
  rw [fillPDD_pddMs hpdd]
  cases htakes : takes progress answer a with
  | none =>
    simp only [takes, hpdd, hanswer, Option.any_some, hcredit, Option.isSome_none,
      Bool.false_eq_true, if_false, if_true] at htakes
    split_ifs at htakes
  | some stamp =>
    cases stamp with
    | progress =>
      obtain ⟨p, hp, -⟩ := (takes_progress_iff hpdd).mp htakes
      simp [Stamp.time, hp]
    | answer => simp [Stamp.time, hanswer]

theorem callPDD_of_answered {filled : List AttemptRecord} {a : AttemptRecord} {start : Time}
    (ha : a ∈ filled) (hclass : a.classification = .answered) (hdelay : a.pddMs.isSome = true)
    (hunique : ∀ b ∈ filled, b.classification = .answered → b = a) :
    callPDD filled start progress answer = a.pddMs := by
  have hfind : filled.reverse.find?
      (fun b => b.classification == .answered && b.pddMs.isSome) = some a := by
    cases hfound : filled.reverse.find?
        (fun b => b.classification == .answered && b.pddMs.isSome) with
    | none =>
      have hall := List.find?_eq_none.mp hfound a (List.mem_reverse.mpr ha)
      simp [hclass, hdelay] at hall
    | some b =>
      have hb := List.find?_some hfound
      have hmem := List.mem_reverse.mp (List.mem_of_find?_eq_some hfound)
      simp only [Bool.and_eq_true, beq_iff_eq] at hb
      rw [hunique b hmem hb.1]
  obtain ⟨ms, hms⟩ := Option.isSome_iff_exists.mp hdelay
  simp [callPDD, hfind, hms]

end Attempts

/-- Every attempt's delay is that of the timestamp it takes. A timestamp finds
at most one attempt, and one whose window has it, exactly when no attempt is
credited with a timestamp of the second after its end. An answered call has the
answering attempt's delay in every case. -/
theorem delay_of_one_attempt_iff {attempts : List AttemptRecord} (h : Untimed attempts)
    (progress answer : Option Time) :
    (fillAttemptPDD attempts progress answer).map (·.pddMs) =
      attempts.map (fun a => ((takes progress answer a).bind (Stamp.time progress answer)).map
        (fun t => max (toMilliseconds (t - a.startedAt)) 0)) ∧
    (Attributed attempts progress answer ↔ GraceUnused attempts progress answer) ∧
    ∀ (start : Time) (i : ℕ) (a : AttemptRecord) (t : Time), attempts[i]? = some a →
      a.classification = .answered →
      (∀ (j : ℕ) (b : AttemptRecord), attempts[j]? = some b → b.classification = .answered →
        j = i) →
      answer = some t → Covers a t →
      (fillPDD progress answer a).pddMs.isSome = true ∧
      callPDD (fillAttemptPDD attempts progress answer) start progress answer =
        (fillPDD progress answer a).pddMs := by
  refine ⟨?_, h.attributed_iff, ?_⟩
  · unfold fillAttemptPDD
    rw [List.map_map]
    exact List.map_congr_left (fun a ha => fillPDD_pddMs (h.ended a ha).1)
  intro start i a t hi hclass hunique hanswer hcovers
  have hmem := List.mem_of_getElem? hi
  have hdelay : (fillPDD progress answer a).pddMs.isSome = true :=
    fillPDD_isSome (h.ended a hmem).1 hanswer hcovers
  refine ⟨hdelay, callPDD_of_answered (List.mem_map_of_mem hmem) (by simpa using hclass) hdelay ?_⟩
  intro b hb hbclass
  obtain ⟨c, hc, rfl⟩ := List.mem_map.mp hb
  obtain ⟨j, hj⟩ := List.getElem?_of_mem hc
  obtain rfl := hunique j c hj (by simpa using hbclass)
  rw [Option.some.inj (hj.symm.trans hi)]

/-- An attempt that ran from one time to another and has no delay yet. -/
def attemptFromTo (started ended : Time) (classification : Classification) : AttemptRecord :=
  { seq := 1, carrierId := 0, sipCode := 0, hangupCause := "", startedAt := started
    endedAt := some ended, pddMs := none, classification := classification
    buyRateId := none, cost := none }

/-- A failed attempt of two seconds and, half a second later, the answered one. -/
def failedThenAnswered : List AttemptRecord :=
  [attemptFromTo 0 2000000000 .carrierFault,
    attemptFromTo 2500000000 9000000000 .answered]

theorem untimed_failedThenAnswered : Untimed failedThenAnswered := by
  constructor
  · intro a ha
    simp only [failedThenAnswered, List.mem_cons, List.not_mem_nil, or_false] at ha
    rcases ha with rfl | rfl
    · exact ⟨rfl, 2000000000, rfl, by decide⟩
    · exact ⟨rfl, 9000000000, rfl, by decide⟩
  · simp only [failedThenAnswered, List.pairwise_cons, List.mem_singleton, forall_eq,
      List.not_mem_nil, false_implies, implies_true, List.Pairwise.nil, and_true]
    intro ended hended
    obtain rfl : 2000000000 = ended := Option.some.inj hended
    decide

/-- The carrier rings four seconds into the second attempt: past the grace of
the first. -/
theorem delay_failedThenAnswered :
    (Attributed failedThenAnswered (some 6500000000) (some 8000000000) ↔
      GraceUnused failedThenAnswered (some 6500000000) (some 8000000000)) ∧
    callPDD (fillAttemptPDD failedThenAnswered (some 6500000000) (some 8000000000)) 0
      (some 6500000000) (some 8000000000) = some 4000 := by
  have h := delay_of_one_attempt_iff untimed_failedThenAnswered (some 6500000000)
    (some 8000000000)
  refine ⟨h.2.1, ?_⟩
  refine (h.2.2 0 1 (attemptFromTo 2500000000 9000000000 .answered) 8000000000 rfl rfl ?_ rfl
    ⟨by decide, 9000000000, rfl, by decide⟩).2.trans (by decide)
  intro j b hj hb
  match j, hj with
  | 0, hj =>
    obtain rfl := Option.some.inj hj
    cases hb
  | 1, _ => rfl

/-- The carrier of the second attempt rings at once, less than a second after
the first attempt ended: both attempts are credited with it. -/
theorem ringing_credited_twice :
    Untimed failedThenAnswered ∧
    (fillAttemptPDD failedThenAnswered (some 2600000000) (some 8000000000)).map (·.pddMs) =
      [some 2600, some 100] ∧
    ¬ Attributed failedThenAnswered (some 2600000000) (some 8000000000) := by
  refine ⟨untimed_failedThenAnswered, by decide, ?_⟩
  intro h
  have hsame := h.once .progress 0 1 _ _ rfl rfl (by decide) (by decide)
  cases hsame

end SuperSbc.Billing
