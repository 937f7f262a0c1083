import SuperSbc.Ledger.Deliveries
import SuperSbc.Ledger.Reservations

/-!
What a committed job does to the rows of a call: its record and its
reservation. A setup writes those of its own call; everything else can only
bill a record that is there and close a reservation.
-/

namespace SuperSbc.Ledger

open FixedPoint Rating ReadCommitted Store Billing CallControl

variable {db after : DB} {result : JobResult} {seen : DB → Prop} {job : Job}

theorem record_closed {callUUID : UUID} {row cdr : CDR} {mid : DB} (ac : Option ActiveCall)
    (hcdr : db.row (.cdr callUUID) = some cdr) (hbilled : row.billedAt.isSome)
    (hmid : ∀ call, mid.row (.cdr call) = db.row (.cdr call))
    (hafter : ∀ call, after.row (.cdr call) = (closed callUUID ac row mid).row (.cdr call))
    (other : UUID) :
    after.row (.cdr other) = db.row (.cdr other) ∨
      (RecordBilled after other ∧ db.row (.cdr other) ≠ none ∧ callUUID = other) := by
  by_cases hother : other = callUUID
  · subst hother
    refine .inr ⟨⟨row, ?_, hbilled⟩, by simp [hcdr], rfl⟩
    rw [hafter, closed, Database.row_set_self]
  · refine .inl ?_
    rw [hafter, closed, Database.row_set_of_ne _ _ (by simpa using hother), ← hmid other]
    cases ac with
    | none => rfl
    | some a => rw [withoutActive, Database.row_set_of_ne _ _ (by simp)]

theorem record_billed {now : Time} {h : HangupInfo} {out : Outcome}
    (billed : Billed seen now h db after out) (other : UUID) :
    after.row (.cdr other) = db.row (.cdr other) ∨
      (RecordBilled after other ∧ db.row (.cdr other) ≠ none ∧ h.callUUID = other) := by
  cases billed with
  | noCDR _ hsame _ _ _ | already _ _ _ _ hsame => exact .inl (by rw [hsame])
  | settled cdr row ac _ mid hcdr _ _ _ hrow _ _ _ _ hcosts hsettled _ =>
    have hbilled : row.billedAt.isSome := by simp [hrow]
    refine record_closed ac hcdr hbilled (fun _ => rfl) (fun call => ?_) other
    rw [CustomerSettled.row_of_ne hsettled (by simp), CostLines.row_of_ne hcosts (by simp)]

theorem record_released {callUUID : UUID} {now : Time}
    (released : ReleasedCall seen now callUUID db after) (other : UUID) :
    after.row (.cdr other) = db.row (.cdr other) ∨
      (RecordBilled after other ∧ db.row (.cdr other) ≠ none ∧ callUUID = other) := by
  cases released with
  | already _ _ _ hsame => exact .inl (by rw [hsame])
  | settled _ row ac _ hcdr _ _ _ hrow hmid hafter =>
    have hbilled : row.billedAt.isSome := by simp [hrow]
    exact record_closed ac hcdr hbilled (fun call => GaveBack.row_of_ne hmid (by simp))
      (fun call => by rw [hafter]) other

section Setup

variable {cfg : Config} {customerId callUUID : UUID} {rate : RateRow} {cdr : CDR}
  {reserved : ReserveResult}

theorem record_granted_other
    (granted : Granted seen cfg customerId rate callUUID cdr db after reserved) {call : UUID}
    (hcall : call ≠ callUUID) : after.row (.cdr call) = db.row (.cdr call) := by
  rw [granted.record_row, granted.insertedCDR.row_of_ne (by simpa using hcall)]

theorem active_granted_other
    (granted : Granted seen cfg customerId rate callUUID cdr db after reserved) {call : UUID}
    (hcall : call ≠ callUUID) : after.row (.active call) = db.row (.active call) := by
  rw [granted.moved.row_of_ne (by simp), granted.insertedActive.row_of_ne (by simpa using hcall),
    granted.insertedCDR.row_of_ne (by simp)]

theorem record_granted_kept
    (granted : Granted seen cfg customerId rate callUUID cdr db after reserved) {call : UUID}
    (hsome : db.row (.cdr call) ≠ none) : after.row (.cdr call) = db.row (.cdr call) := by
  by_cases hcall : call = callUUID
  · subst hcall
    rw [granted.record_row]
    cases granted.insertedCDR with
    | fresh _ _ hnone _ => exact absurd hnone hsome
    | conflict _ _ _ hsame => rw [hsame]
  · exact record_granted_other granted hcall

end Setup

/-- A job changes the record of the call it sets up, or bills that of the call
it ends. -/
theorem record_did (hdid : Job.Did seen db after job result) (other : UUID) :
    after.row (.cdr other) = db.row (.cdr other) ∨ job.setsUp = some other ∨
      (RecordBilled after other ∧ db.row (.cdr other) ≠ none ∧ job.EndsCall other) := by
  cases hdid with
  | @reserve _ _ _ callUUID _ _ granted =>
    by_cases hother : other = callUUID
    · exact .inr (.inl (by rw [hother]; rfl))
    · exact .inl (record_granted_other granted hother)
  | bill billed | reconcile billed => exact (record_billed billed.billed other).imp_right .inr
  | releaseReservation released => exact (record_released (released.releasedCall (fun _ => rfl)) other).imp_right .inr
  | postMoney moved | topup _ _ _ moved => exact .inl (moved.row_of_ne (by simp))
  | payment _ hsame => exact .inl (by rw [hsame])

theorem recordBilled_did {call : UUID} (hbilled : RecordBilled db call)
    (hdid : Job.Did seen db after job result) : RecordBilled after call := by
  have hkept : after.row (.cdr call) = db.row (.cdr call) → RecordBilled after call := by
    intro hsame
    obtain ⟨row, hrow, hrowBilled⟩ := hbilled
    exact ⟨row, hsame.trans hrow, hrowBilled⟩
  rcases record_did hdid call with hsame | hsets | ⟨hafter, -, -⟩
  · exact hkept hsame
  · cases hdid with
    | reserve granted =>
      obtain ⟨row, hrow, -⟩ := hbilled
      exact hkept (record_granted_kept granted (by simp [hrow]))
    | _ => cases hsets
  · exact hafter

theorem active_billed {now : Time} {h : HangupInfo} {out : Outcome}
    (billed : Billed seen now h db after out) (other : UUID) :
    after.row (.active other) = db.row (.active other) ∨ after.row (.active other) = none := by
  cases billed with
  | noCDR _ hsame _ _ _ | already _ _ _ _ hsame => exact .inl (by rw [hsame])
  | settled _ _ ac _ mid _ _ _ _ _ _ _ _ _ hcosts hsettled _ =>
    rw [CustomerSettled.active hsettled (CostLines.row_of_ne hcosts (by simp))]
    split_ifs
    · exact .inr rfl
    · exact .inl rfl

/-- A job opens the reservation of the call it sets up; other reservations it
can only close. -/
theorem active_did (hdid : Job.Did seen db after job result) (other : UUID) :
    after.row (.active other) = db.row (.active other) ∨ job.setsUp = some other ∨
      after.row (.active other) = none := by
  cases hdid with
  | @reserve _ _ _ callUUID _ _ granted =>
    by_cases hother : other = callUUID
    · exact .inr (.inl (by rw [hother]; rfl))
    · exact .inl (active_granted_other granted hother)
  | bill billed | reconcile billed => exact (active_billed billed.billed other).imp_right .inr
  | releaseReservation released =>
    cases released.releasedCall (fun _ => rfl) with
    | already _ _ _ hsame => exact .inl (by rw [hsame])
    | settled _ _ ac _ _ _ _ _ _ hmid hafter =>
      rw [hafter, active_closed, GaveBack.row_of_ne hmid (by simp)]
      split_ifs
      · exact .inr (.inr rfl)
      · exact .inl rfl
  | postMoney moved | topup _ _ _ moved => exact .inl (moved.row_of_ne (by simp))
  | payment _ hsame => exact .inl (by rw [hsame])

end SuperSbc.Ledger
