import SuperSbc.CallControl.Reserve

/-!
What a committed `reserve` and a committed `releaseReservation` have done to
the store. `Granted` keeps the two accounts of a reservation apart: the one
that was read beforehand, on which affordability and talk time were decided,
and the one the update found under its lock.
-/

namespace SuperSbc.CallControl

open FixedPoint Rating ReadCommitted Transaction Store Billing

/-- An insert with `ON CONFLICT DO NOTHING`: the row is new, or some seen
store already had one. -/
inductive Inserted (seen : DB → Prop) (key : Key) (ok : Row key → Prop) (before after : DB) :
    Prop where
  | fresh (row : Row key) (hok : ok row) (hnone : before.row key = none)
      (hafter : after = before.set key (some row))
  | conflict (d : DB) (hseen : seen d) (hsome : d.row key ≠ none) (hafter : after = before)

structure Opens (customerId accountId : UUID) (amount : Decimal) (seconds : ℤ)
    (row : ActiveCall) : Prop where
  account_eq : row.accountId = accountId
  customer_eq : row.customerId = customerId
  amount_eq : row.reservedAmount.val = amount
  seconds_eq : row.maxCallSeconds = seconds

structure Granted (seen : DB → Prop) (cfg : Config) (customerId : UUID) (rate : RateRow)
    (callUUID : UUID) (cdr : CDR) (db after : DB) (result : ReserveResult) where
  accountId : UUID
  read : Account
  store : DB
  store_seen : seen store
  read_row : findAccount store ⟨.customer, customerId⟩ = some (accountId, read)
  affordable : 0 < read.available ∧
    reserveAmount cfg.reserveMinutes (toRating rate) ≤ read.available
  available_eq : result.available = read.available
  amount_eq : result.reservedAmount = reserveAmount cfg.reserveMinutes (toRating rate)
  seconds_eq : result.maxCallSeconds =
    maxCallSeconds read.available (toRating rate) cfg.capSeconds
  withCDR : DB
  insertedCDR : Inserted seen (.cdr callUUID)
    (fun row => setupRow { cdr with
      reservedAmount := result.reservedAmount, disposition := .pending } = some row)
    db withCDR
  withActive : DB
  insertedActive : Inserted seen (.active callUUID)
    (Opens customerId accountId result.reservedAmount result.maxCallSeconds)
    withCDR withActive
  moved : Moved accountId (some callUUID) .reserve (reserveChange result.reservedAmount)
    (-result.reservedAmount) withActive after

section Inserts

variable {seen : DB → Prop} {key : Key} {ok : Row key → Prop} {before after : DB}

theorem Inserted.row_of_ne (h : Inserted seen key ok before after) {other : Key}
    (hne : other ≠ key) : after.row other = before.row other := by
  cases h with
  | fresh _ _ _ hafter => rw [hafter, Database.row_set_of_ne _ _ hne]
  | conflict _ _ _ hafter => rw [hafter]

/-- Where no seen store has the row, the one inserted is new. -/
theorem Inserted.exists_row (h : Inserted seen key ok before after)
    (hunseen : ∀ d, seen d → d.row key = none) : ∃ row, ok row ∧ after.row key = some row := by
  cases h with
  | fresh row hok _ hafter => exact ⟨row, hok, by rw [hafter, Database.row_set_self]⟩
  | conflict d hseen hsome _ => exact absurd (hunseen d hseen) hsome

end Inserts

section Rows

variable {seen : DB → Prop} {cfg : Config} {customerId callUUID : UUID} {rate : RateRow}
  {cdr : CDR} {db after : DB} {result : ReserveResult}

theorem Granted.record_row
    (granted : Granted seen cfg customerId rate callUUID cdr db after result) (call : UUID) :
    after.row (.cdr call) = granted.withCDR.row (.cdr call) := by
  rw [granted.moved.row_of_ne (by simp), granted.insertedActive.row_of_ne (by simp)]

theorem Granted.first_rows
    (granted : Granted seen cfg customerId rate callUUID cdr db after result)
    (hcdr : ∀ d, seen d → d.row (.cdr callUUID) = none)
    (hactive : ∀ d, seen d → d.row (.active callUUID) = none) :
    ∃ record active,
      setupRow { cdr with reservedAmount := result.reservedAmount, disposition := .pending } =
        some record ∧
      Opens customerId granted.accountId result.reservedAmount result.maxCallSeconds active ∧
      after.row (.cdr callUUID) = some record ∧ after.row (.active callUUID) = some active := by
  obtain ⟨record, hrecord, hrecordRow⟩ := granted.insertedCDR.exists_row hcdr
  obtain ⟨active, hopens, hactiveRow⟩ := granted.insertedActive.exists_row hactive
  refine ⟨record, active, hrecord, hopens, (granted.record_row callUUID).trans hrecordRow, ?_⟩
  rw [granted.moved.row_of_ne (by simp), hactiveRow]

end Rows

variable {now : Time} {p : Progress Key Row LedgerEntry}
  {post : Unit → Progress Key Row LedgerEntry → Prop} {reason : String}

def GaveBack (callUUID : UUID) (before after : DB) : Option ActiveCall → Prop
  | none => after = before
  | some ac => Released callUUID ac.accountId ac.reservedAmount.val before after

/-- The ways `releaseReservation` can commit. -/
inductive ReleasedCall (seen : DB → Prop) (now : Time) (callUUID : UUID) (db after : DB) :
    Prop where
  | already (cdr : CDR) (hcdr : db.row (.cdr callUUID) = some cdr)
      (hbilled : cdr.billedAt.isSome) (hsame : after = db)
  | settled (cdr row : CDR) (ac : Option ActiveCall) (mid : DB)
      (hcdr : db.row (.cdr callUUID) = some cdr) (hpending : cdr.billedAt = none)
      (hactive : ∀ a, ac = some a → db.row (.active callUUID) = some a)
      (hmissed : ac = none → ∃ d, seen d ∧ d.row (.active callUUID) = none)
      (hrow : row.billedAt = some now)
      (hmid : GaveBack callUUID db mid ac)
      (hafter : after = closed callUUID ac row mid)

def returned (ac : Option ActiveCall) (cdr : CDR) : CDR :=
  match ac with
  | none => cdr
  | some ac => { cdr with releasedAmount := ac.reservedAmount.val }

/-- The same with the record that was written: what `finish` makes of the one
that was found. A reservation that is missing was missing next to that
record. -/
inductive ReleasedAs (seen : DB → Prop) (finish : CDR → CDR) (callUUID : UUID) (db after : DB) :
    Prop where
  | already (cdr : CDR) (hcdr : db.row (.cdr callUUID) = some cdr)
      (hbilled : cdr.billedAt.isSome) (hsame : after = db)
  | settled (cdr row : CDR) (ac : Option ActiveCall) (mid : DB)
      (hcdr : db.row (.cdr callUUID) = some cdr) (hpending : cdr.billedAt = none)
      (hactive : ∀ a, ac = some a → db.row (.active callUUID) = some a)
      (hmissed : ac = none → ∃ d, seen d ∧ d.row (.cdr callUUID) = some cdr ∧
        d.row (.active callUUID) = none)
      (hrow : finalizedRow (finish (returned ac cdr)) cdr = some row)
      (hmid : GaveBack callUUID db mid ac)
      (hafter : after = closed callUUID ac row mid)

theorem ReleasedAs.releasedCall {seen : DB → Prop} {finish : CDR → CDR} {callUUID : UUID}
    {db after : DB} (h : ReleasedAs seen finish callUUID db after)
    (hbilled : ∀ c, (finish c).billedAt = some now) : ReleasedCall seen now callUUID db after := by
  cases h with
  | already cdr hcdr hdone hsame => exact .already cdr hcdr hdone hsame
  | settled cdr row ac mid hcdr hpending hactive hmissed hrow hmid hafter =>
    refine .settled cdr row ac mid hcdr hpending hactive (fun hnone => ?_) ?_ hmid hafter
    · obtain ⟨d, hd, -, hmissing⟩ := hmissed hnone
      exact ⟨d, hd, hmissing⟩
    · rw [(finalizedRow_some hrow).billedAt_eq, hbilled]

variable {seen : DB → Prop} {db : DB} {cfg : Config} {callUUID : UUID}

/-- The call's record insert. Rows of other keys look as before. -/
theorem wp_insertedCDR {c : CDR} (heffects : p.effects = [])
    (h : ∀ q, Inserted seen (.cdr callUUID) (fun row => setupRow c = some row)
        db (db.apply q.effects) →
      (∀ d : DB, (d.apply q.effects).row (.active callUUID) = d.row (.active callUUID)) →
      post () q) : (insertCDRSetup callUUID c).wp seen db p post := by
  refine wp_insertCDRSetup (fun row hrow hnone => ?_) (fun d hd _ hsome => ?_)
  · rw [heffects] at hnone
    refine h _ (.fresh row hrow hnone ?_) (fun d => ?_)
    · rw [Progress.effects_write, Database.apply_set, heffects, Database.apply_nil]
    · rw [Progress.effects_write, Database.apply_set, Database.row_set_of_ne _ _ (by simp),
        heffects, Database.apply_nil]
  · rw [heffects] at hsome
    exact h p (.conflict d hd hsome (by simp [heffects])) (by simp [heffects])

theorem wp_insertedActive {a : NewActiveCall} (hscale : OnScale scale a.reservedAmount)
    (hview : ∀ d : DB, (d.apply p.effects).row (.active callUUID) = d.row (.active callUUID))
    (h : ∀ q, Inserted seen (.active callUUID) (Opens a.customerId a.accountId
      a.reservedAmount a.maxCallSeconds) (db.apply p.effects) (db.apply q.effects) → post () q) :
    (insertActiveCall callUUID a).wp seen db p post := by
  refine wp_insertActiveCall (fun row haccount hcustomer hmax hstored hnone => ?_)
    (fun d hd _ hsome => ?_)
  · exact h _ (.fresh row ⟨haccount, hcustomer, hstored.trans hscale, hmax⟩ hnone rfl)
  · rw [hview] at hsome
    exact h p (.conflict d hd hsome rfl)

theorem wp_reserve {customerId : UUID} {rate : RateRow} {cdr : CDR}
    {post : ReserveResult → Progress Key Row LedgerEntry → Prop}
    (hpost : ∀ result q,
      Granted seen cfg customerId rate callUUID cdr db (db.apply q.effects) result →
      post result q) :
    (reserve cfg customerId rate callUUID cdr).wp seen db .start post := by
  unfold reserve accountByOwner
  rw [wp_bind, wp_select]
  intro store hstore _
  rw [Progress.effects_start, Database.apply_nil]
  cases hfound : findAccount store ⟨.customer, customerId⟩ with
  | none => trivial
  | some found =>
    obtain ⟨accountId, acc⟩ := found
    dsimp only
    split_ifs with hpoor
    · trivial
    have hrich : 0 < acc.available ∧
        reserveAmount cfg.reserveMinutes (toRating rate) ≤ acc.available := by
      simpa [not_or] using hpoor
    unfold reserveTx
    rw [wp_bind]
    refine wp_insertedCDR rfl (fun q hcdr hview => ?_)
    rw [wp_bind]
    refine wp_insertedActive (reserveAmount_onScale _ _) hview (fun r hactive => ?_)
    rw [wp_bind]
    refine wp_moveMoney (fun last _ moved => hpost _ last ?_)
    exact ⟨accountId, acc, store, hstore, hfound, hrich, rfl, rfl, rfl, _, hcdr, _,
      hactive, moved⟩

theorem wp_giveBack {ac : Option ActiveCall} {cdr : CDR}
    {post : CDR → Progress Key Row LedgerEntry → Prop} (heffects : p.effects = [])
    (hactive : ∀ a, ac = some a →
      db.row (.active callUUID) = some a ∧ Key.active callUUID ∈ p.held)
    (h : ∀ q mid, p.held ⊆ q.held →
      GaveBack callUUID db mid ac →
      db.apply q.effects = withoutActive callUUID mid ac → post (returned ac cdr) q) :
    (giveBack callUUID ac reason cdr).wp seen db p post := by
  unfold giveBack
  cases ac with
  | none => exact h p db (subset_refl _) rfl (by simp [heffects, withoutActive])
  | some a =>
    obtain ⟨hrow, hheld⟩ := hactive a rfl
    rw [wp_bind]
    refine wp_lockAccount (fun acc _ => ?_)
    rw [wp_bind]
    refine wp_release (fun released q hsub hreleased => ?_)
    rw [Progress.effects_hold, heffects, Database.apply_nil] at hreleased
    have hsub' : p.held ⊆ q.held := (Set.subset_insert _ _).trans hsub
    -- the release writes the account row only
    have hview : (db.apply q.effects).row (.active callUUID) = some a := by
      rw [hreleased.row_of_ne (by simp), hrow]
    unfold deleteActiveCall
    rw [wp_bind, wp_deleteRow]
    refine ⟨fun _ => ?_, fun d _ hagree hmissing => ?_⟩
    · exact h _ _ (hsub'.trans (Set.subset_insert _ _)) hreleased rfl
    · rw [Database.row_apply_congr _ _ _ q.effects (hagree _ (hsub' hheld)), hview]
        at hmissing
      cases hmissing

theorem wp_releasedAs {sipCode : ℤ} {disposition : Disposition} {step detail : String}
    (hpost : ∀ q, ReleasedAs seen (releasedCDR cfg now sipCode reason disposition step detail)
      callUUID db (db.apply q.effects) → post () q) :
    (releaseReservation cfg now callUUID sipCode reason disposition step detail).wp
      seen db .start post := by
  unfold releaseReservation lockCDR
  rw [wp_bind, wp_lockRow]
  refine ⟨fun cdr hcdr => ?_, fun d _ _ _ => trivial⟩
  dsimp only
  by_cases hbilled : cdr.billedAt.isSome
  · rw [if_pos hbilled]
    exact hpost _ (.already cdr hcdr hbilled rfl)
  · have hpending : cdr.billedAt = none := by simpa using hbilled
    rw [if_neg hbilled]
    have hrest : ∀ (p : Progress Key Row LedgerEntry) (ac : Option ActiveCall),
        p.effects = [] → Key.cdr callUUID ∈ p.held →
        (∀ a, ac = some a →
          db.row (.active callUUID) = some a ∧ Key.active callUUID ∈ p.held) →
        (ac = none → ∃ d, seen d ∧ d.row (.cdr callUUID) = some cdr ∧
          d.row (.active callUUID) = none) →
        (giveBack callUUID ac reason cdr >>= fun c => finalizeCDR callUUID
          (releasedCDR cfg now sipCode reason disposition step detail c)).wp
          seen db p post := by
      intro p ac heffects hheld hactive hmissed
      rw [wp_bind]
      refine wp_giveBack heffects hactive (fun q mid hsub hmid hview => ?_)
      refine wp_finalizeCDR_held cdr (hsub hheld) ?_ (fun row hrow => hpost _ ?_)
      · rw [hview]
        cases ac with
        | none =>
          obtain rfl : mid = db := hmid
          exact hcdr
        | some a =>
          have hkeep : mid.row (.cdr callUUID) = db.row (.cdr callUUID) :=
            Released.row_of_ne hmid (by simp)
          rw [withoutActive, Database.row_set_of_ne _ _ (by simp), hkeep]
          exact hcdr
      · refine .settled cdr row ac mid hcdr hpending (fun a ha => (hactive a ha).1) hmissed hrow
          hmid ?_
        rw [Progress.effects_write, Database.apply_set, hview]
        rfl
    unfold lockActiveCall
    rw [wp_bind, wp_lockRow]
    refine ⟨fun a ha => hrest _ (some a) rfl (by simp) (fun b hb => ?_) (by simp),
      fun d hd hagree hmissing =>
        hrest _ none rfl (by simp) (by simp) (fun _ => ⟨d, hd, ?_, hmissing⟩)⟩
    · obtain rfl := Option.some.inj hb
      exact ⟨ha, by simp⟩
    · rw [hagree _ (by simp)]
      exact hcdr

theorem wp_releaseReservation {sipCode : ℤ} {disposition : Disposition} {step detail : String}
    (hpost : ∀ q, ReleasedCall seen now callUUID db (db.apply q.effects) → post () q) :
    (releaseReservation cfg now callUUID sipCode reason disposition step detail).wp
      seen db .start post :=
  wp_releasedAs (fun q released => hpost q (released.releasedCall (fun _ => rfl)))

end SuperSbc.CallControl
