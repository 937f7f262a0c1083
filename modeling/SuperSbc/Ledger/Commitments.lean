import SuperSbc.Ledger.Overdraft
import SuperSbc.Ledger.Rows
import SuperSbc.ReadCommitted.Erasure

/-!
Reservations against the funds of an account, while nothing else moves them.
The affordability of a reservation is decided on a read that may be stale and
again by the account update under its lock. Only the second decision counts
here: it keeps what is granted and open within the funds in every interleaving,
also when a call is set up more than once.
-/

namespace SuperSbc

open FixedPoint Rating ReadCommitted Store Billing CallControl Ledger

/-- The jobs that move reservations and nothing else. -/
def Job.OnlyReserves : Job → Prop
  | .reserve .. | .releaseReservation .. => True
  | _ => False

/-- The reservation a commit granted on an account. -/
def grantedOn (jobs : ℕ → Job) (id : UUID) (c : JobCommit) : Option (UUID × ReserveResult) :=
  match jobs c.id, c.value with
  | .reserve _ customerId _ callUUID _, .reserved r =>
    if (findAccount c.before ⟨.customer, customerId⟩).map Prod.fst = some id
    then some (callUUID, r) else none
  | _, _ => none

def closes (c : JobCommit) (callUUID : UUID) : Bool :=
  (c.before.row (.active callUUID)).isSome && (c.after.row (.active callUUID)).isNone

/-- What was granted on an account and is still open, newest first: a call's
reservations end when its row is deleted. -/
def openGrants (jobs : ℕ → Job) (id : UUID) : List JobCommit → List (UUID × Decimal)
  | [] => []
  | c :: older =>
    match grantedOn jobs id c with
    | some (callUUID, r) => (callUUID, r.reservedAmount) :: openGrants jobs id older
    | none => (openGrants jobs id older).filter (fun grant => !closes c grant.1)

def openSum (jobs : ℕ → Job) (id : UUID) (history : List JobCommit) : Decimal :=
  ((openGrants jobs id history).map Prod.snd).sum

namespace Ledger

variable {jobs : ℕ → Job} {history : List JobCommit} {start db after : DB} {id : UUID} {t : ℕ}
  {result : JobResult} {seen : DB → Prop}

theorem sum_filter_add_le {α : Type*} (l : List (α × ℚ)) (keep : α × ℚ → Bool)
    (hnonneg : ∀ g ∈ l, 0 ≤ g.2) {g : α × ℚ} (hg : g ∈ l) (hout : keep g = false) :
    ((l.filter keep).map Prod.snd).sum + g.2 ≤ (l.map Prod.snd).sum := by
  induction l with
  | nil => cases hg
  | cons head rest ih =>
    have hhead := hnonneg head List.mem_cons_self
    have hrest : ∀ g ∈ rest, 0 ≤ g.2 := fun g hg => hnonneg g (List.mem_cons_of_mem _ hg)
    have hless : ((rest.filter keep).map Prod.snd).sum ≤ (rest.map Prod.snd).sum := by
      refine List.Sublist.sum_le_sum (List.filter_sublist.map _) (fun x hx => ?_)
      obtain ⟨g, hg, rfl⟩ := List.mem_map.mp hx
      exact hrest g hg
    rw [List.map_cons, List.sum_cons]
    rcases List.mem_cons.mp hg with rfl | hmem
    · rw [List.filter_cons_of_neg (by simp [hout])]
      linarith
    · have htail := ih hrest hmem
      cases hkeep : keep head with
      | true =>
        rw [List.filter_cons_of_pos hkeep, List.map_cons, List.sum_cons]
        linarith
      | false =>
        rw [List.filter_cons_of_neg (by simp [hkeep])]
        linarith

/-- The account a reservation was granted on answers for its customer in the
store the grant committed on. -/
theorem grantedOn_granted {cfg : Config} {customerId callUUID : UUID} {rate : RateRow} {cdr : CDR}
    {r : ReserveResult} (hjob : jobs t = .reserve cfg customerId rate callUUID cdr)
    (hframe : ∀ d, seen d → Frame db d)
    (granted : Granted seen cfg customerId rate callUUID cdr db after r) (id : UUID) :
    grantedOn jobs id ⟨t, .reserved r, db, after⟩ =
      if granted.accountId = id then some (callUUID, r) else none := by
  obtain ⟨a, hfound, -⟩ := (hframe _ granted.store_seen).findAccount granted.read_row
  simp [grantedOn, hjob, hfound]

/-- The invariant of a run of reservations and releases. -/
structure Committed (jobs : ℕ → Job) (start : DB) (id : UUID) (history : List JobCommit)
    (db : DB) : Prop where
  frame : Frame start db
  funds_eq : funds db id = funds start id
  opened : ∀ callUUID a, db.row (.active callUUID) = some a → a.accountId = id →
    start.row (.active callUUID) ≠ none ∨
      (callUUID, a.reservedAmount.val) ∈ openGrants jobs id history
  nonneg : ∀ grant ∈ openGrants jobs id history, 0 ≤ grant.2
  held : (reconcile start id).reserved + openSum jobs id history ≤ (reconcile db id).reserved
  within : ∀ c ∈ history, (grantedOn jobs id c).isSome →
    (reconcile db id).reserved ≤ funds start id
  saw : ∀ c ∈ history, ∀ callUUID r, grantedOn jobs id c = some (callUUID, r) →
    ∃ a, c.before.row (.account id) = some a ∧ 0 < a.available ∧ r.reservedAmount ≤ a.available

theorem Committed.initial (db : DB) : Committed jobs db id [] db where
  frame := .refl db
  funds_eq := rfl
  opened callUUID a ha _ := .inl (by simp [ha])
  nonneg := by simp [openGrants]
  held := by simp [openSum, openGrants]
  within := by simp
  saw := by simp

theorem openSum_filter_le (h : Committed jobs start id history db) (c : JobCommit) :
    (((openGrants jobs id history).filter (fun grant => !closes c grant.1)).map Prod.snd).sum ≤
      openSum jobs id history := by
  refine List.Sublist.sum_le_sum (List.filter_sublist.map _) (fun x hx => ?_)
  obtain ⟨grant, hgrant, rfl⟩ := List.mem_map.mp hx
  exact h.nonneg grant hgrant

theorem openGrants_eq_nil (hnone : ∀ c ∈ history, grantedOn jobs id c = none) :
    openGrants jobs id history = [] := by
  induction history with
  | nil => rfl
  | cons c older ih =>
    have hrest := ih (fun other hother => hnone other (List.mem_cons_of_mem _ hother))
    rw [openGrants, hnone c List.mem_cons_self, hrest]
    rfl

/-- A commit that grants nothing on the account. What it closes there it takes
off the `reserved` column. -/
theorem Committed.ungranted (h : Committed jobs start id history db) {c : JobCommit}
    (hnone : grantedOn jobs id c = none) (hafter : c.after = after)
    (hframe : Frame db after) (hbalance : (reconcile after id).balance = (reconcile db id).balance)
    (hless : (reconcile after id).reserved ≤ (reconcile db id).reserved)
    (hheld : (reconcile start id).reserved +
      (((openGrants jobs id history).filter (fun grant => !closes c grant.1)).map Prod.snd).sum ≤
        (reconcile after id).reserved)
    (hopened : ∀ callUUID a, after.row (.active callUUID) = some a → a.accountId = id →
      db.row (.active callUUID) = some a) :
    Committed jobs start id (c :: history) after := by
  have hgrants : openGrants jobs id (c :: history) =
      (openGrants jobs id history).filter (fun grant => !closes c grant.1) := by
    rw [openGrants, hnone]
  have hsub := funds_sub id hframe
  refine ⟨h.frame.trans hframe, by linarith [h.funds_eq], fun callUUID a ha hid => ?_,
    fun grant hgrant => ?_, by rw [openSum, hgrants]; exact hheld, fun other hother hsome => ?_,
    fun other hother callUUID r hr => ?_⟩
  · refine (h.opened callUUID a (hopened callUUID a ha hid) hid).imp_right (fun hmem => ?_)
    rw [hgrants]
    exact List.mem_filter.mpr ⟨hmem, by simp [closes, hafter, ha]⟩
  · rw [hgrants] at hgrant
    exact h.nonneg grant (List.mem_filter.mp hgrant).1
  · rcases List.mem_cons.mp hother with rfl | hother
    · rw [hnone] at hsome
      cases hsome
    · exact hless.trans (h.within other hother hsome)
  · rcases List.mem_cons.mp hother with rfl | hother
    · rw [hnone] at hr
      cases hr
    · exact h.saw other hother callUUID r hr

theorem Committed.same (h : Committed jobs start id history db)
    (hnone : grantedOn jobs id ⟨t, result, db, db⟩ = none) :
    Committed jobs start id (⟨t, result, db, db⟩ :: history) db := by
  refine h.ungranted hnone rfl (.refl db) rfl le_rfl ?_ (fun _ _ ha _ => ha)
  have hsum := openSum_filter_le h ⟨t, result, db, db⟩
  linarith [h.held]

/-- A release of a call whose reservation, if any, was granted in the run. -/
theorem Committed.released (h : Committed jobs start id history db) {callUUID : UUID} {now : Time}
    (hnone : grantedOn jobs id ⟨t, result, db, after⟩ = none)
    (hnew : start.row (.active callUUID) = none) (hframe : Frame db after)
    (released : ReleasedCall seen now callUUID db after) :
    Committed jobs start id (⟨t, result, db, after⟩ :: history) after := by
  cases released with
  | already _ _ _ hsame =>
    subst hsame
    exact h.same hnone
  | settled _ row ac mid _ _ hactive _ _ hmid hafter =>
    have hbooks : reconcile after id = _ := reconcile_gaveBack hactive hmid hafter
    have hrows : ∀ other, after.row (.active other) =
        if other = callUUID ∧ ac.isSome then none else db.row (.active other) := by
      intro other
      rw [hafter, active_closed, GaveBack.row_of_ne hmid (by simp)]
    have hreserved : (reconcile after id).reserved =
        max ((reconcile db id).reserved - openOf id ac) 0 := by rw [hbooks]
    have hnonneg := reconcile_reserved_nonneg db id
    have hsum := openSum_filter_le h ⟨t, result, db, after⟩
    have hopened : ∀ other a, after.row (.active other) = some a → a.accountId = id →
        db.row (.active other) = some a := by
      intro other a ha _
      rw [hrows other] at ha
      split_ifs at ha
      exact ha
    by_cases hhere : ac.map (·.accountId) = some id
    · obtain ⟨a, rfl, hid⟩ := Option.map_eq_some_iff.mp hhere
      have hrow := hactive a rfl
      have hgrant : (callUUID, a.reservedAmount.val) ∈ openGrants jobs id history :=
        (h.opened callUUID a hrow hid).resolve_left (fun hsome => hsome hnew)
      have hgone : after.row (.active callUUID) = none := by simpa using hrows callUUID
      have hout := sum_filter_add_le _
        (fun grant => !closes ⟨t, result, db, after⟩ grant.1) h.nonneg hgrant
        (by simp [closes, hrow, hgone])
      have hopenOf : openOf id (some a) = a.reservedAmount.val := by simp [openOf, hid]
      have hamount := h.nonneg _ hgrant
      have hheld := h.held
      unfold openSum at hheld
      rw [hopenOf] at hreserved
      refine h.ungranted hnone rfl hframe (by rw [hbooks]) ?_ ?_ hopened
      · rw [hreserved]
        exact max_le (by linarith) hnonneg
      · rw [hreserved]
        refine le_max_of_le_left ?_
        linarith
    · have hzero : openOf id ac = 0 := by
        cases ac with
        | none => rfl
        | some a =>
          have hid : a.accountId ≠ id := by simpa using hhere
          simp [openOf, Ne.symm hid]
      rw [hzero, sub_zero, max_eq_left hnonneg] at hreserved
      refine h.ungranted hnone rfl hframe (by rw [hbooks]) hreserved.le ?_ hopened
      linarith [h.held]

section Grant

variable {cfg : Config} {customerId callUUID : UUID} {rate : RateRow} {cdr : CDR}
  {r : ReserveResult}

/-- The reservation rows after a grant: old ones, and perhaps its own. -/
theorem active_granted (granted : Granted seen cfg customerId rate callUUID cdr db after r)
    {other : UUID} {a : ActiveCall} (ha : after.row (.active other) = some a) :
    db.row (.active other) = some a ∨
      (other = callUUID ∧ a.accountId = granted.accountId ∧
        a.reservedAmount.val = r.reservedAmount) := by
  have hcdr : granted.withCDR.row (.active other) = db.row (.active other) :=
    granted.insertedCDR.row_of_ne (by simp)
  rw [granted.moved.row_of_ne (by simp)] at ha
  cases granted.insertedActive with
  | conflict _ _ _ hsame => exact .inl (by rw [← hcdr, ← hsame, ha])
  | fresh row hopens _ hset =>
    by_cases hother : other = callUUID
    · subst hother
      rw [hset, Database.row_set_self] at ha
      obtain rfl := Option.some.inj ha
      exact .inr ⟨rfl, hopens.account_eq, hopens.amount_eq⟩
    · rw [hset, Database.row_set_of_ne _ _ (by simpa using hother), hcdr] at ha
      exact .inl ha

/-- A grant raises `reserved` on its account and moves nothing else there. -/
theorem books_granted (granted : Granted seen cfg customerId rate callUUID cdr db after r)
    (id : UUID) :
    (reconcile after id).balance = (reconcile db id).balance ∧
      (reconcile after id).reserved = (reconcile db id).reserved +
        if granted.accountId = id then r.reservedAmount else 0 := by
  have hrow := granted_account_row granted id
  rw [reconcile_reserved granted]
  simp only [reconcile, hrow, eq_comm, and_self]

theorem Committed.granted (h : Committed jobs start id history db)
    (hjob : jobs t = .reserve cfg customerId rate callUUID cdr)
    (hseen : ∀ d, seen d → Frame db d) (hframe : Frame db after)
    (granted : Granted seen cfg customerId rate callUUID cdr db after r) :
    Committed jobs start id (⟨t, .reserved r, db, after⟩ :: history) after := by
  obtain ⟨hbalance, hreserved⟩ := books_granted granted id
  have hon := grantedOn_granted hjob hseen granted id
  by_cases hid : granted.accountId = id
  · subst hid
    rw [if_pos rfl] at hon hreserved
    have hgrants : openGrants jobs granted.accountId (⟨t, .reserved r, db, after⟩ :: history) =
        (callUUID, r.reservedAmount) :: openGrants jobs granted.accountId history := by
      rw [openGrants, hon]
    have hamount : 0 ≤ r.reservedAmount := by
      rw [granted.amount_eq]
      exact reserveAmount_nonneg _ (toRating_valid rate)
    have hold : db.row (.account granted.accountId) = some granted.moved.old :=
      (granted_account_row granted _).symm.trans granted.moved.old_row
    -- the update decided on this row, whatever had been read before
    obtain ⟨hpositive, hafford⟩ := granted_affordable granted
    have hfree := funds_of_row hold
    have hsub := funds_sub granted.accountId hframe
    refine ⟨h.frame.trans hframe, by linarith [h.funds_eq], fun other a ha hid => ?_,
      fun grant hgrant => ?_, ?_, fun _ _ _ => ?_, fun other hother call found hfound => ?_⟩
    · rw [hgrants]
      rcases active_granted granted ha with hrow | ⟨rfl, -, hsame⟩
      · exact (h.opened other a hrow hid).imp_right (List.mem_cons_of_mem _)
      · exact .inr (List.mem_cons.mpr (.inl (by rw [hsame])))
    · rw [hgrants] at hgrant
      rcases List.mem_cons.mp hgrant with rfl | hgrant
      · exact hamount
      · exact h.nonneg grant hgrant
    · have hheld := h.held
      unfold openSum at hheld ⊢
      rw [hgrants, List.map_cons, List.sum_cons, hreserved]
      linarith
    · rw [hreserved]
      linarith [h.funds_eq]
    · rcases List.mem_cons.mp hother with rfl | hother
      · rw [hon] at hfound
        obtain ⟨rfl, rfl⟩ := Prod.mk.inj (Option.some.inj hfound)
        exact ⟨_, hold, hpositive, hafford⟩
      · exact h.saw other hother call found hfound
  · rw [if_neg hid] at hon hreserved
    rw [add_zero] at hreserved
    have hsum := openSum_filter_le h ⟨t, .reserved r, db, after⟩
    refine h.ungranted hon rfl hframe hbalance hreserved.le ?_ (fun other a ha haccount => ?_)
    · linarith [h.held]
    · rcases active_granted granted ha with hrow | ⟨-, hsame, -⟩
      · exact hrow
      · exact absurd (hsame.symm.trans haccount) hid

end Grant

end Ledger

/-- In every interleaving of reservations, repeated ones included, and of
releases of the calls they are for, from any store:

the funds of an account stay as they are; as soon as anything was granted on
it, everything that was reserved at the start or is granted and open is within
the funds, and before that nothing is open; every grant found the account, at
its commit, with something available and enough for its amount; and a
reservation that ended in an error is not in the history, and the same store
and history are reached by a run in which it never started. -/
theorem reservations_within_funds (jobs : ℕ → Job) (db : DB) (σ : JobServer) (id : UUID)
    (hrun : Runs jobs db σ) (hjobs : ∀ t, (jobs t).OnlyReserves)
    (hreleases : ∀ t callUUID, (jobs t).releases = some callUUID →
      db.row (.active callUUID) = none) :
    funds σ.db id = funds db id ∧
    ((∃ c ∈ σ.history, (grantedOn jobs id c).isSome) →
      (reconcile db id).reserved + openSum jobs id σ.history ≤ funds db id) ∧
    ((∀ c ∈ σ.history, grantedOn jobs id c = none) → openGrants jobs id σ.history = []) ∧
    (∀ c ∈ σ.history, ∀ callUUID r, grantedOn jobs id c = some (callUUID, r) →
      ∃ a, c.before.row (.account id) = some a ∧ 0 < a.available ∧
        r.reservedAmount ≤ a.available) ∧
    (∀ t, σ.status t = .aborted → (∀ c ∈ σ.history, c.id ≠ t) ∧
      ∃ σ', Runs jobs db σ' ∧ σ'.status t = .idle ∧ σ'.db = σ.db ∧ σ'.history = σ.history) := by
  have hinv : Committed jobs db id σ.history σ.db := by
    refine hrun.invariant (Committed jobs db id) (.initial db) ?_
    intro t history before after result _ hinv hdid
    have hseen : ∀ d, (∃ older, older <:+ history ∧ Committed jobs db id older d) →
        Frame before d := by
      rintro d ⟨older, -, hd⟩
      exact hinv.frame.symm.trans hd.frame
    have hframe : Frame before after := Frame.did hdid
    have honly := hjobs t
    generalize hjob : jobs t = job at hdid honly
    cases hdid with
    | reserve granted => exact hinv.granted hjob hseen hframe granted
    | @releaseReservation cfg now callUUID sipCode reason disposition step detail released =>
      have hnone : grantedOn jobs id ⟨t, .released, before, after⟩ = none := by
        simp [grantedOn, hjob]
      exact hinv.released hnone (hreleases t callUUID (by rw [hjob]; rfl)) hframe
        (released.releasedCall (fun _ => rfl))
    | bill _ | reconcile _ | postMoney _ | topup _ _ _ _ | payment _ _ => exact honly.elim
  refine ⟨hinv.funds_eq, ?_, fun hnone => ?_, hinv.saw, fun t haborted => ⟨?_, ?_⟩⟩
  · rintro ⟨c, hc, hsome⟩
    exact hinv.held.trans (hinv.within c hc hsome)
  · exact openGrants_eq_nil hnone
  · rintro c hc rfl
    have hdone := Reachable.committed_of_mem hrun c hc
    rw [haborted] at hdone
    cases hdone
  · refine ⟨σ.without t, Reachable.without hrun (by simp [haborted]), ?_, rfl, rfl⟩
    simp [Server.without]

/-- A setup that is repeated, one of another call, and a release. -/
def sampleReservations : ℕ → Job
  | 0 => sampleSetup 42 sampleRate
  | 1 => sampleSetup 42 sampleRate
  | 2 => sampleSetup 43 sampleRate
  | _ => .releaseReservation sampleConfig 91000000000 42 503 "released" .failed "" ""

theorem reservations_within_funds_sampleReservations :
    ∃ σ, Runs sampleReservations (sampleStore ⟨10000000, by decide⟩) σ ∧
      σ.history.length = 4 ∧ openSum sampleReservations 1 σ.history = 3 / 10 ∧
      funds σ.db 1 = funds (sampleStore ⟨10000000, by decide⟩) 1 ∧
      (reconcile (sampleStore ⟨10000000, by decide⟩) 1).reserved +
        openSum sampleReservations 1 σ.history ≤ funds (sampleStore ⟨10000000, by decide⟩) 1 := by
  have hcalls : (runSerially sampleReservations [0, 1, 2, 3]
      (sampleStore ⟨10000000, by decide⟩)).map (fun final =>
        (final.2.length, openSum sampleReservations 1 final.2,
          final.2.any (fun c => (grantedOn sampleReservations 1 c).isSome))) =
      some (4, 3 / 10, true) := by
    decide +kernel
  obtain ⟨σ, hrun, hfinal⟩ := runs_serially hcalls
  simp only [Prod.mk.injEq] at hfinal
  obtain ⟨hlength, hsum, hany⟩ := hfinal
  have hjobs : ∀ t, (sampleReservations t).OnlyReserves := by
    intro t
    match t with
    | 0 | 1 | 2 => trivial
    | _ + 3 => trivial
  have hreleases : ∀ t callUUID, (sampleReservations t).releases = some callUUID →
      (sampleStore ⟨10000000, by decide⟩).row (.active callUUID) = none :=
    fun _ callUUID _ => (sampleStore_noReservations _).none_open callUUID
  obtain ⟨hfunds, hwithin, -⟩ :=
    reservations_within_funds sampleReservations _ σ 1 hrun hjobs hreleases
  exact ⟨σ, hrun, hlength, hsum, hfunds, hwithin (List.any_eq_true.mp hany)⟩

/-- An overdrawn account on which nothing is reserved: the empty sum is zero,
and the funds are less. -/
theorem nothing_open_exceeds_overdrawn_funds :
    ∃ σ, Runs sampleReservations (sampleStore ⟨-5000000, by decide⟩) σ ∧
      funds σ.db 1 = -5 ∧ openSum sampleReservations 1 σ.history = 0 ∧
      ¬ openSum sampleReservations 1 σ.history ≤ funds σ.db 1 := by
  refine ⟨Server.initial _, Relation.ReflTransGen.refl, ?_, ?_, ?_⟩
  · decide +kernel
  · rfl
  · decide +kernel

end SuperSbc
