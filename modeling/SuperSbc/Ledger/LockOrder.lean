import SuperSbc.Billing.Readings
import SuperSbc.Jobs
import SuperSbc.ReadCommitted.Schedule

/-!
The order in which transactions lock rows. Every one of them takes the record
of its call, then the reservation, then carrier accounts, then at most one
customer account. The carrier accounts are the only choice: billing charges
the answering carrier first and then the fees of failed attempts in the order
of the attempts, so two calls that failed over between the same carriers in
opposite directions wait for each other.

With a numbering of the carrier accounts in which every bill goes upwards
there is no deadlock. Rates, carriers and the index of accounts are not
written by any job, so which accounts a bill charges is known beforehand.
-/

namespace SuperSbc.Ledger

open FixedPoint Rating ReadCommitted Transaction Store Billing CallControl Admin

/-- The carriers a bill charges, in its order: the one that answered, then one
for each fee. -/
def chargedCarriers (db : DB) (h : HangupInfo) (attempts : List AttemptRecord) : List UUID :=
  (if h.answerTime.isSome then h.answeredCarrierId.toList else []) ++
    (attempts.filter (chargesFee db)).map (·.carrierId)

/-- The accounts of carriers; a carrier without one is skipped. -/
def accountsOf (db : DB) (carriers : List UUID) : List UUID :=
  carriers.filterMap (fun carrierId => (findAccount db ⟨.carrier, carrierId⟩).map (·.1))

def chargedAccounts (db : DB) (h : HangupInfo) (attempts : List AttemptRecord) : List UUID :=
  accountsOf db (chargedCarriers db h attempts)

/-- Accounts in ascending order of their numbers, repetitions allowed. -/
def Ascends (number : UUID → ℕ) (accounts : List UUID) : Prop :=
  accounts.Pairwise (fun first later => first = later ∨ number first < number later)

instance (number : UUID → ℕ) (accounts : List UUID) : Decidable (Ascends number accounts) :=
  inferInstanceAs (Decidable (List.Pairwise _ _))

def carrierAccount (db : DB) (accountId : UUID) : Bool :=
  (db.row (.account accountId)).any (fun a => a.owner.kind = .carrier)

/-- The rank of a row in the order of locking. -/
def lockRank (number : UUID → ℕ) (db : DB) : Key → WithTop ℕ
  | .cdr _ => .some 0
  | .active _ => .some 1
  | .account id => if carrierAccount db id then .some (number id + 2) else ⊤
  | .accountOf _ | .rate _ | .rateGroup _ | .carrier _ => .some 0

def callOf : Job → Option UUID
  | .reserve _ _ _ callUUID _ | .reconcile _ _ callUUID
  | .releaseReservation _ _ callUUID _ _ _ _ _ => some callUUID
  | .bill _ _ h => some h.callUUID
  | .postMoney _ | .createPayment _ => none

/-- What rows look like while jobs run that started on `db`: accounts keep
their owners, reservations are on customer accounts, a record that is not
billed charges carriers in order, and the rest does not change. -/
def RowOk (number : UUID → ℕ) (jobs : ℕ → Job) (db : DB) : (key : Key) → Option (Row key) → Prop
  | .account id, found => found.map Account.owner = (db.row (.account id)).map Account.owner
  | .active _, found => ∀ ac, found = some ac → carrierAccount db ac.accountId = false
  | .cdr callUUID, found => ∀ cdr, found = some cdr → cdr.billedAt = none →
      ∀ t h, (jobs t).hangup = some h → h.callUUID = callUUID →
        Ascends number (chargedAccounts db h cdr.attempts)
  | .accountOf owner, found => found = db.row (.accountOf owner)
  | .rate id, found => found = db.row (.rate id)
  | .rateGroup id, found => found = db.row (.rateGroup id)
  | .carrier id, found => found = db.row (.carrier id)

section Discipline

variable {number : UUID → ℕ} {jobs : ℕ → Job} {db : DB} {held : Set Key}

variable {accountId : UUID}

theorem findAccount_id {d : DB} (hd : ∀ key, RowOk number jobs db key (d.row key)) (owner : Owner) :
    (findAccount d owner).map (·.1) = (findAccount db owner).map (·.1) := by
  have hindex : d.row (.accountOf owner) = db.row (.accountOf owner) := hd (.accountOf owner)
  unfold findAccount
  rw [hindex]
  cases db.row (.accountOf owner) with
  | none => rfl
  | some id =>
    have howner : (d.row (.account id)).map Account.owner =
        (db.row (.account id)).map Account.owner := hd (.account id)
    dsimp only
    cases hold : db.row (.account id) with
    | none =>
      rw [hold, Option.map_none, Option.map_eq_none_iff] at howner
      rw [howner]
    | some b =>
      rw [hold, Option.map_some, Option.map_eq_some_iff] at howner
      obtain ⟨a, ha, hsame⟩ := howner
      rw [ha]
      dsimp only
      rw [hsame]
      split_ifs <;> rfl

theorem carrierAccount_of_found {owner : Owner} {a : Account}
    (hfound : findAccount db owner = some (accountId, a)) :
    carrierAccount db accountId = decide (owner.kind = .carrier) := by
  obtain ⟨hrow, howner⟩ := findAccount_some hfound
  simp [carrierAccount, hrow, howner]

/-- An account found while jobs run is one of the account's own kind. -/
theorem carrierAccount_of_read {d : DB} (hd : ∀ key, RowOk number jobs db key (d.row key))
    {owner : Owner} {a : Account} (hfound : findAccount d owner = some (accountId, a)) :
    carrierAccount db accountId = decide (owner.kind = .carrier) := by
  have hsame := findAccount_id hd owner
  rw [hfound, Option.map_some, eq_comm, Option.map_eq_some_iff] at hsame
  obtain ⟨⟨id, b⟩, hbefore, rfl⟩ := hsame
  exact carrierAccount_of_found hbefore

theorem above_empty (key : Key) : Above (lockRank number db) ∅ key := .inr (by simp)

/-- A customer account may be taken by whoever holds no other. -/
theorem above_customer (hcustomer : carrierAccount db accountId = false)
    (hheld : ∀ key ∈ held, lockRank number db key < ⊤) :
    Above (lockRank number db) held (.account accountId) := by
  refine .inr (fun key hkey => ?_)
  have htop : lockRank number db (.account accountId) = ⊤ := by simp [lockRank, hcustomer]
  rw [htop]
  exact hheld key hkey

section Accounts

variable {accountId : UUID} {post : Account → Set Key → Prop}

variable {amount : Decimal} {description : String}

theorem climbs_numeric {x : Decimal} {post : Money → Set Key → Prop}
    (hpost : ∀ m, post m held) :
    (numeric x).climbs (lockRank number db) (RowOk number jobs db) held post := by
  unfold numeric
  split
  · exact hpost _
  · trivial

theorem climbs_lockAccount (habove : Above (lockRank number db) held (.account accountId))
    (hpost : ∀ a, post a (insert (.account accountId) held)) :
    (lockAccount accountId).climbs (lockRank number db) (RowOk number jobs db) held post := by
  unfold lockAccount
  rw [climbs_bind, climbs_lockRow]
  exact ⟨habove, fun a _ => hpost a, trivial⟩

theorem climbs_moveMoney {call : Option UUID} {kind : LedgerKind}
    {change : Account → Change Account} {missing : StoreError} {createdBy : Option String}
    (habove : Above (lockRank number db) held (.account accountId))
    (howner : ∀ a a', change a = .put a' → a'.owner = a.owner)
    (hpost : ∀ a, post a (insert (.account accountId) held)) :
    (moveMoney accountId call kind change missing amount description createdBy).climbs
      (lockRank number db) (RowOk number jobs db) held post := by
  unfold moveMoney
  rw [climbs_bind, climbs_updateRow]
  refine ⟨habove, fun a a' hold hput => ⟨?_, ?_⟩, trivial⟩
  · have hsame : some a.owner = (db.row (.account accountId)).map Account.owner := hold
    change some a'.owner = _
    rw [howner a a' hput, hsame]
  · rw [climbs_bind]
    refine climbs_numeric (fun m => ?_)
    rw [climbs_bind, climbs_appendEntry]
    exact hpost a'

theorem setReserved_owner {a a' : Account} {x : Decimal} (h : setReserved a x = .put a') :
    a'.owner = a.owner := by
  unfold setReserved at h
  split at h
  · cases h
  · split_ifs at h
    obtain rfl := Change.put.inj h
    rfl

theorem reserveChange_owner {a a' : Account} (h : reserveChange amount a = .put a') :
    a'.owner = a.owner := by
  unfold reserveChange at h
  split_ifs at h
  exact setReserved_owner h

theorem climbs_post {call : Option UUID} {kind : LedgerKind} {createdBy : Option String}
    (habove : Above (lockRank number db) held (.account accountId))
    (hpost : ∀ a, post a (insert (.account accountId) held)) :
    (Store.post accountId call kind amount description createdBy).climbs
      (lockRank number db) (RowOk number jobs db) held post :=
  climbs_moveMoney habove (fun _ _ hput => (setBalance_put hput).2.2.2) hpost

theorem climbs_release {callUUID : UUID}
    (habove : Above (lockRank number db) held (.account accountId))
    (hpost : ∀ a, post a (insert (.account accountId) held)) :
    (release accountId callUUID amount description).climbs
      (lockRank number db) (RowOk number jobs db) held post := by
  unfold release
  split_ifs
  · exact climbs_lockAccount habove hpost
  · exact climbs_moveMoney habove (fun _ _ hput => setReserved_owner hput) hpost

end Accounts

/-- What a bill holds once it has charged the accounts `done`. -/
structure Holding (db : DB) (callUUID : UUID) (done : List UUID) (held : Set Key) : Prop where
  rows : ∀ key ∈ held, key = .cdr callUUID ∨ key = .active callUUID ∨
    ∃ id ∈ done, key = .account id
  accounts : ∀ id ∈ done, Key.account id ∈ held
  carriers : ∀ id ∈ done, carrierAccount db id = true

variable {callUUID : UUID} {done : List UUID}

theorem Holding.nothing (db : DB) (callUUID : UUID) : Holding db callUUID [] ∅ :=
  ⟨by simp, by simp, by simp⟩

theorem Holding.record (h : Holding db callUUID [] held) :
    Holding db callUUID [] (insert (.cdr callUUID) held) := by
  refine ⟨fun key hkey => ?_, by simp, by simp⟩
  rcases Set.mem_insert_iff.mp hkey with rfl | hkey
  · exact .inl rfl
  · exact h.rows key hkey

theorem Holding.reservation (h : Holding db callUUID [] held) :
    Holding db callUUID [] (insert (.active callUUID) held) := by
  refine ⟨fun key hkey => ?_, by simp, by simp⟩
  rcases Set.mem_insert_iff.mp hkey with rfl | hkey
  · exact .inr (.inl rfl)
  · exact h.rows key hkey

theorem Holding.above_active (h : Holding db callUUID [] held) :
    Above (lockRank number db) held (.active callUUID) := by
  by_cases hheld : Key.active callUUID ∈ held
  · exact .inl hheld
  refine .inr (fun key hkey => ?_)
  rcases h.rows key hkey with rfl | rfl | ⟨id, hid, -⟩
  · exact WithTop.coe_lt_coe.mpr (by omega)
  · exact absurd hkey hheld
  · cases hid

theorem Holding.below_top (h : Holding db callUUID done held) :
    ∀ key ∈ held, lockRank number db key < ⊤ := by
  intro key hkey
  rcases h.rows key hkey with rfl | rfl | ⟨id, hid, rfl⟩
  · exact WithTop.coe_lt_top _
  · exact WithTop.coe_lt_top _
  · rw [lockRank, if_pos (h.carriers id hid)]
    exact WithTop.coe_lt_top _

/-- A carrier account may be taken next if its number is not below those that
were charged. -/
theorem Holding.above {accountId : UUID} (h : Holding db callUUID done held)
    (hcarrier : carrierAccount db accountId = true)
    (hlater : ∀ first ∈ done, first = accountId ∨ number first < number accountId) :
    Above (lockRank number db) held (.account accountId) := by
  by_cases hdone : accountId ∈ done
  · exact .inl (h.accounts accountId hdone)
  have hrank : lockRank number db (.account accountId) = .some (number accountId + 2) :=
    if_pos hcarrier
  refine .inr (fun key hkey => ?_)
  rw [hrank]
  rcases h.rows key hkey with rfl | rfl | ⟨first, hfirst, rfl⟩
  · exact WithTop.coe_lt_coe.mpr (by omega)
  · exact WithTop.coe_lt_coe.mpr (by omega)
  · rw [lockRank, if_pos (h.carriers first hfirst)]
    rcases hlater first hfirst with rfl | hless
    · exact absurd hfirst hdone
    · exact WithTop.coe_lt_coe.mpr (by omega)

theorem Holding.add {accountId : UUID} (h : Holding db callUUID done held)
    (hcarrier : carrierAccount db accountId = true) :
    Holding db callUUID (done ++ [accountId]) (insert (.account accountId) held) := by
  refine ⟨fun key hkey => ?_, fun id hid => ?_, fun id hid => ?_⟩
  · rcases Set.mem_insert_iff.mp hkey with rfl | hkey
    · exact .inr (.inr ⟨accountId, by simp, rfl⟩)
    · rcases h.rows key hkey with hcdr | hactive | ⟨id, hid, hid'⟩
      · exact .inl hcdr
      · exact .inr (.inl hactive)
      · exact .inr (.inr ⟨id, by simp [hid], hid'⟩)
  · rcases List.mem_append.mp hid with hid | hid
    · exact Set.mem_insert_of_mem _ (h.accounts id hid)
    · rw [List.mem_singleton.mp hid]
      exact Set.mem_insert _ _
  · rcases List.mem_append.mp hid with hid | hid
    · exact h.carriers id hid
    · rw [List.mem_singleton.mp hid]
      exact hcarrier

section Costs

variable {post : Unit → Set Key → Prop}

theorem climbs_postCost {carrierId : UUID} {amount : Decimal} {description : String}
    (h : Holding db callUUID done held)
    (hascends : Ascends number (done ++ accountsOf db [carrierId]))
    (hpost : ∀ later, Holding db callUUID (done ++ accountsOf db [carrierId]) later →
      post () later) :
    (postCost callUUID carrierId amount description).climbs
      (lockRank number db) (RowOk number jobs db) held post := by
  unfold postCost accountByOwner
  rw [climbs_bind, climbs_select]
  intro d hd
  have hsame := findAccount_id hd ⟨.carrier, carrierId⟩
  cases hfound : findAccount d ⟨.carrier, carrierId⟩ with
  | none =>
    rw [hfound, Option.map_none] at hsame
    have hnone : accountsOf db [carrierId] = [] := by simp [accountsOf, ← hsame]
    rw [hnone, List.append_nil] at hpost
    exact hpost held h
  | some found =>
    obtain ⟨accountId, a⟩ := found
    rw [hfound, Option.map_some] at hsame
    have hone : accountsOf db [carrierId] = [accountId] := by simp [accountsOf, ← hsame]
    have hcarrier : carrierAccount db accountId = true := by
      rw [carrierAccount_of_read hd hfound]
      rfl
    rw [hone] at hpost hascends
    have hlater : ∀ first ∈ done, first = accountId ∨ number first < number accountId :=
      fun first hfirst => (List.pairwise_append.mp hascends).2.2 first hfirst accountId (by simp)
    dsimp only
    rw [climbs_bind]
    exact climbs_post (h.above hcarrier hlater) (fun _ => hpost _ (h.add hcarrier))

theorem Ascends.sublist {accounts accounts' : List UUID} (h : Ascends number accounts)
    (hsub : accounts'.Sublist accounts) : Ascends number accounts' := List.Pairwise.sublist hsub h

theorem climbs_postFees {calledNumber : String} (fees : List AttemptFee)
    (h : Holding db callUUID done held)
    (hascends : Ascends number (done ++ accountsOf db (fees.map (·.carrierId))))
    (hpost : ∀ done later, Holding db callUUID done later → post () later) :
    (postFees callUUID calledNumber fees).climbs
      (lockRank number db) (RowOk number jobs db) held post := by
  induction fees generalizing done held with
  | nil => exact hpost done held h
  | cons f rest ih =>
    have hsplit : accountsOf db ((f :: rest).map (·.carrierId)) =
        accountsOf db [f.carrierId] ++ accountsOf db (rest.map (·.carrierId)) := by
      rw [accountsOf, accountsOf, accountsOf, ← List.filterMap_append]
      rfl
    rw [hsplit, ← List.append_assoc] at hascends
    unfold postFees
    rw [climbs_bind]
    refine climbs_postCost h (hascends.sublist (List.sublist_append_left _ _))
      (fun later hlater => ?_)
    exact ih hlater hascends

theorem climbs_postCosts {h : HangupInfo} {c : CDR} {cost : Decimal} {calledNumber : String}
    {fees : List AttemptFee} {attempts : List AttemptRecord} (hheld : Holding db callUUID [] held)
    (hascends : Ascends number (chargedAccounts db h attempts))
    (hcarrier : 0 < cost → ∃ carrierId, h.answerTime.isSome ∧
      h.answeredCarrierId = some carrierId ∧ c.carrierId = some carrierId)
    (hfees : fees.map (·.carrierId) = (attempts.filter (chargesFee db)).map (·.carrierId))
    (hpost : ∀ done later, Holding db callUUID done later → post () later) :
    (postCarrierCost callUUID c cost).climbs (lockRank number db) (RowOk number jobs db) held
      (fun _ later => (postFees callUUID calledNumber fees).climbs
        (lockRank number db) (RowOk number jobs db) later post) := by
  have hsplit : chargedAccounts db h attempts =
      accountsOf db (if h.answerTime.isSome then h.answeredCarrierId.toList else []) ++
        accountsOf db (fees.map (·.carrierId)) := by
    rw [chargedAccounts, chargedCarriers, hfees, accountsOf, List.filterMap_append]
    rfl
  rw [hsplit] at hascends
  have hrest : Ascends number (accountsOf db (fees.map (·.carrierId))) :=
    hascends.sublist (List.sublist_append_right _ _)
  unfold postCarrierCost
  split
  · exact climbs_postFees fees hheld hrest hpost
  · rename_i carrierId hcarrierId
    split_ifs with hcost
    · obtain ⟨answering, hanswered, hanswering, hcharged⟩ := hcarrier hcost
      obtain rfl := Option.some.inj (hcarrierId.symm.trans hcharged)
      rw [if_pos hanswered, hanswering] at hascends
      refine climbs_postCost hheld (hascends.sublist (List.sublist_append_left _ _))
        (fun later hlater => ?_)
      exact climbs_postFees fees hlater hascends hpost
    · exact climbs_postFees fees hheld hrest hpost

end Costs

section Records

theorem climbs_closeReservation {ac : Option ActiveCall} {price : Decimal} {c : CDR}
    {post : CDR → Set Key → Prop} (hactive : ∀ a, ac = some a → Key.active callUUID ∈ held)
    (hpost : ∀ released charged,
      post { c with releasedAmount := released, chargedAmount := charged } held) :
    (closeReservation callUUID ac price c).climbs
      (lockRank number db) (RowOk number jobs db) held post := by
  unfold closeReservation
  cases ac with
  | none => exact hpost c.releasedAmount c.chargedAmount
  | some a =>
    have hheld : Key.active callUUID ∈ held := hactive a rfl
    unfold deleteActiveCall
    rw [climbs_bind, climbs_deleteRow, Set.insert_eq_of_mem hheld]
    refine ⟨.inl hheld, ?_, hpost _ _, hpost _ _⟩
    intro found hfound
    cases hfound

/-- A record that is written billed asks nothing of later bills. -/
theorem climbs_finalizeCDR {c : CDR} {post : Unit → Set Key → Prop}
    (hheld : Key.cdr callUUID ∈ held) (hbilled : c.billedAt.isSome) (hpost : post () held) :
    (finalizeCDR callUUID c).climbs (lockRank number db) (RowOk number jobs db) held post := by
  unfold finalizeCDR
  rw [climbs_bind, climbs_updateRow, Set.insert_eq_of_mem hheld]
  refine ⟨.inl hheld, fun row row' _ hput => ⟨?_, hpost⟩, hpost⟩
  intro found hfound hpending
  obtain rfl := Option.some.inj hfound
  rw [(finalizedRow_some (finalizeChange_put hput)).billedAt_eq] at hpending
  rw [hpending] at hbilled
  cases hbilled

theorem climbs_customerSide {ac : Option ActiveCall} {c : CDR} {price : Decimal}
    {post : Option Account → Set Key → Prop}
    (hcustomer : ∀ a, ac = some a → carrierAccount db a.accountId = false)
    (hheld : Holding db callUUID done held) (hpost : ∀ acc later, post acc later) :
    (customerSide callUUID ac c price).climbs
      (lockRank number db) (RowOk number jobs db) held post := by
  unfold customerSide
  cases ac with
  | none => exact hpost none held
  | some ac =>
    unfold releaseAndCharge
    rw [climbs_bind, climbs_bind]
    refine climbs_lockAccount (above_customer (hcustomer ac rfl) hheld.below_top) (fun a => ?_)
    rw [climbs_bind]
    refine climbs_release (.inl (Set.mem_insert _ _)) (fun b => ?_)
    split_ifs
    · exact climbs_post (.inl (Set.mem_insert _ _)) (fun _ => hpost _ _)
    · exact hpost _ _

end Records

variable {now : Time} {cdr : CDR} {post : Unit → Set Key → Prop}

/-- The carriers and rates a job reads are those it started with. -/
theorem sameTariffs_of_rowOk {d : DB} (hd : ∀ key, RowOk number jobs db key (d.row key)) :
    SameTariffs db d := ⟨fun id => hd (.carrier id), fun id => hd (.rate id)⟩

theorem climbs_settleLocked {e : Engine} {h : HangupInfo} {ac : Option ActiveCall}
    (hheld : Holding db h.callUUID [] held) (hrecord : Key.cdr h.callUUID ∈ held)
    (hactive : ∀ a, ac = some a →
      Key.active h.callUUID ∈ held ∧ carrierAccount db a.accountId = false)
    (hascends : Ascends number (chargedAccounts db h cdr.attempts)) :
    (settleLocked e now h cdr ac).climbs (lockRank number db) (RowOk number jobs db) held
      (fun _ _ => True) := by
  unfold settleLocked
  rw [climbs_bind]
  refine climbs_of_readOnly (money_readOnly e h _) (fun priced hpriced => ?_)
  obtain ⟨c, price, cost⟩ := priced
  have hmoney := moneyRead_of_yields hpriced
  obtain ⟨hattempts, hbilled⟩ := hmoney.kept
  dsimp only at hattempts hbilled ⊢
  rw [climbs_bind]
  refine climbs_of_readOnly (withTransport_readOnly c) (fun routed hrouted => ?_)
  obtain ⟨transport, rfl⟩ := withTransport_yields hrouted
  rw [climbs_bind]
  refine climbs_of_readOnly (failedAttemptFees_readOnly e 1 [] _) (fun fees hread => ?_)
  obtain ⟨list, hlist, hfees⟩ := failedAttemptFees_yields _
    (fun d hd => sameTariffs_of_rowOk hd) (by simp [KnownBy]) hread
  have hcarriers : fees.2.map (·.carrierId) =
      (cdr.attempts.filter (chargesFee db)).map (·.carrierId) := by
    rw [hfees, carriers_of_feeRead hlist]
    dsimp only
    rw [hattempts]
    exact feeCarriers_fillAttemptPDD db cdr.attempts _ _
  rw [climbs_bind]
  refine climbs_closeReservation (fun a ha => (hactive a ha).1) (fun released charged => ?_)
  rw [climbs_bind]
  refine climbs_finalizeCDR hrecord ?_ ?_
  · simp [hbilled, withHangup]
  simp only [climbs_bind]
  refine climbs_postCosts hheld hascends hmoney.carrier hcarriers (fun done later hlater => ?_)
  exact climbs_customerSide (fun a ha => (hactive a ha).2) hlater (fun _ _ => trivial)

theorem climbs_bill {t : ℕ} {e : Engine} {h : HangupInfo} (hjob : (jobs t).hangup = some h) :
    (bill e now h).climbs (lockRank number db) (RowOk number jobs db) ∅ (fun _ _ => True) := by
  unfold bill lockCDR
  rw [climbs_bind, climbs_lockRow]
  refine ⟨above_empty _, fun cdr hcdr => ?_, trivial⟩
  dsimp only
  split_ifs with hbilled
  · trivial
  have hpending : cdr.billedAt = none := by simpa using hbilled
  have hascends : Ascends number (chargedAccounts db h cdr.attempts) :=
    hcdr cdr rfl hpending t h hjob rfl
  have hheld : Holding db h.callUUID [] (insert (.cdr h.callUUID) ∅) :=
    (Holding.nothing db h.callUUID).record
  unfold settle lockActiveCall
  rw [climbs_bind, climbs_lockRow]
  refine ⟨hheld.above_active, fun a ha => ?_, ?_⟩
  · refine climbs_settleLocked hheld.reservation (by simp) (fun b hb => ?_) hascends
    obtain rfl := Option.some.inj hb
    exact ⟨by simp, ha a rfl⟩
  · exact climbs_settleLocked hheld (by simp) (by simp) hascends

theorem climbs_giveBack {ac : Option ActiveCall} {reason : String} {post : CDR → Set Key → Prop}
    (hheld : Holding db callUUID [] held) (hrecord : Key.cdr callUUID ∈ held)
    (hactive : ∀ a, ac = some a →
      Key.active callUUID ∈ held ∧ carrierAccount db a.accountId = false)
    (hpost : ∀ c later, Key.cdr callUUID ∈ later → post c later) :
    (giveBack callUUID ac reason cdr).climbs
      (lockRank number db) (RowOk number jobs db) held post := by
  unfold giveBack
  cases ac with
  | none => exact hpost cdr held hrecord
  | some ac =>
    obtain ⟨hopen, hcustomer⟩ := hactive ac rfl
    rw [climbs_bind]
    refine climbs_lockAccount (above_customer hcustomer hheld.below_top) (fun a => ?_)
    rw [climbs_bind]
    refine climbs_release (.inl (Set.mem_insert _ _)) (fun b => ?_)
    unfold deleteActiveCall
    rw [climbs_bind, climbs_deleteRow]
    refine ⟨.inl (by simp [hopen]), ?_, hpost _ _ (by simp [hrecord]),
      hpost _ _ (by simp [hrecord])⟩
    intro found hfound
    cases hfound

theorem climbs_releaseReservation {cfg : Config} {sipCode : ℤ} {reason step detail : String}
    {disposition : Disposition} :
    (releaseReservation cfg now callUUID sipCode reason disposition step detail).climbs
      (lockRank number db) (RowOk number jobs db) ∅ (fun _ _ => True) := by
  have hheld : Holding db callUUID [] (insert (.cdr callUUID) ∅) :=
    (Holding.nothing db callUUID).record
  unfold releaseReservation lockCDR
  rw [climbs_bind, climbs_lockRow]
  refine ⟨above_empty _, fun cdr _ => ?_, trivial⟩
  dsimp only
  split_ifs
  · trivial
  unfold lockActiveCall
  rw [climbs_bind, climbs_lockRow]
  refine ⟨hheld.above_active, fun a ha => ?_, ?_⟩
  · rw [climbs_bind]
    refine climbs_giveBack hheld.reservation (by simp) (fun b hb => ?_) (fun c later hlater => ?_)
    · obtain rfl := Option.some.inj hb
      exact ⟨by simp, ha a rfl⟩
    · exact climbs_finalizeCDR hlater (by simp [releasedCDR]) trivial
  · rw [climbs_bind]
    refine climbs_giveBack hheld (by simp) (by simp) (fun c later hlater => ?_)
    exact climbs_finalizeCDR hlater (by simp [releasedCDR]) trivial

theorem climbs_insertCDRSetup
    (hunbilled : ∀ t h, (jobs t).hangup = some h → h.callUUID ≠ callUUID)
    (hpost : ∀ later, Holding db callUUID [] later → post () later) :
    (insertCDRSetup callUUID cdr).climbs (lockRank number db) (RowOk number jobs db) ∅ post := by
  have hnothing : Holding db callUUID [] ∅ := .nothing db callUUID
  unfold insertCDRSetup
  split
  · trivial
  rw [climbs_bind, climbs_insertRow]
  refine ⟨above_empty _, ?_, hpost _ hnothing.record, hpost _ hnothing⟩
  intro row _ _ t h hjob hcall
  exact absurd hcall (hunbilled t h hjob)

theorem climbs_insertActiveCall {a : NewActiveCall} (hheld : Holding db callUUID [] held)
    (hcustomer : carrierAccount db a.accountId = false)
    (hpost : ∀ later, Holding db callUUID [] later → post () later) :
    (insertActiveCall callUUID a).climbs (lockRank number db) (RowOk number jobs db) held post := by
  unfold insertActiveCall
  rw [climbs_bind]
  refine climbs_numeric (fun m => ?_)
  rw [climbs_bind, climbs_insertRow]
  refine ⟨hheld.above_active, ?_, hpost _ hheld.reservation, hpost _ hheld⟩
  intro row hrow
  obtain rfl := Option.some.inj hrow
  exact hcustomer

theorem climbs_reserve {cfg : Config} {customerId : UUID} {rate : RateRow}
    (hunbilled : ∀ t h, (jobs t).hangup = some h → h.callUUID ≠ callUUID) :
    (CallControl.reserve cfg customerId rate callUUID cdr).climbs
      (lockRank number db) (RowOk number jobs db) ∅ (fun _ _ => True) := by
  unfold CallControl.reserve accountByOwner
  rw [climbs_bind, climbs_select]
  intro d hd
  cases hfound : findAccount d ⟨.customer, customerId⟩ with
  | none => trivial
  | some found =>
    obtain ⟨accountId, a⟩ := found
    have hcustomer : carrierAccount db accountId = false := by
      rw [carrierAccount_of_read hd hfound]
      rfl
    dsimp only
    split_ifs
    · trivial
    unfold reserveTx
    rw [climbs_bind]
    refine climbs_insertCDRSetup hunbilled (fun held hheld => ?_)
    rw [climbs_bind]
    refine climbs_insertActiveCall hheld hcustomer (fun later hlater => ?_)
    rw [climbs_bind]
    exact climbs_moveMoney (above_customer hcustomer hlater.below_top)
      (fun _ _ hput => reserveChange_owner hput) (fun _ => trivial)

theorem climbs_lockAndPost {accountId : UUID} {call : Option UUID} {kind : LedgerKind}
    {amount : Decimal} {description : String} {createdBy : Option String}
    {post : Account → Set Key → Prop} (hpost : ∀ a later, post a later) :
    (lockAccount accountId).climbs (lockRank number db) (RowOk number jobs db) ∅
      (fun _ later => (Store.post accountId call kind amount description createdBy).climbs
        (lockRank number db) (RowOk number jobs db) later post) :=
  climbs_lockAccount (above_empty _)
    (fun _ => climbs_post (.inl (Set.mem_insert _ _)) (fun a => hpost a _))

theorem climbs_postMoney {r : MoneyRequest} :
    (postMoney r).climbs (lockRank number db) (RowOk number jobs db) ∅ (fun _ _ => True) := by
  unfold postMoney accountByOwner
  split_ifs
  · trivial
  rw [climbs_bind, climbs_select]
  intro d _
  cases findAccount d r.owner with
  | none => trivial
  | some found =>
    dsimp only
    rw [climbs_bind]
    exact climbs_lockAndPost (fun _ _ => trivial)

theorem climbs_insertPayment {r : PaymentRequest} (hpost : post () held) :
    (insertPayment r).climbs (lockRank number db) (RowOk number jobs db) held post := by
  unfold insertPayment
  rw [climbs_bind]
  refine climbs_numeric (fun m => ?_)
  split_ifs
  · exact hpost
  · trivial

theorem climbs_createPayment {r : PaymentRequest} :
    (createPayment r).climbs (lockRank number db) (RowOk number jobs db) ∅ (fun _ _ => True) := by
  unfold createPayment accountByOwner
  by_cases hamount : r.amount ≤ 0
  · rw [if_pos hamount]
    trivial
  rw [if_neg hamount, climbs_bind, climbs_select]
  intro d _
  cases findAccount d r.owner with
  | none => trivial
  | some found =>
    dsimp only
    rw [climbs_bind]
    refine climbs_insertPayment ?_
    split_ifs
    · simp only [climbs_bind]
      exact climbs_lockAndPost (fun _ _ => trivial)
    · trivial

end Discipline

/-- Reservations are on customer accounts. -/
def ReservesForCustomers (db : DB) : Prop :=
  ∀ callUUID ac, db.row (.active callUUID) = some ac → carrierAccount db ac.accountId = false

/-- Every bill charges carrier accounts upwards in one numbering. -/
def ChargesInOrder (number : UUID → ℕ) (jobs : ℕ → Job) (db : DB) : Prop :=
  ∀ t h cdr, (jobs t).hangup = some h → db.row (.cdr h.callUUID) = some cdr →
    cdr.billedAt = none → Ascends number (chargedAccounts db h cdr.attempts)

theorem callOf_of_hangup {job : Job} {h : HangupInfo} (hjob : job.hangup = some h) :
    callOf job = some h.callUUID := by
  cases job with
  | bill e now hangup | reconcile e now callUUID =>
    obtain rfl := Option.some.inj hjob
    rfl
  | reserve | releaseReservation | postMoney | createPayment => cases hjob

theorem rowOk_start {number : UUID → ℕ} {jobs : ℕ → Job} {db : DB}
    (hreserves : ReservesForCustomers db) (horder : ChargesInOrder number jobs db) (key : Key) :
    RowOk number jobs db key (db.row key) := by
  cases key with
  | account id => rfl
  | accountOf owner => rfl
  | rate id => rfl
  | rateGroup id => rfl
  | carrier id => rfl
  | active callUUID => exact fun ac hac => hreserves callUUID ac hac
  | cdr callUUID =>
    intro cdr hcdr hpending t h hjob hcall
    subst hcall
    exact horder t h cdr hjob hcdr hpending

theorem climbs_job {number : UUID → ℕ} {jobs : ℕ → Job} {db : DB}
    (hcalls : ∀ t u callUUID, callOf (jobs t) = some callUUID → callOf (jobs u) = some callUUID →
      t = u) (t : ℕ) :
    (jobs t).tx.climbs (lockRank number db) (RowOk number jobs db) ∅ (fun _ _ => True) := by
  cases hjob : jobs t with
  | reserve cfg customerId rate callUUID cdr =>
    refine (climbs_bind _ _ _).mpr (climbs_reserve (fun u h hu hcall => ?_))
    -- the job that bills this call would be this one
    subst hcall
    obtain rfl := hcalls t u h.callUUID (by rw [hjob]; rfl) (callOf_of_hangup hu)
    rw [hjob] at hu
    cases hu
  | bill e now h | reconcile e now callUUID =>
    exact (climbs_bind _ _ _).mpr (climbs_bill (t := t) (by rw [hjob]; rfl))
  | releaseReservation cfg now callUUID sipCode reason disposition step detail =>
    exact (climbs_bind _ _ _).mpr climbs_releaseReservation
  | postMoney r => exact (climbs_bind _ _ _).mpr climbs_postMoney
  | createPayment r => exact (climbs_bind _ _ _).mpr climbs_createPayment

/-- Jobs on different calls do not deadlock, if carrier accounts can be
numbered so that every bill charges them upwards. -/
theorem jobs_do_not_deadlock (jobs : ℕ → Job) (db : DB) (σ : JobServer) (number : UUID → ℕ)
    (hcalls : ∀ t u callUUID, callOf (jobs t) = some callUUID → callOf (jobs u) = some callUUID →
      t = u)
    (hreserves : ReservesForCustomers db) (horder : ChargesInOrder number jobs db)
    (hruns : Runs jobs db σ) : ¬ σ.Deadlocked := by
  have hclimbing : Climbing (lockRank number db) (RowOk number jobs db) σ :=
    Reachable.climbing hruns (climbs_job hcalls) (rowOk_start hreserves horder)
  exact hclimbing.not_deadlocked

/-! Two calls that were tried at the same two carriers, in opposite
directions. Both carriers charge for failed attempts. -/

def sampleBuyRate : RateRow :=
  { sampleRate with
    id := 31
    ratePerMin := 2 / 100
    connectFee := 1 / 100
    ratePerMin_nonneg := by norm_num
    ratePerMin_scale := by decide +kernel
    connectFee_nonneg := by norm_num
    connectFee_scale := by decide +kernel }

def sampleAttempt (carrierId : UUID) (classification : Classification) : AttemptRecord where
  seq := 1
  carrierId := carrierId
  sipCode := 503
  hangupCause := "NORMAL_TEMPORARY_FAILURE"
  startedAt := 0
  endedAt := none
  pddMs := none
  classification := classification
  buyRateId := some 31
  cost := none

def sampleTried (failed answered : UUID) : CDR where
  customerId := some 7
  calledNumber := "4930123456"
  sellRateId := some 9
  sellFX := 1
  attempts := [sampleAttempt failed .carrierFault, sampleAttempt answered .answered]

def sampleReservation : ActiveCall where
  customerId := 7
  accountId := 1
  calledNumber := "4930123456"
  reservedAmount := ⟨300000, by decide⟩
  maxCallSeconds := 3600
  startedAt := 0
  expiresAt := 14400 * 1000000000
  node := "sbc-1"

def sampleCarrierAccount (carrierId : UUID) : Account :=
  { sampleAccount 0 with owner := ⟨.carrier, carrierId⟩ }

def sampleCarriers : DB :=
  (((((((sampleStore ⟨10000000, by decide⟩).set (.rate 31) (some sampleBuyRate)).set
    (.carrier 21) (some ⟨"udp", true⟩)).set (.carrier 22) (some ⟨"udp", true⟩)).set
    (.accountOf ⟨.carrier, 21⟩) (some 11)).set (.account 11) (some (sampleCarrierAccount 21))).set
    (.accountOf ⟨.carrier, 22⟩) (some 12)).set (.account 12) (some (sampleCarrierAccount 22))

/-- Call 42 failed at 21 and was answered at 22; call 43 as given. -/
def sampleFailover (failed answered : UUID) : DB :=
  (((sampleCarriers.set (.cdr 42) (some (sampleTried 21 22))).set (.active 42)
    (some sampleReservation)).set (.cdr 43) (some (sampleTried failed answered))).set (.active 43)
    (some sampleReservation)

def sampleAnswered (callUUID carrierId : UUID) : HangupInfo where
  callUUID := callUUID
  answerTime := some 1000000000
  endTime := 90000000000
  billsec := 61
  hangupCause := "NORMAL_CLEARING"
  source := .esl
  answeredCarrierId := some carrierId

def sampleNoPayment : Job :=
  .createPayment ⟨⟨.customer, 7⟩, 0, "", false, "", "", false⟩

def sampleBills (answered : UUID) : ℕ → Job
  | 0 => .bill sampleEngine 90000000000 (sampleAnswered 42 22)
  | 1 => .bill sampleEngine 90000000000 (sampleAnswered 43 answered)
  | _ => sampleNoPayment

theorem sampleBills_calls (answered : UUID) (t u : ℕ) (callUUID : UUID)
    (ht : callOf (sampleBills answered t) = some callUUID)
    (hu : callOf (sampleBills answered u) = some callUUID) : t = u := by
  match t, u with
  | 0, 0 => rfl
  | 1, 1 => rfl
  | 0, 1 =>
    have hsame : (42 : UUID) = 43 := Option.some.inj (ht.trans hu.symm)
    exact absurd hsame (by decide)
  | 1, 0 =>
    have hsame : (43 : UUID) = 42 := Option.some.inj (ht.trans hu.symm)
    exact absurd hsame (by decide)
  | _ + 2, _ => cases ht
  | _, _ + 2 => cases hu

theorem sampleFailover_reserves (failed answered : UUID) :
    ReservesForCustomers (sampleFailover failed answered) := by
  intro callUUID ac hac
  have hcustomer : carrierAccount (sampleFailover failed answered) sampleReservation.accountId =
      false := rfl
  have hrow : (sampleFailover failed answered).row (.active callUUID) = some sampleReservation ∨
      (sampleFailover failed answered).row (.active callUUID) = none := by
    unfold sampleFailover
    by_cases h43 : callUUID = 43
    · subst h43
      exact .inl (Database.row_set_self _ _ _)
    rw [Database.row_set_of_ne _ _ (by simpa using h43), Database.row_set_of_ne _ _ (by simp)]
    by_cases h42 : callUUID = 42
    · subst h42
      exact .inl (Database.row_set_self _ _ _)
    rw [Database.row_set_of_ne _ _ (by simpa using h42)]
    exact .inr rfl
  rcases hrow with hrow | hrow
  · obtain rfl := Option.some.inj (hrow.symm.trans hac)
    exact hcustomer
  · rw [hrow] at hac
    cases hac

/-- Account 12 before account 11. -/
def sampleNumber (accountId : UUID) : ℕ := if accountId = 12 then 0 else 1

/-- Sixteen statements of either bill: it has charged the first carrier. -/
def sampleTurns : List ℕ := List.replicate 16 0 ++ List.replicate 16 1

/-- Both calls failed over from carrier 21 to carrier 22. -/
theorem jobs_do_not_deadlock_sampleFailover :
    ReservesForCustomers (sampleFailover 21 22) ∧
    ChargesInOrder sampleNumber (sampleBills 22) (sampleFailover 21 22) ∧
    ¬ (Server.play (fun t => (sampleBills 22 t).tx) (sampleFailover 21 22)
      sampleTurns).Deadlocked := by
  have horder : ChargesInOrder sampleNumber (sampleBills 22) (sampleFailover 21 22) := by
    have hrecord : (sampleFailover 21 22).row (.cdr 42) = some (sampleTried 21 22) ∧
        (sampleFailover 21 22).row (.cdr 43) = some (sampleTried 21 22) := ⟨rfl, rfl⟩
    intro t h cdr hjob hcdr _
    match t with
    | 0 =>
      obtain rfl := Option.some.inj hjob
      obtain rfl := Option.some.inj (hrecord.1.symm.trans hcdr)
      decide +kernel
    | 1 =>
      obtain rfl := Option.some.inj hjob
      obtain rfl := Option.some.inj (hrecord.2.symm.trans hcdr)
      decide +kernel
    | _ + 2 => cases hjob
  exact ⟨sampleFailover_reserves 21 22, horder, jobs_do_not_deadlock (sampleBills 22)
    (sampleFailover 21 22) _ sampleNumber (sampleBills_calls 22) (sampleFailover_reserves 21 22)
    horder (reachable_play _ _ _)⟩

/-- When the second call failed over from 22 to 21, each bill holds the
account the other one needs next. -/
theorem bills_deadlock :
    ∃ σ, Runs (sampleBills 21) (sampleFailover 22 21) σ ∧
      callOf (sampleBills 21 0) = some 42 ∧ callOf (sampleBills 21 1) = some 43 ∧
      ReservesForCustomers (sampleFailover 22 21) ∧
      σ.WaitsFor 0 1 ∧ σ.WaitsFor 1 0 ∧ σ.Deadlocked := by
  have hwaits : (Server.play (fun t => (sampleBills 21 t).tx) (sampleFailover 22 21)
      sampleTurns).WaitsFor 0 1 := ⟨.account 11, by decide +kernel, by decide +kernel, by decide⟩
  have hwaits' : (Server.play (fun t => (sampleBills 21 t).tx) (sampleFailover 22 21)
      sampleTurns).WaitsFor 1 0 := ⟨.account 12, by decide +kernel, by decide +kernel, by decide⟩
  exact ⟨_, reachable_play _ _ _, rfl, rfl, sampleFailover_reserves 22 21, hwaits, hwaits', 0,
    .tail (.single hwaits) hwaits'⟩

end SuperSbc.Ledger
