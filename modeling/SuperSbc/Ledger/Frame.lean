import SuperSbc.Ledger.Effects

/-!
What no job of the call path or the money endpoints ever changes: whose an
account is, its currency and its credit limit, the index of accounts by owner,
and the tables of rates, rate groups and carriers.
-/

namespace SuperSbc.Ledger

open FixedPoint Rating ReadCommitted Store Billing CallControl

variable {a a' : Account} {amount x : Decimal} {ac : Option ActiveCall} {seen : DB → Prop}

/-- The fields of an account that money movements leave alone. -/
def terms (a : Account) : Owner × String × Money := (a.owner, a.currency, a.allowedCredit)

/-- The tables nobody writes. -/
def IsStatic : Key → Prop
  | .accountOf _ | .rate _ | .rateGroup _ | .carrier _ => True
  | _ => False

/-- Two stores that differ in money, records and reservations only. -/
structure Frame (db after : DB) : Prop where
  terms_eq : ∀ id, (after.row (.account id)).map terms = (db.row (.account id)).map terms
  static_eq : ∀ key, IsStatic key → after.row key = db.row key

variable {db mid after : DB} {callUUID accountId : UUID}

theorem Frame.refl (db : DB) : Frame db db := ⟨fun _ => rfl, fun _ _ => rfl⟩

theorem Frame.trans (h : Frame db mid) (h' : Frame mid after) : Frame db after where
  terms_eq id := (h'.terms_eq id).trans (h.terms_eq id)
  static_eq key hkey := (h'.static_eq key hkey).trans (h.static_eq key hkey)

theorem Frame.symm (h : Frame db after) : Frame after db where
  terms_eq id := (h.terms_eq id).symm
  static_eq key hkey := (h.static_eq key hkey).symm

theorem Frame.sameOwners (h : Frame db after) : SameOwners after db := by
  intro id a b ha hb
  have hterms := h.terms_eq id
  rw [ha, hb] at hterms
  exact congrArg Prod.fst (Option.some.inj hterms)

theorem Frame.findAccount (h : Frame db after) {owner : Owner} {id : UUID}
    (hfound : Store.findAccount after owner = some (id, a)) :
    ∃ b, Store.findAccount db owner = some (id, b) ∧ terms b = terms a := by
  obtain ⟨hrow, howner⟩ := findAccount_some hfound
  have hterms := h.terms_eq id
  rw [hrow] at hterms
  obtain ⟨b, hb, hsame⟩ := Option.map_eq_some_iff.mp hterms.symm
  refine ⟨b, ?_, hsame⟩
  have hindex : after.row (.accountOf owner) = some id := by
    unfold Store.findAccount at hfound
    split at hfound
    · cases hfound
    · rename_i found hindex
      split at hfound
      · cases hfound
      · split_ifs at hfound
        rw [hindex, (Prod.mk.inj (Option.some.inj hfound)).1]
  have hbowner : b.owner = owner := (congrArg Prod.fst hsame).trans howner
  simp [Store.findAccount, ← h.static_eq (.accountOf owner) trivial, hindex, hb, hbowner]

/-- What a transaction has written so far stays in the frame of any store it
can have seen. -/
theorem Frame.apply {d : DB} {effects : List (Effect Key Row LedgerEntry)} (hseen : Frame db d)
    (hwritten : Frame db (db.apply effects)) : Frame d (d.apply effects) where
  terms_eq id := by
    rcases Database.row_apply_cases (.account id) effects with hkept | ⟨row, hset⟩
    · rw [hkept]
    · rw [hset, ← hset db, hwritten.terms_eq, hseen.terms_eq]
  static_eq key hkey := by
    have hrow := hseen.static_eq key hkey
    rw [Database.row_apply_congr d db key effects hrow, hwritten.static_eq key hkey, hrow]

theorem Frame.isSome_findAccount (h : Frame db after) {owner : Owner}
    (hfound : (Store.findAccount db owner).isSome) : (Store.findAccount after owner).isSome := by
  obtain ⟨⟨id, a⟩, ha⟩ := Option.isSome_iff_exists.mp hfound
  obtain ⟨b, hb, -⟩ := h.symm.findAccount ha
  simp [hb]

theorem Frame.sameTariffs (h : Frame db after) : SameTariffs db after :=
  ⟨fun id => h.static_eq (.carrier id) trivial, fun id => h.static_eq (.rate id) trivial⟩

theorem Frame.set {key : Key} {value : Option (Row key)} (haccount : ∀ id, key ≠ .account id)
    (hstatic : ¬ IsStatic key) : Frame db (db.set key value) where
  terms_eq id := by rw [Database.row_set_of_ne _ _ (haccount id).symm]
  static_eq other hother := by
    rw [Database.row_set_of_ne]
    rintro rfl
    exact hstatic hother

theorem Frame.moved {call : Option UUID} {kind : LedgerKind} {change : Account → Change Account}
    (moved : Moved accountId call kind change amount db after)
    (hterms : ∀ a a', change a = .put a' → terms a' = terms a) : Frame db after where
  terms_eq id := by
    by_cases hid : id = accountId
    · subst hid
      rw [moved.row_self, moved.old_row, Option.map_some, Option.map_some,
        hterms _ _ moved.put]
    · rw [moved.row_of_ne (by simpa using hid)]
  static_eq key hkey := by
    refine moved.row_of_ne ?_
    rintro rfl
    exact hkey

theorem setReserved_terms (h : setReserved a x = .put a') : terms a' = terms a := by
  unfold setReserved at h
  split at h
  · cases h
  · split_ifs at h
    obtain rfl := Change.put.inj h
    rfl

theorem setBalance_terms (h : setBalance a x = .put a') : terms a' = terms a := by
  unfold setBalance at h
  split at h
  · cases h
  · obtain rfl := Change.put.inj h
    rfl

theorem reserveChange_terms (h : reserveChange x a = .put a') : terms a' = terms a := by
  unfold reserveChange at h
  split_ifs at h
  exact setReserved_terms h

theorem Frame.posted {call : Option UUID} {kind : LedgerKind}
    (moved : Moved accountId call kind (postChange amount) amount db after) : Frame db after :=
  .moved moved (fun _ _ hput => setBalance_terms hput)

theorem Frame.released (h : Released callUUID accountId amount db after) : Frame db after := by
  unfold Released at h
  split_ifs at h
  · rw [h]
    exact .refl db
  · obtain ⟨moved⟩ := h
    exact .moved moved (fun _ _ hput => setReserved_terms hput)

theorem Frame.charged {price : Decimal} (h : Charged callUUID accountId price db after) :
    Frame db after := by
  unfold Charged at h
  split_ifs at h
  · obtain ⟨moved⟩ := h
    exact .posted moved
  · rw [h]
    exact .refl db

theorem Frame.costLines {stable : Prop} (h : CostLines callUUID stable db after) :
    Frame db after := by
  induction h with
  | none d => exact .refl d
  | more _ moved _ _ ih => exact (Frame.posted moved).trans ih

theorem Frame.customerSettled {price : Decimal} (h : CustomerSettled callUUID price db after ac) :
    Frame db after := by
  cases ac with
  | none =>
    obtain rfl : after = db := h
    exact .refl _
  | some a =>
    obtain ⟨d, hreleased, hcharged⟩ := h
    exact (Frame.released hreleased).trans (.charged hcharged)

theorem Frame.closed {row : CDR} : Frame db (closed callUUID ac row db) := by
  have hcdr : ∀ d : DB, Frame d (d.set (.cdr callUUID) (some row)) :=
    fun d => .set (by simp) (by simp [IsStatic])
  cases ac with
  | none => exact hcdr db
  | some a => exact (Frame.set (by simp) (by simp [IsStatic])).trans (hcdr _)

theorem Frame.gaveBack (h : GaveBack callUUID db after ac) : Frame db after := by
  cases ac with
  | none =>
    obtain rfl : after = db := h
    exact .refl _
  | some a => exact .released h

theorem Frame.inserted {key : Key} {ok : Row key → Prop} (h : Inserted seen key ok db after)
    (haccount : ∀ id, key ≠ .account id) (hstatic : ¬ IsStatic key) : Frame db after := by
  cases h with
  | fresh row _ _ hafter =>
    rw [hafter]
    exact .set haccount hstatic
  | conflict _ _ _ hafter =>
    rw [hafter]
    exact .refl db

theorem Frame.billed {now : Time} {h : HangupInfo} {out : Outcome}
    (billed : Billed seen now h db after out) : Frame db after := by
  cases billed with
  | noCDR _ hsame _ _ _ | already _ _ _ _ hsame => exact hsame ▸ .refl db
  | settled _ _ _ _ _ _ _ _ _ _ _ _ _ _ hcosts hcustomer _ =>
    exact Frame.closed.trans ((Frame.costLines hcosts).trans (.customerSettled hcustomer))

theorem Frame.releasedCall {now : Time} (released : ReleasedCall seen now callUUID db after) :
    Frame db after := by
  cases released with
  | already _ _ _ hsame => exact hsame ▸ .refl db
  | settled _ _ _ _ _ _ _ _ _ hmid hafter =>
    rw [hafter]
    exact (Frame.gaveBack hmid).trans .closed

/-- No job leaves the frame. -/
theorem Frame.did {job : Job} {result : JobResult} (hdid : Job.Did seen db after job result) :
    Frame db after := by
  cases hdid with
  | reserve granted =>
    have hcdr : Frame db granted.withCDR :=
      .inserted granted.insertedCDR (by simp) (by simp [IsStatic])
    have hactive : Frame granted.withCDR granted.withActive :=
      .inserted granted.insertedActive (by simp) (by simp [IsStatic])
    exact hcdr.trans (hactive.trans
      (.moved granted.moved (fun _ _ hput => reserveChange_terms hput)))
  | bill billed | reconcile billed => exact .billed billed.billed
  | releaseReservation released => exact .releasedCall (released.releasedCall (fun _ => rfl))
  | postMoney moved | topup _ _ _ moved => exact .posted moved
  | payment _ hsame => exact hsame ▸ .refl db

/-- However jobs interleave, none of them opens or closes an account, changes
its terms, or touches the tables that calls are priced by. -/
theorem runs_keep_frame (jobs : ℕ → Job) (db : DB) (σ : JobServer) (hrun : Runs jobs db σ) :
    Frame db σ.db :=
  hrun.invariant (fun _ d => Frame db d) (.refl db)
    (fun _ _ _ _ _ _ hframe hdid => hframe.trans (.did hdid))

def sampleCorrection : Job :=
  .postMoney ⟨⟨.customer, 7⟩, .adjustment, -1, "correction", "operator"⟩

theorem runs_keep_frame_sampleCorrection : ∃ σ, Runs (fun _ => sampleCorrection) (sampleStore 0) σ ∧
    σ.history.length = 2 ∧ Frame (sampleStore 0) σ.db := by
  have hcommits : (runSerially (fun _ => sampleCorrection) [0, 1] (sampleStore 0)).map
      (·.2.length) = some 2 := by decide +kernel
  obtain ⟨σ, hrun, hlength⟩ := runs_serially hcommits
  exact ⟨σ, hrun, hlength, runs_keep_frame _ _ σ hrun⟩

end SuperSbc.Ledger
