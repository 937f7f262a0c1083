import SuperSbc.Billing.Readings

/-!
What a committed billing transaction has done to the store, said once.
`BilledAs` lists the three ways `bill` can return and, for the one that changes
anything, what was read and the chain of writes from the store it committed on
to the store it left: the reservation row, the record, the carrier cost lines,
the release and the charge. `Billed` is what most results need of it: the sale
and the accounts, without the carrier's side of the record.
-/

namespace SuperSbc.Billing

open FixedPoint Rating ReadCommitted Transaction Store

variable {callUUID : UUID} {db d d' : DB} {seen : DB → Prop} {lines : List (UUID × Decimal)}

/-- Two stores that agree on who owns the accounts present in both. -/
def SameOwners (left right : DB) : Prop :=
  ∀ id a b, left.row (.account id) = some a → right.row (.account id) = some b →
    a.owner = b.owner

theorem SameOwners.apply {left right : DB} (h : SameOwners left right)
    (effects : List (Effect Key Row LedgerEntry)) :
    SameOwners (left.apply effects) (right.apply effects) := by
  intro id a b ha hb
  rcases Database.row_apply_cases (.account id) effects with huntouched | ⟨row, hwritten⟩
  · rw [huntouched] at ha hb
    exact h id a b ha hb
  · rw [hwritten] at ha hb
    rw [Option.some.inj (ha.symm.trans hb)]

/-- Cost lines on carrier accounts, one after another. That the accounts are
carriers' is known when account owners never change (`stable`). -/
inductive CostLines (callUUID : UUID) (stable : Prop) : DB → DB → Prop where
  | none (d : DB) : CostLines callUUID stable d d
  | more {d d' d'' : DB} {accountId : UUID} {amount : Decimal}
      (hscale : OnScale scale amount)
      (moved : Moved accountId (some callUUID) .cost (postChange (-amount)) (-amount) d d')
      (hcarrier : stable → moved.old.owner.kind = .carrier)
      (rest : CostLines callUUID stable d' d'') : CostLines callUUID stable d d''

def Released (callUUID accountId : UUID) (amount : Decimal) (before after : DB) : Prop :=
  if amount = 0 then after = before
  else Nonempty (Moved accountId (some callUUID) .release (releaseChange amount) amount
    before after)

theorem Released.row_of_ne {accountId : UUID} {amount : Decimal} {before after : DB} {key : Key}
    (h : Released callUUID accountId amount before after) (hne : key ≠ .account accountId) :
    after.row key = before.row key := by
  unfold Released at h
  split_ifs at h with hzero
  · rw [h]
  · obtain ⟨moved⟩ := h
    exact moved.row_of_ne hne

def Charged (callUUID accountId : UUID) (price : Decimal) (before after : DB) : Prop :=
  if 0 < price then
    Nonempty (Moved accountId (some callUUID) .charge (postChange (-price)) (-price)
      before after)
  else after = before

/-- How a price came about: from the sell rate row as some seen store had it,
or not at all. -/
def Quoted (seen : DB → Prop) (h : HangupInfo) (c : CDR) (billsec billed : ℤ)
    (price : Decimal) : Prop :=
  (∃ sellId d sell, h.answerTime.isSome ∧ c.sellRateId = some sellId ∧ seen d ∧
    d.row (.rate sellId) = some sell ∧
    (billed, price) = Rating.price billsec (toRatingFX sell c.sellFX)) ∨
  ((h.answerTime = none ∨ c.sellRateId = none) ∧ price = 0)

/-- The customer side of a settlement. -/
def CustomerSettled (callUUID : UUID) (price : Decimal) (before after : DB) :
    Option ActiveCall → Prop
  | none => after = before
  | some ac => ∃ d, Released callUUID ac.accountId ac.reservedAmount.val before d ∧
      Charged callUUID ac.accountId price d after

def withoutActive (callUUID : UUID) (db : DB) : Option ActiveCall → DB
  | none => db
  | some _ => db.set (.active callUUID) none

/-- The store after the per call rows of a settlement are written. -/
def closed (callUUID : UUID) (ac : Option ActiveCall) (row : CDR) (db : DB) : DB :=
  (withoutActive callUUID db ac).set (.cdr callUUID) (some row)

/-- The ways a billing transaction can commit. -/
inductive Billed (seen : DB → Prop) (now : Time) (h : HangupInfo) (db after : DB)
    (out : Outcome) : Prop where
  | noCDR (hout : out.noCDR = true) (hsame : after = db)
      (d : DB) (hseen : seen d) (hmissing : d.row (.cdr h.callUUID) = none)
  | already (cdr : CDR) (hcdr : db.row (.cdr h.callUUID) = some cdr)
      (hbilled : cdr.billedAt.isSome) (hout : out.alreadyBilled = true) (hsame : after = db)
  | settled (cdr row : CDR) (ac : Option ActiveCall) (price : Decimal) (mid : DB)
      (hcdr : db.row (.cdr h.callUUID) = some cdr) (hpending : cdr.billedAt = none)
      (hactive : ∀ a, ac = some a → db.row (.active h.callUUID) = some a)
      (hmissed : ac = none → ∃ d, seen d ∧ d.row (.active h.callUUID) = none)
      (hrow : row.billedAt = some now)
      (hsellPrice : h.answerTime.isSome → cdr.sellRateId.isSome → row.sellPrice = price)
      (hsellRate : row.sellRatePerMin = cdr.sellRatePerMin)
      (hquoted : Quoted seen h cdr (if h.billsec < 0 then 0 else h.billsec)
        row.sellBilledSeconds price)
      (hscale : OnScale scale price)
      (hcosts : CostLines h.callUUID (∀ d, seen d → SameOwners d db)
        (closed h.callUUID ac row db) mid)
      (hcustomer : CustomerSettled h.callUUID price mid after ac)
      (hout : out.alreadyBilled = false ∧ out.noCDR = false ∧ out.price = price ∧
        out.customerId = cdr.customerId)

theorem findAccount_some {owner : Owner} {id : UUID} {a : Account}
    (h : findAccount db owner = some (id, a)) :
    db.row (.account id) = some a ∧ a.owner = owner := by
  unfold findAccount at h
  split at h
  · cases h
  · split at h
    · cases h
    · rename_i found hfound
      split_ifs at h with howner
      obtain ⟨rfl, rfl⟩ := Prod.mk.inj (Option.some.inj h)
      exact ⟨hfound, howner⟩

def withFees (fees : List AttemptRecord × List AttemptFee) (c : CDR) : CDR :=
  { c with
    attempts := fees.1
    cost := c.cost + (fees.2.map (·.amount)).sum }

def reservationClosed (ac : Option ActiveCall) (price : Decimal) (c : CDR) : CDR :=
  match ac with
  | none => c
  | some ac => { c with
      releasedAmount := ac.reservedAmount.val
      chargedAmount := if 0 < price then price else c.chargedAmount }

theorem reservationClosed_carrierId (ac : Option ActiveCall) (price : Decimal) (c : CDR) :
    (reservationClosed ac price c).carrierId = c.carrierId := by
  cases ac <;> rfl

/-- What carriers are owed for a call: the price of the one that answered, if
it asks any, and the fees. -/
def carrierLines (carrierId : Option UUID) (cost : Decimal) (fees : List AttemptFee) :
    List (UUID × Decimal) :=
  (if 0 < cost then carrierId.toList.map (·, cost) else []) ++
    fees.map (fun f => (f.carrierId, f.amount))

/-- Cost lines posted one after another. Each looks up its carrier's account
in a seen store, under what the transaction has written so far, and is skipped
if there is none. -/
inductive CostsPosted (seen : DB → Prop) (db : DB) (callUUID : UUID) :
    List (UUID × Decimal) → DB → DB → Prop where
  | done (d : DB) : CostsPosted seen db callUUID [] d d
  | posted {carrierId accountId : UUID} {amount : Decimal} {a : Account}
      {lines : List (UUID × Decimal)} {d' d'' source : DB}
      {effects : List (Effect Key Row LedgerEntry)} (hseen : seen source)
      (hfound : findAccount (source.apply effects) ⟨.carrier, carrierId⟩ = some (accountId, a))
      (moved : Moved accountId (some callUUID) .cost (postChange (-amount)) (-amount)
        (db.apply effects) d')
      (rest : CostsPosted seen db callUUID lines d' d'') :
      CostsPosted seen db callUUID ((carrierId, amount) :: lines) (db.apply effects) d''
  | skipped {carrierId : UUID} {amount : Decimal} {lines : List (UUID × Decimal)}
      {d'' source : DB} {effects : List (Effect Key Row LedgerEntry)} (hseen : seen source)
      (hnone : findAccount (source.apply effects) ⟨.carrier, carrierId⟩ = none)
      (rest : CostsPosted seen db callUUID lines (db.apply effects) d'') :
      CostsPosted seen db callUUID ((carrierId, amount) :: lines) (db.apply effects) d''

theorem CostsPosted.append {d'' : DB} {later : List (UUID × Decimal)}
    (h : CostsPosted seen db callUUID lines d d') (h' : CostsPosted seen db callUUID later d' d'') :
    CostsPosted seen db callUUID (lines ++ later) d d'' := by
  induction h with
  | done d => exact h'
  | posted hseen hfound moved _ ih => exact .posted hseen hfound moved (ih h')
  | skipped hseen hnone _ ih => exact .skipped hseen hnone (ih h')

theorem CostsPosted.row_of_ne (h : CostsPosted seen db callUUID lines d d') {key : Key}
    (hne : ∀ id, key ≠ .account id) : d'.row key = d.row key := by
  induction h with
  | done d => rfl
  | posted _ _ moved _ ih => rw [ih, moved.row_of_ne (hne _)]
  | skipped _ _ _ ih => exact ih

theorem CostsPosted.costLines (h : CostsPosted seen db callUUID lines d d')
    (hscale : ∀ line ∈ lines, OnScale scale line.2) :
    CostLines callUUID (∀ d, seen d → SameOwners d db) d d' := by
  induction h with
  | done d => exact .none d
  | @posted _ _ _ _ _ _ _ _ effects hseen hfound moved _ ih =>
    obtain ⟨hrow, howner⟩ := findAccount_some hfound
    refine .more (hscale _ List.mem_cons_self) moved (fun hstable => ?_)
      (ih (fun line hline => hscale line (List.mem_cons_of_mem _ hline)))
    have hsame := (hstable _ hseen).apply effects _ _ _ hrow moved.old_row
    rw [← hsame, howner]
  | skipped _ _ _ ih => exact ih (fun line hline => hscale line (List.mem_cons_of_mem _ hline))

theorem carrierLines_onScale (carrierId : Option UUID) {cost : Decimal} {fees : List AttemptFee}
    (hcost : OnScale scale cost) (hfees : ∀ f ∈ fees, OnScale scale f.amount) :
    ∀ line ∈ carrierLines carrierId cost fees, OnScale scale line.2 := by
  intro line hline
  rcases List.mem_append.mp hline with hline | hline
  · split_ifs at hline
    · obtain ⟨_, _, rfl⟩ := List.mem_map.mp hline
      exact hcost
    · cases hline
  · obtain ⟨f, hf, rfl⟩ := List.mem_map.mp hline
    exact hfees f hf

theorem sum_carrierLines {carrierId : Option UUID} {cost : Decimal} {fees : List AttemptFee}
    (hnonneg : 0 ≤ cost) (hcarrier : 0 < cost → carrierId.isSome) :
    ((carrierLines carrierId cost fees).map (·.2)).sum = cost + (fees.map (·.amount)).sum := by
  have hfees : ((fees.map (fun f => (f.carrierId, f.amount))).map (·.2)).sum =
      (fees.map (·.amount)).sum := by
    rw [List.map_map]
    rfl
  unfold carrierLines
  rw [List.map_append, List.sum_append, hfees]
  congr 1
  split_ifs with hcost
  · obtain ⟨id, hid⟩ := Option.isSome_iff_exists.mp (hcarrier hcost)
    simp [hid]
  · simp [le_antisymm (not_lt.mp hcost) hnonneg]

/-- The ways a billing transaction can commit, with what it read and the
record it wrote. A reservation that is missing was missing next to that
record. -/
inductive BilledAs (seen : DB → Prop) (e : Engine) (now : Time) (h : HangupInfo) (db after : DB)
    (out : Outcome) : Prop where
  | noCDR (hout : out.noCDR = true) (hsame : after = db)
      (d : DB) (hseen : seen d) (hmissing : d.row (.cdr h.callUUID) = none)
  | already (cdr : CDR) (hcdr : db.row (.cdr h.callUUID) = some cdr)
      (hbilled : cdr.billedAt.isSome) (hout : out.alreadyBilled = true) (hsame : after = db)
  | settled (cdr row routed : CDR) (ac : Option ActiveCall) (priced : CDR × Decimal × Decimal)
      (fees : List AttemptRecord × List AttemptFee) (mid : DB)
      (hcdr : db.row (.cdr h.callUUID) = some cdr) (hpending : cdr.billedAt = none)
      (hactive : ∀ a, ac = some a → db.row (.active h.callUUID) = some a)
      (hmissed : ac = none → ∃ d, seen d ∧ d.row (.cdr h.callUUID) = some cdr ∧
        d.row (.active h.callUUID) = none)
      (hmoney : (money e h (withHangup e.nodeName now h cdr)).Yields seen priced)
      (hrouted : (withTransport priced.1).Yields seen routed)
      (hfees : (failedAttemptFees e 1 [] routed.attempts).Yields seen fees)
      (hrow : finalizedRow (reservationClosed ac priced.2.1 (withFees fees routed)) cdr = some row)
      (hcosts : CostsPosted seen db h.callUUID (carrierLines routed.carrierId priced.2.2 fees.2)
        (closed h.callUUID ac row db) mid)
      (hcustomer : CustomerSettled h.callUUID priced.2.1 mid after ac)
      (hout : out.alreadyBilled = false ∧ out.noCDR = false ∧ out.price = priced.2.1 ∧
        out.customerId = cdr.customerId)

/-- What an outcome says about the reservation's account: nothing when no
reservation was found, else the row as the charge left it or, when there is
nothing to charge, as it was locked before the release. -/
inductive Tells (seen : DB → Prop) (e : Engine) (h : HangupInfo) (db after : DB)
    (out : Outcome) : Prop where
  | nothing (hkept : after.row (.active h.callUUID) = db.row (.active h.callUUID))
  | account (ac : ActiveCall) (row : CDR) (lines : List (UUID × Decimal)) (mid : DB)
      (acc : Account) (hactive : db.row (.active h.callUUID) = some ac)
      (hcosts : CostsPosted seen db h.callUUID lines (closed h.callUUID (some ac) row db) mid)
      (hcustomer : CustomerSettled h.callUUID out.price mid after (some ac))
      (hacc : (if 0 < out.price then after else mid).row (.account ac.accountId) = some acc)
      (havailable : out.available = some acc.available)
      (hlow : out.lowBalance = lowBalance e (some acc))

section Sale

variable {seen : DB → Prop} {e : Engine} {h : HangupInfo} {c : CDR}

/-- The columns of a sale that the carrier side of billing leaves alone. -/
structure SameSale (c c' : CDR) : Prop where
  billedAt_eq : c'.billedAt = c.billedAt
  sellPrice_eq : c'.sellPrice = c.sellPrice
  sellBilledSeconds_eq : c'.sellBilledSeconds = c.sellBilledSeconds

theorem CostRead.sameSale {carrierId : UUID} {amt : Decimal} {result : CDR × Decimal}
    (hread : CostRead seen e c carrierId amt result) : SameSale c result.1 := by
  cases hread with
  | free | priced => exact ⟨rfl, rfl, rfl⟩

theorem MoneyRead.quoted {result : CDR × Decimal × Decimal} (hread : MoneyRead seen e h c result) :
    Quoted seen h c c.billsec result.1.sellBilledSeconds result.2.1 := by
  cases hread with
  | unsold hunsold => exact .inr ⟨hunsold, rfl⟩
  | sold sellId d sell hanswered hsold hseen hsell _ =>
    exact .inl ⟨sellId, d, sell, hanswered, hsold, hseen, hsell, rfl⟩
  | carried sellId d sell _ _ hanswered hsold hseen hsell _ hcost =>
    refine .inl ⟨sellId, d, sell, hanswered, hsold, hseen, hsell, ?_⟩
    rw [hcost.sameSale.sellBilledSeconds_eq]

theorem MoneyRead.sellPrice {result : CDR × Decimal × Decimal}
    (hread : MoneyRead seen e h c result) (hanswered : h.answerTime.isSome)
    (hsold : c.sellRateId.isSome) : result.1.sellPrice = result.2.1 := by
  cases hread with
  | unsold hunsold =>
    rcases hunsold with hanswer | hsell
    · simp [hanswer] at hanswered
    · simp [hsell] at hsold
  | sold => rfl
  | carried _ _ _ _ _ _ _ _ _ _ hcost => exact hcost.sameSale.sellPrice_eq

theorem sameSale_closed {routed : CDR} (hrouted : (withTransport c).Yields seen routed)
    (ac : Option ActiveCall) (price : Decimal) (fees : List AttemptRecord × List AttemptFee) :
    SameSale c (reservationClosed ac price (withFees fees routed)) := by
  obtain ⟨transport, rfl⟩ := withTransport_yields hrouted
  cases ac with
  | none | some a => exact ⟨rfl, rfl, rfl⟩

theorem BilledAs.billed {now : Time} {db after : DB} {out : Outcome}
    (hbilled : BilledAs seen e now h db after out) : Billed seen now h db after out := by
  cases hbilled with
  | noCDR hout hsame d hseen hmissing => exact .noCDR hout hsame d hseen hmissing
  | already cdr hcdr hdone hout hsame => exact .already cdr hcdr hdone hout hsame
  | settled cdr row routed ac priced fees mid hcdr hpending hactive hmissed hmoney hrouted hfees
      hrow hcosts hcustomer hout =>
      have hread := moneyRead_of_yields hmoney
      obtain ⟨hprice, hcost⟩ := hread.onScale
      have hsale := sameSale_closed hrouted ac priced.2.1 fees
      have hwritten := finalizedRow_some hrow
      refine .settled cdr row ac priced.2.1 mid hcdr hpending hactive (fun hnone => ?_) ?_ ?_
        hwritten.sellRatePerMin_eq ?_ hprice
        (hcosts.costLines (carrierLines_onScale _ hcost (failedAttemptFees_onScale _ hfees)))
        hcustomer hout
      · obtain ⟨d, hd, -, hmissing⟩ := hmissed hnone
        exact ⟨d, hd, hmissing⟩
      · rw [hwritten.billedAt_eq, hsale.billedAt_eq, hread.kept.2]
        rfl
      · intro hanswered hsold
        rw [hwritten.sellPrice_eq, hsale.sellPrice_eq, hread.sellPrice hanswered hsold]
        exact hprice
      · rw [hwritten.sellBilledSeconds_eq, hsale.sellBilledSeconds_eq]
        exact hread.quoted

end Sale

section Writes

variable {seen : DB → Prop} {db : DB} {p : Progress Key Row LedgerEntry} {callUUID : UUID}
  {post : Unit → Progress Key Row LedgerEntry → Prop}

variable {c : CDR}

theorem wp_postCost {carrierId : UUID} {amount : Decimal} {description : String}
    (h : ∀ q, CostsPosted seen db callUUID [(carrierId, amount)] (db.apply p.effects)
      (db.apply q.effects) → post () q) :
    (postCost callUUID carrierId amount description).wp seen db p post := by
  unfold postCost accountByOwner
  rw [wp_bind, wp_select]
  intro d hd _
  cases hfound : findAccount (d.apply p.effects) ⟨.carrier, carrierId⟩ with
  | none => exact h p (.skipped hd hfound (.done _))
  | some found =>
    rw [wp_bind]
    exact wp_moveMoney (fun q _ moved => h q (.posted hd hfound moved (.done _)))

theorem wp_postFees {calledNumber : String} (fees : List AttemptFee)
    (h : ∀ q, CostsPosted seen db callUUID (fees.map (fun f => (f.carrierId, f.amount)))
      (db.apply p.effects) (db.apply q.effects) → post () q) :
    (postFees callUUID calledNumber fees).wp seen db p post := by
  induction fees generalizing p with
  | nil => exact h p (.done _)
  | cons f rest ih =>
    unfold postFees
    rw [wp_bind]
    exact wp_postCost (fun q hq => ih (fun r hr => h r (hq.append hr)))

theorem wp_postCarrierCost {cost : Decimal} (h : ∀ q, CostsPosted seen db callUUID
      (if 0 < cost then c.carrierId.toList.map (·, cost) else []) (db.apply p.effects)
      (db.apply q.effects) → post () q) : (postCarrierCost callUUID c cost).wp seen db p post := by
  unfold postCarrierCost
  by_cases hcost : 0 < cost
  · simp only [hcost, if_true] at h ⊢
    cases hcarrier : c.carrierId with
    | none => exact h p (hcarrier ▸ .done _)
    | some carrierId =>
      rw [hcarrier] at h
      exact wp_postCost h
  · simp only [hcost, if_false] at h ⊢
    cases c.carrierId <;> exact h p (.done _)

theorem wp_release {accountId : UUID} {amount : Decimal} {description : String}
    {post : Account → Progress Key Row LedgerEntry → Prop}
    (h : ∀ a q, p.held ⊆ q.held →
      Released callUUID accountId amount (db.apply p.effects) (db.apply q.effects) → post a q) :
    (release accountId callUUID amount description).wp seen db p post := by
  unfold release
  by_cases hzero : amount = 0
  · simp only [hzero, if_true]
    exact wp_lockAccount
      (fun a _ => h a _ (Set.subset_insert _ _) (by simp [Released, hzero]))
  · simp only [hzero, if_false]
    refine wp_moveMoney (fun q hsub moved => h _ q hsub ?_)
    simp only [Released, hzero, if_false]
    exact ⟨moved⟩

theorem wp_customerSide {ac : Option ActiveCall} {price : Decimal}
    {post : Option Account → Progress Key Row LedgerEntry → Prop}
    (h : ∀ acc q, CustomerSettled callUUID price (db.apply p.effects) (db.apply q.effects) ac →
      (∀ a, ac = some a → ∃ row, acc = some row ∧
        (if 0 < price then db.apply q.effects else db.apply p.effects).row
          (.account a.accountId) = some row) → post acc q) :
    (customerSide callUUID ac c price).wp seen db p post := by
  unfold customerSide
  cases ac with
  | none => exact h none p rfl (by simp)
  | some ac =>
    unfold releaseAndCharge
    rw [wp_bind, wp_bind]
    refine wp_lockAccount (fun a ha => ?_)
    rw [wp_bind]
    refine wp_release (fun released q _ hq => ?_)
    by_cases hprice : 0 < price
    · simp only [hprice, if_true] at h ⊢
      refine wp_moveMoney (fun r _ moved => h _ r ⟨_, hq, ?_⟩ (fun b hb => ?_))
      · simp only [Charged, hprice, if_true]
        exact ⟨moved⟩
      · obtain rfl := Option.some.inj hb
        exact ⟨moved.new, rfl, moved.row_self⟩
    · simp only [hprice, if_false] at h ⊢
      refine h _ q ⟨_, hq, by simp [Charged, hprice]⟩ (fun b hb => ?_)
      obtain rfl := Option.some.inj hb
      exact ⟨a, rfl, ha⟩

/-- The reservation row is held from the moment it was found, so deleting it
cannot miss. -/
theorem wp_closeReservation {ac : Option ActiveCall} {price : Decimal} (heffects : p.effects = [])
    (hactive : ∀ a, ac = some a →
      db.row (.active callUUID) = some a ∧ Key.active callUUID ∈ p.held)
    {post : CDR → Progress Key Row LedgerEntry → Prop}
    (h : ∀ q, p.held ⊆ q.held → db.apply q.effects = withoutActive callUUID db ac →
      post (reservationClosed ac price c) q) :
    (closeReservation callUUID ac price c).wp seen db p post := by
  unfold closeReservation
  cases ac with
  | none => exact h p (subset_refl _) (by simp [heffects, withoutActive])
  | some a =>
    obtain ⟨hrow, hheld⟩ := hactive a rfl
    unfold deleteActiveCall
    rw [wp_bind, wp_deleteRow]
    refine ⟨fun _ => ?_, fun d _ hagree hmissing => ?_⟩
    · exact h _ (Set.subset_insert _ _) (by simp [heffects, withoutActive])
    · rw [heffects, Database.apply_nil, hagree _ hheld, hrow] at hmissing
      cases hmissing

theorem wp_finalizeCDR_held (cdr : CDR) (hheld : Key.cdr callUUID ∈ p.held)
    (hrow : (db.apply p.effects).row (.cdr callUUID) = some cdr)
    (h : ∀ row, finalizedRow c cdr = some row → post () (p.write (.cdr callUUID) (some row))) :
    (finalizeCDR callUUID c).wp seen db p post := by
  refine wp_finalizeCDR (fun row row' hfound hfinal => ?_) (fun d _ hagree hmissing => ?_)
  · obtain rfl := Option.some.inj (hrow.symm.trans hfound)
    exact h row' hfinal
  · rw [Database.row_apply_congr _ _ _ p.effects (hagree _ hheld), hrow] at hmissing
    cases hmissing

end Writes

section Whole

variable {seen : DB → Prop} {db : DB} {e : Engine} {now : Time} {h : HangupInfo} {cdr : CDR}
  {post : Outcome → Progress Key Row LedgerEntry → Prop}

/-- The settlement once the record and perhaps the reservation are locked. -/
private theorem wp_settle_locked {p : Progress Key Row LedgerEntry} {ac : Option ActiveCall}
    (hcdr : db.row (.cdr h.callUUID) = some cdr) (hpending : cdr.billedAt = none)
    (heffects : p.effects = []) (hheld : Key.cdr h.callUUID ∈ p.held)
    (hactive : ∀ a, ac = some a →
      db.row (.active h.callUUID) = some a ∧ Key.active h.callUUID ∈ p.held)
    (hmissed : ac = none → ∃ d, seen d ∧ d.row (.cdr h.callUUID) = some cdr ∧
      d.row (.active h.callUUID) = none)
    (hpost : ∀ out q, BilledAs seen e now h db (db.apply q.effects) out →
      Tells seen e h db (db.apply q.effects) out → post out q) :
    (settleLocked e now h cdr ac).wp seen db p post := by
  unfold settleLocked
  rw [wp_bind]
  refine wp_of_readOnly (money_readOnly e h _) heffects (fun priced hmoney => ?_)
  obtain ⟨c, price, cost⟩ := priced
  dsimp only
  rw [wp_bind]
  refine wp_of_readOnly (withTransport_readOnly c) heffects (fun routed hrouted => ?_)
  rw [wp_bind]
  refine wp_of_readOnly (failedAttemptFees_readOnly e 1 [] _) heffects (fun fees hfees => ?_)
  rw [wp_bind]
  refine wp_closeReservation heffects hactive (fun q hsub hview => ?_)
  rw [wp_bind]
  refine wp_finalizeCDR_held cdr (hsub hheld) ?_ (fun row hrow => ?_)
  · rw [hview]
    cases ac with
    | none => exact hcdr
    | some a => rw [withoutActive, Database.row_set_of_ne _ _ (by simp), hcdr]
  have hclosed : db.apply (q.write (.cdr h.callUUID) (some row)).effects =
      closed h.callUUID ac row db := by
    rw [Progress.effects_write, Database.apply_set, hview]
    rfl
  rw [wp_bind]
  refine wp_postCarrierCost (fun r hr => ?_)
  rw [wp_bind]
  refine wp_postFees _ (fun s hs => ?_)
  rw [wp_bind]
  rw [reservationClosed_carrierId, hclosed] at hr
  have hcosts := hr.append hs
  refine wp_customerSide (fun acc last hlast hacc => hpost _ last ?_ ?_)
  · exact .settled cdr row routed ac (c, price, cost) fees _ hcdr hpending
      (fun a ha => (hactive a ha).1) hmissed hmoney hrouted hfees hrow hcosts hlast
      ⟨rfl, rfl, rfl, rfl⟩
  · cases ac with
    | none =>
      have hsame : db.apply last.effects = db.apply s.effects := hlast
      refine .nothing ?_
      rw [hsame, hcosts.row_of_ne (by simp), closed, Database.row_set_of_ne _ _ (by simp)]
      rfl
    | some a =>
      obtain ⟨found, rfl, hfound⟩ := hacc a rfl
      exact .account a row _ _ found (hactive a rfl).1 hcosts hlast hfound rfl rfl

theorem wp_billTells
    (hpost : ∀ out q, BilledAs seen e now h db (db.apply q.effects) out →
      Tells seen e h db (db.apply q.effects) out → post out q) :
    (bill e now h).wp seen db .start post := by
  unfold bill lockCDR
  rw [wp_bind, wp_lockRow]
  refine ⟨fun cdr hcdr => ?_, fun d hd _ hmissing => ?_⟩
  · dsimp only
    by_cases hbilled : cdr.billedAt.isSome
    · rw [if_pos hbilled]
      exact hpost _ _ (.already cdr hcdr hbilled rfl rfl) (.nothing rfl)
    · have hpending : cdr.billedAt = none := by simpa using hbilled
      rw [if_neg hbilled]
      unfold settle lockActiveCall
      rw [wp_bind, wp_lockRow]
      refine ⟨fun a ha => ?_, fun d hd hagree hmissing => ?_⟩
      · refine wp_settle_locked hcdr hpending rfl (by simp) (fun b hb => ?_) (by simp) hpost
        obtain rfl := Option.some.inj hb
        exact ⟨ha, by simp⟩
      · refine wp_settle_locked hcdr hpending rfl (by simp) (by simp)
          (fun _ => ⟨d, hd, ?_, hmissing⟩) hpost
        rw [hagree _ (by simp)]
        exact hcdr
  · exact hpost _ _ (.noCDR rfl rfl d hd hmissing) (.nothing rfl)

theorem wp_billedAs
    (hpost : ∀ out q, BilledAs seen e now h db (db.apply q.effects) out → post out q) :
    (bill e now h).wp seen db .start post :=
  wp_billTells (fun out q billed _ => hpost out q billed)

theorem wp_bill (hpost : ∀ out q, Billed seen now h db (db.apply q.effects) out → post out q) :
    (bill e now h).wp seen db .start post :=
  wp_billedAs (fun out q billed => hpost out q billed.billed)

end Whole

end SuperSbc.Billing
