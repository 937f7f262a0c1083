import SuperSbc.Ledger.CallTotals

/-!
The carrier's side of an answered call, and the order in which its messages
arrive. How each attempt ended is reported in a request of its own, the hangup
comes from the switch, and the bill takes buy rate and fees from the attempts
that are on the record when it commits. What it charges then depends on the
attempts, not on the order in which they were reported. A report that commits
after the bill is noted and never charged.
-/

namespace SuperSbc

open FixedPoint Rating ReadCommitted Transaction Store Billing CallControl

/-- The exchange rates stay what they are while the call is billed. -/
def Billing.Engine.RatesFixed (e : Engine) : Prop :=
  ∀ fx i j base quote, e.fx = some fx → fx i base quote = fx j base quote

namespace Ledger

/-- The account that pays a carrier's lines. -/
def payee (db : DB) (carrierId : UUID) : Option UUID :=
  (findAccount db ⟨.carrier, carrierId⟩).map Prod.fst

def deckFX (e : Engine) (db : DB) (buy : RateRow) (carrierId : UUID) : Decimal :=
  match db.row (.rateGroup buy.rateGroupId) with
  | none => 1
  | some deck =>
    match findAccount db ⟨.carrier, carrierId⟩ with
    | none => 1
    | some (_, acc) =>
      match e.fx with
      | none => 1
      | some fx => (fx 0 deck.currency acc.currency).getD 1

/-- What the carrier that answered asks for a call. -/
def answeredPrice (e : Engine) (db : DB) (billsec : ℤ) (buyId carrierId : UUID) : Decimal :=
  match db.row (.rate buyId) with
  | none => 0
  | some buy => (price billsec (toRatingFX buy (deckFX e db buy carrierId))).2

/-- What the carrier of an attempt asks for it if it failed. -/
def feeOf (e : Engine) (db : DB) (a : AttemptRecord) : Option (UUID × Decimal) :=
  if chargesFee db a then
    a.buyRateId.bind (fun buyId => (db.row (.rate buyId)).map (fun buy =>
      (a.carrierId, roundTo scale (buy.connectFee * deckFX e db buy a.carrierId))))
  else none

section Readings

variable {seen : DB → Prop} {e : Engine} {base after : DB}

theorem Frame.payee_eq (h : Frame base after) (carrierId : UUID) :
    payee after carrierId = payee base carrierId := by
  unfold payee
  cases hfound : Store.findAccount after ⟨.carrier, carrierId⟩ with
  | none =>
    cases hother : Store.findAccount base ⟨.carrier, carrierId⟩ with
    | none => rfl
    | some found =>
      have hsome := h.isSome_findAccount (by rw [hother]; rfl)
      rw [hfound] at hsome
      cases hsome
  | some found =>
    obtain ⟨b, hb, -⟩ := h.findAccount hfound
    rw [hb]
    rfl

theorem buyFX_yields (hseen : ∀ d, seen d → Frame base d) (he : e.RatesFixed) {lookup : ℕ}
    {buy : RateRow} {carrierId : UUID} {fx : Decimal × String}
    (hyields : (buyFX e lookup buy carrierId).Yields seen fx) :
    fx.1 = deckFX e base buy carrierId := by
  unfold buyFX rateGroupByID accountByOwner at hyields
  unfold deckFX
  obtain ⟨d, hd, hyields⟩ := yields_select_bind.mp hyields
  rw [(hseen d hd).static_eq (.rateGroup buy.rateGroupId) trivial] at hyields
  cases hdeck : base.row (.rateGroup buy.rateGroupId) with
  | none =>
    rw [hdeck] at hyields
    rw [yields_pure.mp hyields]
  | some deck =>
    rw [hdeck] at hyields
    obtain ⟨d', hd', hyields⟩ := yields_select_bind.mp hyields
    cases hfound : findAccount d' ⟨.carrier, carrierId⟩ with
    | none =>
      rw [hfound] at hyields
      have hnone : findAccount base ⟨.carrier, carrierId⟩ = none := by
        have hsame := (hseen d' hd').payee_eq carrierId
        simpa [payee, hfound] using hsame.symm
      rw [hnone, yields_pure.mp hyields]
    | some found =>
      rw [hfound] at hyields
      obtain ⟨b, hb, hterms⟩ := (hseen d' hd').findAccount hfound
      have hcurrency : b.currency = found.2.currency := congrArg (fun t => t.2.1) hterms
      rw [hb]
      dsimp only at hyields ⊢
      cases hfx : e.fx with
      | none =>
        rw [hfx] at hyields
        rw [yields_pure.mp hyields]
      | some source =>
        rw [hfx] at hyields
        rw [yields_pure.mp hyields, hcurrency]
        dsimp only
        rw [he source lookup 0 _ _ hfx]

theorem feeOf_feeRead (hseen : ∀ d, seen d → Frame base d) (he : e.RatesFixed)
    {a : AttemptRecord} {fee : Option AttemptFee} (hread : FeeRead seen e base a fee) :
    fee.map (fun f => (f.carrierId, f.amount)) = feeOf e base a := by
  have hcharged := hread.charged
  unfold feeOf
  cases hfee : fee with
  | none =>
    rw [hfee] at hcharged
    rw [← hcharged]
    rfl
  | some f =>
    rw [hfee] at hcharged
    obtain ⟨lookup, buyId, buy, fx, hbuy, hrow, hfx, rfl⟩ := hread.amount f hfee
    rw [← hcharged, hbuy, Option.bind_some, hrow, buyFX_yields hseen he hfx]
    rfl

theorem failedAttemptFees_eq (hseen : ∀ d, seen d → Frame base d) (he : e.RatesFixed)
    {attempts : List AttemptRecord} {result : List AttemptRecord × List AttemptFee}
    (hyields : (failedAttemptFees e 1 [] attempts).Yields seen result) :
    result.2.map (fun f => (f.carrierId, f.amount)) = attempts.filterMap (feeOf e base) := by
  obtain ⟨fees, hfees, hresult⟩ := failedAttemptFees_yields attempts
    (fun d hd => (hseen d hd).sameTariffs) (by simp [KnownBy]) hyields
  rw [hresult]
  clear hresult hyields
  induction hfees with
  | nil => rfl
  | @cons a fee rest later hread _ ih =>
    have hhead := feeOf_feeRead hseen he hread
    rw [List.filterMap_cons, List.filterMap_cons]
    cases fee with
    | none =>
      rw [← hhead]
      exact ih
    | some f =>
      rw [← hhead]
      exact congrArg (List.cons _) ih

theorem feeOf_fillPDD (db : DB) (progress answer : Option Time) (a : AttemptRecord) :
    feeOf e db (fillPDD progress answer a) = feeOf e db a := by
  unfold fillPDD
  split
  · split
    · rfl
    · rfl
  · rfl

theorem carrierCost_eq (hseen : ∀ d, seen d → Frame base d) (he : e.RatesFixed) {c : CDR}
    {carrierId buyId : UUID} {amt : Decimal} {result : CDR × Decimal}
    (hyields : (carrierCost e c carrierId amt).Yields seen result)
    (hbuy : buyRateFor c.attempts carrierId = some buyId) :
    result.2 = answeredPrice e base c.billsec buyId carrierId := by
  unfold carrierCost rateByID at hyields
  unfold answeredPrice
  rw [hbuy] at hyields
  obtain ⟨d, hd, hyields⟩ := yields_select_bind.mp hyields
  rw [(hseen d hd).static_eq (.rate buyId) trivial] at hyields
  cases hrow : base.row (.rate buyId) with
  | none =>
    rw [hrow] at hyields
    rw [yields_pure.mp hyields]
  | some buy =>
    rw [hrow] at hyields
    obtain ⟨fx, hfx, hyields⟩ := (yields_bind (buyFX_readOnly e 0 buy carrierId)).mp hyields
    have hcost := congrArg Prod.snd (yields_pure.mp hyields)
    dsimp only
    rw [hcost, ← buyFX_yields hseen he hfx]
    rfl

theorem money_cost (hseen : ∀ d, seen d → Frame base d) (he : e.RatesFixed) {h : HangupInfo}
    {c : CDR} {carrierId buyId : UUID} {priced : CDR × Decimal × Decimal}
    (hyields : (money e h c).Yields seen priced)
    (hanswered : h.answerTime.isSome) (hsold : c.sellRateId.isSome)
    (hcarrier : h.answeredCarrierId = some carrierId)
    (hbuy : buyRateFor c.attempts carrierId = some buyId) :
    priced.2.2 = answeredPrice e base c.billsec buyId carrierId ∧
      priced.1.carrierId = some carrierId := by
  unfold money at hyields
  split at hyields
  · unfold rateByID at hyields
    obtain ⟨d, hd, hyields⟩ := yields_select_bind.mp hyields
    split at hyields
    · exact absurd hyields yields_raise.mp
    · dsimp only at hyields
      rw [hcarrier] at hyields
      obtain ⟨done, hdone, hyields⟩ :=
        (yields_bind (carrierCost_readOnly e _ carrierId _)).mp hyields
      obtain rfl := yields_pure.mp hyields
      have hcost := carrierCost_eq hseen he hdone hbuy
      exact ⟨hcost, (costRead_of_yields hdone).kept.2.2⟩
  · rename_i hnone
    obtain ⟨t, ht⟩ := Option.isSome_iff_exists.mp hanswered
    obtain ⟨id, hid⟩ := Option.isSome_iff_exists.mp hsold
    exact absurd hid (hnone t id ht)

end Readings

/-- A call's cost lines, whatever their order: which account, which amount. -/
def costEntries (log : List LedgerEntry) (callUUID : UUID) : Multiset (UUID × Decimal) :=
  ((log.filter (fun e => e.callUUID = some callUUID ∧ e.kind = .cost)).map
    (fun e => (e.accountId, e.amount.val)) : List (UUID × Decimal))

/-- The line that is posted for what a carrier is owed, if it has an account. -/
def entryOf (db : DB) (line : UUID × Decimal) : Option (UUID × Decimal) :=
  (payee db line.1).map (·, -line.2)

def sumOn (id : UUID) (entries : Multiset (UUID × Decimal)) : Decimal :=
  (entries.map (fun entry => if entry.1 = id then entry.2 else 0)).sum

/-- An account's terms, reserved money and balance, and so its whole row. -/
def statement (db : DB) (id : UUID) : Option ((Owner × String × Money) × Money × Decimal) :=
  (db.row (.account id)).map (fun a => (terms a, a.reserved, a.balance.val))

/-- A statement with an amount added to the balance. -/
def credit (amount : Decimal) (s : (Owner × String × Money) × Money × Decimal) :
    (Owner × String × Money) × Money × Decimal :=
  (s.1, s.2.1, s.2.2 + amount)

section Posting

variable {seen : DB → Prop} {base db d after : DB} {callUUID accountId : UUID}

variable {kind : LedgerKind} {amount : Decimal}

theorem costEntries_append (log : List LedgerEntry) (e : LedgerEntry) (call : UUID) :
    costEntries (log ++ [e]) call = costEntries log call +
      if e.callUUID = some call ∧ e.kind = .cost then {(e.accountId, e.amount.val)} else 0 := by
  unfold costEntries
  rw [List.filter_append, List.map_append, ← Multiset.coe_add]
  congr 1
  split_ifs with hcost
  · simp [hcost]
  · simp [hcost]

theorem costEntries_moved {owner : Option UUID} {change : Account → Change Account}
    (moved : Moved accountId owner kind change amount db after) (hscale : OnScale scale amount)
    (call : UUID) : costEntries after.log call = costEntries db.log call +
      if owner = some call ∧ kind = .cost then {(accountId, amount)} else 0 := by
  rw [moved.log_eq, costEntries_append, moved.entry_call, moved.entry_kind, moved.entry_account,
    Numeric.val_assign_of_onScale moved.entry_amount hscale]

theorem sumOn_add (id : UUID) (left right : Multiset (UUID × Decimal)) :
    sumOn id (left + right) = sumOn id left + sumOn id right := by
  simp [sumOn]

theorem credit_zero : credit 0 = id := by
  funext s
  simp [credit]

theorem credit_credit (x y : Decimal) : credit y ∘ credit x = credit (x + y) := by
  funext s
  simp [credit, add_assoc]

theorem statement_posted {call : Option UUID}
    (moved : Moved accountId call kind (postChange amount) amount db after)
    (hscale : OnScale scale amount) (id : UUID) :
    statement after id = (statement db id).map (credit (sumOn id {(accountId, amount)})) := by
  unfold statement
  by_cases hid : id = accountId
  · subst hid
    obtain ⟨hbalance, hreserved, -, -⟩ := setBalance_put moved.put
    have hsum : roundTo 6 (moved.old.balance.val + amount) = moved.old.balance.val + amount :=
      moved.old.balance.val_onScale.add hscale
    rw [moved.row_self, moved.old_row, Option.map_some, Option.map_some, Option.map_some,
      setBalance_terms moved.put, hreserved, hbalance, hsum]
    simp [sumOn, credit]
  · have hsum : sumOn id {(accountId, amount)} = 0 := by simp [sumOn, Ne.symm hid]
    rw [moved.row_of_ne (by simpa using hid), hsum, credit_zero, Option.map_id]
    rfl

/-- What the cost lines of a bill do to the ledger and to the accounts. -/
theorem costs_posted {lines : List (UUID × Decimal)}
    (h : CostsPosted seen db callUUID lines d after) (hbase : Frame base db)
    (hseen : ∀ d, seen d → Frame base d) (hframe : Frame base d)
    (hscale : ∀ line ∈ lines, OnScale scale line.2) :
    costEntries after.log callUUID = costEntries d.log callUUID + lines.filterMap (entryOf base) ∧
      ∀ id, statement after id =
        (statement d id).map (credit (sumOn id (lines.filterMap (entryOf base)))) := by
  -- under what the bill has written, a seen store has the accounts of the start
  have hview : ∀ source effects, seen source → Frame base (db.apply effects) →
      Frame base (source.apply effects) := by
    intro source effects hsource hwritten
    have hsame : Frame db source := hbase.symm.trans (hseen source hsource)
    exact (hseen source hsource).trans (hsame.apply (hbase.symm.trans hwritten))
  induction h with
  | done d =>
    refine ⟨by simp, fun id => ?_⟩
    have hnone : sumOn id (([] : List (UUID × Decimal)).filterMap (entryOf base)) = 0 := rfl
    rw [hnone, credit_zero, Option.map_id]
    rfl
  | @posted carrierId accountId amount _ lines _ _ source effects hsource hfound moved _ ih =>
    have hpayee : payee base carrierId = some accountId := by
      rw [← (hview source effects hsource hframe).payee_eq carrierId, payee, hfound]
      rfl
    have hline : OnScale scale (-amount) := (hscale (carrierId, amount) (.head _)).neg
    have hentry : entryOf base (carrierId, amount) = some (accountId, -amount) := by
      simp [entryOf, hpayee]
    have hcons : (((carrierId, amount) :: lines).filterMap (entryOf base) :
        Multiset (UUID × Decimal)) = {(accountId, -amount)} + lines.filterMap (entryOf base) := by
      rw [List.filterMap_cons, hentry]
      rfl
    obtain ⟨hentries, haccounts⟩ := ih (hframe.trans (.posted moved))
      (fun line hmem => hscale line (.tail _ hmem))
    refine ⟨?_, fun id => ?_⟩
    · rw [hentries, costEntries_moved moved hline, hcons, if_pos ⟨rfl, rfl⟩, add_assoc]
    · rw [haccounts, statement_posted moved hline, Option.map_map, credit_credit, hcons,
        sumOn_add]
  | @skipped carrierId amount lines _ source effects hsource hnone _ ih =>
    have hpayee : payee base carrierId = none := by
      rw [← (hview source effects hsource hframe).payee_eq carrierId, payee, hnone]
      rfl
    have hcons : ((carrierId, amount) :: lines).filterMap (entryOf base) =
        lines.filterMap (entryOf base) := by
      simp [entryOf, hpayee]
    rw [hcons]
    exact ih hframe (fun line hmem => hscale line (.tail _ hmem))

theorem costEntries_moved_of_ne {owner : Option UUID} {kind : LedgerKind}
    {change : Account → Change Account} {amount : Decimal}
    (moved : Moved accountId owner kind change amount db after) (hkind : kind ≠ .cost)
    (call : UUID) : costEntries after.log call = costEntries db.log call := by
  rw [moved.log_eq, costEntries_append, moved.entry_kind, if_neg (fun h => hkind h.2), add_zero]

/-- The customer's side of a bill posts no cost line and moves no other
account. -/
theorem customer_settled {price : Decimal} {a : ActiveCall}
    (h : CustomerSettled callUUID price db after (some a)) (call : UUID) :
    costEntries after.log call = costEntries db.log call ∧
      ∀ id, id ≠ a.accountId → statement after id = statement db id := by
  obtain ⟨mid, hreleased, hcharged⟩ := h
  constructor
  · have hmid : costEntries mid.log call = costEntries db.log call := by
      unfold Released at hreleased
      split_ifs at hreleased
      · rw [hreleased]
      · obtain ⟨moved⟩ := hreleased
        exact costEntries_moved_of_ne moved (by simp) call
    rw [← hmid]
    unfold Charged at hcharged
    split_ifs at hcharged
    · obtain ⟨moved⟩ := hcharged
      exact costEntries_moved_of_ne moved (by simp) call
    · rw [hcharged]
  · intro id hid
    unfold statement
    rw [Charged.row_of_ne hcharged (by simpa using hid), hreleased.row_of_ne (by simpa using hid)]

end Posting

/-- A call that was answered: what its setup left in the store, the attempts
that will be reported, and what the hangup says. -/
structure AnsweredCall (start : DB) (h : HangupInfo) (cdr : CDR) (ac : ActiveCall)
    (failed : List AttemptRecord) (answering : AttemptRecord) (buyId : UUID) : Prop where
  record : start.row (.cdr h.callUUID) = some cdr
  pending : cdr.billedAt = none
  unbilled : Unbilled cdr
  fresh : cdr.attempts = []
  sold : cdr.sellRateId.isSome
  reservation : start.row (.active h.callUUID) = some ac
  customer : carrierAccount start ac.accountId = false
  answered : h.answerTime.isSome
  carrier : h.answeredCarrierId = some answering.carrierId
  classified : answering.classification = .answered
  buyRate : answering.buyRateId = some buyId
  failures : ∀ a ∈ failed, a.classification ≠ .answered

/-- Attempts at the carrier that answered carry its buy rate, if any. -/
def OneRate (failed : List AttemptRecord) (carrierId buyId : UUID) : Prop :=
  ∀ a ∈ failed, a.carrierId = carrierId → ∀ id, a.buyRateId = some id → id = buyId

/-- What the carriers of a call are owed: the price of the one that answered
and the fees of those that failed, each once. -/
def owed (e : Engine) (db : DB) (h : HangupInfo) (failed : List AttemptRecord)
    (answering : AttemptRecord) (buyId : UUID) : List (UUID × Decimal) :=
  carrierLines (some answering.carrierId)
    (answeredPrice e db (if h.billsec < 0 then 0 else h.billsec) buyId answering.carrierId) [] ++
    failed.filterMap (feeOf e db)

/-- The same as an amount. -/
def owedCost (e : Engine) (db : DB) (h : HangupInfo) (failed : List AttemptRecord)
    (answering : AttemptRecord) (buyId : UUID) : Decimal :=
  answeredPrice e db (if h.billsec < 0 then 0 else h.billsec) buyId answering.carrierId +
    ((failed.filterMap (feeOf e db)).map (·.2)).sum

/-- The carrier's side of a call in the end: the cost on the record, the cost
lines, and every carrier's account. -/
structure CarrierSide (start db : DB) (callUUID : UUID) (cost : Decimal)
    (lines : List (UUID × Decimal)) : Prop where
  cost : (db.row (.cdr callUUID)).map (·.cost) = some cost
  entries : costEntries db.log callUUID =
    costEntries start.log callUUID + lines.filterMap (entryOf start)
  accounts : ∀ id, carrierAccount start id = true → statement db id =
    (statement start id).map (credit (sumOn id (lines.filterMap (entryOf start))))

/-- A store in which nothing has happened but reports. -/
structure Noted (start : DB) (callUUID : UUID) (cdr : CDR) (records : List AttemptRecord)
    (db : DB) : Prop where
  record : ∃ c, db.row (.cdr callUUID) = some c ∧ c.attempts = cdr.attempts ++ records ∧
    { c with attempts := cdr.attempts, failoverDepth := cdr.failoverDepth } = cdr
  others : ∀ key, key ≠ .cdr callUUID → db.row key = start.row key
  log : db.log = start.log

section Bill

variable {seen : DB → Prop} {start db after : DB} {callUUID : UUID} {cdr : CDR} {ac : ActiveCall}
  {records failed : List AttemptRecord} {answering : AttemptRecord} {buyId : UUID} {e : Engine}
  {h : HangupInfo}

theorem Noted.frame (hnoted : Noted start callUUID cdr records db) : Frame start db where
  terms_eq id := by rw [hnoted.others _ (by simp)]
  static_eq key hkey := by
    refine hnoted.others key ?_
    rintro rfl
    exact hkey

theorem fillPDD_kept (progress answer : Option Time) (a : AttemptRecord) :
    (fillPDD progress answer a).carrierId = a.carrierId ∧
      (fillPDD progress answer a).buyRateId = a.buyRateId := by
  unfold fillPDD
  split
  · split
    · exact ⟨rfl, rfl⟩
    · exact ⟨rfl, rfl⟩
  · exact ⟨rfl, rfl⟩

theorem buyRateFor_fillAttemptPDD (attempts : List AttemptRecord) (progress answer : Option Time)
    (carrierId : UUID) :
    buyRateFor (fillAttemptPDD attempts progress answer) carrierId =
      buyRateFor attempts carrierId := by
  unfold buyRateFor fillAttemptPDD
  rw [← List.map_reverse, List.find?_map, Option.bind_map]
  have htest : (fun a : AttemptRecord => a.carrierId == carrierId && a.buyRateId.isSome) ∘
      fillPDD progress answer = fun a => a.carrierId == carrierId && a.buyRateId.isSome := by
    funext a
    simp only [Function.comp_apply, fillPDD_kept]
  rw [htest]
  congr 1
  funext a
  exact (fillPDD_kept progress answer a).2

theorem buyRateFor_eq (hperm : records.Perm (failed ++ [answering]))
    (hrate : OneRate failed answering.carrierId buyId) (hbuy : answering.buyRateId = some buyId) :
    buyRateFor records answering.carrierId = some buyId := by
  have hone : ∀ a ∈ records, a.carrierId = answering.carrierId →
      ∀ id, a.buyRateId = some id → id = buyId := by
    intro a ha hcarrier id hid
    rcases List.mem_append.mp (hperm.mem_iff.mp ha) with hfailed | hanswering
    · exact hrate a hfailed hcarrier id hid
    · obtain rfl := List.mem_singleton.mp hanswering
      exact Option.some.inj (hid.symm.trans hbuy)
  have hmem : answering ∈ records := hperm.mem_iff.mpr (by simp)
  unfold buyRateFor
  cases hfound : records.reverse.find?
      (fun a => a.carrierId == answering.carrierId && a.buyRateId.isSome) with
  | none =>
    have hnone := List.find?_eq_none.mp hfound answering (List.mem_reverse.mpr hmem)
    simp [hbuy] at hnone
  | some a =>
    have ha := List.mem_reverse.mp (List.mem_of_find?_eq_some hfound)
    have htest := List.find?_some hfound
    rw [Bool.and_eq_true, beq_iff_eq] at htest
    obtain ⟨id, hid⟩ := Option.isSome_iff_exists.mp htest.2
    rw [Option.bind_some, hid, hone a ha htest.1 id hid]

theorem fees_perm (hperm : records.Perm (failed ++ [answering]))
    (hclass : answering.classification = .answered) (progress answer : Option Time) :
    ((fillAttemptPDD records progress answer).filterMap (feeOf e start)).Perm
      (failed.filterMap (feeOf e start)) := by
  have hfilled : (fillAttemptPDD records progress answer).filterMap (feeOf e start) =
      records.filterMap (feeOf e start) := by
    unfold fillAttemptPDD
    rw [List.filterMap_map]
    congr 1
    funext a
    exact feeOf_fillPDD start progress answer a
  have hanswering : feeOf e start answering = none := by simp [feeOf, chargesFee, hclass]
  rw [hfilled]
  refine (hperm.filterMap _).trans ?_
  rw [List.filterMap_append]
  simp [hanswering]

theorem carrierLines_eq {carrierId : Option UUID} {cost : Decimal} {fees : List AttemptFee} :
    carrierLines carrierId cost fees =
      carrierLines carrierId cost [] ++ fees.map (fun f => (f.carrierId, f.amount)) := by
  simp [carrierLines]

theorem statement_closed (row : CDR) (id : UUID) :
    statement (closed callUUID (some ac) row db) id = statement db id := by
  unfold statement closed withoutActive
  rw [Database.row_set_of_ne _ _ (by simp), Database.row_set_of_ne _ _ (by simp)]

theorem carrierSide_billed {now : Time} {out : Outcome}
    (hcall : AnsweredCall start h cdr ac failed answering buyId)
    (hrate : OneRate failed answering.carrierId buyId) (he : e.RatesFixed)
    (hperm : records.Perm (failed ++ [answering]))
    (hnoted : Noted start h.callUUID cdr records db)
    (hseen : ∀ d, seen d → ∃ some, Noted start h.callUUID cdr some d)
    (billed : BilledAs seen e now h db after out) :
    CarrierSide start after h.callUUID (owedCost e start h failed answering buyId)
      (owed e start h failed answering buyId) := by
  obtain ⟨c, hrecord, hattempts, hsame⟩ := hnoted.record
  rw [hcall.fresh, List.nil_append] at hattempts
  have hframe : ∀ d, seen d → Frame start d := by
    intro d hd
    obtain ⟨_, hd⟩ := hseen d hd
    exact hd.frame
  cases billed with
  | noCDR _ _ d hd hmissing =>
    obtain ⟨_, hd⟩ := hseen d hd
    obtain ⟨_, hfound, -⟩ := hd.record
    rw [hmissing] at hfound
    cases hfound
  | already found hfound hbilled _ _ =>
    obtain rfl := Option.some.inj (hrecord.symm.trans hfound)
    have hpending : c.billedAt = none := (congrArg CDR.billedAt hsame).trans hcall.pending
    rw [hpending] at hbilled
    cases hbilled
  | settled found row routed active priced fees mid hfound _ hactive hmissed hyields hrouted hfees
      hrow hcosts hcustomer _ =>
      obtain rfl := Option.some.inj (hrecord.symm.trans hfound)
      obtain rfl : active = some ac := by
        cases active with
        | none =>
          obtain ⟨d, hd, -, hmissing⟩ := hmissed rfl
          obtain ⟨_, hd⟩ := hseen d hd
          rw [hd.others _ (by simp), hcall.reservation] at hmissing
          cases hmissing
        | some a =>
          have hopen := hactive a rfl
          rw [hnoted.others _ (by simp), hcall.reservation] at hopen
          rw [Option.some.inj hopen]
      have hread := moneyRead_of_yields hyields
      have hfilled : (withHangup e.nodeName now h c).attempts =
          fillAttemptPDD records (h.progressTime <|> c.progressTime)
            (h.answerTime <|> c.answerTime) := by
        rw [← hattempts]
        rfl
      have hsold : c.sellRateId.isSome :=
        (congrArg (fun r => r.sellRateId.isSome) hsame).trans hcall.sold
      obtain ⟨hprice, hcarrier⟩ := money_cost hframe he hyields hcall.answered hsold hcall.carrier
        (by rw [hfilled, buyRateFor_fillAttemptPDD]; exact buyRateFor_eq hperm hrate hcall.buyRate)
      have hpriced := hread.priced
        ((congrArg CDR.sellPrice hsame).trans hcall.unbilled.sellPrice_eq)
        ((congrArg CDR.cost hsame).trans hcall.unbilled.cost_eq)
      have hscale := hread.onScale.2
      have hfeeScale := failedAttemptFees_onScale _ hfees
      have hfeeLines := failedAttemptFees_eq hframe he hfees
      have hpaid := settled_cost hrouted hrow hpriced.cost hscale hfeeScale
      obtain ⟨transport, rfl⟩ := withTransport_yields hrouted
      dsimp only at hfeeLines hcosts
      rw [hread.kept.1, hfilled] at hfeeLines
      have hlines : (carrierLines priced.1.carrierId priced.2.2 fees.2).Perm
          (owed e start h failed answering buyId) := by
        rw [carrierLines_eq, hfeeLines, hcarrier, hprice]
        exact (fees_perm hperm hcall.classified _ _).append_left _
      have hentries : ((carrierLines priced.1.carrierId priced.2.2 fees.2).filterMap
          (entryOf start) : Multiset (UUID × Decimal)) =
            (owed e start h failed answering buyId).filterMap (entryOf start) :=
        Multiset.coe_eq_coe.mpr (hlines.filterMap _)
      obtain ⟨hposted, hmoved⟩ := costs_posted hcosts hnoted.frame hframe
        (hnoted.frame.trans .closed) (carrierLines_onScale _ hscale hfeeScale)
      obtain ⟨hcustomerLog, hcustomerRows⟩ := customer_settled hcustomer h.callUUID
      refine ⟨?_, ?_, fun id hid => ?_⟩
      · have hwritten : after.row (.cdr h.callUUID) = some row :=
          CustomerSettled.record hcustomer (hcosts.row_of_ne (by simp))
        have hfeeSum : (fees.2.map (·.amount)).sum =
            ((failed.filterMap (feeOf e start)).map (·.2)).sum := by
          rw [← ((fees_perm hperm hcall.classified _ _).map Prod.snd).sum_eq, ← hfeeLines,
            List.map_map]
          rfl
        rw [hwritten, Option.map_some, hpaid, hprice, hfeeSum]
        rfl
      · rw [hcustomerLog, hposted, hentries, ← hnoted.log]
        rfl
      · have hother : id ≠ ac.accountId := by
          rintro rfl
          rw [hcall.customer] at hid
          cases hid
        rw [hcustomerRows id hother, hmoved, hentries, statement_closed]
        unfold statement
        rw [hnoted.others _ (by simp)]

end Bill

/-- The messages of a call: first the reports, in the order of the attempts,
and then the hangup. They commit in any order. -/
def deliveries (e : Engine) (now : Time) (h : HangupInfo) (reports : List AttemptRecord)
    (t : ℕ) : CallAct :=
  match reports[t]? with
  | some record => .report h.callUUID record
  | none => .job (.bill e now h)

/-- The reports of some commits, oldest first. -/
def reported (reports : List AttemptRecord) (history : List CallCommit) : List AttemptRecord :=
  history.reverse.filterMap (fun c => reports[c.id]?)

/-- How far the messages of a call have got: only reports, or reports and then
the bill. -/
structure Arrived (e : Engine) (now : Time) (h : HangupInfo) (start : DB) (cdr : CDR)
    (reports : List AttemptRecord) (history : List CallCommit) (db : DB) : Prop where
  noted : (∀ c ∈ history, c.id < reports.length) →
    Noted start h.callUUID cdr (reported reports history) db
  billed : ∀ last earlier, history = last :: earlier → reports.length ≤ last.id →
    (∀ c ∈ earlier, c.id < reports.length) → ∃ seen before out,
      Noted start h.callUUID cdr (reported reports earlier) before ∧
      (∀ d, seen d → ∃ some, Noted start h.callUUID cdr some d) ∧
      BilledAs seen e now h before db out

section Run

variable {e : Engine} {now : Time} {h : HangupInfo} {start before after : DB} {cdr : CDR}
  {reports : List AttemptRecord} {history : List CallCommit}

theorem Noted.report {callUUID : UUID} {records : List AttemptRecord} {record : AttemptRecord}
    {c : CDR} (hnoted : Noted start callUUID cdr records before)
    (hcdr : before.row (.cdr callUUID) = some c) (hafter : after = before.set (.cdr callUUID)
      (some { c with attempts := c.attempts ++ [record], failoverDepth := c.attempts.length })) :
    Noted start callUUID cdr (records ++ [record]) after := by
  obtain ⟨found, hfound, hattempts, hsame⟩ := hnoted.record
  obtain rfl := Option.some.inj (hcdr.symm.trans hfound)
  subst hafter
  refine ⟨⟨_, Database.row_set_self _ _ _, ?_, hsame⟩, fun key hkey => ?_, hnoted.log⟩
  · dsimp only
    rw [hattempts, List.append_assoc]
  · rw [Database.row_set_of_ne _ _ hkey, hnoted.others key hkey]

theorem arrived_start (hcdr : start.row (.cdr h.callUUID) = some cdr) :
    Arrived e now h start cdr reports [] start where
  noted _ := ⟨⟨cdr, hcdr, by simp [reported], rfl⟩, fun _ _ => rfl, rfl⟩
  billed _ _ hnil := by cases hnil

theorem Arrived.commit {t : ℕ} (harrived : Arrived e now h start cdr reports history before)
    (hdid : CallAct.Did
      (fun d => ∃ older, older <:+ history ∧ Arrived e now h start cdr reports older d)
      before after (deliveries e now h reports t)) :
    Arrived e now h start cdr reports (⟨t, (), before, after⟩ :: history) after where
  noted := by
    intro hreports
    have hearlier : ∀ c ∈ history, c.id < reports.length := fun c hc => hreports c (.tail _ hc)
    obtain ⟨record, hrecord⟩ : ∃ record, reports[t]? = some record :=
      ⟨_, List.getElem?_eq_getElem (hreports _ (.head _))⟩
    have hact : deliveries e now h reports t = .report h.callUUID record := by
      rw [deliveries, hrecord]
    have hlonger : reported reports (⟨t, (), before, after⟩ :: history) =
        reported reports history ++ [record] := by
      simp [reported, List.filterMap_append, hrecord]
    rw [hact] at hdid
    rw [hlonger]
    cases hdid with
    | report c hcdr hafter => exact (harrived.noted hearlier).report hcdr hafter
    | unreported d hseen hmissing _ =>
      -- a store of this run always has the record
      obtain ⟨older, holder, hd⟩ := hseen
      obtain ⟨_, hfound, -⟩ := (hd.noted (fun c hc => hearlier c (holder.subset hc))).record
      rw [hmissing] at hfound
      cases hfound
  billed := by
    intro last earlier hcons hlast hearlier
    obtain ⟨rfl, rfl⟩ := List.cons.inj hcons
    have hact : deliveries e now h reports t = .job (.bill e now h) := by
      rw [deliveries, List.getElem?_eq_none hlast]
    rw [hact] at hdid
    obtain ⟨did⟩ := hdid
    cases did with
    | bill billed =>
      refine ⟨_, before, _, harrived.noted hearlier, ?_, billed⟩
      rintro d ⟨older, holder, hd⟩
      exact ⟨_, hd.noted (fun c hc => hearlier c (holder.subset hc))⟩

theorem filterMap_getElem?_range (l : List AttemptRecord) :
    (List.range l.length).filterMap (fun t => l[t]?) = l := by
  induction l with
  | nil => rfl
  | cons a rest ih =>
    rw [List.length_cons, List.range_succ_eq_map, List.filterMap_cons, List.getElem?_cons_zero,
      List.filterMap_map]
    exact congrArg (List.cons a) ih

/-- When all reports have committed, in whatever order, the record has them. -/
theorem reported_perm (hids : (history.map (·.id)).Perm (List.range reports.length)) :
    (reported reports history).Perm reports := by
  have hmap : reported reports history =
      (history.map (·.id)).reverse.filterMap (fun t => reports[t]?) := by
    rw [← List.map_reverse, List.filterMap_map]
    rfl
  have hperm := ((List.reverse_perm _).trans hids).filterMap (fun t => reports[t]?)
  rw [filterMap_getElem?_range] at hperm
  rwa [hmap]

end Run

/-- In every run in which the bill commits after the reports, whatever their
order, the carriers of the call are charged what they are owed, each once. -/
theorem carrier_side_in_any_order {e : Engine} {now : Time} {h : HangupInfo} {start : DB}
    {cdr : CDR} {ac : ActiveCall} {failed : List AttemptRecord} {answering : AttemptRecord}
    {buyId : UUID} (hcall : AnsweredCall start h cdr ac failed answering buyId)
    (hrate : OneRate failed answering.carrierId buyId) (he : e.RatesFixed) (σ : CallServer)
    (hrun : CallRuns (deliveries e now h (failed ++ [answering])) start σ) (ids : List ℕ)
    (hcommits : σ.history.map (·.id) = (failed.length + 1) :: ids)
    (hids : ids.Perm (List.range (failed.length + 1))) :
    CarrierSide start σ.db h.callUUID (owedCost e start h failed answering buyId)
      (owed e start h failed answering buyId) := by
  have harrived := hrun.invariant (Arrived e now h start cdr (failed ++ [answering]))
    (arrived_start hcall.record) (fun t history before after hinv hdid => hinv.commit hdid)
  have hlength : (failed ++ [answering]).length = failed.length + 1 := by simp
  obtain ⟨last, earlier, hhistory, hlast, rfl⟩ := List.map_eq_cons_iff.mp hcommits
  have hearlier : ∀ c ∈ earlier, c.id < (failed ++ [answering]).length := by
    intro c hc
    rw [hlength]
    exact List.mem_range.mp (hids.mem_iff.mp (List.mem_map_of_mem hc))
  obtain ⟨seen, before, out, hnoted, hseen, billed⟩ :=
    harrived.billed last earlier hhistory (by omega) hearlier
  rw [← hlength] at hids
  exact carrierSide_billed hcall hrate he (reported_perm hids) hnoted hseen billed

/-- Call 42 as its setup leaves it, sold and not dialled yet. -/
def sampleDialled : CDR := { sampleTried 21 22 with attempts := [], buyFX := 1 }

def sampleOpen : DB :=
  (sampleCarriers.set (.cdr 42) (some sampleDialled)).set (.active 42) (some sampleReservation)

/-- The call fails once and is answered at carrier 22. -/
def sampleMessages (failed : AttemptRecord) : ℕ → CallAct :=
  deliveries sampleEngine 90000000000 (sampleAnswered 42 22) [failed, sampleAttempt 22 .answered]

theorem answeredCall_sampleOpen {failed : AttemptRecord}
    (hfailed : failed.classification ≠ .answered) :
    AnsweredCall sampleOpen (sampleAnswered 42 22) sampleDialled sampleReservation [failed]
      (sampleAttempt 22 .answered) 31 where
  record := rfl
  pending := rfl
  unbilled := ⟨rfl, rfl, rfl, rfl, rfl, rfl⟩
  fresh := rfl
  sold := rfl
  reservation := rfl
  customer := rfl
  answered := rfl
  carrier := rfl
  classified := rfl
  buyRate := rfl
  failures a ha := by
    obtain rfl := List.mem_singleton.mp ha
    exact hfailed

theorem sampleEngine_ratesFixed : sampleEngine.RatesFixed := by
  intro fx _ _ _ _ hfx
  cases hfx

theorem oneRate_sampleOpen :
    OneRate [sampleAttempt 21 .carrierFault] (sampleAttempt 22 .answered).carrierId 31 := by
  intro a ha _ id hid
  obtain rfl := List.mem_singleton.mp ha
  exact (Option.some.inj hid).symm

/-- The reports come in the wrong order, and nothing changes. -/
theorem carrier_side_sampleOpen :
    ∃ σ, CallRuns (sampleMessages (sampleAttempt 21 .carrierFault)) sampleOpen σ ∧
      σ.history.map (·.id) = [2, 0, 1] ∧
      CarrierSide sampleOpen σ.db 42 (6 / 100) [(22, 5 / 100), (21, 1 / 100)] := by
  obtain ⟨σ, hrun, hids⟩ := reachable_serial
    (by decide +kernel : (serial (fun t => (sampleMessages (sampleAttempt 21 .carrierFault) t).tx)
      [1, 0, 2] sampleOpen).map (fun f => f.2.map (·.id)) = some [2, 0, 1])
  have hside := carrier_side_in_any_order (answeredCall_sampleOpen (by decide)) oneRate_sampleOpen
    sampleEngine_ratesFixed σ hrun [0, 1] hids (by decide)
  have hcost : owedCost sampleEngine sampleOpen (sampleAnswered 42 22)
      [sampleAttempt 21 .carrierFault] (sampleAttempt 22 .answered) 31 = 6 / 100 := by
    decide +kernel
  have howed : owed sampleEngine sampleOpen (sampleAnswered 42 22)
      [sampleAttempt 21 .carrierFault] (sampleAttempt 22 .answered) 31 =
        [(22, 5 / 100), (21, 1 / 100)] := by
    decide +kernel
  rw [hcost, howed] at hside
  exact ⟨σ, hrun, hids, hside⟩

/-- What a run of the sample's messages leaves: the attempts on the record in
their order, the cost, and the balance of the carrier that answered. -/
def sampleLeft (db : DB) : Option (List UUID × Decimal) × Option Decimal :=
  ((db.row (.cdr 42)).map (fun c => (c.attempts.map (·.carrierId), c.cost)),
    (db.row (.account 12)).map (·.balance.val))

theorem run_sampleMessages {failed : AttemptRecord} {order ids : List ℕ}
    {left : Option (List UUID × Decimal) × Option Decimal}
    (hserial : (serial (fun t => (sampleMessages failed t).tx) order sampleOpen).map
      (fun f => (f.2.map (·.id), sampleLeft f.1)) = some (ids, left)) :
    ∃ σ, CallRuns (sampleMessages failed) sampleOpen σ ∧ σ.history.map (·.id) = ids ∧
      sampleLeft σ.db = left := by
  obtain ⟨σ, hrun, hfinal⟩ := reachable_serial hserial
  exact ⟨σ, hrun, Prod.mk.inj hfinal⟩

/-- The report of the attempt that was answered commits after the bill: the
record lists it, and the carrier is never paid. -/
theorem late_report_not_charged :
    ∃ σ τ, CallRuns (sampleMessages (sampleAttempt 21 .carrierFault)) sampleOpen σ ∧
      CallRuns (sampleMessages (sampleAttempt 21 .carrierFault)) sampleOpen τ ∧
      AnsweredCall sampleOpen (sampleAnswered 42 22) sampleDialled sampleReservation
        [sampleAttempt 21 .carrierFault] (sampleAttempt 22 .answered) 31 ∧
      OneRate [sampleAttempt 21 .carrierFault] 22 31 ∧
      σ.history.map (·.id) = [2, 1, 0] ∧ τ.history.map (·.id) = [1, 2, 0] ∧
      sampleLeft σ.db = (some ([21, 22], 6 / 100), some (-(5 / 100))) ∧
      sampleLeft τ.db = (some ([21, 22], 1 / 100), some 0) := by
  obtain ⟨σ, hrun, hids, hleft⟩ := run_sampleMessages
    (by decide +kernel : (serial (fun t => (sampleMessages (sampleAttempt 21 .carrierFault) t).tx)
      [0, 1, 2] sampleOpen).map (fun f => (f.2.map (·.id), sampleLeft f.1)) =
        some ([2, 1, 0], some ([21, 22], 6 / 100), some (-(5 / 100))))
  obtain ⟨τ, hlate, hlateIds, hlateLeft⟩ := run_sampleMessages
    (by decide +kernel : (serial (fun t => (sampleMessages (sampleAttempt 21 .carrierFault) t).tx)
      [0, 2, 1] sampleOpen).map (fun f => (f.2.map (·.id), sampleLeft f.1)) =
        some ([1, 2, 0], some ([21, 22], 1 / 100), some 0))
  exact ⟨σ, τ, hrun, hlate, answeredCall_sampleOpen (by decide), oneRate_sampleOpen, hids, hlateIds,
    hleft, hlateLeft⟩

end Ledger

end SuperSbc
