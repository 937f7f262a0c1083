import SuperSbc.Model

/-!
Money movements on accounts. Each of them is one `UPDATE ... RETURNING` on the
account row followed by one ledger line, so `moveMoney` is the statement pair
and `reserve`, `release` and `post` are the three uses the store makes of it.
-/

namespace SuperSbc.Store

open FixedPoint Rating ReadCommitted Transaction

/-- A decimal parameter assigned to a `numeric(18,6)` column. -/
def numeric (x : Decimal) : Tx Money :=
  match Numeric.assign 18 6 x with
  | some m => pure m
  | none => raise .numericOverflow

/-- The row an owner's `SELECT` finds. The index only leads to the row; the
`WHERE` clause is about the row itself. -/
def findAccount (db : DB) (owner : Owner) : Option (UUID × Account) :=
  match db.row (.accountOf owner) with
  | none => none
  | some id =>
    match db.row (.account id) with
    | none => none
    | some a => if a.owner = owner then some (id, a) else none

def accountByOwner (owner : Owner) : Tx (Option (UUID × Account)) :=
  select (fun db => findAccount db owner)

/-- `SET reserved = x`, with the column's rounding, width and check. -/
def setReserved (a : Account) (x : Decimal) : Change Account :=
  match Numeric.assign 18 6 x with
  | none => .violate
  | some m =>
    if h : 0 ≤ m.units then .put { a with reserved := m, reserved_nonneg := h }
    else .violate

/-- `SET balance = x`. -/
def setBalance (a : Account) (x : Decimal) : Change Account :=
  match Numeric.assign 18 6 x with
  | none => .violate
  | some m => .put { a with balance := m }

/-- One account update and its ledger line. -/
def moveMoney (accountId : UUID) (callUUID : Option UUID) (kind : LedgerKind)
    (change : Account → Change Account) (missing : StoreError) (amount : Decimal)
    (description : String) (createdBy : Option String) : Tx Account := do
  let updated : Option Account ← updateRow (Key.account accountId) change
  match updated with
  | none => raise missing
  | some acc =>
    let stored ← numeric amount
    appendEntry ⟨accountId, callUUID, kind, stored, acc.balance, description, createdBy⟩
    pure acc

/-- The `WHERE` clause checks affordability again under the row lock. -/
def reserveChange (amount : Decimal) (a : Account) : Change Account :=
  if 0 < a.available ∧ amount ≤ a.available then setReserved a (a.reserved.val + amount)
  else .skip

/-- `report` is what the caller returns next to the error. -/
def reserve (accountId callUUID : UUID) (amount : Decimal) (description : String)
    (report : ReserveResult) : Tx Account :=
  moveMoney accountId (some callUUID) .reserve (reserveChange amount)
    (.insufficientFunds (some report)) (-amount) description none

def lockAccount (accountId : UUID) : Tx Account := do
  let locked : Option Account ← lockRow (Key.account accountId)
  match locked with
  | none => raise .notFound
  | some acc => pure acc

/-- `GREATEST(reserved - amount, 0)`. -/
def releaseChange (amount : Decimal) (a : Account) : Change Account :=
  setReserved a (max (a.reserved.val - amount) 0)

/-- A zero reservation leaves no ledger line. -/
def release (accountId callUUID : UUID) (amount : Decimal) (description : String) :
    Tx Account :=
  if amount = 0 then lockAccount accountId
  else
    moveMoney accountId (some callUUID) .release (releaseChange amount) .notFound amount
      description none

def postChange (amount : Decimal) (a : Account) : Change Account :=
  setBalance a (a.balance.val + amount)

/-- `balance += amount`, signed. -/
def post (accountId : UUID) (callUUID : Option UUID) (kind : LedgerKind) (amount : Decimal)
    (description : String) (createdBy : Option String) : Tx Account :=
  moveMoney accountId callUUID kind (postChange amount) .notFound amount description createdBy

/-- What one movement does to the store. -/
structure Moved (accountId : UUID) (callUUID : Option UUID) (kind : LedgerKind)
    (change : Account → Change Account) (amount : Decimal) (before after : DB) where
  old : Account
  new : Account
  entry : LedgerEntry
  old_row : before.row (.account accountId) = some old
  put : change old = .put new
  entry_account : entry.accountId = accountId
  entry_call : entry.callUUID = callUUID
  entry_kind : entry.kind = kind
  entry_amount : Numeric.assign 18 6 amount = some entry.amount
  after_eq : after = (before.set (.account accountId) (some new)).push entry

namespace Moved

variable {accountId : UUID} {callUUID : Option UUID} {kind : LedgerKind}
  {change : Account → Change Account} {amount : Decimal} {before after : DB}
  (h : Moved accountId callUUID kind change amount before after)

include h in
theorem row_of_ne {key : Key} (hne : key ≠ .account accountId) :
    after.row key = before.row key := by
  rw [h.after_eq, Database.row_push, Database.row_set_of_ne _ _ hne]

theorem row_self : after.row (.account accountId) = some h.new := by
  have hafter := congrArg (fun d : DB => d.row (.account accountId)) h.after_eq
  simpa using hafter

theorem log_eq : after.log = before.log ++ [h.entry] := by
  have hafter := congrArg Database.log h.after_eq
  simpa using hafter

end Moved

section Rules

variable {seen : DB → Prop} {db : DB} {p : Progress Key Row LedgerEntry}

theorem wp_numeric {x : Decimal} {post : Money → Progress Key Row LedgerEntry → Prop}
    (h : ∀ m, Numeric.assign 18 6 x = some m → post m p) :
    (numeric x).wp seen db p post := by
  unfold numeric
  cases hassign : Numeric.assign 18 6 x with
  | none => trivial
  | some m => exact h m hassign

theorem wp_moveMoney {accountId : UUID} {callUUID : Option UUID} {kind : LedgerKind}
    {change : Account → Change Account} {missing : StoreError} {amount : Decimal}
    {description : String} {createdBy : Option String}
    {post : Account → Progress Key Row LedgerEntry → Prop}
    (h : ∀ q, p.held ⊆ q.held → (moved : Moved accountId callUUID kind change amount
        (db.apply p.effects) (db.apply q.effects)) → post moved.new q) :
    (moveMoney accountId callUUID kind change missing amount description createdBy).wp
      seen db p post := by
  unfold moveMoney
  rw [wp_bind, wp_updateRow]
  refine ⟨fun old new hrow hput => ?_, fun d _ _ _ => trivial⟩
  rw [wp_bind]
  refine wp_numeric (fun stored hstored => ?_)
  rw [wp_bind, wp_appendEntry]
  exact h _ (Set.subset_insert _ _) ⟨old, new, _, hrow, hput, rfl, rfl, rfl, hstored, rfl⟩

theorem wp_lockAccount {accountId : UUID}
    {post : Account → Progress Key Row LedgerEntry → Prop}
    (h : ∀ a, (db.apply p.effects).row (.account accountId) = some a →
      post a (p.hold (.account accountId))) :
    (lockAccount accountId).wp seen db p post := by
  unfold lockAccount
  rw [wp_bind, wp_lockRow]
  exact ⟨h, fun d _ _ _ => trivial⟩

end Rules

section Alone

variable {db : DB} {effects : List (Effect Key Row LedgerEntry)}

theorem exec_numeric (x : Decimal) :
    (numeric x).exec db effects =
      match Numeric.assign 18 6 x with
      | none => .error (.error .numericOverflow)
      | some m => .ok (m, effects) := by
  unfold numeric
  cases Numeric.assign 18 6 x <;> rfl

theorem exec_moveMoney {accountId : UUID} {call : Option UUID} {kind : LedgerKind}
    {change : Account → Change Account} {missing : StoreError} {amount : Decimal}
    {description : String} {createdBy : Option String} {a : Account}
    (hrow : (db.apply effects).row (.account accountId) = some a) :
    (∃ done, (moveMoney accountId call kind change missing amount description createdBy).exec
      db effects = .ok done) ↔
    (∃ a', change a = .put a') ∧ (Numeric.assign 18 6 amount).isSome := by
  have hupdate : (updateRow (Key.account accountId) change : Tx (Option Account)).exec db effects =
      match change a with
      | .skip => .ok (none, effects)
      | .put a' => .ok (some a', .set (.account accountId) (some a') :: effects)
      | .violate => .error .constraint := by
    rw [exec_updateRow, hrow]
    dsimp only
    cases change a <;> rfl
  unfold moveMoney
  rw [exec_bind, hupdate]
  cases change a with
  | skip | violate => simp [Except.bind]
  | put a' =>
    simp only [Except.bind]
    rw [exec_bind, exec_numeric]
    cases Numeric.assign 18 6 amount with
    | none => simp [Except.bind]
    | some m => exact ⟨fun _ => ⟨⟨a', rfl⟩, rfl⟩, fun _ => ⟨_, rfl⟩⟩

end Alone

theorem setReserved_put {a a' : Account} {x : Decimal} (h : setReserved a x = .put a')
    (hx : OnScale scale x) :
    a'.reserved.val = x ∧ a'.balance = a.balance ∧ a'.allowedCredit = a.allowedCredit ∧
      a'.owner = a.owner := by
  unfold setReserved at h
  split at h
  · cases h
  · rename_i m hassign
    split_ifs at h
    obtain rfl := Change.put.inj h
    exact ⟨Numeric.val_assign_of_onScale hassign hx, rfl, rfl, rfl⟩

theorem releaseChange_put {a a' : Account} {amount : Decimal}
    (h : releaseChange amount a = .put a') (hscale : OnScale scale amount) :
    a'.reserved.val = max (a.reserved.val - amount) 0 ∧ a'.balance = a.balance ∧
      a'.allowedCredit = a.allowedCredit ∧ a'.owner = a.owner := by
  refine setReserved_put h ?_
  rcases max_choice (a.reserved.val - amount) 0 with hmax | hmax
  · rw [hmax]
    exact a.reserved.val_onScale.sub hscale
  · rw [hmax]
    exact OnScale.zero scale

theorem setBalance_put {a a' : Account} {x : Decimal} (h : setBalance a x = .put a') :
    a'.balance.val = roundTo 6 x ∧ a'.reserved = a.reserved ∧
      a'.allowedCredit = a.allowedCredit ∧ a'.owner = a.owner := by
  unfold setBalance at h
  split at h
  · cases h
  · rename_i m hassign
    obtain rfl := Change.put.inj h
    exact ⟨Numeric.val_assign hassign, rfl, rfl, rfl⟩

end SuperSbc.Store
