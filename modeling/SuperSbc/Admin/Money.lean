import SuperSbc.Store.Cdrs

/-!
Money an operator moves by hand: the top-up and adjustment endpoints, which
share `postMoney`, and the invoice payment endpoint. A request that a handler
answers with 400 is an error of the body here.

Allocating a payment to invoices touches the invoice tables only; whether they
accept it, and the id they give it, are inputs.
-/

namespace SuperSbc.Admin

open FixedPoint Rating ReadCommitted Transaction Store

/-- The two endpoints that share `postMoney`. -/
inductive MoneyKind where
  | topup
  | adjustment
deriving DecidableEq

def MoneyKind.ledgerKind : MoneyKind → LedgerKind
  | .topup => .topup
  | .adjustment => .adjustment

def MoneyKind.allowNegative : MoneyKind → Bool
  | .topup => false
  | .adjustment => true

structure MoneyRequest where
  owner : Owner
  kind : MoneyKind
  amount : Decimal
  description : String
  createdBy : String

/-- Six decimals are all that is handed to the store. -/
def postMoney (r : MoneyRequest) : Tx Account := do
  if r.amount = 0 ∨ (¬ r.kind.allowNegative ∧ r.amount < 0) then
    raise (.badRequest "amount must be positive")
  else
    match ← accountByOwner r.owner with
    | none => raise .notFound
    | some (accountId, _) =>
      let _ ← lockAccount accountId
      post accountId none r.kind.ledgerKind (roundTo 6 r.amount) r.description (some r.createdBy)

structure PaymentRequest where
  owner : Owner
  amount : Decimal
  reference : String
  topup : Bool
  createdBy : String
  paymentId : String
  allocationsAccepted : Bool

def paymentDescription (r : PaymentRequest) : String :=
  let base := if r.reference = "" then "payment received" else "payment " ++ r.reference
  let text := if r.owner.kind = .carrier then "payment to carrier " ++ r.reference else base
  text ++ " (invoice ledger " ++ r.paymentId ++ ")"

/-- The payment row: a positive `numeric(18,6)`, then its allocations. -/
def insertPayment (r : PaymentRequest) : Tx Unit := do
  let stored ← numeric r.amount
  if 0 < stored.units ∧ r.allocationsAccepted then pure ()
  else raise (.badRequest "payment rejected")

/-- The amount is handed to the store as it was entered. -/
def createPayment (r : PaymentRequest) : Tx (Option Account) := do
  if r.amount ≤ 0 then raise (.badRequest "amount must be a positive decimal")
  else
    match ← accountByOwner r.owner with
    | none => raise .notFound
    | some (accountId, _) =>
      insertPayment r
      if r.topup then
        let _ ← lockAccount accountId
        let acc ← post accountId none .topup r.amount (paymentDescription r)
          (some r.createdBy)
        pure (some acc)
      else pure none

section Rules

variable {seen : DB → Prop} {db : DB}

theorem wp_postMoney {r : MoneyRequest} {post : Account → Progress Key Row LedgerEntry → Prop}
    (h : ∀ accountId q, (moved : Moved accountId none r.kind.ledgerKind
      (postChange (roundTo 6 r.amount)) (roundTo 6 r.amount) db (db.apply q.effects)) →
      post moved.new q) :
    (postMoney r).wp seen db .start post := by
  unfold postMoney
  split_ifs
  · trivial
  unfold accountByOwner
  rw [wp_bind, wp_select]
  intro d _ _
  cases findAccount (d.apply Progress.start.effects) r.owner with
  | none => trivial
  | some found =>
    dsimp only
    rw [wp_bind]
    exact wp_lockAccount (fun a _ => wp_moveMoney (fun q _ moved => h found.1 q moved))

theorem wp_createPayment {r : PaymentRequest}
    {post : Option Account → Progress Key Row LedgerEntry → Prop}
    (htopup : ∀ accountId q, 0 < r.amount → r.topup = true →
      (∃ d a, seen d ∧ findAccount d r.owner = some (accountId, a)) →
      (moved : Moved accountId none .topup (postChange r.amount) r.amount db
        (db.apply q.effects)) → post (some moved.new) q)
    (hplain : r.topup = false → post none .start) :
    (createPayment r).wp seen db .start post := by
  unfold createPayment
  by_cases hpositive : r.amount ≤ 0
  · rw [if_pos hpositive]
    trivial
  rw [if_neg hpositive]
  unfold accountByOwner insertPayment
  rw [wp_bind, wp_select]
  intro d hd _
  cases hfound : findAccount (d.apply Progress.start.effects) r.owner with
  | none => trivial
  | some found =>
    dsimp only
    rw [wp_bind, wp_bind]
    refine wp_numeric (fun stored _ => ?_)
    by_cases haccepted : 0 < stored.units ∧ r.allocationsAccepted
    · rw [if_pos haccepted]
      cases htop : r.topup with
      | false => exact hplain htop
      | true =>
        refine (wp_bind _ _ _).mpr (wp_lockAccount (fun a _ => (wp_bind _ _ _).mpr ?_))
        exact wp_moveMoney (fun q _ moved => htopup found.1 q (not_le.mp hpositive) htop
          ⟨d, found.2, hd, hfound⟩ moved)
    · rw [if_neg haccepted]
      trivial

end Rules

end SuperSbc.Admin
