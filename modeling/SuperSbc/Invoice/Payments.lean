import SuperSbc.Interleaving.Trace
import SuperSbc.Invoice.Allocate

/-!
Payments against invoices. `InsertPayment` inserts the payment, reads and locks
the open invoices of the account with what they owe, plans, and inserts the
allocations, all in one transaction; `Delete` reads and locks an invoice with
what was paid, and marks it if that is nothing. Both interleave, on any number
of nodes.

A `SELECT … FOR UPDATE` takes its snapshot when it starts and the locks after
that, row by row. A row it had to wait for is read again, but what its
subquery sums up stays what the snapshot says. Allocations stand with the
payment they are part of; they are visible from its commit on.
-/

namespace SuperSbc.Invoice.Payments

open FixedPoint Rating CallControl Interleaving

/-- A row of `invoices`; `deleted` is a committed `deleted_at`. -/
structure DueInvoice where
  id : UUID
  accountId : UUID
  number : String
  start : Time
  amount : Money
  deleted : Bool
deriving DecidableEq

/-- A row of `invoice_allocations`, with its column check. -/
structure Allocation where
  invoiceId : UUID
  amount : Money
  pos : 0 < amount.units
deriving DecidableEq

structure Payment where
  accountId : UUID
  amount : Money
  allocations : List Allocation
deriving DecidableEq

def Payment.allocated (p : Payment) : Decimal := (p.allocations.map (·.amount.val)).sum

/-- What a payment gives to an invoice. -/
def Payment.paidTo (p : Payment) (id : UUID) : Decimal :=
  ((p.allocations.filter (·.invoiceId = id)).map (·.amount.val)).sum

/-- `COALESCE((SELECT sum(al.amount) …), 0)`. -/
def paid (payments : List Payment) (id : UUID) : Decimal := (payments.map (·.paidTo id)).sum

/-- What a payment asks for, and its amount as it is stored. -/
structure Ask where
  accountId : UUID
  amount : Decimal
  stored : Money
  allocs : List (UUID × Decimal)
  autoAllocate : Bool

/-- The payment is stored rounded, and what it asks for needs no rounding. -/
structure Ask.Stored (ask : Ask) : Prop where
  positive : 0 < ask.amount
  stored : ask.stored.val = roundTo 6 ask.amount
  scale : ∀ a ∈ ask.allocs, OnScale 6 a.2

inductive Outcome where
  | recorded (p : Payment) (unallocated : String)
  | deleted (id : UUID)
  | refused (text : String)
  | failed

inductive Request where
  | idle
  /-- the payment is inserted -/
  | paying (ask : Ask)
  /-- the `SELECT` of `InsertPayment` holds some rows and has more to lock -/
  | locking (ask : Ask) (locked todo : List OpenInvoice)
  /-- the allocations are inserted -/
  | allocated (p : Payment) (unallocated : String)
  /-- the `SELECT` of `Delete` has begun -/
  | selecting (id : UUID) (paid : Decimal)
  | held (id : UUID)
  | deleting (id : UUID)
  | done (result : Outcome)

/-- The rows a statement has read and not locked yet. -/
def Request.awaited : Request → List UUID
  | .locking _ _ todo => todo.map (·.id)
  | .selecting id _ => [id]
  | .idle | .paying _ | .allocated _ _ | .held _ | .deleting _ | .done _ => []

/-- The allocations a request is about to commit. -/
def Request.allocations : Request → List Allocation
  | .allocated p _ => p.allocations
  | .idle | .paying _ | .locking _ _ _ | .selecting _ _ | .held _ | .deleting _ | .done _ => []

structure State (ι : Type) where
  requests : ι → Request
  invoices : List DueInvoice
  payments : List Payment
  locks : UUID → Option ι

inductive Label (ι : Type) where
  /-- `INSERT INTO invoice_payments` -/
  | pay (i : ι) (accountId : UUID) (amount : Decimal) (allocs : List (UUID × Decimal))
      (autoAllocate : Bool)
  /-- the `SELECT` of `InsertPayment` begins, with its rows in order -/
  | snapshot (i : ι) (rows : List DueInvoice)
  /-- it locks its next row -/
  | lock (i : ι)
  /-- the plan and its `INSERT`s -/
  | insert (i : ι)
  /-- the `SELECT` of `Delete` begins -/
  | select (i : ι) (id : UUID)
  /-- it locks its row -/
  | lockRow (i : ι)
  | update (i : ι)
  | commit (i : ι)
  | rollback (i : ι)

def DueInvoice.owing (payments : List Payment) (r : DueInvoice) : OpenInvoice :=
  ⟨r.id, r.number, r.amount.val - paid payments r.id⟩

/-- One `INSERT INTO invoice_allocations`. -/
def allocation (p : Plan) (o : OpenInvoice) : Option Allocation :=
  (Numeric.assign 18 6 (p.planned o.id)).bind (fun amount =>
    if h : 0 < amount.units then some ⟨o.id, amount, h⟩ else none)

/-- They are inserted in the order of the invoices. -/
def allocations (opens : List OpenInvoice) (p : Plan) : Option (List Allocation) :=
  (opens.filter (p.planned ·.id ≠ 0)).mapM (allocation p)

section Step

variable {ι : Type} [DecidableEq ι]

instance : Phased (State ι) ι Request :=
  ⟨State.requests, fun s requests => { s with requests := requests }, fun _ _ => rfl⟩

def State.lock (s : State ι) (i : ι) (id : UUID) : State ι :=
  { s with locks := Function.update s.locks id (some i) }

/-- The transaction ends and its row locks with it. -/
def State.release (s : State ι) (i : ι) : State ι :=
  { s with locks := fun id => if s.locks id = some i then none else s.locks id }

def State.isDeleted (s : State ι) (id : UUID) : Bool :=
  s.invoices.any (fun r => r.id = id && r.deleted)

def markDeleted (id : UUID) (r : DueInvoice) : DueInvoice :=
  if r.id = id then { r with deleted := true } else r

def step (l : Label ι) (s : State ι) : Option (State ι) :=
  match l with
  | .pay i accountId amount allocs autoAllocate =>
    match s.requests i with
    | .idle =>
      if amount ≤ 0 then some (enter s i (.done (.refused "payment amount must be positive")))
      else
        match Numeric.assign 18 6 amount with
        | none => some (enter s i (.done .failed))
        | some stored =>
          if stored.units ≤ 0 then some (enter s i (.done .failed))
          else some (enter s i (.paying ⟨accountId, amount, stored, allocs, autoAllocate⟩))
    | _ => none
  | .snapshot i rows =>
    match s.requests i with
    | .paying ask =>
      if rows.Perm (s.invoices.filter (fun r => r.accountId = ask.accountId && !r.deleted)) ∧
          rows.Pairwise (·.start ≤ ·.start) then
        some (enter s i (.locking ask [] (rows.map (·.owing s.payments))))
      else none
    | _ => none
  | .lock i =>
    match s.requests i with
    | .locking ask locked (o :: todo) =>
      if s.locks o.id ≠ none then none
      -- A row that was deleted in the meantime is locked, but not returned.
      else if s.isDeleted o.id then
        some (enter (s.lock i o.id) i (.locking ask locked todo))
      else some (enter (s.lock i o.id) i (.locking ask (locked ++ [o]) todo))
    | _ => none
  | .insert i =>
    match s.requests i with
    | .locking ask locked [] =>
      match plan ask.amount ask.allocs locked ask.autoAllocate with
      | .error text => some (enter (s.release i) i (.done (.refused text)))
      | .ok p =>
        match allocations locked p with
        | none => some (enter (s.release i) i (.done .failed))
        | some rows =>
          some (enter s i
            (.allocated ⟨ask.accountId, ask.stored, rows⟩ (stringFixed 6 p.remaining)))
    | _ => none
  | .select i id =>
    match s.requests i with
    | .idle =>
      if s.invoices.any (·.id = id) then some (enter s i (.selecting id (paid s.payments id)))
      else some (enter s i (.done .failed))
    | _ => none
  | .lockRow i =>
    match s.requests i with
    | .selecting id paid =>
      if s.locks id ≠ none then none
      else if s.isDeleted id then
        some (enter s i (.done (.refused "invoice already deleted")))
      else if paid ≠ 0 then
        some (enter s i (.done (.refused ("only unpaid invoices can be deleted: " ++
          "payments are allocated to this invoice"))))
      else some (enter (s.lock i id) i (.held id))
    | _ => none
  | .update i =>
    match s.requests i with
    | .held id => some (enter s i (.deleting id))
    | _ => none
  | .commit i =>
    match s.requests i with
    | .allocated p unallocated =>
      some { enter (s.release i) i (.done (.recorded p unallocated)) with
        payments := s.payments ++ [p] }
    | .deleting id =>
      some { enter (s.release i) i (.done (.deleted id)) with
        invoices := s.invoices.map (markDeleted id) }
    | _ => none
  | .rollback i =>
    match s.requests i with
    | .idle | .done _ => none
    | _ => some (enter (s.release i) i (.done .failed))

/-- The allocations that are asked for have no more decimals than the column,
and when a payment commits nobody else has read, and not locked yet, an invoice
that it pays. -/
def Undisturbed (l : Label ι) (s : State ι) : Prop :=
  match l with
  | .pay _ _ _ allocs _ => ∀ a ∈ allocs, OnScale 6 a.2
  | .commit i => ∀ a ∈ (s.requests i).allocations, ∀ j, j ≠ i →
      a.invoiceId ∉ (s.requests j).awaited
  | .snapshot _ _ | .lock _ | .insert _ | .select _ _ | .lockRow _ | .update _ | .rollback _ => True

instance Undisturbed.decidable [Fintype ι] :
    ∀ (l : Label ι) (s : State ι), Decidable (Undisturbed l s)
  | .pay _ _ _ allocs _, _ => inferInstanceAs (Decidable (∀ a ∈ allocs, OnScale 6 a.2))
  | .commit i, s => inferInstanceAs (Decidable (∀ a ∈ (s.requests i).allocations, ∀ j, j ≠ i →
      a.invoiceId ∉ (s.requests j).awaited))
  | .snapshot _ _, _ | .lock _, _ | .insert _, _ | .select _ _, _ | .lockRow _, _ | .update _, _
  | .rollback _, _ => inferInstanceAs (Decidable True)

end Step

/-- Nothing is paid out twice, and nothing for a deleted invoice. -/
structure Within (invoices : List DueInvoice) (payments : List Payment) : Prop where
  payment : ∀ p ∈ payments, p.allocated ≤ p.amount.val
  invoice : ∀ r ∈ invoices, paid payments r.id ≤ r.amount.val
  deleted : ∀ r ∈ invoices, r.deleted = true → ∀ p ∈ payments, ∀ a ∈ p.allocations,
    a.invoiceId ≠ r.id

def State.quiet {ι : Type} (invoices : List DueInvoice) (payments : List Payment) : State ι :=
  ⟨fun _ => .idle, invoices, payments, fun _ => none⟩

section Sums

variable {p : Payment} {payments : List Payment} {id : UUID}

theorem Allocation.amount_pos (a : Allocation) : 0 < a.amount.val :=
  div_pos (by exact_mod_cast a.pos) (by positivity)

theorem paidTo_eq_zero (h : ∀ a ∈ p.allocations, a.invoiceId ≠ id) : p.paidTo id = 0 := by
  have hnone : p.allocations.filter (·.invoiceId = id) = [] := by
    apply List.filter_eq_nil_iff.mpr
    intro a ha
    simpa using h a ha
  rw [Payment.paidTo, hnone]
  rfl

theorem paidTo_nonneg : 0 ≤ p.paidTo id := by
  apply List.sum_nonneg
  intro x hx
  obtain ⟨a, -, rfl⟩ := List.mem_map.mp hx
  exact a.amount_pos.le

/-- The primary key: at most one allocation of a payment to an invoice. -/
theorem paidTo_eq {a : Allocation} (hnodup : (p.allocations.map (·.invoiceId)).Nodup)
    (ha : a ∈ p.allocations) : p.paidTo a.invoiceId = a.amount.val := by
  unfold Payment.paidTo
  generalize p.allocations = rows at hnodup ha
  induction rows with
  | nil => cases ha
  | cons first rest ih =>
    obtain ⟨hfresh, hrest⟩ := List.nodup_cons.mp hnodup
    have hapart : ∀ b ∈ rest, b.invoiceId ≠ first.invoiceId := by
      intro b hb hsame
      exact hfresh (List.mem_map.mpr ⟨b, hb, hsame⟩)
    rcases List.mem_cons.mp ha with rfl | ha
    · have hnone : rest.filter (·.invoiceId = a.invoiceId) = [] := by
        apply List.filter_eq_nil_iff.mpr
        intro b hb
        simpa using hapart b hb
      rw [List.filter_cons_of_pos (by simp), hnone]
      simp
    · have hother : ¬ first.invoiceId = a.invoiceId := fun hsame => hapart a ha hsame.symm
      rw [List.filter_cons_of_neg (by simpa using hother)]
      exact ih hrest ha

theorem paid_append : paid (payments ++ [p]) id = paid payments id + p.paidTo id := by
  simp [paid]

theorem paid_append_of_not_paid (h : ∀ a ∈ p.allocations, a.invoiceId ≠ id) :
    paid (payments ++ [p]) id = paid payments id := by
  rw [paid_append, paidTo_eq_zero h, add_zero]

theorem no_allocation_of_paid_eq_zero (hzero : paid payments id = 0) (hp : p ∈ payments)
    {a : Allocation} (ha : a ∈ p.allocations) : a.invoiceId ≠ id := by
  intro hid
  have hone : a.amount.val ≤ p.paidTo id := by
    apply List.single_le_sum
    · intro x hx
      obtain ⟨b, -, rfl⟩ := List.mem_map.mp hx
      exact b.amount_pos.le
    · exact List.mem_map_of_mem (List.mem_filter.mpr ⟨ha, by simpa using hid⟩)
  have hall : p.paidTo id ≤ paid payments id := by
    apply List.single_le_sum
    · intro x hx
      obtain ⟨q, -, rfl⟩ := List.mem_map.mp hx
      exact paidTo_nonneg
    · exact List.mem_map_of_mem hp
  linarith [a.amount_pos]

theorem paid_onScale : OnScale 6 (paid payments id) := by
  apply OnScale.sum
  intro x hx
  obtain ⟨q, -, rfl⟩ := List.mem_map.mp hx
  apply OnScale.sum
  intro y hy
  obtain ⟨a, -, rfl⟩ := List.mem_map.mp hy
  exact a.amount.val_onScale

end Sums

section Rows

variable {opens : List OpenInvoice} {plan : Plan} {rows : List Allocation}

theorem allocations_eq (h : allocations opens plan = some rows) :
    rows.map (fun a => (a.invoiceId, a.amount.val)) =
      (opens.filter (plan.planned ·.id ≠ 0)).map
        (fun o => (o.id, roundTo 6 (plan.planned o.id))) := by
  unfold allocations at h
  generalize opens.filter (plan.planned ·.id ≠ 0) = chosen at h ⊢
  induction chosen generalizing rows with
  | nil =>
    cases h
    rfl
  | cons o rest ih =>
    rw [List.mapM_cons] at h
    obtain ⟨a, ha, h⟩ := Option.bind_eq_some_iff.mp h
    obtain ⟨others, hothers, h⟩ := Option.bind_eq_some_iff.mp h
    cases h
    obtain ⟨amount, hamount, ha⟩ := Option.bind_eq_some_iff.mp ha
    split_ifs at ha with hpos
    cases ha
    rw [List.map_cons, List.map_cons, ih hothers, Numeric.val_assign hamount]

theorem allocations_nodup (h : allocations opens plan = some rows)
    (hnodup : (opens.map (·.id)).Nodup) : (rows.map (·.invoiceId)).Nodup := by
  have hids := congrArg (List.map Prod.fst) (allocations_eq h)
  rw [List.map_map, List.map_map] at hids
  change rows.map (·.invoiceId) = (opens.filter _).map (·.id) at hids
  rw [hids]
  exact hnodup.sublist (List.filter_sublist.map _)

theorem mem_allocations (h : allocations opens plan = some rows) {a : Allocation} (ha : a ∈ rows) :
    ∃ o ∈ opens, plan.planned o.id ≠ 0 ∧ o.id = a.invoiceId ∧
      a.amount.val = roundTo 6 (plan.planned o.id) := by
  have hmem : (a.invoiceId, a.amount.val) ∈ rows.map (fun a => (a.invoiceId, a.amount.val)) :=
    List.mem_map_of_mem ha
  rw [allocations_eq h] at hmem
  obtain ⟨o, ho, hsame⟩ := List.mem_map.mp hmem
  obtain ⟨ho, hplanned⟩ := List.mem_filter.mp ho
  obtain ⟨hid, hamount⟩ := Prod.mk.inj hsame
  exact ⟨o, ho, by simpa using hplanned, hid, hamount.symm⟩

theorem allocations_sum (h : allocations opens plan = some rows) :
    (rows.map (·.amount.val)).sum = plan.stored opens := by
  have hamounts := congrArg (List.map Prod.snd) (allocations_eq h)
  rw [List.map_map, List.map_map] at hamounts
  change rows.map (·.amount.val) = (opens.filter _).map (fun o => roundTo 6 (plan.planned o.id))
    at hamounts
  rw [hamounts, Plan.stored]
  -- An invoice without a plan adds nothing.
  have hzero : roundTo 6 (0 : ℚ) = 0 := OnScale.zero 6
  clear hamounts h
  induction opens with
  | nil => rfl
  | cons o rest ih =>
    by_cases hplanned : plan.planned o.id = 0
    · rw [List.filter_cons_of_neg (by simpa using hplanned), ih]
      simp [hplanned, hzero]
    · rw [List.filter_cons_of_pos (by simpa using hplanned), List.map_cons, List.map_cons,
        List.sum_cons, List.sum_cons, ih]

end Rows

section Invariant

variable {ι : Type} {s s' : State ι}

/-- What a request owes its lock: the row is there to be paid or deleted. -/
def Owned (s : State ι) (i : ι) (id : UUID) : Prop :=
  s.locks id = some i ∧ ∀ r ∈ s.invoices, r.id = id → r.deleted = false

/-- What was read of an invoice is what it owes now. -/
def Current (s : State ι) (o : OpenInvoice) : Prop :=
  ∃ r ∈ s.invoices, r.id = o.id ∧ o.due = r.amount.val - paid s.payments o.id

/-- What a request knows is still so. -/
def Fits (s : State ι) (i : ι) : Request → Prop
  | .idle | .done _ => True
  | .paying ask => ask.Stored
  | .locking ask locked todo =>
    ask.Stored ∧ ((locked ++ todo).map (·.id)).Nodup ∧ (∀ o ∈ locked ++ todo, Current s o) ∧
      ∀ o ∈ locked, Owned s i o.id
  | .allocated p _ =>
    p.allocated ≤ p.amount.val ∧ (p.allocations.map (·.invoiceId)).Nodup ∧
      ∀ a ∈ p.allocations, Owned s i a.invoiceId ∧ ∃ r ∈ s.invoices, r.id = a.invoiceId ∧
        a.amount.val ≤ r.amount.val - paid s.payments a.invoiceId
  | .selecting id seen => seen = paid s.payments id
  | .held id | .deleting id => Owned s i id ∧ paid s.payments id = 0

structure Sound (s : State ι) : Prop where
  keys : (s.invoices.map (·.id)).Nodup
  within : Within s.invoices s.payments
  fits : ∀ i, Fits s i (s.requests i)

/-- Amounts of invoices do not change. -/
def SameAmounts (s s' : State ι) : Prop :=
  ∀ r ∈ s.invoices, ∃ r' ∈ s'.invoices, r'.id = r.id ∧ r'.amount = r.amount

theorem Current.frame {o : OpenInvoice} (h : Current s o) (hamounts : SameAmounts s s')
    (hpaid : paid s'.payments o.id = paid s.payments o.id) : Current s' o := by
  obtain ⟨r, hr, hid, hdue⟩ := h
  obtain ⟨r', hr', hid', hamount⟩ := hamounts r hr
  refine ⟨r', hr', hid'.trans hid, ?_⟩
  rw [hdue, hamount, hpaid]

/-- A request is not disturbed by a step that leaves it its locks and pays
nothing to the invoices it has read. -/
theorem Fits.frame {j : ι} {r : Request} (h : Fits s j r) (hamounts : SameAmounts s s')
    (howned : ∀ id, Owned s j id →
      Owned s' j id ∧ paid s'.payments id = paid s.payments id)
    (hawaited : ∀ id ∈ r.awaited, paid s'.payments id = paid s.payments id) : Fits s' j r := by
  cases r with
  | idle => trivial
  | done result => trivial
  | paying ask => exact h
  | locking ask locked todo =>
    obtain ⟨hask, hnodup, hcurrent, hlocked⟩ := h
    refine ⟨hask, hnodup, ?_, fun o ho => (howned o.id (hlocked o ho)).1⟩
    intro o ho
    apply (hcurrent o ho).frame hamounts
    rcases List.mem_append.mp ho with hheld | htodo
    · exact (howned o.id (hlocked o hheld)).2
    · exact hawaited o.id (List.mem_map_of_mem htodo)
  | allocated p unallocated =>
    obtain ⟨hsum, hnodup, hrows⟩ := h
    refine ⟨hsum, hnodup, ?_⟩
    intro a ha
    obtain ⟨hown, r, hr, hid, hle⟩ := hrows a ha
    obtain ⟨hown', hpaid⟩ := howned a.invoiceId hown
    obtain ⟨r', hr', hid', hamount⟩ := hamounts r hr
    refine ⟨hown', r', hr', hid'.trans hid, ?_⟩
    rwa [hamount, hpaid]
  | selecting id seen => exact Eq.trans h (hawaited id List.mem_cons_self).symm
  | held id | deleting id =>
    obtain ⟨hown', hpaid⟩ := howned id h.1
    exact ⟨hown', hpaid.trans h.2⟩

variable {i : ι}

theorem Owned.lock {id other : UUID} (h : Owned s i other) : Owned (s.lock i id) i other := by
  refine ⟨?_, h.2⟩
  change Function.update s.locks id (some i) other = some i
  by_cases hid : other = id
  · rw [hid, Function.update_self]
  · rw [Function.update_of_ne hid, h.1]

theorem owned_lock {id : UUID} (hlive : s.isDeleted id = false) : Owned (s.lock i id) i id := by
  refine ⟨Function.update_self _ _ _, ?_⟩
  intro row hrow hid
  have hnot := List.any_eq_false.mp hlive row hrow
  simpa [hid] using hnot

theorem fits_snapshot (hkeys : (s.invoices.map (·.id)).Nodup) {ask : Ask} (hask : ask.Stored)
    {rows : List DueInvoice} (hrows : rows.Perm (s.invoices.filter (fun r =>
      r.accountId = ask.accountId && !r.deleted))) :
    Fits s i (.locking ask [] (rows.map (·.owing s.payments))) := by
  refine ⟨hask, ?_, ?_, fun _ ho => nomatch ho⟩
  · have hids : (rows.map (·.owing s.payments)).map (·.id) = rows.map (·.id) := List.map_map
    rw [List.nil_append, hids, (hrows.map _).nodup_iff]
    exact hkeys.sublist (List.filter_sublist.map _)
  · intro o ho
    obtain ⟨row, hrow, rfl⟩ := List.mem_map.mp ho
    exact ⟨row, List.mem_of_mem_filter (hrows.mem_iff.mp hrow), rfl, rfl⟩

/-- The plan is made of what the invoices owe now. -/
theorem fits_insert {ask : Ask} {locked : List OpenInvoice} {p : Plan} {rows : List Allocation}
    {unallocated : String} (h : Fits s i (.locking ask locked []))
    (hplan : plan ask.amount ask.allocs locked ask.autoAllocate = .ok p)
    (hrows : allocations locked p = some rows) :
    Fits s i (.allocated ⟨ask.accountId, ask.stored, rows⟩ unallocated) := by
  obtain ⟨hask, hnodup, hcurrent, hlocked⟩ := h
  rw [List.append_nil] at hnodup hcurrent
  have hscale : ∀ o ∈ locked, OnScale 6 o.due := by
    intro o ho
    obtain ⟨row, -, -, hdue⟩ := hcurrent o ho
    rw [hdue]
    exact row.amount.val_onScale.sub paid_onScale
  have hsound := plan_sound hask.positive hnodup hplan
  have hstorable := plan_storable hask.positive hnodup hask.scale hscale hplan
  refine ⟨?_, allocations_nodup hrows hnodup, ?_⟩
  · change (rows.map (·.amount.val)).sum ≤ ask.stored.val
    rw [allocations_sum hrows, hask.stored, ← hstorable.total]
    linarith [roundTo_nonneg 6 hsound.left]
  · intro a ha
    obtain ⟨o, ho, hplanned, hid, hamount⟩ := mem_allocations hrows ha
    obtain ⟨row, hrow, hrowid, hdue⟩ := hcurrent o ho
    rw [← hid]
    refine ⟨hlocked o ho, row, hrow, hrowid, ?_⟩
    calc a.amount.val = roundTo 6 (p.planned o.id) := hamount
      _ ≤ roundTo 6 o.due := roundTo_mono 6 (hsound.owed o ho hplanned)
      _ = o.due := hscale o ho
      _ = row.amount.val - paid s.payments o.id := hdue

variable [DecidableEq ι] {r : Request}

theorem Sound.advance (hs : Sound s) (hrequests : s'.requests = Function.update s.requests i r)
    (hkeys : s'.invoices.map (·.id) = s.invoices.map (·.id)) (hamounts : SameAmounts s s')
    (hwithin : Within s'.invoices s'.payments)
    (howned : ∀ j, j ≠ i → ∀ id, Owned s j id →
      Owned s' j id ∧ paid s'.payments id = paid s.payments id)
    (hawaited : ∀ j, j ≠ i → ∀ id ∈ (s.requests j).awaited,
      paid s'.payments id = paid s.payments id)
    (hfits : Fits s' i r) : Sound s' := by
  refine ⟨hkeys ▸ hs.keys, hwithin, ?_⟩
  intro j
  rw [hrequests]
  by_cases hj : j = i
  · subst hj
    rw [Function.update_self]
    exact hfits
  · rw [Function.update_of_ne hj]
    exact (hs.fits j).frame hamounts (howned j hj) (hawaited j hj)

theorem fits_move {j : ι} {q : Request} : Fits (enter s i r) j q ↔ Fits s j q := by
  cases q <;> exact Iff.rfl

theorem Sound.relock (hs : Sound s) (locks : UUID → Option ι)
    (hlocks : ∀ j, j ≠ i → ∀ id, s.locks id = some j → locks id = some j)
    (hfits : Fits { s with locks := locks } i r) :
    Sound (enter { s with locks := locks } i r) := by
  refine hs.advance (i := i) (r := r) rfl rfl (fun row hrow => ⟨row, hrow, rfl, rfl⟩) hs.within
    ?_ (fun _ _ _ _ => rfl) (fits_move.mpr hfits)
  intro j hj id hown
  exact ⟨⟨hlocks j hj id hown.1, hown.2⟩, rfl⟩

theorem Sound.move (hs : Sound s) (hfits : Fits s i r) : Sound (enter s i r) :=
  hs.relock s.locks (fun _ _ _ h => h) hfits

theorem Sound.lock (hs : Sound s) {id : UUID} (hfree : s.locks id = none)
    (hfits : Fits (s.lock i id) i r) : Sound (enter (s.lock i id) i r) := by
  apply hs.relock _ ?_ hfits
  intro j _ other hother
  have hne : other ≠ id := by
    rintro rfl
    rw [hfree] at hother
    cases hother
  rw [Function.update_of_ne hne, hother]

theorem locks_release {j : ι} (hj : j ≠ i) {id : UUID} (h : s.locks id = some j) :
    (s.release i).locks id = some j := by
  have hother : s.locks id ≠ some i := by
    rw [h]
    exact fun hsame => hj (Option.some.inj hsame)
  change (if s.locks id = some i then none else s.locks id) = some j
  rw [if_neg hother, h]

theorem Sound.release (hs : Sound s) (result : Outcome) :
    Sound (enter (s.release i) i (.done result)) :=
  hs.relock _ (fun _ hj _ h => locks_release hj h) trivial

/-- A payment commits while nobody waits for the invoices it pays. -/
theorem Sound.commitPayment (hs : Sound s) {p : Payment} {unallocated : String}
    (hi : s.requests i = .allocated p unallocated)
    (hquiet : ∀ a ∈ p.allocations, ∀ j, j ≠ i → a.invoiceId ∉ (s.requests j).awaited)
    (result : Outcome) :
    Sound { enter (s.release i) i (.done result) with payments := s.payments ++ [p] } := by
  have hfits := hs.fits i
  rw [hi] at hfits
  obtain ⟨hsum, hnodup, hrows⟩ := hfits
  refine hs.advance (i := i) (r := .done result) rfl rfl (fun row hrow => ⟨row, hrow, rfl, rfl⟩) ?_
    ?_ ?_ trivial
  · constructor
    · intro q hq
      rcases List.mem_append.mp hq with hq | hq
      · exact hs.within.payment q hq
      · obtain rfl := List.mem_singleton.mp hq
        exact hsum
    · intro row hrow
      by_cases hnone : ∀ a ∈ p.allocations, a.invoiceId ≠ row.id
      · change paid (s.payments ++ [p]) row.id ≤ row.amount.val
        rw [paid_append_of_not_paid hnone]
        exact hs.within.invoice row hrow
      · push Not at hnone
        obtain ⟨a, ha, hid⟩ := hnone
        obtain ⟨-, other, hother, hotherid, hle⟩ := hrows a ha
        obtain rfl : other = row :=
          List.inj_on_of_nodup_map hs.keys hother hrow (hotherid.trans hid)
        change paid (s.payments ++ [p]) other.id ≤ other.amount.val
        rw [paid_append, ← hid, paidTo_eq hnodup ha]
        linarith
    · intro row hrow hdeleted q hq a ha hid
      rcases List.mem_append.mp hq with hq | hq
      · exact hs.within.deleted row hrow hdeleted q hq a ha hid
      · obtain rfl := List.mem_singleton.mp hq
        rw [(hrows a ha).1.2 row hrow hid.symm] at hdeleted
        cases hdeleted
  · -- Whoever else holds a lock holds it on an invoice that is not paid here.
    intro j hj id hown
    refine ⟨⟨locks_release hj hown.1, hown.2⟩, paid_append_of_not_paid ?_⟩
    rintro a ha rfl
    have hlock := (hrows a ha).1.1
    rw [hown.1] at hlock
    exact hj (Option.some.inj hlock)
  · intro j hj id hid
    apply paid_append_of_not_paid
    rintro a ha rfl
    exact hquiet a ha j hj hid

theorem markDeleted_id (id : UUID) (row : DueInvoice) : (markDeleted id row).id = row.id := by
  unfold markDeleted
  split_ifs <;> rfl

theorem markDeleted_amount (id : UUID) (row : DueInvoice) :
    (markDeleted id row).amount = row.amount := by
  unfold markDeleted
  split_ifs <;> rfl

theorem markDeleted_other {id : UUID} {row : DueInvoice} (hid : row.id ≠ id) :
    markDeleted id row = row :=
  if_neg hid

/-- An invoice is deleted that nobody has paid and nobody else has locked. -/
theorem Sound.commitDelete (hs : Sound s) {id : UUID} (hi : s.requests i = .deleting id)
    (result : Outcome) :
    Sound { enter (s.release i) i (.done result) with
      invoices := s.invoices.map (markDeleted id) } := by
  have hfits := hs.fits i
  rw [hi] at hfits
  obtain ⟨hown, hunpaid⟩ := hfits
  refine hs.advance (i := i) (r := .done result) rfl ?_ ?_ ?_ ?_ (fun _ _ _ _ => rfl) trivial
  · rw [List.map_map]
    exact List.map_congr_left (fun row _ => markDeleted_id id row)
  · intro row hrow
    exact ⟨markDeleted id row, List.mem_map_of_mem hrow, markDeleted_id id row,
      markDeleted_amount id row⟩
  · constructor
    · exact hs.within.payment
    · intro marked hmarked
      obtain ⟨row, hrow, rfl⟩ := List.mem_map.mp hmarked
      rw [markDeleted_id, markDeleted_amount]
      exact hs.within.invoice row hrow
    · intro marked hmarked hdeleted p hp a ha
      obtain ⟨row, hrow, rfl⟩ := List.mem_map.mp hmarked
      rw [markDeleted_id]
      by_cases hid : row.id = id
      · rw [hid]
        exact no_allocation_of_paid_eq_zero hunpaid hp ha
      · rw [markDeleted_other hid] at hdeleted
        exact hs.within.deleted row hrow hdeleted p hp a ha
  · intro j hj other hother
    refine ⟨⟨locks_release hj hother.1, ?_⟩, rfl⟩
    intro marked hmarked hid
    obtain ⟨row, hrow, rfl⟩ := List.mem_map.mp hmarked
    rw [markDeleted_id] at hid
    have hne : row.id ≠ id := by
      intro hsame
      have hlock := hown.1
      rw [← hsame, hid, hother.1] at hlock
      exact hj (Option.some.inj hlock)
    rw [markDeleted_other hne]
    exact hother.2 row hrow hid

theorem Sound.step (l : Label ι) (s s' : State ι) (hs : Sound s) (hok : Undisturbed l s)
    (h : step l s = some s') : Sound s' := by
  cases l with
  | pay i accountId amount allocs autoAllocate =>
    simp only [Payments.step] at h
    split at h
    · split at h
      · cases h
        exact hs.move trivial
      · rename_i hpositive
        split at h
        · cases h
          exact hs.move trivial
        · rename_i stored hstored
          split at h
          · cases h
            exact hs.move trivial
          · cases h
            exact hs.move ⟨not_le.mp hpositive, Numeric.val_assign hstored, hok⟩
    · cases h
  | snapshot i rows =>
    simp only [Payments.step] at h
    split at h
    · rename_i ask hi
      have hfits := hs.fits i
      rw [hi] at hfits
      split_ifs at h with hrows
      cases h
      exact hs.move (fits_snapshot hs.keys hfits hrows.1)
    · cases h
  | lock i =>
    simp only [Payments.step] at h
    split at h
    · rename_i ask locked o todo hi
      have hfits := hs.fits i
      rw [hi] at hfits
      obtain ⟨hask, hnodup, hcurrent, hlocked⟩ := hfits
      split_ifs at h with hwait hdeleted
      · cases h
        have hless : List.Sublist (locked ++ todo) (locked ++ o :: todo) :=
          (List.sublist_cons_self o todo).append_left locked
        refine hs.lock (not_not.mp hwait) ⟨hask, hnodup.sublist (hless.map _), ?_, ?_⟩
        · exact fun q hq => hcurrent q (hless.subset hq)
        · exact fun q hq => (hlocked q hq).lock
      · cases h
        have hsame : locked ++ [o] ++ todo = locked ++ o :: todo := by simp
        refine hs.lock (not_not.mp hwait) ⟨hask, hsame ▸ hnodup, hsame ▸ hcurrent, ?_⟩
        intro q hq
        rcases List.mem_append.mp hq with hq | hq
        · exact (hlocked q hq).lock
        · obtain rfl := List.mem_singleton.mp hq
          exact owned_lock (by simpa using hdeleted)
    · cases h
  | insert i =>
    simp only [Payments.step] at h
    split at h
    · rename_i ask locked hi
      have hfits := hs.fits i
      rw [hi] at hfits
      split at h
      · cases h
        exact hs.release _
      · rename_i p hplan
        split at h
        · cases h
          exact hs.release _
        · rename_i rows hrows
          cases h
          exact hs.move (fits_insert hfits hplan hrows)
    · cases h
  | select i id =>
    simp only [Payments.step] at h
    split at h
    · split_ifs at h
      · cases h
        exact hs.move rfl
      · cases h
        exact hs.move trivial
    · cases h
  | lockRow i =>
    simp only [Payments.step] at h
    split at h
    · rename_i id seen hi
      have hfits := hs.fits i
      rw [hi] at hfits
      split_ifs at h with hwait hdeleted hpaid
      · cases h
        exact hs.move trivial
      · cases h
        exact hs.move trivial
      · cases h
        refine hs.lock (not_not.mp hwait) ⟨owned_lock (by simpa using hdeleted), ?_⟩
        exact Eq.trans (Eq.symm hfits) (not_not.mp hpaid)
    · cases h
  | update i =>
    simp only [Payments.step] at h
    split at h
    · rename_i id hi
      have hfits := hs.fits i
      rw [hi] at hfits
      cases h
      exact hs.move hfits
    · cases h
  | commit i =>
    simp only [Payments.step] at h
    split at h
    · rename_i p unallocated hi
      cases h
      apply hs.commitPayment hi
      intro a ha
      apply hok a
      rw [hi]
      exact ha
    · rename_i id hi
      cases h
      exact hs.commitDelete hi _
    · cases h
  | rollback i =>
    simp only [Payments.step] at h
    split at h
    · cases h
    · cases h
    · cases h
      exact hs.release _

/-- In every interleaving of payments and deletions in which the allocations
asked for have at most six decimals and no payment commits while another
request has read one of its invoices and not locked it yet: allocations exceed
neither their payment nor their invoice, and deleted invoices have none. -/
theorem allocations_within (invoices : List DueInvoice) (payments : List Payment)
    (labels : List (Label ι)) (final : State ι) (hkeys : (invoices.map (·.id)).Nodup)
    (hwithin : Within invoices payments)
    (hok : Along Payments.step Undisturbed labels (.quiet invoices payments))
    (hrun : trace Payments.step labels (.quiet invoices payments) = some final) :
    Within final.invoices final.payments := by
  have hstart : Sound (.quiet invoices payments : State ι) :=
    ⟨hkeys, hwithin, fun _ => trivial⟩
  exact (invariant_of_along Sound.step hstart hok hrun).within

end Invariant

section Sample

local instance three_ne_zero : NeZero 3 := ⟨by decide⟩

theorem sampleTen_bound : |(10000000 : ℤ)| < 10 ^ 18 := by decide

def sampleInvoices : List DueInvoice :=
  [⟨1, 5, "INV-000001", 0, ⟨10000000, sampleTen_bound⟩, false⟩,
    ⟨2, 5, "INV-000002", 10, ⟨5000000, by decide⟩, false⟩,
    ⟨3, 5, "INV-000003", 20, ⟨7000000, by decide⟩, false⟩]

/-- The `SELECT` of a payment and all its locks. -/
def readAll (i : Fin 3) (rows : List DueInvoice) : List (Label (Fin 3)) :=
  .snapshot i rows :: rows.map (fun _ => .lock i)

/-- An invoice is deleted, a payment is spread over the others, and another one
pays the rest. -/
def sampleDay : List (Label (Fin 3)) :=
  [.select 2 3, .lockRow 2, .update 2, .commit 2, .pay 0 5 12 [(1, 10)] true] ++
    readAll 0 (sampleInvoices.take 2) ++ [.insert 0, .commit 0, .pay 1 5 4 [] true] ++
    readAll 1 (sampleInvoices.take 2) ++ [.insert 1, .commit 1]

theorem allocations_within_sampleDay :
    ∃ final, trace Payments.step sampleDay (.quiet sampleInvoices []) = some final ∧
      final.payments.map (fun p => p.allocations.map (fun a => (a.invoiceId, a.amount.units))) =
        [[(1, 10000000), (2, 2000000)], [(2, 3000000)]] ∧
      final.invoices.map (·.deleted) = [false, false, true] ∧
      Within final.invoices final.payments := by
  have hrun : (trace Payments.step sampleDay (.quiet sampleInvoices [])).map (fun s =>
      (s.payments.map (fun p => p.allocations.map (fun a => (a.invoiceId, a.amount.units))),
        s.invoices.map (·.deleted))) =
      some ([[(1, 10000000), (2, 2000000)], [(2, 3000000)]], [false, false, true]) := by
    decide +kernel
  obtain ⟨final, hfinal, hsame⟩ := Option.map_eq_some_iff.mp hrun
  obtain ⟨hpayments, hinvoices⟩ := Prod.mk.inj hsame
  refine ⟨final, hfinal, hpayments, hinvoices,
    allocations_within sampleInvoices [] sampleDay final (by decide) ?_ (by decide +kernel) hfinal⟩
  constructor
  · intro p hp
    cases hp
  · decide +kernel
  · intro r _ _ p hp
    cases hp

/-- Two payments read an invoice of 10 before either has locked it. -/
def sampleTwice : List (Label (Fin 3)) :=
  [.pay 0 5 10 [(1, 10)] false, .pay 1 5 10 [(1, 10)] false,
    .snapshot 0 (sampleInvoices.take 1), .snapshot 1 (sampleInvoices.take 1), .lock 0, .insert 0,
    .commit 0, .lock 1, .insert 1, .commit 1]

/-- An invoice is about to be deleted while a payment holds it. -/
def sampleDeletion : List (Label (Fin 3)) :=
  [.pay 0 5 10 [(1, 10)] false, .snapshot 0 (sampleInvoices.take 1), .lock 0, .select 1 1,
    .insert 0, .commit 0, .lockRow 1, .update 1, .commit 1]

/-- Three allocations that are each rounded up. -/
def sampleRounded : List (Label (Fin 3)) :=
  .pay 0 5 1.000001 [(1, 0.3333335), (2, 0.3333335), (3, 0.3333335)] false ::
    readAll 0 sampleInvoices ++ [.insert 0, .commit 0]

theorem allocations_exceed :
    (∃ final, trace Payments.step sampleTwice (.quiet (sampleInvoices.take 1) []) = some final ∧
      ∃ r ∈ final.invoices, r.amount.val < paid final.payments r.id) ∧
    (∃ final, trace Payments.step sampleDeletion (.quiet (sampleInvoices.take 1) []) = some final ∧
      ∃ r ∈ final.invoices, r.deleted = true ∧ paid final.payments r.id = 10) ∧
    (∃ final, trace Payments.step sampleRounded (.quiet sampleInvoices []) = some final ∧
      ∃ p ∈ final.payments, p.amount.val < p.allocated) := by
  have htwice : (trace Payments.step sampleTwice (.quiet (sampleInvoices.take 1) [])).map (fun s =>
      decide (∃ r ∈ s.invoices, r.amount.val < paid s.payments r.id)) = some true := by
    decide +kernel
  have hdeletion : (trace Payments.step sampleDeletion
      (.quiet (sampleInvoices.take 1) [])).map (fun s => decide (∃ r ∈ s.invoices,
        r.deleted = true ∧ paid s.payments r.id = 10)) = some true := by
    decide +kernel
  have hrounded : (trace Payments.step sampleRounded (.quiet sampleInvoices [])).map (fun s =>
      decide (∃ p ∈ s.payments, p.amount.val < p.allocated)) = some true := by
    decide +kernel
  refine ⟨?_, ?_, ?_⟩
  · obtain ⟨final, hfinal, hmore⟩ := Option.map_eq_some_iff.mp htwice
    exact ⟨final, hfinal, of_decide_eq_true hmore⟩
  · obtain ⟨final, hfinal, hmore⟩ := Option.map_eq_some_iff.mp hdeletion
    exact ⟨final, hfinal, of_decide_eq_true hmore⟩
  · obtain ⟨final, hfinal, hmore⟩ := Option.map_eq_some_iff.mp hrounded
    exact ⟨final, hfinal, of_decide_eq_true hmore⟩

end Sample

end SuperSbc.Invoice.Payments
