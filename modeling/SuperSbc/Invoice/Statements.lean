import SuperSbc.Interleaving.Trace
import SuperSbc.Invoice.Periods
import SuperSbc.Jobs
import SuperSbc.Query.Selection

/-!
What an invoice says about the ledger of its account: what the balance was
before its period and after it, what moved in between, and what is to be paid.
The figures are taken when the invoice is made and are not touched again, while
the ledger goes on.

Requests come one after the other here. An entry is stamped with the time of
the transaction that writes it, and this clock does not go back. Of the
calendar only the instants are kept; the usage lines, which are read from the
call records, are not part of the figures.
-/

namespace SuperSbc.Statements

open FixedPoint Rating ReadCommitted Store Interleaving
open Invoice (Period)

/-- A row of `ledger_entries` with its `created_at`. -/
structure StampedEntry where
  entry : LedgerEntry
  createdAt : Time

/-- `sum(amount)` over the entries of an account that meet a condition. -/
def sumWhere (ledger : List StampedEntry) (accountId : UUID) (cond : StampedEntry → Bool) :
    Decimal :=
  ((ledger.filter (fun e => e.entry.accountId = accountId && cond e)).map
    (·.entry.amount.val)).sum

/-- `type NOT IN ('reserve','release')`. -/
def movesBalance (kind : LedgerKind) : Bool := kind ≠ .reserve && kind ≠ .release

def balanceAt (ledger : List StampedEntry) (accountId : UUID) (t : Time) : Decimal :=
  sumWhere ledger accountId (fun e => movesBalance e.entry.kind && e.createdAt < t)

/-- `created_at >= $2 AND created_at < $3`. -/
def covers (p : Period) (t : Time) : Bool := p.start ≤ t && t < p.finish

def turnover (ledger : List StampedEntry) (accountId : UUID) (p : Period) (kind : LedgerKind) :
    Decimal :=
  sumWhere ledger accountId (fun e => covers p e.createdAt && e.entry.kind = kind)

/-- The amounts of a statement, exact or as they are stored. -/
structure Figures (α : Type) where
  opening : α
  closing : α
  topups : α
  charges : α
  costs : α
  adjustments : α
  refunds : α

def figures (ledger : List StampedEntry) (accountId : UUID) (p : Period) : Figures Decimal where
  opening := balanceAt ledger accountId p.start
  closing := balanceAt ledger accountId p.finish
  topups := turnover ledger accountId p .topup
  charges := turnover ledger accountId p .charge
  costs := turnover ledger accountId p .cost
  adjustments := turnover ledger accountId p .adjustment
  refunds := turnover ledger accountId p .refund

/-- Assignment to the `numeric(18,6)` columns. -/
def Figures.assign (f : Figures Decimal) : Option (Figures Money) := do
  let opening ← Numeric.assign 18 6 f.opening
  let closing ← Numeric.assign 18 6 f.closing
  let topups ← Numeric.assign 18 6 f.topups
  let charges ← Numeric.assign 18 6 f.charges
  let costs ← Numeric.assign 18 6 f.costs
  let adjustments ← Numeric.assign 18 6 f.adjustments
  let refunds ← Numeric.assign 18 6 f.refunds
  return ⟨opening, closing, topups, charges, costs, adjustments, refunds⟩

def Figures.val (f : Figures Money) : Figures Decimal :=
  ⟨f.opening.val, f.closing.val, f.topups.val, f.charges.val, f.costs.val, f.adjustments.val,
    f.refunds.val⟩

/-- What a customer was charged, or what a carrier cost. -/
def Figures.usage {α : Type} (f : Figures α) : OwnerKind → α
  | .customer => f.charges
  | .carrier => f.costs

inductive InvoiceKind where
  | monthly
  | custom
deriving DecidableEq

structure StoredInvoice where
  id : UUID
  number : String
  accountId : UUID
  owner : Owner
  currency : String
  period : Period
  figures : Figures Money
  kind : InvoiceKind
  amount : Money
  deleted : Bool

/-- Everything the requests read and write. -/
structure State where
  clock : Time
  db : DB
  ledger : List StampedEntry
  ledger_eq : ledger.map (·.entry) = db.log
  invoices : List StoredInvoice

/-- How a request ends that does not make a new invoice. -/
inductive Reply where
  | badRequest (text : String)
  | existing (invoice : StoredInvoice)
  | conflict (text : String)
  | notFound
  | failed

/-- The `INSERT`, with the id and the number the database gives. -/
def insertInvoice (s : State) (id : UUID) (number : String) (accountId : UUID) (account : Account)
    (p : Period) (kind : InvoiceKind) : Except Reply StoredInvoice :=
  let exact := figures s.ledger accountId p
  match exact.assign, Numeric.assign 18 6 (-exact.usage account.owner.kind) with
  | some stored, some amount =>
    .ok ⟨id, number, accountId, account.owner, account.currency, p, stored, kind, amount, false⟩
  | _, _ => .error .failed

def generatePeriod (s : State) (id : UUID) (number : String) (accountId : UUID)
    (start finish : Time) (kind : InvoiceKind) : Except Reply StoredInvoice :=
  if h : start < finish then
    let p : Period := ⟨start, finish, h⟩
    let live := s.invoices.filter (fun inv => inv.accountId = accountId && !inv.deleted)
    match live.find? (·.period = p) with
    | some existing => .error (.existing existing)
    | none =>
      match Query.first (·.period.start) (live.filter (·.period.overlaps p)) with
      | some other =>
        .error (.conflict s!"another invoice overlaps this period ({other.number})")
      | none =>
        match s.db.row (.account accountId) with
        | none => .error .notFound
        | some account => insertInvoice s id number accountId account p kind
  else .error (.badRequest "period end must be after its start")

/-- The endpoint: a period has to have begun, not to have ended. -/
def generateInvoice (s : State) (now : Time) (id : UUID) (number : String) (owner : Owner)
    (start finish : Time) (kind : InvoiceKind) : Except Reply StoredInvoice :=
  if kind = .custom ∧ ¬ start < finish then .error (.badRequest "to must be after from")
  else if ¬ start < now then .error (.badRequest "period has not started")
  else
    match findAccount s.db owner with
    | none => .error .notFound
    | some (accountId, _) => generatePeriod s id number accountId start finish kind

inductive Label where
  /-- a transaction on the money tables, or one that fails -/
  | run (now : Time) (job : Job)
  | generateInvoice (now : Time) (id : UUID) (number : String) (owner : Owner)
      (start finish : Time) (kind : InvoiceKind)
  /-- one account's turn in the monthly worker -/
  | generate (now : Time) (id : UUID) (number : String) (accountId : UUID) (start finish : Time)
  /-- `Delete`, and what it sees as paid -/
  | delete (now : Time) (id : UUID) (paid : Decimal)

def Label.now : Label → Time
  | .run now _ | .generateInvoice now _ _ _ _ _ _ | .generate now _ _ _ _ _ | .delete now _ _ => now

/-- A transaction commits: its entries get its time. -/
def State.commit (s : State) (now : Time) (after : DB) (hlog : s.db.log <+: after.log) : State where
  clock := now
  db := after
  ledger := s.ledger ++ (after.log.drop s.db.log.length).map (⟨·, now⟩)
  ledger_eq := by
    obtain ⟨added, hadded⟩ := hlog
    rw [List.map_append, s.ledger_eq, List.map_map, ← hadded, List.drop_left]
    exact congrArg _ (List.map_id added)
  invoices := s.invoices

def State.insert (s : State) (now : Time) : Except Reply StoredInvoice → State
  | .ok inv => { s with clock := now, invoices := s.invoices ++ [inv] }
  | .error _ => { s with clock := now }

/-- The tables after a step; the clock is the step's. -/
def perform (s : State) : Label → State
  | .run now job =>
    match h : job.tx.run s.db with
    | .ok (_, after) => s.commit now after (Transaction.log_isPrefix_run h)
    | .error _ => { s with clock := now }
  | .generateInvoice now id number owner start finish kind =>
    s.insert now (generateInvoice s now id number owner start finish kind)
  | .generate now id number accountId start finish =>
    s.insert now (generatePeriod s id number accountId start finish .monthly)
  | .delete now id paid =>
    if paid ≠ 0 then { s with clock := now }
    else
      { s with
        clock := now
        invoices := s.invoices.map (fun inv =>
          if inv.id = id then { inv with deleted := true } else inv) }

def step (l : Label) (s : State) : Option State :=
  if l.now < s.clock then none else some (perform s l)

/-- Nothing is invoiced before its period is over. -/
def Ended (l : Label) (_ : State) : Prop :=
  match l with
  | .generateInvoice now _ _ _ _ finish _ => finish ≤ now
  | .generate now _ _ _ _ finish => finish ≤ now
  | .run _ _ | .delete _ _ _ => True

instance Ended.decidable : ∀ (l : Label) (s : State), Decidable (Ended l s)
  | .generateInvoice now _ _ _ _ finish _, _ => inferInstanceAs (Decidable (finish ≤ now))
  | .generate now _ _ _ _ finish, _ => inferInstanceAs (Decidable (finish ≤ now))
  | .run _ _, _ | .delete _ _ _, _ => inferInstanceAs (Decidable True)

def usageKind : OwnerKind → LedgerKind
  | .customer => .charge
  | .carrier => .cost

/-- Live invoices agree with the ledger as it is now, with themselves, and with
the one that follows. -/
structure Accurate (s : State) : Prop where
  amount : ∀ inv ∈ s.invoices, inv.deleted = false →
    inv.amount.val = -turnover s.ledger inv.accountId inv.period (usageKind inv.owner.kind)
  closing : ∀ inv ∈ s.invoices, inv.deleted = false →
    inv.figures.opening.val + inv.figures.topups.val + inv.figures.charges.val +
      inv.figures.costs.val + inv.figures.adjustments.val + inv.figures.refunds.val =
      inv.figures.closing.val
  carried : ∀ inv ∈ s.invoices, inv.deleted = false → ∀ next ∈ s.invoices, next.deleted = false →
    next.accountId = inv.accountId → next.period.start = inv.period.finish →
    next.figures.opening = inv.figures.closing

section Sums

variable {ledger added : List StampedEntry} {accountId : UUID}

theorem sumWhere_eq (cond : StampedEntry → Bool) :
    sumWhere ledger accountId cond = (ledger.map (fun e =>
      if e.entry.accountId = accountId ∧ cond e = true then e.entry.amount.val else 0)).sum := by
  unfold sumWhere
  induction ledger with
  | nil => rfl
  | cons e rest ih =>
    by_cases he : e.entry.accountId = accountId ∧ cond e = true
    · rw [List.filter_cons_of_pos (by simpa using he), List.map_cons, List.map_cons,
        List.sum_cons, List.sum_cons, ih, if_pos he]
    · rw [List.filter_cons_of_neg (by simpa using he), List.map_cons, List.sum_cons, ih,
        if_neg he, zero_add]

theorem sumWhere_append {cond : StampedEntry → Bool} (h : ∀ e ∈ added, cond e = false) :
    sumWhere (ledger ++ added) accountId cond = sumWhere ledger accountId cond := by
  have hnone : added.filter (fun e => e.entry.accountId = accountId && cond e) = [] := by
    apply List.filter_eq_nil_iff.mpr
    intro e he
    simp [h e he]
  rw [sumWhere, List.filter_append, hnone, List.append_nil]
  rfl

theorem sumWhere_onScale (cond : StampedEntry → Bool) :
    OnScale 6 (sumWhere ledger accountId cond) := by
  apply OnScale.sum
  intro x hx
  obtain ⟨e, -, rfl⟩ := List.mem_map.mp hx
  exact e.entry.amount.val_onScale

/-- An entry that moves the balance is of one of five kinds. -/
theorem figures_closing (ledger : List StampedEntry) (accountId : UUID) (p : Period) :
    (figures ledger accountId p).opening + (figures ledger accountId p).topups +
      (figures ledger accountId p).charges + (figures ledger accountId p).costs +
      (figures ledger accountId p).adjustments + (figures ledger accountId p).refunds =
      (figures ledger accountId p).closing := by
  simp only [figures, balanceAt, turnover, sumWhere_eq, ← List.sum_map_add]
  refine congrArg List.sum (List.map_congr_left ?_)
  intro e _
  have hlt := p.lt
  by_cases haccount : e.entry.accountId = accountId
  · by_cases hbefore : e.createdAt < p.start
    · have hinside : covers p e.createdAt = false := by simp [covers, hbefore]
      have hend : e.createdAt < p.finish := hbefore.trans hlt
      simp [hinside, hbefore, hend]
    · cases e.entry.kind <;> simp [haccount, hbefore, covers, movesBalance, not_lt.mp hbefore]
  · simp [haccount]

theorem figures_append {p : Period} (h : ∀ e ∈ added, p.finish ≤ e.createdAt) :
    figures (ledger ++ added) accountId p = figures ledger accountId p := by
  have hbalance : ∀ t, t ≤ p.finish →
      balanceAt (ledger ++ added) accountId t = balanceAt ledger accountId t := by
    intro t ht
    apply sumWhere_append
    intro e he
    simp [not_lt.mpr (ht.trans (h e he))]
  have hturnover : ∀ kind,
      turnover (ledger ++ added) accountId p kind = turnover ledger accountId p kind := by
    intro kind
    apply sumWhere_append
    intro e he
    simp [covers, not_lt.mpr (h e he)]
  simp only [figures, hbalance _ p.lt.le, hbalance _ le_rfl, hturnover]

end Sums

section Columns

theorem val_assign_figures {ledger : List StampedEntry} {accountId : UUID} {p : Period}
    {stored : Figures Money} (h : (figures ledger accountId p).assign = some stored) :
    stored.val = figures ledger accountId p := by
  unfold Figures.assign at h
  obtain ⟨opening, hopening, h⟩ := Option.bind_eq_some_iff.mp h
  obtain ⟨closing, hclosing, h⟩ := Option.bind_eq_some_iff.mp h
  obtain ⟨topups, htopups, h⟩ := Option.bind_eq_some_iff.mp h
  obtain ⟨charges, hcharges, h⟩ := Option.bind_eq_some_iff.mp h
  obtain ⟨costs, hcosts, h⟩ := Option.bind_eq_some_iff.mp h
  obtain ⟨adjustments, hadjustments, h⟩ := Option.bind_eq_some_iff.mp h
  obtain ⟨refunds, hrefunds, h⟩ := Option.bind_eq_some_iff.mp h
  cases h
  simp only [Figures.val, Numeric.val_assign_of_onScale hopening (sumWhere_onScale _),
    Numeric.val_assign_of_onScale hclosing (sumWhere_onScale _),
    Numeric.val_assign_of_onScale htopups (sumWhere_onScale _),
    Numeric.val_assign_of_onScale hcharges (sumWhere_onScale _),
    Numeric.val_assign_of_onScale hcosts (sumWhere_onScale _),
    Numeric.val_assign_of_onScale hadjustments (sumWhere_onScale _),
    Numeric.val_assign_of_onScale hrefunds (sumWhere_onScale _)]

theorem usage_onScale (ledger : List StampedEntry) (accountId : UUID) (p : Period)
    (kind : OwnerKind) : OnScale 6 ((figures ledger accountId p).usage kind) := by
  cases kind with
  | customer | carrier => exact sumWhere_onScale _

theorem usage_figures (ledger : List StampedEntry) (accountId : UUID) (p : Period)
    (kind : OwnerKind) :
    (figures ledger accountId p).usage kind = turnover ledger accountId p (usageKind kind) := by
  cases kind <;> rfl

end Columns

section Invariant

variable {id : UUID} {number : String} {kind : InvoiceKind} {inv : StoredInvoice}

/-- An invoice says what the ledger says, and nothing will be added to its
period any more. -/
structure Settled (clock : Time) (ledger : List StampedEntry) (inv : StoredInvoice) : Prop where
  ended : inv.period.finish ≤ clock
  figures_eq : inv.figures.val = figures ledger inv.accountId inv.period
  amount_eq : inv.amount.val = -(figures ledger inv.accountId inv.period).usage inv.owner.kind

/-- The invariant of a run. -/
def AllSettled (s : State) : Prop := ∀ inv ∈ s.invoices, Settled s.clock s.ledger inv

variable {s : State} {now : Time}

theorem settled_insertInvoice {accountId : UUID} {account : Account} {p : Period}
    (hended : p.finish ≤ now) (h : insertInvoice s id number accountId account p kind = .ok inv) :
    Settled now s.ledger inv := by
  unfold insertInvoice at h
  dsimp only at h
  split at h
  · rename_i stored amount hstored hamount
    cases h
    exact ⟨hended, val_assign_figures hstored,
      Numeric.val_assign_of_onScale hamount (usage_onScale _ _ _ _).neg⟩
  · cases h

theorem settled_generatePeriod {accountId : UUID} {start finish : Time} (hended : finish ≤ now)
    (h : generatePeriod s id number accountId start finish kind = .ok inv) :
    Settled now s.ledger inv := by
  unfold generatePeriod at h
  split at h
  · dsimp only at h
    split at h
    · cases h
    · split at h
      · cases h
      · split at h
        · cases h
        · exact settled_insertInvoice hended h
  · cases h

theorem settled_generateInvoice {owner : Owner} {start finish : Time} (hended : finish ≤ now)
    (h : generateInvoice s now id number owner start finish kind = .ok inv) :
    Settled now s.ledger inv := by
  unfold generateInvoice at h
  split_ifs at h
  split at h
  · cases h
  · exact settled_generatePeriod hended h

theorem Settled.commit (h : Settled s.clock s.ledger inv) (hnow : s.clock ≤ now) {after : DB}
    (hlog : s.db.log <+: after.log) : Settled now (s.commit now after hlog).ledger inv := by
  have hfigures : figures (s.commit now after hlog).ledger inv.accountId inv.period =
      figures s.ledger inv.accountId inv.period := by
    apply figures_append
    intro e he
    obtain ⟨entry, -, rfl⟩ := List.mem_map.mp he
    exact h.ended.trans hnow
  refine ⟨h.ended.trans hnow, ?_, ?_⟩
  · rw [hfigures, h.figures_eq]
  · rw [hfigures, h.amount_eq]

theorem Settled.tick (h : Settled s.clock s.ledger inv) (hnow : s.clock ≤ now) :
    Settled now s.ledger inv :=
  ⟨h.ended.trans hnow, h.figures_eq, h.amount_eq⟩

theorem AllSettled.insert {result : Except Reply StoredInvoice} (hs : AllSettled s)
    (hnow : s.clock ≤ now)
    (hnew : ∀ inv, result = .ok inv → Settled now s.ledger inv) :
    AllSettled (s.insert now result) := by
  intro inv hinv
  cases result with
  | error reply => exact (hs inv hinv).tick hnow
  | ok made =>
    rcases List.mem_append.mp hinv with hinv | hinv
    · exact (hs inv hinv).tick hnow
    · obtain rfl := List.mem_singleton.mp hinv
      exact hnew inv rfl

theorem AllSettled.step (l : Label) (s s' : State) (hs : AllSettled s) (hok : Ended l s)
    (h : step l s = some s') : AllSettled s' := by
  unfold Statements.step at h
  split_ifs at h with hlate
  cases h
  have hnow : s.clock ≤ l.now := not_lt.mp hlate
  cases l with
  | run now job =>
    simp only [perform]
    split
    · rename_i after hrun
      exact fun inv hinv => (hs inv hinv).commit hnow _
    · exact fun inv hinv => (hs inv hinv).tick hnow
  | generateInvoice now id number owner start finish kind =>
    exact hs.insert hnow (fun inv hinv => settled_generateInvoice hok hinv)
  | generate now id number accountId start finish =>
    exact hs.insert hnow (fun inv hinv => settled_generatePeriod hok hinv)
  | delete now id paid =>
    simp only [perform]
    split_ifs
    · exact fun inv hinv => (hs inv hinv).tick hnow
    · intro inv hinv
      obtain ⟨old, hold, rfl⟩ := List.mem_map.mp hinv
      have hsettled := (hs old hold).tick hnow
      split_ifs
      · exact ⟨hsettled.ended, hsettled.figures_eq, hsettled.amount_eq⟩
      · exact ⟨hsettled.ended, hsettled.figures_eq, hsettled.amount_eq⟩

/-- Invoices that were made when their period was over stay accurate, whatever
is posted, paid, invoiced or deleted later. -/
theorem statements_accurate (labels : List Label) (s final : State) (hnone : s.invoices = [])
    (hok : Along step Ended labels s) (hrun : trace step labels s = some final) :
    Accurate final := by
  have hstart : AllSettled s := by
    unfold AllSettled
    rw [hnone]
    exact fun inv hinv => nomatch hinv
  have hsettled := invariant_of_along AllSettled.step hstart hok hrun
  constructor
  · intro inv hinv _
    rw [(hsettled inv hinv).amount_eq, usage_figures]
  · intro inv hinv _
    have hclosing := figures_closing final.ledger inv.accountId inv.period
    rwa [← (hsettled inv hinv).figures_eq] at hclosing
  · intro inv hinv _ next hnext _ haccount hfollows
    have hfirst := congrArg Figures.closing (hsettled inv hinv).figures_eq
    have hsecond := congrArg Figures.opening (hsettled next hnext).figures_eq
    apply Numeric.val_inj
    -- Both are the balance at the instant where the periods meet.
    change next.figures.opening.val = balanceAt final.ledger next.accountId next.period.start
      at hsecond
    change inv.figures.closing.val = balanceAt final.ledger inv.accountId inv.period.finish
      at hfirst
    rw [hfirst, hsecond, haccount, hfollows]

end Invariant

section Sample

def sampleStart : State := ⟨0, sampleStore ⟨100000000, by decide⟩, [], rfl, []⟩

/-- A call is billed and its period is invoiced when it is over; a top-up
follows, and the next period is invoiced. -/
def samplePeriods : List Label :=
  [.run 10 (sampleSetup 42 sampleRate), .run 20 (sampleHangup 42 61),
    .generateInvoice 60 1 "INV-197001-000001" ⟨.customer, 7⟩ 0 50 .custom,
    .run 70 (.postMoney ⟨⟨.customer, 7⟩, .topup, 5, "top-up", "operator"⟩),
    .generateInvoice 110 2 "INV-197001-000002" ⟨.customer, 7⟩ 50 100 .custom]

theorem statements_accurate_samplePeriods :
    ∃ final, trace step samplePeriods sampleStart = some final ∧
      final.invoices.map (fun inv => (inv.amount.units, inv.figures.opening.units,
        inv.figures.closing.units)) = [(120000, 0, -120000), (0, -120000, 4880000)] ∧
      Accurate final := by
  have hrun : (trace step samplePeriods sampleStart).map (fun s =>
      s.invoices.map (fun inv => (inv.amount.units, inv.figures.opening.units,
        inv.figures.closing.units))) = some [(120000, 0, -120000), (0, -120000, 4880000)] := by
    decide +kernel
  obtain ⟨final, hfinal, hinvoices⟩ := Option.map_eq_some_iff.mp hrun
  exact ⟨final, hfinal, hinvoices,
    statements_accurate samplePeriods sampleStart final rfl (by decide +kernel) hfinal⟩

/-- The running period is invoiced, and then a call is billed in it. -/
def sampleRunningPeriod : List Label :=
  [.run 10 (sampleSetup 42 sampleRate),
    .generateInvoice 15 1 "INV-197001-000001" ⟨.customer, 7⟩ 0 50 .custom,
    .run 20 (sampleHangup 42 61)]

theorem statement_inaccurate :
    ∃ final, trace step sampleRunningPeriod sampleStart = some final ∧
      (∃ inv ∈ final.invoices, inv.deleted = false ∧ inv.amount.units = 0 ∧
        turnover final.ledger inv.accountId inv.period .charge = -0.12) ∧
      ¬ Accurate final := by
  have hrun : (trace step sampleRunningPeriod sampleStart).map (fun s =>
      decide (∃ inv ∈ s.invoices, inv.deleted = false ∧ inv.owner.kind = .customer ∧
        inv.amount.units = 0 ∧ turnover s.ledger inv.accountId inv.period .charge = -0.12)) =
      some true := by
    decide +kernel
  obtain ⟨final, hfinal, hinvoice⟩ := Option.map_eq_some_iff.mp hrun
  obtain ⟨inv, hinv, hlive, howner, hunits, hcharged⟩ := of_decide_eq_true hinvoice
  refine ⟨final, hfinal, ⟨inv, hinv, hlive, hunits, hcharged⟩, ?_⟩
  intro haccurate
  have hamount := haccurate.amount inv hinv hlive
  rw [howner] at hamount
  change _ = -turnover final.ledger inv.accountId inv.period .charge at hamount
  rw [hcharged, Numeric.val, hunits] at hamount
  norm_num at hamount

end Sample

end SuperSbc.Statements
