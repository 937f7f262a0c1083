import SuperSbc.Interleaving.Trace
import SuperSbc.Model

/-!
Which periods an account is invoiced for. `GeneratePeriod` looks for an invoice
of the same period, then for one that overlaps, and inserts, each in a
statement of its own; `GenerateMonth` calls it for one account after the other;
`Delete` is a transaction. All of them interleave, on any number of nodes.

Of an invoice only what the checks look at is kept. A row that a transaction is
about to delete is live for everybody else until it commits, and an insert of
the very same period waits for it, as a unique index makes it. What was paid is
an answer of the database here.
-/

namespace SuperSbc.Invoice

open Interleaving

/-- `[start, end)`; an empty one is refused before anything is read. -/
structure Period where
  start : Time
  finish : Time
  lt : start < finish
deriving DecidableEq

/-- `period_start < $3 AND period_end > $2`. -/
def Period.overlaps (p q : Period) : Bool := p.start < q.finish && q.start < p.finish

/-- What `Delete` is doing with a row. -/
inductive RowLock where
  | free
  | held
  | deleting
deriving DecidableEq

/-- A row of `invoices`; `deleted` is a committed `deleted_at`. -/
structure PeriodRow where
  id : UUID
  accountId : UUID
  period : Period
  deleted : Bool
  lock : RowLock
deriving DecidableEq

/-- One call of `GeneratePeriod`. -/
structure Task where
  accountId : UUID
  period : Period
deriving DecidableEq

/-- Where a request is, with the calls it has yet to make. -/
inductive Request where
  | idle
  | started (task : Task) (rest : List Task)
  | absent (task : Task) (rest : List Task)
  | clear (task : Task) (rest : List Task)
  | held (id : UUID)
  | deleting (id : UUID)
  | done
deriving DecidableEq

/-- The call that has passed its overlap check. -/
def Request.cleared : Request → Option Task
  | .clear task _ => some task
  | .idle | .started _ _ | .absent _ _ | .held _ | .deleting _ | .done => none

structure State (ι : Type) where
  requests : ι → Request
  invoices : List PeriodRow

inductive Label (ι : Type) where
  /-- `GeneratePeriod` is called -/
  | generate (i : ι) (accountId : UUID) (start finish : Time)
  /-- the `SELECT` of `GenerateMonth`, and the accounts it finds -/
  | month (i : ι) (period : Period) (ids : List UUID)
  /-- `ByPeriod` -/
  | byPeriod (i : ι)
  /-- the `SELECT` for an overlapping invoice -/
  | overlap (i : ι)
  | insert (i : ι) (id : UUID)
  /-- a statement of `GeneratePeriod` fails -/
  | fail (i : ι)
  /-- the `SELECT … FOR UPDATE` of `Delete`, and what it sees as paid -/
  | select (i : ι) (id : UUID) (paid : Rating.Decimal)
  | update (i : ι)
  | commit (i : ι)
  | rollback (i : ι)

/-- The next call, if there is one. -/
def advance : List Task → Request
  | [] => .done
  | task :: rest => .started task rest

def Task.sameAs (t : Task) (r : PeriodRow) : Bool :=
  r.accountId = t.accountId && !r.deleted && r.period = t.period

def Task.overlaps (t : Task) (r : PeriodRow) : Bool :=
  r.accountId = t.accountId && !r.deleted && r.period.overlaps t.period

section Step

variable {ι : Type} [DecidableEq ι]

instance : Phased (State ι) ι Request :=
  ⟨State.requests, fun s requests => { s with requests := requests }, fun _ _ => rfl⟩

def State.withRow (s : State ι) (id : UUID) (f : PeriodRow → PeriodRow) : State ι :=
  { s with invoices := s.invoices.map (fun r => if r.id = id then f r else r) }

def step (l : Label ι) (s : State ι) : Option (State ι) :=
  match l with
  | .generate i accountId start finish =>
    match s.requests i with
    | .idle =>
      if h : start < finish then
        some (enter s i (.started ⟨accountId, ⟨start, finish, h⟩⟩ []))
      else some (enter s i .done)
    | _ => none
  | .month i period ids =>
    match s.requests i with
    | .idle =>
      -- An account with a deleted invoice in the month is not listed.
      if ids.all (fun id => s.invoices.all (fun r =>
          !(r.accountId = id && r.deleted && r.period.overlaps period))) then
        some (enter s i (advance (ids.map (⟨·, period⟩))))
      else none
    | _ => none
  | .byPeriod i =>
    match s.requests i with
    | .started task rest =>
      if s.invoices.any task.sameAs then some (enter s i (advance rest))
      else some (enter s i (.absent task rest))
    | _ => none
  | .overlap i =>
    match s.requests i with
    | .absent task rest =>
      if s.invoices.any task.overlaps then some (enter s i (advance rest))
      else some (enter s i (.clear task rest))
    | _ => none
  | .insert i id =>
    match s.requests i with
    | .clear task rest =>
      if s.invoices.any (·.id = id) then none
      else if s.invoices.any (fun r => task.sameAs r && r.lock = .deleting) then none
      else if s.invoices.any task.sameAs then some (enter s i (advance rest))
      else
        some { enter s i (advance rest) with
          invoices := s.invoices ++ [⟨id, task.accountId, task.period, false, .free⟩] }
    | _ => none
  | .fail i =>
    match s.requests i with
    | .started _ rest | .absent _ rest | .clear _ rest => some (enter s i (advance rest))
    | _ => none
  | .select i id paid =>
    match s.requests i, s.invoices.find? (·.id = id) with
    | .idle, none => some (enter s i .done)
    | .idle, some r =>
      if r.lock ≠ .free then none
      else if r.deleted || paid ≠ 0 then some (enter s i .done)
      else some (enter (s.withRow id ({ · with lock := .held })) i (.held id))
    | _, _ => none
  | .update i =>
    match s.requests i with
    | .held id => some (enter (s.withRow id ({ · with lock := .deleting })) i (.deleting id))
    | _ => none
  | .commit i =>
    match s.requests i with
    | .deleting id =>
      some (enter (s.withRow id ({ · with deleted := true, lock := .free })) i .done)
    | _ => none
  | .rollback i =>
    match s.requests i with
    | .held id | .deleting id => some (enter (s.withRow id ({ · with lock := .free })) i .done)
    | _ => none

/-- When an invoice is inserted, no other request of the account has passed its
overlap check for a period that overlaps without being the same. -/
def Unrivalled (l : Label ι) (s : State ι) : Prop :=
  match l with
  | .insert i _ => ∀ task ∈ (s.requests i).cleared, ∀ j, ∀ other ∈ (s.requests j).cleared,
      other.accountId = task.accountId →
      other.period = task.period ∨ task.period.overlaps other.period = false
  | .generate _ _ _ _ | .month _ _ _ | .byPeriod _ | .overlap _ | .fail _ | .select _ _ _
  | .update _ | .commit _ | .rollback _ => True

instance Unrivalled.decidable [Fintype ι] :
    ∀ (l : Label ι) (s : State ι), Decidable (Unrivalled l s)
  | .insert i _, s => inferInstanceAs (Decidable (∀ task ∈ (s.requests i).cleared, ∀ j,
      ∀ other ∈ (s.requests j).cleared, other.accountId = task.accountId →
      other.period = task.period ∨ task.period.overlaps other.period = false))
  | .generate _ _ _ _, _ | .month _ _ _, _ | .byPeriod _, _ | .overlap _, _ | .fail _, _
  | .select _ _ _, _ | .update _, _ | .commit _, _ | .rollback _, _ =>
    inferInstanceAs (Decidable True)

end Step

/-- Live invoices of one account cover different times. -/
def Disjoint (invoices : List PeriodRow) : Prop :=
  invoices.Pairwise (fun a b => a.accountId = b.accountId → a.deleted = false →
    b.deleted = false → a.period.overlaps b.period = false)

/-- Nobody is doing anything. -/
def State.quiet {ι : Type} (invoices : List PeriodRow) : State ι := ⟨fun _ => .idle, invoices⟩

section Invariant

variable {ι : Type} {s : State ι}

/-- Why an insert finds no overlapping invoice: whoever has passed the check
knows all live ones that overlap to be of the very same period. -/
structure Apart (s : State ι) : Prop where
  disjoint : Disjoint s.invoices
  cleared : ∀ i task, (s.requests i).cleared = some task → ∀ r ∈ s.invoices,
    task.overlaps r = true → r.period = task.period

theorem Task.overlaps_iff {t : Task} {r : PeriodRow} : t.overlaps r = true ↔
    r.accountId = t.accountId ∧ r.deleted = false ∧ r.period.overlaps t.period = true := by
  simp [Task.overlaps, and_assoc]

theorem Task.sameAs_iff {t : Task} {r : PeriodRow} : t.sameAs r = true ↔
    r.accountId = t.accountId ∧ r.deleted = false ∧ r.period = t.period := by
  simp [Task.sameAs, and_assoc]

/-- A change to a row that keeps its account and period and revives nothing. -/
def Keeps (f : PeriodRow → PeriodRow) : Prop :=
  ∀ r, (f r).accountId = r.accountId ∧ (f r).period = r.period ∧
    ((f r).deleted = false → r.deleted = false)

theorem Apart.frame (hs : Apart s) (s' : State ι) {f : PeriodRow → PeriodRow} (hf : Keeps f)
    (hinvoices : s'.invoices = s.invoices.map f)
    (hrequests : ∀ i task, (s'.requests i).cleared = some task →
      (s.requests i).cleared = some task) :
    Apart s' := by
  constructor
  · rw [hinvoices, Disjoint, List.pairwise_map]
    apply hs.disjoint.imp
    intro a b hab haccount ha hb
    obtain ⟨hida, hpa, hdela⟩ := hf a
    obtain ⟨hidb, hpb, hdelb⟩ := hf b
    rw [hpa, hpb]
    exact hab (hida ▸ hidb ▸ haccount) (hdela ha) (hdelb hb)
  · intro i task hi r hr hoverlaps
    rw [hinvoices] at hr
    obtain ⟨old, hold, rfl⟩ := List.mem_map.mp hr
    obtain ⟨hid, hperiod, hdeleted⟩ := hf old
    rw [Task.overlaps_iff, hid, hperiod] at hoverlaps
    rw [hperiod]
    apply hs.cleared i task (hrequests i task hi) old hold
    exact Task.overlaps_iff.mpr ⟨hoverlaps.1, hdeleted hoverlaps.2.1, hoverlaps.2.2⟩

variable [DecidableEq ι] {i : ι}

theorem cleared_move {r : Request} (hr : r.cleared = none) (j : ι) (task : Task)
    (h : ((enter s i r).requests j).cleared = some task) : (s.requests j).cleared = some task := by
  refine forall_enter s (P := fun j q => q.cleared = some task → (s.requests j).cleared = some task)
    (fun hnew => ?_) (fun _ _ => id) j h
  rw [hr] at hnew
  cases hnew

theorem cleared_advance (tasks : List Task) : (advance tasks).cleared = none := by
  cases tasks <;> rfl

theorem Apart.move (hs : Apart s) {r : Request} (hr : r.cleared = none) : Apart (enter s i r) :=
  hs.frame _ (f := id) (fun _ => ⟨rfl, rfl, fun h => h⟩) (List.map_id _).symm (cleared_move hr)

theorem Apart.withRow (hs : Apart s) (id : UUID) {f : PeriodRow → PeriodRow} (hf : Keeps f)
    {r : Request} (hr : r.cleared = none) : Apart (enter (s.withRow id f) i r) := by
  refine hs.frame _ (f := fun r => if r.id = id then f r else r) ?_ rfl (cleared_move hr)
  intro row
  dsimp only
  split_ifs
  · exact hf row
  · exact ⟨rfl, rfl, fun h => h⟩

theorem Apart.check (hs : Apart s) {task : Task} {rest : List Task}
    (hnone : s.invoices.any task.overlaps = false) : Apart (enter s i (.clear task rest)) := by
  refine ⟨hs.disjoint, forall_enter s (P := fun _ q => ∀ other ∈ q.cleared, ∀ r ∈ s.invoices,
    other.overlaps r = true → r.period = other.period) ?_ (fun j _ => hs.cleared j)⟩
  rintro _ ⟨⟩ r hr hoverlaps
  exact absurd hoverlaps (List.any_eq_false.mp hnone r hr)

/-- An invoice that nobody else's check would have to know of. -/
theorem Apart.insert (hs : Apart s) {task : Task} {rest : List Task} {id : UUID}
    (hi : (s.requests i).cleared = some task) (hnew : s.invoices.any task.sameAs = false)
    (hrivals : ∀ j, ∀ other ∈ (s.requests j).cleared, other.accountId = task.accountId →
      other.period = task.period ∨ task.period.overlaps other.period = false) :
    Apart { enter s i (advance rest) with
      invoices := s.invoices ++ [⟨id, task.accountId, task.period, false, .free⟩] } := by
  constructor
  · refine List.pairwise_append.mpr ⟨hs.disjoint, List.pairwise_singleton _ _, ?_⟩
    intro a ha b hb haccount hlive _
    obtain rfl := List.mem_singleton.mp hb
    -- An overlapping one would have the same period, which the index refuses.
    by_contra hoverlaps
    rw [Bool.not_eq_false] at hoverlaps
    have hperiod := hs.cleared i task hi a ha (Task.overlaps_iff.mpr ⟨haccount, hlive, hoverlaps⟩)
    exact List.any_eq_false.mp hnew a ha (Task.sameAs_iff.mpr ⟨haccount, hlive, hperiod⟩)
  · intro j other hj r hr hoverlaps
    have hbefore := cleared_move (cleared_advance rest) j other hj
    rcases List.mem_append.mp hr with hr | hr
    · exact hs.cleared j other hbefore r hr hoverlaps
    · obtain rfl := List.mem_singleton.mp hr
      obtain ⟨haccount, -, hperiods⟩ := Task.overlaps_iff.mp hoverlaps
      rcases hrivals j other hbefore haccount.symm with hsame | hapart
      · exact hsame.symm
      · rw [hapart] at hperiods
        cases hperiods

theorem Apart.step (l : Label ι) (s s' : State ι) (hs : Apart s) (hok : Unrivalled l s)
    (h : step l s = some s') : Apart s' := by
  cases l with
  | generate i accountId start finish =>
    simp only [Invoice.step] at h
    split at h
    · split_ifs at h
      · cases h
        exact hs.move rfl
      · cases h
        exact hs.move rfl
    · cases h
  | month i period ids =>
    simp only [Invoice.step] at h
    split at h
    · split_ifs at h
      cases h
      exact hs.move (cleared_advance _)
    · cases h
  | byPeriod i =>
    simp only [Invoice.step] at h
    split at h
    · split_ifs at h
      · cases h
        exact hs.move (cleared_advance _)
      · cases h
        exact hs.move rfl
    · cases h
  | overlap i =>
    simp only [Invoice.step] at h
    split at h
    · split_ifs at h with hoverlap
      · cases h
        exact hs.move (cleared_advance _)
      · cases h
        exact hs.check (by simpa using hoverlap)
    · cases h
  | insert i id =>
    simp only [Invoice.step] at h
    split at h
    · rename_i task rest hi
      have hcleared : (s.requests i).cleared = some task := by
        rw [hi]
        rfl
      split_ifs at h with hid hwait hexists
      · cases h
        exact hs.move (cleared_advance _)
      · cases h
        exact hs.insert hcleared (by simpa using hexists) (hok task hcleared)
    · cases h
  | fail i =>
    simp only [Invoice.step] at h
    split at h <;> cases h <;> exact hs.move (cleared_advance _)
  | select i id paid =>
    simp only [Invoice.step] at h
    split at h
    · cases h
      exact hs.move rfl
    · split_ifs at h
      · cases h
        exact hs.move rfl
      · cases h
        apply hs.withRow
        · exact fun _ => ⟨rfl, rfl, fun h => h⟩
        · rfl
    · cases h
  | update i =>
    simp only [Invoice.step] at h
    split at h
    · cases h
      apply hs.withRow
      · exact fun _ => ⟨rfl, rfl, fun h => h⟩
      · rfl
    · cases h
  | commit i =>
    simp only [Invoice.step] at h
    split at h
    · cases h
      apply hs.withRow
      · exact fun _ => ⟨rfl, rfl, fun h => Bool.noConfusion h⟩
      · rfl
    · cases h
  | rollback i =>
    simp only [Invoice.step] at h
    split at h
    · cases h
      apply hs.withRow
      · exact fun _ => ⟨rfl, rfl, fun h => h⟩
      · rfl
    · cases h
      apply hs.withRow
      · exact fun _ => ⟨rfl, rfl, fun h => h⟩
      · rfl
    · cases h

/-- In every interleaving in which no invoice is inserted while another request
has passed its check for an overlapping, different period of the account, live
invoices never overlap. -/
theorem live_invoices_disjoint (invoices : List PeriodRow) (labels : List (Label ι))
    (final : State ι) (hdisjoint : Disjoint invoices)
    (hok : Along Invoice.step Unrivalled labels (.quiet invoices))
    (hrun : trace Invoice.step labels (.quiet invoices) = some final) :
    Disjoint final.invoices := by
  refine (invariant_of_along Apart.step ?_ hok hrun).disjoint
  refine ⟨hdisjoint, ?_⟩
  intro i task hi
  cases hi

end Invariant

section Sample

local instance requests_ne_zero : NeZero 3 := ⟨by decide⟩

/-- One request after the other: an invoice, its deletion, and another one over
part of the same time. -/
def sampleSequence : List (Label (Fin 3)) :=
  [.generate 0 5 0 10, .byPeriod 0, .overlap 0, .insert 0 1, .select 1 1 0, .update 1, .commit 1,
    .generate 2 5 5 15, .byPeriod 2, .overlap 2, .insert 2 2]

theorem live_invoices_disjoint_sampleSequence :
    ∃ final, trace Invoice.step sampleSequence (.quiet []) = some final ∧
      final.invoices.map (fun r => (r.id, r.deleted)) = [(1, true), (2, false)] ∧
      Disjoint final.invoices := by
  have hrun : (trace Invoice.step sampleSequence (.quiet [])).map (fun s =>
      s.invoices.map (fun r => (r.id, r.deleted))) = some [(1, true), (2, false)] := by
    decide +kernel
  obtain ⟨final, hfinal, hinvoices⟩ := Option.map_eq_some_iff.mp hrun
  exact ⟨final, hfinal, hinvoices,
    live_invoices_disjoint [] sampleSequence final .nil (by decide +kernel) hfinal⟩

/-- Two requests check before either inserts. -/
def sampleRivals : List (Label (Fin 3)) :=
  [.generate 0 5 0 10, .generate 1 5 5 15, .byPeriod 0, .byPeriod 1, .overlap 0, .overlap 1,
    .insert 0 1, .insert 1 2]

theorem live_invoices_overlap :
    ∃ final, trace Invoice.step sampleRivals (.quiet []) = some final ∧
      final.invoices = [⟨1, 5, ⟨0, 10, by decide⟩, false, .free⟩,
        ⟨2, 5, ⟨5, 15, by decide⟩, false, .free⟩] ∧
      ¬ Disjoint final.invoices := by
  have hrun : (trace Invoice.step sampleRivals (.quiet [])).map (·.invoices) =
      some [⟨1, 5, ⟨0, 10, by decide⟩, false, .free⟩,
        ⟨2, 5, ⟨5, 15, by decide⟩, false, .free⟩] := by
    decide +kernel
  obtain ⟨final, hfinal, hinvoices⟩ := Option.map_eq_some_iff.mp hrun
  refine ⟨final, hfinal, hinvoices, ?_⟩
  rw [hinvoices]
  intro hdisjoint
  have hapart := (List.pairwise_cons.mp hdisjoint).1 _ List.mem_cons_self rfl rfl rfl
  revert hapart
  decide

end Sample

end SuperSbc.Invoice
