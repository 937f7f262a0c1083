import SuperSbc.Interleaving.Trace
import SuperSbc.Query.Tables
import SuperSbc.Store.Cdrs

/-!
The hourly roll-up of the call records. A pass lists the hours that need it,
and then deletes and computes again their rows in one transaction. It goes on
while call records are written, and while passes run on other nodes.

`updated_at` and `computed_at` are the times at which the writing transactions
began; what a statement sees is what was committed when it began. The rows of
`cdr_hourly_stats` that one pass wrote for one hour appear and vanish together,
so the table is kept as such batches. Waiting for another pass only delays a
statement; here it goes on, and a commit that violates the unique key is not
possible.
-/

namespace SuperSbc.Reports

open FixedPoint Rating Store Interleaving Query

def hourLength : ℤ := 3600000000000

/-- `date_trunc('hour', …)`, as a number. -/
def hourOf (t : Time) : ℤ := t / hourLength

/-- A row of `cdrs`. -/
structure CallRow where
  callUUID : UUID
  cdr : CDR
  updatedAt : Time

def CallRow.hour (d : CallRow) : ℤ := hourOf d.cdr.startTime

/-- `disposition <> 'pending'`. -/
def CallRow.final (d : CallRow) : Bool := d.cdr.disposition ≠ .pending

structure GroupKey where
  hour : ℤ
  customerId : Option UUID
  carrierId : Option UUID
  disposition : Disposition
deriving DecidableEq

structure GroupFigures where
  calls : ℕ
  billsec : ℤ
  sellPrice : Decimal
  cost : Decimal
  pddMsSum : ℤ
  pddCount : ℕ
  shortCalls : ℕ
deriving DecidableEq

def CallRow.key (d : CallRow) : GroupKey :=
  ⟨d.hour, d.cdr.customerId, d.cdr.carrierId, d.cdr.disposition⟩

def figures (rows : List CallRow) : GroupFigures where
  calls := rows.length
  billsec := (rows.map (·.cdr.billsec)).sum
  sellPrice := (rows.map (·.cdr.sellPrice)).sum
  cost := (rows.map (·.cdr.cost)).sum
  pddMsSum := (rows.map (·.cdr.pddMs.getD 0)).sum
  pddCount := rows.countP (·.cdr.pddMs.isSome)
  shortCalls := rows.countP (fun d => d.cdr.disposition = .answered && d.cdr.billsec < 6)

/-- The aggregate of all calls that are over. -/
def aggregate (cdrs : List CallRow) : List (GroupKey × GroupFigures) :=
  groupBy CallRow.key figures (cdrs.filter (·.final))

/-- A change to a call record. No statement changes `start_time`, and no one
makes a call pending again. -/
structure RowChange where
  apply : CDR → Except StoreError CDR
  startTime : ∀ c c', apply c = .ok c' → c'.startTime = c.startTime
  final : ∀ c c', apply c = .ok c' → c.disposition ≠ .pending → c'.disposition ≠ .pending

theorem finalizedRow_columns {c row row' : CDR} (h : finalizedRow c row = some row') :
    row'.startTime = row.startTime ∧ row'.disposition = c.disposition := by
  simp only [finalizedRow, Option.bind_eq_bind, Option.bind_eq_some_iff] at h
  obtain ⟨_, -, _, -, _, -, _, -, _, -, _, -, hrow⟩ := h
  obtain rfl := Option.some.inj hrow
  exact ⟨rfl, rfl⟩

/-- `FinalizeCDR`; whoever calls it knows how the call ended. -/
def RowChange.finalize (c : CDR) (h : c.disposition ≠ .pending) : RowChange where
  apply row := (finalizedRow c row).elim (.error .numericOverflow) .ok
  startTime := by
    intro row row' happly
    cases hrow : finalizedRow c row with
    | none =>
      rw [hrow] at happly
      cases happly
    | some found =>
      rw [hrow] at happly
      cases happly
      exact (finalizedRow_columns hrow).1
  final := by
    intro row row' happly _
    cases hrow : finalizedRow c row with
    | none =>
      rw [hrow] at happly
      cases happly
    | some found =>
      rw [hrow] at happly
      cases happly
      rw [(finalizedRow_columns hrow).2]
      exact h

/-- What a transaction writes: a new record, or changes to some. -/
inductive Write where
  | insertSetup (callUUID : UUID) (c : CDR)
  | update (calls : List UUID) (change : RowChange)

def Write.run (start : Time) (cdrs : List CallRow) : Write → Except StoreError (List CallRow)
  | .insertSetup callUUID c =>
    match setupRow c with
    | none => .error .numericOverflow
    | some row =>
      if cdrs.any (·.callUUID = callUUID) then .ok cdrs
      else .ok (cdrs ++ [⟨callUUID, row, start⟩])
  | .update calls change =>
    updateWhere (fun d => d.callUUID ∈ calls)
      (fun d => (change.apply d.cdr).map (⟨d.callUUID, ·, start⟩)) cdrs

/-- The hours of the records a write is about. -/
def Write.hours (cdrs : List CallRow) : Write → List ℤ
  | .insertSetup _ c => [hourOf c.startTime]
  | .update calls _ => (cdrs.filter (·.callUUID ∈ calls)).map (·.hour)

/-- The rows of an hour that a transaction wrote. -/
structure Batch where
  xmin : ℕ
  hour : ℤ
  computedAt : Time
  rows : List (GroupKey × GroupFigures)
  nonempty : rows ≠ []
deriving DecidableEq

/-- The unique key. -/
def Batch.clashes (a b : Batch) : Bool := a.rows.any (fun g => b.rows.any (fun g' => g'.1 = g.1))

inductive Task where
  | idle
  /-- a transaction on call records -/
  | writing (start : Time) (writes : List Write)
  /-- a pass that has listed its hours -/
  | resolved (hours : List ℤ)
  | opened (xmin : ℕ) (computedAt : Time) (hours : List ℤ)
  | deleted (xmin : ℕ) (computedAt : Time) (hours : List ℤ) (removed : List Batch)
  | inserted (removed batches : List Batch)
  | done

/-- The transaction on call records that is open. -/
def Task.transaction : Task → Option (Time × List Write)
  | .writing start writes => some (start, writes)
  | .idle | .resolved _ | .opened _ _ _ | .deleted _ _ _ _ | .inserted _ _ | .done => none

/-- What a pass is about to commit. -/
def Task.pending : Task → List Batch
  | .inserted _ batches => batches
  | .idle | .writing _ _ | .resolved _ | .opened _ _ _ | .deleted _ _ _ _ | .done => []

structure State (ι : Type) where
  tasks : ι → Task
  cdrs : List CallRow
  stats : List Batch
  nextTx : ℕ

inductive Label (ι : Type) where
  /-- a transaction on call records begins -/
  | start (i : ι) (now : Time)
  | write (i : ι) (w : Write)
  /-- the `SELECT` of `staleHours` -/
  | staleHours (i : ι) (now : Time)
  /-- the transaction of a pass begins -/
  | begin (i : ι) (now : Time)
  | delete (i : ι)
  | insert (i : ι)
  | commit (i : ι)
  | rollback (i : ι)

/-- `s.hour IS NULL OR d.updated_at > s.computed_at`, over the join. -/
def stale (stats : List Batch) (d : CallRow) : Bool :=
  !stats.any (·.hour = d.hour) || stats.any (fun b => b.hour = d.hour && b.computedAt < d.updatedAt)

def staleHours (now : Time) (cdrs : List CallRow) (stats : List Batch) : List ℤ :=
  ((cdrs.filter (fun d => d.final && stale stats d)).map (·.hour) ++
    [hourOf now, hourOf (now - hourLength)]).dedup

def batch (xmin : ℕ) (now : Time) (cdrs : List CallRow) (hour : ℤ) : Option Batch :=
  if h : aggregate (cdrs.filter (·.hour = hour)) ≠ [] then
    some ⟨xmin, hour, now, aggregate (cdrs.filter (·.hour = hour)), h⟩
  else none

/-- The rows of the `INSERT`, hour by hour. -/
def batches (xmin : ℕ) (now : Time) (hours : List ℤ) (cdrs : List CallRow) : List Batch :=
  hours.dedup.filterMap (batch xmin now cdrs)

/-- Sums have six decimals and are stored as they are, if they fit. -/
def GroupFigures.fits (f : GroupFigures) : Bool :=
  (Numeric.assign 18 6 f.sellPrice).isSome && (Numeric.assign 18 6 f.cost).isSome

section Step

variable {ι : Type} [DecidableEq ι]

instance : Phased (State ι) ι Task :=
  ⟨State.tasks, fun s tasks => { s with tasks := tasks }, fun _ _ => rfl⟩

def step (l : Label ι) (s : State ι) : Option (State ι) :=
  match l with
  | .start i now =>
    match s.tasks i with
    | .idle => some (enter s i (.writing now []))
    | _ => none
  | .write i w =>
    match s.tasks i with
    | .writing start writes => some (enter s i (.writing start (writes ++ [w])))
    | _ => none
  | .staleHours i now =>
    match s.tasks i with
    | .idle => some (enter s i (.resolved (staleHours now s.cdrs s.stats)))
    | _ => none
  | .begin i now =>
    match s.tasks i with
    | .resolved hours =>
      some { enter s i (.opened s.nextTx now hours) with nextTx := s.nextTx + 1 }
    | _ => none
  | .delete i =>
    match s.tasks i with
    | .opened xmin now hours =>
      some (enter s i (.deleted xmin now hours (s.stats.filter (·.hour ∈ hours))))
    | _ => none
  | .insert i =>
    match s.tasks i with
    | .deleted xmin now hours removed =>
      let rows := batches xmin now hours s.cdrs
      if rows.all (fun b => b.rows.all (·.2.fits)) then some (enter s i (.inserted removed rows))
      else some (enter s i .done)
    | _ => none
  | .commit i =>
    match s.tasks i with
    | .writing start writes =>
      match writes.foldlM (Write.run start) s.cdrs with
      | .ok cdrs => some { enter s i .done with cdrs := cdrs }
      | .error _ => none
    | .inserted removed rows =>
      let kept := s.stats.filter (· ∉ removed)
      if kept.any (fun b => rows.any b.clashes) then none
      else some { enter s i .done with stats := kept ++ rows }
    | _ => none
  | .rollback i =>
    match s.tasks i with
    | .writing _ _ | .opened _ _ _ | .deleted _ _ _ _ | .inserted _ _ => some (enter s i .done)
    | _ => none

/-- When a transaction on call records commits, every pass that has computed an
hour it writes to began before it. -/
def InTime (l : Label ι) (s : State ι) : Prop :=
  match l with
  | .commit i => ∀ tx ∈ (s.tasks i).transaction, ∀ w ∈ tx.2, ∀ h ∈ w.hours s.cdrs,
      (∀ b ∈ s.stats, b.hour = h → b.computedAt < tx.1) ∧
        ∀ j, ∀ b ∈ (s.tasks j).pending, b.hour = h → b.computedAt < tx.1
  | .start _ _ | .write _ _ | .staleHours _ _ | .begin _ _ | .delete _ | .insert _
  | .rollback _ => True

instance InTime.decidable [Fintype ι] : ∀ (l : Label ι) (s : State ι), Decidable (InTime l s)
  | .commit i, s => inferInstanceAs (Decidable (∀ tx ∈ (s.tasks i).transaction, ∀ w ∈ tx.2,
      ∀ h ∈ w.hours s.cdrs, (∀ b ∈ s.stats, b.hour = h → b.computedAt < tx.1) ∧
        ∀ j, ∀ b ∈ (s.tasks j).pending, b.hour = h → b.computedAt < tx.1))
  | .start _ _, _ | .write _ _, _ | .staleHours _ _, _ | .begin _ _, _ | .delete _, _
  | .insert _, _ | .rollback _, _ => inferInstanceAs (Decidable True)

end Step

def State.quiet {ι : Type} (cdrs : List CallRow) : State ι := ⟨fun _ => .idle, cdrs, [], 0⟩

/-- `Once`, by itself. -/
def once {ι : Type} (i : ι) (now later : Time) : List (Label ι) :=
  [.staleHours i now, .begin i later, .delete i, .insert i, .commit i]

section Aggregate

variable {a b : List CallRow} {g : GroupKey × GroupFigures}

theorem figures_perm (h : a.Perm b) : figures a = figures b := by
  simp only [figures, h.length_eq, (h.map _).sum_eq, h.countP_eq]

theorem mem_aggregate_of_perm (h : (a.filter (·.final)).Perm (b.filter (·.final))) :
    g ∈ aggregate a ↔ g ∈ aggregate b :=
  mem_groupBy_of_perm (fun _ _ => figures_perm) h

theorem mem_aggregate_hour {hour : ℤ} :
    g ∈ aggregate (a.filter (·.hour = hour)) ↔ g ∈ aggregate a ∧ g.1.hour = hour := by
  have hpart : (a.filter (·.hour = hour)).filter (·.final) =
      (a.filter (·.final)).filter (fun d => decide (d.key.hour = hour)) := List.filter_comm _ _ _
  unfold aggregate
  rw [hpart, mem_groupBy_filter (fun k : GroupKey => decide (k.hour = hour)), decide_eq_true_iff]

theorem exists_of_mem_aggregate (hg : g ∈ aggregate a) :
    ∃ d ∈ a, d.final = true ∧ d.hour = g.1.hour := by
  obtain ⟨d, hd, rfl⟩ := mem_groupBy.mp hg
  obtain ⟨hmem, hfinal⟩ := List.mem_filter.mp hd
  exact ⟨d, hmem, hfinal, rfl⟩

theorem aggregate_nodup : ((aggregate a).map Prod.fst).Nodup := groupBy_keys_nodup

end Aggregate

section Batches

variable {cdrs : List CallRow} {xmin : ℕ} {now : Time} {hours : List ℤ} {b : Batch}

theorem mem_batches (hb : b ∈ batches xmin now hours cdrs) :
    b.hour ∈ hours ∧ b.rows = aggregate (cdrs.filter (·.hour = b.hour)) := by
  obtain ⟨hour, hhour, hbatch⟩ := List.mem_filterMap.mp hb
  unfold batch at hbatch
  split_ifs at hbatch
  cases hbatch
  exact ⟨List.mem_dedup.mp hhour, rfl⟩

theorem exists_batch {g : GroupKey × GroupFigures} (hg : g ∈ aggregate cdrs)
    (hhour : g.1.hour ∈ hours) : ∃ b ∈ batches xmin now hours cdrs, g ∈ b.rows := by
  have hmem : g ∈ aggregate (cdrs.filter (·.hour = g.1.hour)) := mem_aggregate_hour.mpr ⟨hg, rfl⟩
  have hne : aggregate (cdrs.filter (·.hour = g.1.hour)) ≠ [] := List.ne_nil_of_mem hmem
  refine ⟨⟨xmin, g.1.hour, now, _, hne⟩, List.mem_filterMap.mpr ⟨g.1.hour, ?_, dif_pos hne⟩, hmem⟩
  exact List.mem_dedup.mpr hhour

theorem clashes_iff {a b : Batch} :
    a.clashes b = true ↔ ∃ g ∈ a.rows, ∃ g' ∈ b.rows, g'.1 = g.1 := by
  simp [Batch.clashes]

theorem not_clashes_of_hours {a b : Batch} (ha : ∀ g ∈ a.rows, g.1.hour = a.hour)
    (hb : ∀ g ∈ b.rows, g.1.hour = b.hour) (hne : a.hour ≠ b.hour) : a.clashes b = false := by
  rw [← Bool.not_eq_true, clashes_iff]
  rintro ⟨g, hg, g', hg', hkey⟩
  apply hne
  rw [← ha g hg, ← hb g' hg', hkey]

theorem batches_pairwise :
    (batches xmin now hours cdrs).Pairwise (fun a b => a.clashes b = false) := by
  refine List.Pairwise.filterMap _ ?_ (List.nodup_dedup hours)
  intro h h' hne a ha a' ha'
  unfold batch at ha ha'
  split_ifs at ha ha'
  cases ha
  cases ha'
  apply not_clashes_of_hours
  · exact fun g hg => (mem_aggregate_hour.mp hg).2
  · exact fun g hg => (mem_aggregate_hour.mp hg).2
  · exact hne

end Batches

section Reading

/-- What a pass has read of an hour is what is there, but for records that it
will find to be newer. -/
structure Reading (cdrs seen : List CallRow) (hour : ℤ) (computedAt : Time) : Prop where
  current : ∀ d ∈ cdrs, d.hour = hour → d.final = true → d ∈ seen ∨ computedAt < d.updatedAt
  kept : ∀ d ∈ seen, d.hour = hour → d.final = true →
    ∃ d' ∈ cdrs, d'.callUUID = d.callUUID ∧ d'.hour = hour ∧ d'.final = true

/-- A batch is the aggregate of what some pass has read. -/
def Explained (cdrs : List CallRow) (b : Batch) : Prop :=
  ∃ seen : List CallRow, (seen.map (·.callUUID)).Nodup ∧
    b.rows = aggregate (seen.filter (·.hour = b.hour)) ∧ Reading cdrs seen b.hour b.computedAt

variable {cdrs : List CallRow} {b : Batch}

theorem Explained.rows_nodup (h : Explained cdrs b) : (b.rows.map Prod.fst).Nodup := by
  obtain ⟨seen, -, hrows, -⟩ := h
  rw [hrows]
  exact aggregate_nodup

/-- A batch that no record of its hour is newer than is up to date. -/
theorem Explained.exact (h : Explained cdrs b) (hcalls : (cdrs.map (·.callUUID)).Nodup)
    (hfresh : ∀ d ∈ cdrs, d.hour = b.hour → d.final = true → d.updatedAt ≤ b.computedAt)
    {g : GroupKey × GroupFigures} : g ∈ b.rows ↔ g ∈ aggregate (cdrs.filter (·.hour = b.hour)) := by
  obtain ⟨seen, hseen, hrows, hreading⟩ := h
  rw [hrows]
  apply mem_aggregate_of_perm
  have hsub : ∀ d ∈ cdrs, d.hour = b.hour → d.final = true → d ∈ seen := by
    intro d hd hhour hfinal
    apply (hreading.current d hd hhour hfinal).resolve_right
    exact not_lt.mpr (hfresh d hd hhour hfinal)
  have hnodup : ∀ l : List CallRow, (l.map (·.callUUID)).Nodup →
      ((l.filter (·.hour = b.hour)).filter (·.final)).Nodup :=
    fun l hl => ((hl.of_map _).filter _).filter _
  apply (List.perm_ext_iff_of_nodup (hnodup seen hseen) (hnodup cdrs hcalls)).mpr
  intro d
  simp only [List.mem_filter, decide_eq_true_eq]
  constructor
  · rintro ⟨⟨hd, hhour⟩, hfinal⟩
    -- The record is still there, and it is the one that was read.
    obtain ⟨d', hd', hcall, hhour', hfinal'⟩ := hreading.kept d hd hhour hfinal
    obtain rfl : d' = d :=
      List.inj_on_of_nodup_map hseen (hsub d' hd' hhour' hfinal') hd hcall
    exact ⟨⟨hd', hhour⟩, hfinal⟩
  · rintro ⟨⟨hd, hhour⟩, hfinal⟩
    exact ⟨⟨hsub d hd hhour hfinal, hhour⟩, hfinal⟩

theorem explained_batches {xmin : ℕ} {now : Time} {hours : List ℤ}
    (hcalls : (cdrs.map (·.callUUID)).Nodup) (hb : b ∈ batches xmin now hours cdrs) :
    Explained cdrs b := by
  refine ⟨cdrs, hcalls, (mem_batches hb).2, ?_⟩
  exact ⟨fun d hd _ _ => .inl hd, fun d hd hhour hfinal => ⟨d, hd, rfl, hhour, hfinal⟩⟩

end Reading

section Writes

/-- What transactions on call records do to the table. -/
structure Written (start : Time) (writes : List Write) (cdrs cdrs' : List CallRow) : Prop where
  calls : (cdrs'.map (·.callUUID)).Nodup
  stamped : ∀ d ∈ cdrs', d ∈ cdrs ∨
    (d.updatedAt = start ∧ ∃ w ∈ writes, d.hour ∈ w.hours cdrs)
  kept : ∀ d ∈ cdrs, ∃ d' ∈ cdrs', d'.callUUID = d.callUUID ∧ d'.hour = d.hour ∧
    (d.final = true → d'.final = true)

variable {start : Time} {writes : List Write} {cdrs cdrs' : List CallRow}

theorem setupRow_startTime {c row : CDR} (h : setupRow c = some row) :
    row.startTime = c.startTime := by
  simp only [setupRow, Option.bind_eq_bind, Option.bind_eq_some_iff] at h
  obtain ⟨_, -, _, -, _, -, hrow⟩ := h
  obtain rfl := Option.some.inj hrow
  rfl

theorem Written.run {table table' : List CallRow} (h : Written start writes cdrs table) {w : Write}
    (hw : w ∈ writes) (hrun : w.run start table = .ok table') :
    Written start writes cdrs table' := by
  cases w with
  | insertSetup callUUID c =>
    simp only [Write.run] at hrun
    split at hrun
    · cases hrun
    · rename_i row hrow
      split_ifs at hrun with hexists
      · cases hrun
        exact h
      · cases hrun
        constructor
        · rw [List.map_append]
          apply h.calls.append (List.nodup_singleton _)
          intro call hcall hnew
          obtain ⟨d, hd, rfl⟩ := List.mem_map.mp hcall
          exact hexists (List.any_eq_true.mpr ⟨d, hd, by simpa using hnew⟩)
        · intro d hd
          rcases List.mem_append.mp hd with hd | hd
          · exact h.stamped d hd
          · obtain rfl := List.mem_singleton.mp hd
            refine .inr ⟨rfl, _, hw, ?_⟩
            rw [Write.hours, CallRow.hour, setupRow_startTime hrow]
            exact List.mem_cons_self
        · intro d hd
          obtain ⟨d', hd', hsame⟩ := h.kept d hd
          exact ⟨d', List.mem_append_left _ hd', hsame⟩
  | update calls change =>
    simp only [Write.run] at hrun
    have hchange : ∀ d d' : CallRow,
        (change.apply d.cdr).map (CallRow.mk d.callUUID · start) = .ok d' →
        d'.callUUID = d.callUUID ∧ d'.hour = d.hour ∧ d'.updatedAt = start ∧
          (d.final = true → d'.final = true) := by
      intro d d' happly
      cases hcdr : change.apply d.cdr with
      | error err =>
        rw [hcdr] at happly
        cases happly
      | ok c =>
        rw [hcdr] at happly
        cases happly
        refine ⟨rfl, ?_, rfl, ?_⟩
        · exact congrArg hourOf (change.startTime _ _ hcdr)
        · simpa [CallRow.final] using change.final _ _ hcdr
    constructor
    · rw [map_updateWhere (fun d d' happly => (hchange d d' happly).1) hrun]
      exact h.calls
    · intro d' hd'
      rcases mem_updateWhere hrun hd' with hd | ⟨d, hd, hcond, happly⟩
      · exact h.stamped d' hd
      · obtain ⟨-, hhour, hstart, -⟩ := hchange d d' happly
        rw [hhour]
        refine .inr ⟨hstart, ?_⟩
        rcases h.stamped d hd with hold | ⟨-, hother⟩
        · refine ⟨_, hw, List.mem_map.mpr ⟨d, List.mem_filter.mpr ⟨hold, hcond⟩, rfl⟩⟩
        · exact hother
    · intro d hd
      obtain ⟨mid, hmid, hcall, hhour, hfinal⟩ := h.kept d hd
      rcases exists_updateWhere hrun hmid with hsame | ⟨d', hd', happly⟩
      · exact ⟨mid, hsame, hcall, hhour, hfinal⟩
      · obtain ⟨hcall', hhour', -, hfinal'⟩ := hchange mid d' happly
        exact ⟨d', hd', hcall'.trans hcall, hhour'.trans hhour, fun hd => hfinal' (hfinal hd)⟩

theorem written_of_foldlM (hcalls : (cdrs.map (·.callUUID)).Nodup)
    (h : writes.foldlM (Write.run start) cdrs = .ok cdrs') : Written start writes cdrs cdrs' := by
  refine foldlM_invariant (fun w hw table table' htable hrun => htable.run hw hrun) ?_ h
  exact ⟨hcalls, fun d hd => .inl hd, fun d hd => ⟨d, hd, rfl, rfl, fun hfinal => hfinal⟩⟩

/-- What was read stays explained when all that is written to its hour is
newer. -/
theorem Explained.written {b : Batch} (h : Explained cdrs b)
    (hwritten : Written start writes cdrs cdrs')
    (hlate : ∀ w ∈ writes, b.hour ∈ w.hours cdrs → b.computedAt < start) :
    Explained cdrs' b := by
  obtain ⟨seen, hseen, hrows, hreading⟩ := h
  refine ⟨seen, hseen, hrows, ?_, ?_⟩
  · intro d hd hhour hfinal
    rcases hwritten.stamped d hd with hold | ⟨hstart, w, hw, hwhour⟩
    · exact hreading.current d hold hhour hfinal
    · rw [hstart]
      exact .inr (hlate w hw (hhour ▸ hwhour))
  · intro d hd hhour hfinal
    obtain ⟨mid, hmid, hcall, hmidhour, hmidfinal⟩ := hreading.kept d hd hhour hfinal
    obtain ⟨d', hd', hcall', hhour', hfinal'⟩ := hwritten.kept mid hmid
    exact ⟨d', hd', hcall'.trans hcall, hhour'.trans hmidhour, hfinal' hmidfinal⟩

end Writes

section Invariant

variable {ι : Type} {s : State ι}

/-- Whatever is in the table, or about to be, is explained, and no key occurs
twice. -/
structure Sound (s : State ι) : Prop where
  calls : (s.cdrs.map (·.callUUID)).Nodup
  stats : ∀ b ∈ s.stats, Explained s.cdrs b
  pending : ∀ i, ∀ b ∈ (s.tasks i).pending, Explained s.cdrs b
  apart : s.stats.Pairwise (fun a b => a.clashes b = false)
  pendingApart : ∀ i, (s.tasks i).pending.Pairwise (fun a b => a.clashes b = false)

variable [DecidableEq ι] {i : ι}

theorem forall_pending_move {P : List Batch → Prop} {t : Task} (h : ∀ j, P (s.tasks j).pending)
    (ht : P t.pending) (j : ι) : P ((enter s i t).tasks j).pending :=
  forall_enter s (P := fun _ t => P t.pending) ht (fun j _ => h j) j

theorem Sound.move (hs : Sound s) {t : Task} (ht : t.pending = []) : Sound (enter s i t) where
  calls := hs.calls
  stats := hs.stats
  pending := forall_pending_move (P := fun l => ∀ b ∈ l, Explained s.cdrs b) hs.pending
    (by simp [ht])
  apart := hs.apart
  pendingApart :=
    forall_pending_move (P := List.Pairwise (fun a b => a.clashes b = false)) hs.pendingApart
      (by simp [ht])

theorem Sound.step (l : Label ι) (s s' : State ι) (hs : Sound s) (hok : InTime l s)
    (h : step l s = some s') : Sound s' := by
  cases l with
  | start i now | write i w | staleHours i now | delete i =>
    simp only [Reports.step] at h
    split at h
    · cases h
      exact hs.move rfl
    · cases h
  | begin i now =>
    simp only [Reports.step] at h
    split at h
    · rename_i hours hi
      cases h
      have hmoved := hs.move (i := i) (t := .opened s.nextTx now hours) rfl
      exact ⟨hmoved.calls, hmoved.stats, hmoved.pending, hmoved.apart, hmoved.pendingApart⟩
    · cases h
  | insert i =>
    simp only [Reports.step] at h
    split at h
    · split_ifs at h
      · cases h
        refine ⟨hs.calls, hs.stats, ?_, hs.apart, ?_⟩
        · apply forall_pending_move (P := fun l => ∀ b ∈ l, Explained s.cdrs b) hs.pending
          exact fun b hb => explained_batches hs.calls hb
        · exact forall_pending_move (P := List.Pairwise (fun a b => a.clashes b = false))
            hs.pendingApart batches_pairwise
      · cases h
        exact hs.move rfl
    · cases h
  | commit i =>
    simp only [Reports.step] at h
    split at h
    · rename_i start writes hi
      split at h
      · rename_i cdrs hwrites
        cases h
        have hwritten := written_of_foldlM hs.calls hwrites
        have hlate := hok (start, writes) (by rw [hi]; rfl)
        refine ⟨hwritten.calls, ?_, ?_, hs.apart, ?_⟩
        · intro b hb
          apply (hs.stats b hb).written hwritten
          exact fun w hw hhour => (hlate w hw _ hhour).1 b hb rfl
        · have hothers : ∀ j, ∀ b ∈ (s.tasks j).pending, Explained cdrs b := by
            intro j b hb
            apply (hs.pending j b hb).written hwritten
            exact fun w hw hhour => (hlate w hw _ hhour).2 j b hb rfl
          exact forall_pending_move (P := fun l => ∀ b ∈ l, Explained cdrs b) hothers
            (fun b hb => nomatch hb)
        · exact forall_pending_move (P := List.Pairwise (fun a b => a.clashes b = false))
            hs.pendingApart .nil
      · cases h
    · rename_i removed rows hi
      have hpending := hs.pending i
      have happart := hs.pendingApart i
      rw [hi] at hpending happart
      split_ifs at h with hclash
      cases h
      have hmoved := hs.move (i := i) (t := .done) rfl
      refine ⟨hs.calls, ?_, hmoved.pending, ?_, hmoved.pendingApart⟩
      · intro b hb
        rcases List.mem_append.mp hb with hb | hb
        · exact hs.stats b (List.mem_of_mem_filter hb)
        · exact hpending b hb
      · refine List.pairwise_append.mpr ⟨hs.apart.filter _, happart, ?_⟩
        intro a ha b hb
        rw [← Bool.not_eq_true]
        intro hab
        exact hclash (List.any_eq_true.mpr ⟨a, ha, List.any_eq_true.mpr ⟨b, hb, hab⟩⟩)
    · cases h
  | rollback i =>
    simp only [Reports.step] at h
    split at h
    all_goals first
      | cases h
        exact hs.move rfl
      | cases h

end Invariant

section Pass

variable {cdrs : List CallRow} {stats : List Batch}

theorem rows_nodup (hexplained : ∀ b ∈ stats, Explained cdrs b)
    (hapart : stats.Pairwise (fun a b => a.clashes b = false)) :
    (stats.flatMap (·.rows)).Nodup := by
  refine List.nodup_flatMap.mpr ⟨fun b hb => (hexplained b hb).rows_nodup.of_map _, ?_⟩
  apply hapart.imp
  intro a b hab g ha hb
  have hclash : a.clashes b = true := clashes_iff.mpr ⟨g, ha, g, hb, rfl⟩
  rw [hab] at hclash
  cases hclash

theorem mem_staleHours {now : Time} {d : CallRow} (hd : d ∈ cdrs) (hfinal : d.final = true)
    (hstale : stale stats d = true) : d.hour ∈ staleHours now cdrs stats := by
  apply List.mem_dedup.mpr
  apply List.mem_append_left
  exact List.mem_map_of_mem (List.mem_filter.mpr ⟨hd, by simp [hfinal, hstale]⟩)

theorem exact_of_not_stale (hcalls : (cdrs.map (·.callUUID)).Nodup) {now : Time} {b : Batch}
    (hb : b ∈ stats) (hexplained : Explained cdrs b) (hhour : b.hour ∉ staleHours now cdrs stats)
    {g : GroupKey × GroupFigures} :
    g ∈ b.rows ↔ g ∈ aggregate (cdrs.filter (·.hour = b.hour)) := by
  apply hexplained.exact hcalls
  intro d hd hsame hfinal
  by_contra hnewer
  apply hhour
  rw [← hsame]
  apply mem_staleHours hd hfinal
  have hjoined : stats.any (fun b => b.hour = d.hour && b.computedAt < d.updatedAt) = true :=
    List.any_eq_true.mpr ⟨b, hb, by simpa [hsame] using not_le.mp hnewer⟩
  simp [stale, hjoined]

theorem exists_of_not_stale {now : Time} {d : CallRow} (hd : d ∈ cdrs) (hfinal : d.final = true)
    (hhour : d.hour ∉ staleHours now cdrs stats) : ∃ b ∈ stats, b.hour = d.hour := by
  by_contra hnone
  push Not at hnone
  apply hhour
  apply mem_staleHours hd hfinal
  have hmissing : stats.any (·.hour = d.hour) = false :=
    List.any_eq_false.mpr (fun b hb => by simpa using hnone b hb)
  simp [stale, hmissing]

variable {ι : Type} [DecidableEq ι] {s final : State ι} {i : ι} {now later : Time}

theorem once_spec (hs : Sound s) (h : trace step (once i now later) s = some final) :
    Sound final ∧ final.cdrs = s.cdrs ∧ ∃ xmin, final.stats =
      s.stats.filter (·.hour ∉ staleHours now s.cdrs s.stats) ++
        batches xmin later (staleHours now s.cdrs s.stats) s.cdrs := by
  obtain ⟨s₁, h₁, h⟩ := trace_cons_some h
  obtain ⟨s₂, h₂, h⟩ := trace_cons_some h
  obtain ⟨s₃, h₃, h⟩ := trace_cons_some h
  obtain ⟨s₄, h₄, h⟩ := trace_cons_some h
  obtain ⟨s₅, h₅, h⟩ := trace_cons_some h
  cases h
  have hs₁ := Sound.step (.staleHours i now) s s₁ hs trivial h₁
  have hs₂ := Sound.step (.begin i later) s₁ s₂ hs₁ trivial h₂
  have hs₃ := Sound.step (.delete i) s₂ s₃ hs₂ trivial h₃
  have hs₄ := Sound.step (.insert i) s₃ s₄ hs₃ trivial h₄
  simp only [Reports.step] at h₁
  split at h₁
  · cases h₁
    simp only [Reports.step, enter, Phased.withPhases, Phased.phase, Function.update_self,
      Option.some.injEq] at h₂
    subst h₂
    simp only [Reports.step, enter, Phased.withPhases, Phased.phase, Function.update_self,
      Option.some.injEq] at h₃
    subst h₃
    simp only [Reports.step, enter, Phased.withPhases, Phased.phase, Function.update_self] at h₄
    split_ifs at h₄
    · cases h₄
      have hs₅ := Sound.step _ _ _ hs₄ (by simp [InTime, Task.transaction]) h₅
      simp only [Reports.step, enter, Phased.withPhases, Phased.phase, Function.update_self] at h₅
      split_ifs at h₅
      cases h₅
      refine ⟨hs₅, rfl, s.nextTx, congrArg (· ++ _) (List.filter_congr ?_)⟩
      intro b hb
      simp [hb]
    · cases h₄
      simp [Reports.step] at h₅
  · cases h₁

/-- In every interleaving of transactions on call records and passes in which
no record is committed to an hour that a pass has computed which did not begin
before the transaction, one further pass makes the table what computing it from
scratch would. -/
theorem rollup_eq_recomputation (cdrs : List CallRow) (labels : List (Label ι)) (s final : State ι)
    (i : ι) (now later : Time) (hcalls : (cdrs.map (·.callUUID)).Nodup)
    (hok : Along step InTime labels (.quiet cdrs))
    (hrun : trace step labels (.quiet cdrs) = some s)
    (hpass : trace step (once i now later) s = some final) :
    (final.stats.flatMap (·.rows)).Perm (aggregate final.cdrs) := by
  have hstart : Sound (.quiet cdrs : State ι) :=
    ⟨hcalls, fun _ => (nomatch ·), fun _ _ => (nomatch ·), .nil, fun _ => .nil⟩
  have hs := invariant_of_along Sound.step hstart hok hrun
  obtain ⟨hfinal, hcdrs, xmin, hstats⟩ := once_spec hs hpass
  have hnodup := rows_nodup hfinal.stats hfinal.apart
  apply (List.perm_ext_iff_of_nodup hnodup (aggregate_nodup.of_map _)).mpr
  intro g
  rw [hcdrs, hstats, List.mem_flatMap]
  constructor
  · rintro ⟨b, hb, hg⟩
    rcases List.mem_append.mp hb with hb | hb
    · obtain ⟨hb, hhour⟩ := List.mem_filter.mp hb
      have hexact := (exact_of_not_stale hs.calls hb (hs.stats b hb) (by simpa using hhour)).mp hg
      exact (mem_aggregate_hour.mp hexact).1
    · rw [(mem_batches hb).2] at hg
      exact (mem_aggregate_hour.mp hg).1
  · intro hg
    by_cases hlisted : g.1.hour ∈ staleHours now s.cdrs s.stats
    · obtain ⟨b, hb, hmem⟩ := exists_batch hg hlisted
      exact ⟨b, List.mem_append_right _ hb, hmem⟩
    · obtain ⟨d, hd, hdfinal, hdhour⟩ := exists_of_mem_aggregate hg
      rw [← hdhour] at hlisted
      obtain ⟨b, hb, hbhour⟩ := exists_of_not_stale hd hdfinal hlisted
      rw [← hbhour] at hlisted
      refine ⟨b, List.mem_append_left _ (List.mem_filter.mpr ⟨hb, by simpa using hlisted⟩), ?_⟩
      apply (exact_of_not_stale hs.calls hb (hs.stats b hb) hlisted).mpr
      exact mem_aggregate_hour.mpr ⟨hg, (hbhour.trans hdhour).symm⟩

end Pass

section Sample

/-- A call of the first hour that failed. -/
def sampleCall : CDR := { startTime := 1, disposition := .failed }

/-- Two calls are recorded, the second one still pending. -/
def sampleSetups : List (Label (Fin 4)) :=
  [.start 0 3, .write 0 (.insertSetup 1 sampleCall), .write 0 (.insertSetup 2 { startTime := 1 }),
    .commit 0]

def sampleFinalize : Write := .update [2] (.finalize sampleCall (by decide))

/-- The second call is finalized by a transaction that begins after a pass. -/
def sampleOrder : List (Label (Fin 4)) :=
  sampleSetups ++ once 1 10 11 ++ [.start 2 20, .write 2 sampleFinalize, .commit 2]

/-- It is finalized by one that has begun before the pass. -/
def sampleOverlap : List (Label (Fin 4)) :=
  sampleSetups ++ [.start 2 4] ++ once 1 10 11 ++ [.write 2 sampleFinalize, .commit 2]

theorem rollup_eq_recomputation_sampleOrder :
    ∃ s final, trace step sampleOrder (.quiet []) = some s ∧
      trace step (once 3 (3 * hourLength) (3 * hourLength)) s = some final ∧
      final.stats.map (fun b => (b.hour, b.rows.map (·.2.calls))) = [(0, [2])] ∧
      (final.stats.flatMap (·.rows)).Perm (aggregate final.cdrs) := by
  have hrun : ((trace step sampleOrder (.quiet [])).bind
      (trace step (once 3 (3 * hourLength) (3 * hourLength)))).map (fun s =>
        s.stats.map (fun b => (b.hour, b.rows.map (·.2.calls)))) = some [(0, [2])] := by
    decide +kernel
  obtain ⟨final, hboth, hrows⟩ := Option.map_eq_some_iff.mp hrun
  obtain ⟨s, hs, hfinal⟩ := Option.bind_eq_some_iff.mp hboth
  exact ⟨s, final, hs, hfinal, hrows, rollup_eq_recomputation [] sampleOrder s final 3 _ _
    List.nodup_nil (by decide +kernel) hs hfinal⟩

theorem rollup_misses_call :
    ∃ s final, trace step sampleOverlap (.quiet []) = some s ∧
      (∀ j, (s.tasks j).transaction = none) ∧
      trace step (once 3 (3 * hourLength) (3 * hourLength)) s = some final ∧
      (final.stats.flatMap (·.rows)).map (·.2.calls) = [1] ∧
      (aggregate final.cdrs).map (·.2.calls) = [2] ∧
      ¬ (final.stats.flatMap (·.rows)).Perm (aggregate final.cdrs) := by
  have hrun : (trace step sampleOverlap (.quiet [])).map (fun s =>
      (decide (∀ j, (s.tasks j).transaction.isNone = true),
        (trace step (once 3 (3 * hourLength) (3 * hourLength)) s).map (fun s' =>
          ((s'.stats.flatMap (·.rows)).map (·.2.calls), (aggregate s'.cdrs).map (·.2.calls))))) =
      some (true, some ([1], [2])) := by
    decide +kernel
  obtain ⟨s, hs, hsame⟩ := Option.map_eq_some_iff.mp hrun
  obtain ⟨hquiet, hpass⟩ := Prod.mk.inj hsame
  obtain ⟨final, hfinal, hcalls⟩ := Option.map_eq_some_iff.mp hpass
  obtain ⟨hstats, haggregate⟩ := Prod.mk.inj hcalls
  refine ⟨s, final, hs, ?_, hfinal, hstats, haggregate, ?_⟩
  · exact fun j => Option.isNone_iff_eq_none.mp (of_decide_eq_true hquiet j)
  · intro hperm
    have hmapped := hperm.map (fun g => g.2.calls)
    rw [hstats, haggregate] at hmapped
    revert hmapped
    decide

end Sample

end SuperSbc.Reports
