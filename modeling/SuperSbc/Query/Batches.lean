import Mathlib.Data.Finset.Card
import Mathlib.Tactic

/-!
`ORDER BY … LIMIT n` as a work list that is fetched again and again. The rows
of a batch are worked off, except those that have to be skipped; a skipped row
stays in the table and comes up in the next batch. How fast a part of the table
that sorts first is worked off then depends on the room its skipped rows leave
in a batch.
-/

namespace SuperSbc.Query

variable {Row Key : Type} [LinearOrder Key] {key : Row → Key} {rows : Row → Prop} {limit : ℕ}
  {batch : List Row}

/-- A result of the query over the rows of a table. Rows with one key may come
in any order. -/
structure Batch (key : Row → Key) (rows : Row → Prop) (limit : ℕ) (batch : List Row) : Prop where
  nodup : batch.Nodup
  mem : ∀ row ∈ batch, rows row
  sorted : batch.Pairwise (fun a b => key a ≤ key b)
  short : batch.length ≤ limit
  earliest : ∀ row, rows row → row ∉ batch → batch.length = limit ∧ ∀ b ∈ batch, key b ≤ key row

/-- Rows of a table that sort before all its other rows. -/
structure SortsFirst (key : Row → Key) (rows : Row → Prop) (front : Finset Row) : Prop where
  mem : ∀ row ∈ front, rows row
  before : ∀ row ∈ front, ∀ other, rows other → other ∉ front → key row < key other

variable [DecidableEq Row] {front last : Finset Row} {skip : Row → Prop} [DecidablePred skip]

/-- A batch that leaves out a row of the front is a full batch of the front. -/
theorem Batch.subset_front (h : Batch key rows limit batch) (hfront : SortsFirst key rows front)
    {row : Row} (hrow : row ∈ front) (hout : row ∉ batch) :
    batch.toFinset ⊆ front ∧ batch.toFinset.card = limit := by
  obtain ⟨hfull, hlate⟩ := h.earliest row (hfront.mem row hrow) hout
  constructor
  · intro b hb
    have hmem := List.mem_toFinset.mp hb
    by_contra hother
    exact absurd (hlate b hmem) (not_le.mpr (hfront.before row hrow b (h.mem b hmem) hother))
  · rw [List.toFinset_card_of_nodup h.nodup, hfull]

/-- With a whole batch of rows in front, no other row ever comes up. -/
theorem Batch.mem_front (h : Batch key rows limit batch) (hfront : SortsFirst key rows front)
    (hfull : limit ≤ front.card) {row : Row} (hrow : row ∈ batch) : row ∈ front := by
  by_contra hother
  by_cases hcovered : ∀ a ∈ front, a ∈ batch
  · have hsub : insert row front ⊆ batch.toFinset := by
      intro a ha
      rcases Finset.mem_insert.mp ha with rfl | ha
      · exact List.mem_toFinset.mpr hrow
      · exact List.mem_toFinset.mpr (hcovered a ha)
    have hcount := Finset.card_le_card hsub
    rw [Finset.card_insert_of_notMem hother, List.toFinset_card_of_nodup h.nodup] at hcount
    have hshort := h.short
    omega
  · obtain ⟨a, ha, hout⟩ : ∃ a ∈ front, a ∉ batch := by simpa using hcovered
    exact hother ((h.subset_front hfront ha hout).1 (List.mem_toFinset.mpr hrow))

/-- The rows of the front that are not worked off with a batch. -/
def leftOver (skip : Row → Prop) [DecidablePred skip] (batch : List Row) (front : Finset Row) :
    Finset Row :=
  front.filter (fun row => skip row ∨ row ∉ batch)

theorem mem_leftOver {row : Row} :
    row ∈ leftOver skip batch front ↔ row ∈ front ∧ (skip row ∨ row ∉ batch) :=
  Finset.mem_filter

variable (skip) in
theorem Batch.remaining_le (h : Batch key rows limit batch) (hfront : SortsFirst key rows front) :
    ((leftOver skip batch front).filter (fun row => ¬ skip row)).card ≤
      (front.filter (fun row => ¬ skip row)).card - (limit - (front.filter skip).card) := by
  have hleft : (leftOver skip batch front).filter (fun row => ¬ skip row) =
      (front.filter (fun row => ¬ skip row)) \ batch.toFinset := by
    ext row
    simp only [mem_leftOver, Finset.mem_filter, Finset.mem_sdiff, List.mem_toFinset]
    tauto
  rw [hleft]
  by_cases hcovered : ∀ row ∈ front, row ∈ batch
  · have hnone : (front.filter (fun row => ¬ skip row)) \ batch.toFinset = ∅ := by
      refine Finset.sdiff_eq_empty_iff_subset.mpr (fun row hrow => ?_)
      exact List.mem_toFinset.mpr (hcovered row (Finset.mem_filter.mp hrow).1)
    rw [hnone, Finset.card_empty]
    exact Nat.zero_le _
  · obtain ⟨row, hrow, hout⟩ : ∃ row ∈ front, row ∉ batch := by simpa using hcovered
    obtain ⟨hsub, hfull⟩ := h.subset_front hfront hrow hout
    -- of the full batch, at most all skipped rows of the front are not worked off
    have hskipped : (batch.toFinset.filter skip).card ≤ (front.filter skip).card :=
      Finset.card_le_card (Finset.filter_subset_filter _ hsub)
    have hsplit := Finset.card_filter_add_card_filter_not (s := batch.toFinset) skip
    have hworked : batch.toFinset.filter (fun row => ¬ skip row) ⊆
        (front.filter (fun row => ¬ skip row)) ∩ batch.toFinset := by
      intro b hb
      obtain ⟨hmem, hb⟩ := Finset.mem_filter.mp hb
      exact Finset.mem_inter.mpr ⟨Finset.mem_filter.mpr ⟨hsub hmem, hb⟩, hmem⟩
    have hcount := Finset.card_le_card hworked
    have hrest := Finset.card_sdiff_add_card_inter (front.filter (fun row => ¬ skip row))
      batch.toFinset
    omega

/-- The front after some batches of a table that only loses rows of the front
when they are worked off. -/
inductive Drains (key : Row → Key) (limit : ℕ) (skip : Row → Prop) [DecidablePred skip] :
    ℕ → Finset Row → Finset Row → Prop where
  | done (front : Finset Row) : Drains key limit skip 0 front front
  | batch {n : ℕ} {front last : Finset Row} {rows : Row → Prop} {batch : List Row}
      (hbatch : Batch key rows limit batch) (hfront : SortsFirst key rows front)
      (rest : Drains key limit skip n (leftOver skip batch front) last) :
      Drains key limit skip (n + 1) front last

/-- Every batch takes as much off the work as the skipped rows leave room
for. -/
theorem Drains.remaining_le {n : ℕ} (h : Drains key limit skip n front last) :
    (last.filter (fun row => ¬ skip row)).card ≤
      (front.filter (fun row => ¬ skip row)).card - n * (limit - (front.filter skip).card) := by
  induction h with
  | done front => simp
  | @batch n front last rows batch hbatch hfront _ ih =>
    have hskipped : (leftOver skip batch front).filter skip = front.filter skip := by
      ext row
      simp only [mem_leftOver, Finset.mem_filter]
      tauto
    have hstep := hbatch.remaining_le skip hfront
    rw [hskipped] at ih
    rw [Nat.succ_mul]
    omega

end SuperSbc.Query
