import Mathlib.Data.String.Basic
import SuperSbc.Model
import SuperSbc.Query.Selection

/-!
The table `rates` as its two lookups see it: rows with the columns the queries
select on, and the keys the schema enforces.
-/

namespace SuperSbc.Store

open Query

variable {row : DeckRow}

/-- A row of `rates` with its validity. -/
structure DeckRow extends RateRow where
  effectiveFrom : Time
  effectiveTo : Option Time
  enabled : Bool
  dialPrefix_nonempty : dialPrefix.toList ≠ []
  dialPrefix_digits : ∀ c ∈ dialPrefix.toList, c.isDigit
deriving DecidableEq

/-- `UNIQUE (rate_group_id, prefix, effective_from)`. -/
def DeckRow.key (row : DeckRow) : UUID × String × Time :=
  (row.rateGroupId, row.dialPrefix, row.effectiveFrom)

structure RatesTable where
  rows : List DeckRow
  unique : (rows.map DeckRow.key).Nodup

/-- The condition on group, flag and dates that both queries have. -/
def DeckRow.inEffect (group : UUID) (at_ : Time) (row : DeckRow) : Bool :=
  row.rateGroupId = group && row.enabled && row.effectiveFrom ≤ at_ &&
    row.effectiveTo.all (at_ < ·)

/-- `ORDER BY prefix, effective_from DESC`. -/
def DeckRow.byPrefix (row : DeckRow) : String ×ₗ Timeᵒᵈ :=
  toLex (row.dialPrefix, OrderDual.toDual row.effectiveFrom)

/-- `ORDER BY length(prefix) DESC, effective_from DESC`. -/
def DeckRow.byLength (row : DeckRow) : ℕᵒᵈ ×ₗ Timeᵒᵈ :=
  toLex (OrderDual.toDual row.dialPrefix.length, OrderDual.toDual row.effectiveFrom)

def RatesTable.effectiveRates (t : RatesTable) (group : UUID) (at_ : Time) : List DeckRow :=
  distinctOn (·.dialPrefix) (orderBy DeckRow.byPrefix (t.rows.filter (DeckRow.inEffect group at_)))

/-- `none` is `ErrNotFound`. -/
def RatesTable.longestPrefixSQL (t : RatesTable) (group : UUID) (number : String) (at_ : Time) :
    Option DeckRow :=
  first DeckRow.byLength (t.rows.filter (fun row =>
    row.inEffect group at_ && like number.toList (row.dialPrefix ++ "%").toList))

variable {t : RatesTable} {group : UUID} {at_ : Time} {number : String}

theorem DeckRow.group_of_inEffect (h : row.inEffect group at_ = true) :
    row.rateGroupId = group := by
  simp only [DeckRow.inEffect, Bool.and_eq_true, decide_eq_true_eq] at h
  exact h.1.1.1

theorem DeckRow.like_dialPrefix (row : DeckRow) :
    like number.toList (row.dialPrefix ++ "%").toList = true ↔
      row.dialPrefix.toList <+: number.toList := by
  rw [String.toList_append]
  refine like_front (fun c hc => ?_) _
  have hdigit := row.dialPrefix_digits c hc
  refine ⟨?_, ?_, ?_⟩ <;> (rintro rfl; revert hdigit; decide)

theorem RatesTable.mem_effectiveRates :
    row ∈ t.effectiveRates group at_ ↔ row ∈ t.rows ∧ row.inEffect group at_ ∧
      ∀ other ∈ t.rows, other.inEffect group at_ → other.dialPrefix = row.dialPrefix →
        other.effectiveFrom ≤ row.effectiveFrom := by
  have hsorted := orderBy_pairwise DeckRow.byPrefix (t.rows.filter (DeckRow.inEffect group at_))
  have hin : ∀ r, r ∈ orderBy DeckRow.byPrefix (t.rows.filter (DeckRow.inEffect group at_)) ↔
      r ∈ t.rows ∧ r.inEffect group at_ = true :=
    fun r => mem_orderBy.trans List.mem_filter
  have hlatest : ∀ kept ∈ t.effectiveRates group at_, ∀ other ∈ t.rows,
      other.inEffect group at_ → other.dialPrefix = kept.dialPrefix →
        other.effectiveFrom ≤ kept.effectiveFrom := by
    intro kept hkept other hother heffect hsame
    rcases distinctOn_before hsorted hkept ((hin other).mpr ⟨hother, heffect⟩) hsame with
      rfl | hbefore
    · exact le_rfl
    · rcases Prod.Lex.le_iff.mp hbefore with hlt | ⟨-, hle⟩
      · exact absurd hsame (ne_of_gt hlt)
      · exact hle
  constructor
  · intro hmem
    obtain ⟨hrow, heffect⟩ := (hin row).mp (mem_of_distinctOn hmem)
    exact ⟨hrow, heffect, hlatest row hmem⟩
  · rintro ⟨hrow, heffect, hlast⟩
    obtain ⟨kept, hkept, hsame⟩ := exists_distinctOn (·.dialPrefix) ((hin row).mpr ⟨hrow, heffect⟩)
    obtain ⟨hkeptRow, hkeptEffect⟩ := (hin kept).mp (mem_of_distinctOn hkept)
    have hdate := le_antisymm (hlast kept hkeptRow hkeptEffect hsame)
      (hlatest kept hkept row hrow heffect hsame.symm)
    have hkey : kept.key = row.key := by
      unfold DeckRow.key
      rw [DeckRow.group_of_inEffect hkeptEffect, DeckRow.group_of_inEffect heffect, hsame, hdate]
    rw [← List.inj_on_of_nodup_map t.unique hkeptRow hrow hkey]
    exact hkept

/-- What the reference query finds: a row in effect whose prefix begins the
number, no shorter than any other and of its length none later. -/
theorem RatesTable.mem_of_longestPrefixSQL (h : t.longestPrefixSQL group number at_ = some row) :
    row ∈ t.rows ∧ row.inEffect group at_ ∧ row.dialPrefix.toList <+: number.toList ∧
      ∀ other ∈ t.rows, other.inEffect group at_ → other.dialPrefix.toList <+: number.toList →
        other.dialPrefix.length ≤ row.dialPrefix.length ∧
          (other.dialPrefix.length = row.dialPrefix.length →
            other.effectiveFrom ≤ row.effectiveFrom) := by
  have hcandidate : ∀ r, r ∈ t.rows.filter (fun row =>
      row.inEffect group at_ && like number.toList (row.dialPrefix ++ "%").toList) ↔
      r ∈ t.rows ∧ r.inEffect group at_ = true ∧ r.dialPrefix.toList <+: number.toList := by
    intro r
    rw [List.mem_filter, Bool.and_eq_true, DeckRow.like_dialPrefix]
  obtain ⟨hrow, heffect, hfront⟩ := (hcandidate row).mp (mem_of_first h)
  refine ⟨hrow, heffect, hfront, fun other hother hin hbegins => ?_⟩
  rcases Prod.Lex.le_iff.mp (first_le h ((hcandidate other).mpr ⟨hother, hin, hbegins⟩)) with
    hlonger | ⟨heq, hlater⟩
  · have hlt : other.dialPrefix.length < row.dialPrefix.length := hlonger
    exact ⟨hlt.le, fun hsame => absurd hsame hlt.ne⟩
  · have hsame : row.dialPrefix.length = other.dialPrefix.length := heq
    exact ⟨hsame.ge, fun _ => hlater⟩

theorem RatesTable.longestPrefixSQL_none (h : t.longestPrefixSQL group number at_ = none)
    (hrow : row ∈ t.rows) (heffect : row.inEffect group at_) :
    ¬ row.dialPrefix.toList <+: number.toList := by
  intro hfront
  have hnil := first_eq_none.mp h
  refine List.filter_eq_nil_iff.mp hnil row hrow ?_
  rw [Bool.and_eq_true]
  exact ⟨heffect, row.like_dialPrefix.mpr hfront⟩

end SuperSbc.Store
