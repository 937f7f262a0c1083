import Mathlib.Algebra.BigOperators.Group.Finset.Basic
import Mathlib.Logic.Function.Basic
import Mathlib.Tactic

/-!
Committed data of a relational store as a transaction at READ COMMITTED sees
it: keyed rows, finitely many of them present, and one append-only log. A row
has its own type for each key, so several tables live in one store and a key
of one table can never be read as a row of another.

Nothing here knows about transactions or about a particular schema.
-/

namespace SuperSbc.ReadCommitted

/-- Keyed rows and an append-only log. `keys` is exactly the set of present
rows, so sums over a table are finite sums. -/
@[ext]
structure Database (Key : Type) (Row : Key → Type) (Entry : Type) where
  row : (key : Key) → Option (Row key)
  keys : Finset Key
  mem_keys : ∀ key, key ∈ keys ↔ (row key).isSome = true
  log : List Entry

/-- One change to the data: a row written or removed, or a log line. -/
inductive Effect (Key : Type) (Row : Key → Type) (Entry : Type) where
  | set (key : Key) (value : Option (Row key))
  | push (entry : Entry)

variable {Key : Type} {Row : Key → Type} {Entry : Type}

/-- The key an effect writes, when it writes one. -/
def Effect.touches (key : Key) : Effect Key Row Entry → Prop
  | .set written _ => written = key
  | .push _ => False

namespace Database

def empty : Database Key Row Entry where
  row _ := none
  keys := ∅
  mem_keys := by simp
  log := []

def push (db : Database Key Row Entry) (entry : Entry) : Database Key Row Entry :=
  { db with log := db.log ++ [entry] }

@[simp] theorem row_push (db : Database Key Row Entry) (entry : Entry) (key : Key) :
    (db.push entry).row key = db.row key := rfl

@[simp] theorem log_push (db : Database Key Row Entry) (entry : Entry) :
    (db.push entry).log = db.log ++ [entry] := rfl

section Totals

variable {M : Type} [AddCommGroup M]

/-- What one cell of the store contributes to a sum. -/
def cell (weight : (key : Key) → Row key → M) (key : Key) : Option (Row key) → M
  | none => 0
  | some row => weight key row

@[simp] theorem cell_none (weight : (key : Key) → Row key → M) (key : Key) :
    cell weight key none = 0 := rfl

@[simp] theorem cell_some (weight : (key : Key) → Row key → M) (key : Key) (row : Row key) :
    cell weight key (some row) = weight key row := rfl

/-- `SELECT SUM(weight)` over all present rows. -/
def total (db : Database Key Row Entry) (weight : (key : Key) → Row key → M) : M :=
  ∑ key ∈ db.keys, cell weight key (db.row key)

@[simp] theorem total_push (db : Database Key Row Entry) (entry : Entry)
    (weight : (key : Key) → Row key → M) : (db.push entry).total weight = db.total weight := rfl

variable [PartialOrder M]

private theorem cell_nonneg (db : Database Key Row Entry) (weight : (key : Key) → Row key → M)
    (hnonneg : ∀ key row, db.row key = some row → 0 ≤ weight key row) (key : Key) :
    0 ≤ cell weight key (db.row key) := by
  cases hrow : db.row key with
  | none => simp
  | some value => exact hnonneg key value hrow

variable [IsOrderedAddMonoid M]

theorem weight_le_total (db : Database Key Row Entry) (weight : (key : Key) → Row key → M)
    (hnonneg : ∀ key row, db.row key = some row → 0 ≤ weight key row)
    (key : Key) (row : Row key) (hrow : db.row key = some row) :
    weight key row ≤ db.total weight := by
  have hmem : key ∈ db.keys := (db.mem_keys key).mpr (by simp [hrow])
  have hsingle := Finset.single_le_sum
    (fun other _ => cell_nonneg db weight hnonneg other) hmem
  simpa [total, hrow] using hsingle

end Totals

variable [DecidableEq Key]

def set (db : Database Key Row Entry) (key : Key) (value : Option (Row key)) :
    Database Key Row Entry where
  row := Function.update db.row key value
  keys := if value.isSome then insert key db.keys else db.keys.erase key
  mem_keys := by
    intro other
    by_cases hkey : other = key
    · subst hkey
      cases value <;> simp
    · cases value <;> simp [hkey, db.mem_keys other]
  log := db.log

@[simp] theorem row_set_self (db : Database Key Row Entry) (key : Key)
    (value : Option (Row key)) : (db.set key value).row key = value := by
  simp [set]

theorem row_set_of_ne (db : Database Key Row Entry) {key other : Key}
    (value : Option (Row key)) (hne : other ≠ key) :
    (db.set key value).row other = db.row other := by
  simp [set, hne]

@[simp] theorem log_set (db : Database Key Row Entry) (key : Key) (value : Option (Row key)) :
    (db.set key value).log = db.log := rfl

/-- Effects are listed newest first. -/
def apply (db : Database Key Row Entry) : List (Effect Key Row Entry) → Database Key Row Entry
  | [] => db
  | .set key value :: older => (db.apply older).set key value
  | .push entry :: older => (db.apply older).push entry

@[simp] theorem apply_nil (db : Database Key Row Entry) : db.apply [] = db := rfl

@[simp] theorem apply_set (db : Database Key Row Entry) (key : Key) (value : Option (Row key))
    (older : List (Effect Key Row Entry)) :
    db.apply (.set key value :: older) = (db.apply older).set key value := rfl

@[simp] theorem apply_push (db : Database Key Row Entry) (entry : Entry)
    (older : List (Effect Key Row Entry)) :
    db.apply (.push entry :: older) = (db.apply older).push entry := rfl

theorem row_apply_of_untouched (db : Database Key Row Entry) (key : Key)
    (effects : List (Effect Key Row Entry))
    (huntouched : ∀ effect ∈ effects, ¬ effect.touches key) :
    (db.apply effects).row key = db.row key := by
  induction effects with
  | nil => rfl
  | cons effect older ih =>
    have holder := ih (fun e he => huntouched e (List.mem_cons_of_mem _ he))
    have hhead := huntouched effect List.mem_cons_self
    cases effect with
    | set written value =>
      rw [apply_set, row_set_of_ne _ _ (fun h => hhead h.symm), holder]
    | push entry => rw [apply_push, row_push, holder]

theorem log_isPrefix_apply (db : Database Key Row Entry) (effects : List (Effect Key Row Entry)) :
    db.log <+: (db.apply effects).log := by
  induction effects with
  | nil => exact List.prefix_rfl
  | cons effect older ih =>
    cases effect with
    | set written value => simpa using ih
    | push entry => exact ih.trans (List.prefix_append _ _)

/-- Two stores that agree on a row still agree on it after the same effects. -/
theorem row_apply_congr (left right : Database Key Row Entry) (key : Key)
    (effects : List (Effect Key Row Entry)) (hrow : left.row key = right.row key) :
    (left.apply effects).row key = (right.apply effects).row key := by
  induction effects with
  | nil => exact hrow
  | cons effect older ih =>
    cases effect with
    | set written value =>
      by_cases hkey : key = written
      · subst hkey
        simp
      · rw [apply_set, apply_set, row_set_of_ne _ _ hkey, row_set_of_ne _ _ hkey, ih]
    | push entry => simpa using ih

/-- A list of effects leaves a row alone on every store, or leaves the same
row on every store. -/
theorem row_apply_cases (key : Key) (effects : List (Effect Key Row Entry)) :
    (∀ db : Database Key Row Entry, (db.apply effects).row key = db.row key) ∨
      ∃ row, ∀ db : Database Key Row Entry, (db.apply effects).row key = row := by
  induction effects with
  | nil => exact .inl (fun _ => rfl)
  | cons effect older ih =>
    cases effect with
    | set written value =>
      by_cases hkey : key = written
      · subst hkey
        exact .inr ⟨value, fun db => row_set_self _ _ _⟩
      · simp only [apply_set, row_set_of_ne _ _ hkey]
        exact ih
    | push entry => exact ih

section Totals

variable {M : Type} [AddCommGroup M]

private theorem sum_erase (db : Database Key Row Entry) (key : Key)
    (weight : (key : Key) → Row key → M) :
    (∑ other ∈ db.keys.erase key, cell weight other (db.row other)) =
      db.total weight - cell weight key (db.row key) := by
  unfold total
  by_cases hmem : key ∈ db.keys
  · rw [← Finset.sum_erase_add _ _ hmem]
    simp
  · have habsent : db.row key = none := by
      have hnot := mt (db.mem_keys key).mpr hmem
      simpa using hnot
    rw [Finset.erase_eq_of_notMem hmem, habsent]
    simp

/-- Writing one cell changes a total by the new cell minus the old one. -/
theorem total_set (db : Database Key Row Entry) (key : Key) (value : Option (Row key))
    (weight : (key : Key) → Row key → M) :
    (db.set key value).total weight =
      db.total weight - cell weight key (db.row key) + cell weight key value := by
  have hrest : ∀ other ∈ db.keys.erase key,
      cell weight other ((db.set key value).row other) = cell weight other (db.row other) := by
    intro other hother
    rw [row_set_of_ne _ _ (Finset.ne_of_mem_erase hother)]
  cases value with
  | none =>
    have hkeys : (db.set key none).keys = db.keys.erase key := by simp [set]
    unfold total
    rw [hkeys, Finset.sum_congr rfl hrest, sum_erase]
    simp [total]
  | some row =>
    have hkeys : (db.set key (some row)).keys = insert key (db.keys.erase key) := by
      ext other
      by_cases hother : other = key <;> simp [set, hother]
    unfold total
    rw [hkeys, Finset.sum_insert (Finset.notMem_erase key db.keys),
      Finset.sum_congr rfl hrest, sum_erase, row_set_self]
    simp only [total, cell_some]
    abel

end Totals

end Database

end SuperSbc.ReadCommitted
