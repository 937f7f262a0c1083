import Mathlib.Data.List.Sort
import Mathlib.Data.Stream.Init
import Mathlib.Tactic

/-!
Weighted random draws from a list. A source of random numbers is the sequence
of numbers its draws are made from, so that a statement about every source is
one about every outcome. Sums of weights are 64 bit integers and wrap around.
-/

namespace SuperSbc.Random

variable {weights : List ℤ}

abbrev Source := Stream' ℕ

/-- A number from zero up to, and without, a positive bound. -/
def intn (bound : ℤ) (src : Source) : ℤ × Source := (src.head % bound, src.tail)

theorem intn_nonneg {bound : ℤ} (h : 0 < bound) (src : Source) : 0 ≤ (intn bound src).1 :=
  Int.emod_nonneg _ h.ne'

theorem intn_lt {bound : ℤ} (h : 0 < bound) (src : Source) : (intn bound src).1 < bound :=
  Int.emod_lt_of_pos _ h

/-- A sum in 64 bits. -/
def total (weights : List ℤ) : ℤ := weights.sum.bmod (2 ^ 64)

theorem total_le_sum (hnonneg : 0 ≤ weights.sum) (hpos : 0 < total weights) :
    total weights ≤ weights.sum := by
  unfold total at hpos ⊢
  rw [Int.bmod_def] at hpos ⊢
  push_cast at hpos ⊢
  split_ifs at hpos ⊢ <;> omega

/-- The place a pick falls on, when the weights are taken off it one after the
other. -/
def place : List ℤ → ℤ → Option ℕ
  | [], _ => none
  | w :: ws, pick => if pick - w < 0 then some 0 else (place ws (pick - w)).map (· + 1)

theorem place_pos {pick : ℤ} {i : ℕ} (hpick : 0 ≤ pick) (h : place weights pick = some i) :
    ∃ w, weights[i]? = some w ∧ 0 < w := by
  induction weights generalizing pick i with
  | nil => cases h
  | cons w ws ih =>
    unfold place at h
    split_ifs at h with hfalls
    · obtain rfl := Option.some.inj h
      exact ⟨w, rfl, by omega⟩
    · obtain ⟨k, hk, rfl⟩ := Option.map_eq_some_iff.mp h
      obtain ⟨v, hv, hpos⟩ := ih (by omega) hk
      exact ⟨v, by simpa using hv, hpos⟩

theorem place_ne_none {pick : ℤ} (h : pick < weights.sum) (hpick : 0 ≤ pick) :
    place weights pick ≠ none := by
  induction weights generalizing pick with
  | nil =>
    rw [List.sum_nil] at h
    omega
  | cons w ws ih =>
    unfold place
    split_ifs with hfalls
    · exact Option.some_ne_none 0
    · rw [List.sum_cons] at h
      rw [ne_eq, Option.map_eq_none_iff]
      exact ih (by omega) (by omega)

/-- A number below the total, or zero where there is no source or no total to
draw below. -/
def pick (weights : List ℤ) (rnd : Option Source) : ℤ × Option Source :=
  match rnd with
  | none => (0, none)
  | some src =>
    if 0 < total weights then
      ((intn (total weights) src).1, some (intn (total weights) src).2)
    else (0, some src)

section Shuffle

variable {α : Type} (weight : α → ℤ)

/-- One element of a list after the other, each drawn by its weight among those
that are left. The first argument bounds the number of rounds. -/
def shuffle : ℕ → List α → Option Source → List α × Option Source
  | 0, _, rnd => ([], rnd)
  | _ + 1, [], rnd => ([], rnd)
  | rounds + 1, a :: rest, rnd =>
    let weights := (a :: rest).map weight
    let drawn := pick weights rnd
    let chosen := (place weights drawn.1).getD 0
    let later := shuffle rounds ((a :: rest).eraseIdx chosen) drawn.2
    (((a :: rest)[chosen]?).getD a :: later.1, later.2)

variable {weight}

theorem getD_cons_eraseIdx_perm (a : α) (rest : List α) (i : ℕ) (hi : i < (a :: rest).length) :
    (((a :: rest)[i]?).getD a :: (a :: rest).eraseIdx i).Perm (a :: rest) := by
  rw [List.getElem?_eq_getElem hi, Option.getD_some]
  exact List.getElem_cons_eraseIdx_perm hi

theorem place_lt_length {weights : List ℤ} {pick : ℤ} {i : ℕ} (h : place weights pick = some i) :
    i < weights.length := by
  induction weights generalizing pick i with
  | nil => cases h
  | cons w ws ih =>
    unfold place at h
    split_ifs at h with hfalls
    · obtain rfl := Option.some.inj h
      exact Nat.succ_pos _
    · obtain ⟨k, hk, rfl⟩ := Option.map_eq_some_iff.mp h
      exact Nat.succ_lt_succ (ih hk)

theorem chosen_lt_length {weights : List ℤ} (hne : weights ≠ []) (pick : ℤ) :
    (place weights pick).getD 0 < weights.length := by
  cases hplace : place weights pick with
  | none => exact List.length_pos_iff.mpr hne
  | some i => exact place_lt_length hplace

theorem shuffle_perm (rounds : ℕ) (l : List α) (rnd : Option Source) (hrounds : l.length ≤ rounds) :
    (shuffle weight rounds l rnd).1.Perm l := by
  induction rounds generalizing l rnd with
  | zero =>
    obtain rfl := List.length_eq_zero_iff.mp (Nat.le_zero.mp hrounds)
    exact .nil
  | succ rounds ih =>
    cases l with
    | nil => exact .nil
    | cons a rest =>
      unfold shuffle
      dsimp only
      generalize pick ((a :: rest).map weight) rnd = drawn
      have hchosen : (place ((a :: rest).map weight) drawn.1).getD 0 < (a :: rest).length := by
        rw [← List.length_map (f := weight)]
        exact chosen_lt_length (by simp) _
      have hlength : ((a :: rest).eraseIdx
          ((place ((a :: rest).map weight) drawn.1).getD 0)).length ≤ rounds := by
        rw [List.length_eraseIdx_of_lt hchosen]
        exact Nat.sub_le_of_le_add hrounds
      exact ((ih _ drawn.2 hlength).cons _).trans (getD_cons_eraseIdx_perm a rest _ hchosen)

end Shuffle

end SuperSbc.Random
