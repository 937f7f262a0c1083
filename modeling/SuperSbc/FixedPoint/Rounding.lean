import Mathlib.Algebra.Order.Floor.Ring
import Mathlib.Data.Rat.Floor
import Mathlib.Tactic

/-!
Decimal rounding on exact rationals, half away from zero. This is the
rounding of arbitrary precision decimal packages and of SQL `numeric`
columns. Sums do not commute with it: `halfAway_int_add_of_nonneg` says for which
sums an integer can be pulled out, and `halfAway_int_add_of_neg` what a half
that stays below zero does instead.
-/

namespace SuperSbc.FixedPoint

/-- Nearest integer, halves away from zero. -/
def halfAway (x : ℚ) : ℤ :=
  if 0 ≤ x then ⌊x + 1 / 2⌋ else -⌊-x + 1 / 2⌋

/-- Nearest multiple of `10 ^ (-places)`, halves away from zero. -/
def roundTo (places : ℕ) (x : ℚ) : ℚ :=
  halfAway (x * 10 ^ places) / 10 ^ places

/-- A value that has at most `places` decimals. -/
def OnScale (places : ℕ) (x : ℚ) : Prop := roundTo places x = x

instance (places : ℕ) (x : ℚ) : Decidable (OnScale places x) :=
  inferInstanceAs (Decidable (roundTo places x = x))

theorem halfAway_of_nonneg {x : ℚ} (hx : 0 ≤ x) : halfAway x = ⌊x + 1 / 2⌋ := if_pos hx

theorem halfAway_of_nonpos {x : ℚ} (hx : x ≤ 0) : halfAway x = -⌊-x + 1 / 2⌋ := by
  rcases hx.lt_or_eq with hneg | rfl
  · exact if_neg (not_le.mpr hneg)
  · norm_num [halfAway]

@[simp] theorem halfAway_intCast (n : ℤ) : halfAway n = n := by
  have hhalf : ∀ m : ℤ, ⌊(m : ℚ) + 1 / 2⌋ = m := by
    intro m
    rw [Int.floor_intCast_add]
    norm_num
  rcases le_total 0 (n : ℚ) with hn | hn
  · rw [halfAway_of_nonneg hn, hhalf]
  · have hneg := hhalf (-n)
    push_cast at hneg
    rw [halfAway_of_nonpos hn, hneg, neg_neg]

theorem halfAway_neg (x : ℚ) : halfAway (-x) = -halfAway x := by
  rcases le_total 0 x with hx | hx
  · rw [halfAway_of_nonneg hx, halfAway_of_nonpos (by linarith), neg_neg]
  · rw [halfAway_of_nonpos hx, halfAway_of_nonneg (by linarith), neg_neg]

theorem halfAway_nonneg {x : ℚ} (hx : 0 ≤ x) : 0 ≤ halfAway x := by
  rw [halfAway_of_nonneg hx]
  exact Int.floor_nonneg.mpr (by linarith)

theorem halfAway_mono {x y : ℚ} (hxy : x ≤ y) : halfAway x ≤ halfAway y := by
  rcases le_total 0 x with hx | hx
  · rw [halfAway_of_nonneg hx, halfAway_of_nonneg (hx.trans hxy)]
    exact Int.floor_le_floor (by linarith)
  · rcases le_total 0 y with hy | hy
    · have hleft : 0 ≤ halfAway (-x) := halfAway_nonneg (by linarith)
      rw [halfAway_neg] at hleft
      have hright := halfAway_nonneg hy
      linarith
    · rw [halfAway_of_nonpos hx, halfAway_of_nonpos hy]
      exact neg_le_neg (Int.floor_le_floor (by linarith))

theorem abs_halfAway_sub_le (x : ℚ) : |(halfAway x : ℚ) - x| ≤ 1 / 2 := by
  rcases le_total 0 x with hx | hx
  · rw [halfAway_of_nonneg hx, abs_le]
    have hle := Int.floor_le (x + 1 / 2)
    have hlt := Int.lt_floor_add_one (x + 1 / 2)
    constructor <;> linarith
  · rw [halfAway_of_nonpos hx, abs_le]
    have hle := Int.floor_le (-x + 1 / 2)
    have hlt := Int.lt_floor_add_one (-x + 1 / 2)
    push_cast
    constructor <;> linarith

/-- A value exactly between two integers. -/
def IsTie (x : ℚ) : Prop := Int.fract x = 1 / 2

instance (x : ℚ) : Decidable (IsTie x) :=
  inferInstanceAs (Decidable (Int.fract x = 1 / 2))

/-- An integer can be pulled out of a rounded sum that does not cross zero. -/
theorem halfAway_int_add_of_nonneg (n : ℤ) {x : ℚ} (hx : 0 ≤ x) (hsum : 0 ≤ n + x) :
    halfAway (n + x) = n + halfAway x := by
  rw [halfAway_of_nonneg hsum, halfAway_of_nonneg hx, add_assoc, Int.floor_intCast_add]

/-- Below zero the other neighbour of a tie is taken, and only of a tie. -/
theorem halfAway_int_add_of_neg (n : ℤ) {x : ℚ} (hx : 0 ≤ x) (hsum : n + x < 0) :
    halfAway (n + x) = n + halfAway x - if IsTie x then 1 else 0 := by
  have hfract := Int.fract_nonneg x
  have hfract_lt := Int.fract_lt_one x
  have hsplit := Int.floor_add_fract x
  rw [halfAway_of_nonpos hsum.le, halfAway_of_nonneg hx]
  by_cases htie : IsTie x
  · rw [if_pos htie]
    have hhalf : Int.fract x = 1 / 2 := htie
    have hleft : ⌊-((n : ℚ) + x) + 1 / 2⌋ = -n - ⌊x⌋ := by
      rw [Int.floor_eq_iff]
      push_cast
      constructor <;> linarith
    have hright : ⌊x + 1 / 2⌋ = ⌊x⌋ + 1 := by
      rw [Int.floor_eq_iff]
      push_cast
      constructor <;> linarith
    rw [hleft, hright]
    ring
  · rw [if_neg htie]
    have hne : Int.fract x ≠ 1 / 2 := htie
    rcases lt_or_gt_of_ne hne with hlow | hhigh
    · have hleft : ⌊-((n : ℚ) + x) + 1 / 2⌋ = -n - ⌊x⌋ := by
        rw [Int.floor_eq_iff]
        push_cast
        constructor <;> linarith
      have hright : ⌊x + 1 / 2⌋ = ⌊x⌋ := by
        rw [Int.floor_eq_iff]
        constructor <;> linarith
      rw [hleft, hright]
      ring
    · have hleft : ⌊-((n : ℚ) + x) + 1 / 2⌋ = -n - ⌊x⌋ - 1 := by
        rw [Int.floor_eq_iff]
        push_cast
        constructor <;> linarith
      have hright : ⌊x + 1 / 2⌋ = ⌊x⌋ + 1 := by
        rw [Int.floor_eq_iff]
        push_cast
        constructor <;> linarith
      rw [hleft, hright]
      ring

section Scale

variable {places : ℕ} {x y : ℚ}

private theorem ten_pow_pos (places : ℕ) : (0 : ℚ) < 10 ^ places := by positivity

theorem onScale_iff : OnScale places x ↔ ∃ n : ℤ, x * 10 ^ places = n := by
  have hpos := ten_pow_pos places
  constructor
  · intro h
    refine ⟨halfAway (x * 10 ^ places), ?_⟩
    have hx : (halfAway (x * 10 ^ places) : ℚ) / 10 ^ places = x := h
    exact ((div_eq_iff hpos.ne').mp hx).symm
  · rintro ⟨n, hn⟩
    unfold OnScale roundTo
    rw [hn, halfAway_intCast, ← hn, mul_div_assoc, div_self hpos.ne', mul_one]

theorem roundTo_onScale (places : ℕ) (x : ℚ) : OnScale places (roundTo places x) := by
  refine onScale_iff.mpr ⟨halfAway (x * 10 ^ places), ?_⟩
  rw [roundTo, div_mul_cancel₀ _ (ten_pow_pos places).ne']

theorem OnScale.zero (places : ℕ) : OnScale places 0 :=
  onScale_iff.mpr ⟨0, by simp⟩

theorem OnScale.neg (hx : OnScale places x) : OnScale places (-x) := by
  obtain ⟨n, hn⟩ := onScale_iff.mp hx
  exact onScale_iff.mpr ⟨-n, by push_cast; linarith⟩

theorem OnScale.add (hx : OnScale places x) (hy : OnScale places y) :
    OnScale places (x + y) := by
  obtain ⟨n, hn⟩ := onScale_iff.mp hx
  obtain ⟨m, hm⟩ := onScale_iff.mp hy
  exact onScale_iff.mpr ⟨n + m, by push_cast; linarith⟩

theorem OnScale.sub (hx : OnScale places x) (hy : OnScale places y) :
    OnScale places (x - y) := by
  simpa [sub_eq_add_neg] using hx.add hy.neg

theorem OnScale.sum {l : List ℚ} (h : ∀ x ∈ l, OnScale places x) : OnScale places l.sum := by
  induction l with
  | nil => exact .zero places
  | cons x rest ih =>
    rw [List.sum_cons]
    exact (h x List.mem_cons_self).add (ih (fun y hy => h y (List.mem_cons_of_mem _ hy)))

theorem roundTo_nonneg (places : ℕ) (hx : 0 ≤ x) : 0 ≤ roundTo places x := by
  have hpos := ten_pow_pos places
  have hround := halfAway_nonneg (mul_nonneg hx hpos.le)
  exact div_nonneg (by exact_mod_cast hround) hpos.le

theorem roundTo_mono (places : ℕ) (hxy : x ≤ y) : roundTo places x ≤ roundTo places y := by
  have hpos := ten_pow_pos places
  have hround := halfAway_mono (mul_le_mul_of_nonneg_right hxy hpos.le)
  exact div_le_div_of_nonneg_right (by exact_mod_cast hround) hpos.le

theorem abs_roundTo_sub_le (places : ℕ) (x : ℚ) :
    |roundTo places x - x| ≤ 1 / (2 * 10 ^ places) := by
  have hpos := ten_pow_pos places
  have hround := abs_halfAway_sub_le (x * 10 ^ places)
  have heq : roundTo places x - x =
      ((halfAway (x * 10 ^ places) : ℚ) - x * 10 ^ places) / 10 ^ places := by
    unfold roundTo
    field_simp
  rw [heq, abs_div, abs_of_pos hpos, div_le_div_iff₀ hpos (by positivity)]
  nlinarith

/-- Rounding reaches a whole number from half a unit below it. -/
theorem intCast_le_roundTo_iff (places : ℕ) (n : ℤ) (hx : 0 ≤ x) :
    (n : ℚ) ≤ roundTo places x ↔ n - 1 / (2 * 10 ^ places) ≤ x := by
  have hpow := ten_pow_pos places
  have hscaled : 0 ≤ x * 10 ^ places := mul_nonneg hx hpow.le
  have hfloor : (n : ℚ) ≤ roundTo places x ↔ n * 10 ^ places ≤ x * 10 ^ places + 1 / 2 := by
    rw [roundTo, halfAway_of_nonneg hscaled, le_div_iff₀ hpow]
    have hcast : ((n * 10 ^ places : ℤ) : ℚ) = n * 10 ^ places := by push_cast; ring
    rw [← hcast, Int.cast_le, Int.le_floor]
  have hhalf : (x + 1 / (2 * 10 ^ places)) * 10 ^ places = x * 10 ^ places + 1 / 2 := by
    field_simp
  rw [hfloor, sub_le_iff_le_add, ← hhalf]
  exact mul_le_mul_iff_left₀ hpow

/-- A rounded sum against the sum of the rounded: they are the same unless the
sum is negative and the summand sits exactly between two multiples. -/
theorem roundTo_add_of_onScale (hy : OnScale places y) (hx : 0 ≤ x) :
    roundTo places (y + x) = y + roundTo places x -
      if IsTie (x * 10 ^ places) ∧ y + x < 0 then 1 / 10 ^ places else 0 := by
  obtain ⟨n, hn⟩ := onScale_iff.mp hy
  have hten := ten_pow_pos places
  have hy_eq : y = n / 10 ^ places := by
    rw [← hn, mul_div_cancel_right₀ _ hten.ne']
  have hscaled : 0 ≤ x * 10 ^ places := mul_nonneg hx hten.le
  unfold roundTo
  rw [add_mul, hn]
  by_cases hsum : y + x < 0
  · have hneg : n + x * 10 ^ places < 0 := by
      rw [← hn, ← add_mul]
      exact mul_neg_of_neg_of_pos hsum hten
    rw [halfAway_int_add_of_neg n hscaled hneg, hy_eq]
    by_cases htie : IsTie (x * 10 ^ places)
    · rw [if_pos htie, if_pos ⟨htie, hy_eq ▸ hsum⟩]
      push_cast
      ring
    · rw [if_neg htie, if_neg (fun h => htie h.1)]
      push_cast
      ring
  · have hpos : 0 ≤ n + x * 10 ^ places := by
      rw [← hn, ← add_mul]
      exact mul_nonneg (not_lt.mp hsum) hten.le
    rw [halfAway_int_add_of_nonneg n hscaled hpos, if_neg (fun h => hsum h.2), hy_eq]
    push_cast
    ring

theorem roundTo_add_of_nonneg (hy : OnScale places y) (hx : 0 ≤ x) (hsum : 0 ≤ y + x) :
    roundTo places (y + x) = y + roundTo places x := by
  rw [roundTo_add_of_onScale hy hx, if_neg (fun h => h.2.not_ge hsum), sub_zero]

end Scale

end SuperSbc.FixedPoint
