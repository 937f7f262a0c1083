import SuperSbc.FixedPoint.Rounding

/-!
SQL `numeric(precision, scale)` columns. A value is a whole number of units of
`10 ^ (-scale)` with at most `precision` digits. Assigning an exact value to
such a column rounds it half away from zero and fails when it does not fit.
-/

namespace SuperSbc.FixedPoint

/-- A stored `numeric(precision, scale)`, counted in units of its scale. -/
@[ext]
structure Numeric (precision scale : ℕ) where
  units : ℤ
  bound : |units| < 10 ^ precision
deriving DecidableEq

namespace Numeric

variable {precision scale : ℕ}

variable {m : Numeric precision scale} {x : ℚ}

def val (m : Numeric precision scale) : ℚ := m.units / 10 ^ scale

instance : Zero (Numeric precision scale) := ⟨⟨0, by simp⟩⟩

/-- Assignment of an exact value to the column. -/
def assign (precision scale : ℕ) (x : ℚ) : Option (Numeric precision scale) :=
  if h : |halfAway (x * 10 ^ scale)| < 10 ^ precision then some ⟨_, h⟩ else none

@[simp] theorem units_zero : (0 : Numeric precision scale).units = 0 := rfl

@[simp] theorem val_zero : (0 : Numeric precision scale).val = 0 := by simp [val]

private theorem scale_ne_zero (scale : ℕ) : (10 : ℚ) ^ scale ≠ 0 := by positivity

theorem val_mul (m : Numeric precision scale) : m.val * 10 ^ scale = m.units :=
  div_mul_cancel₀ _ (scale_ne_zero scale)

theorem val_onScale (m : Numeric precision scale) : OnScale scale m.val :=
  onScale_iff.mpr ⟨m.units, m.val_mul⟩

theorem val_le_val (m n : Numeric precision scale) : m.val ≤ n.val ↔ m.units ≤ n.units := by
  have hpos : (0 : ℚ) < 10 ^ scale := by positivity
  rw [val, val, div_le_div_iff_of_pos_right hpos]
  exact Int.cast_le

theorem val_nonneg (m : Numeric precision scale) : 0 ≤ m.val ↔ 0 ≤ m.units := by
  simpa using val_le_val 0 m

theorem val_inj {n : Numeric precision scale} (h : m.val = n.val) : m = n := by
  ext
  exact le_antisymm ((val_le_val m n).mp h.le) ((val_le_val n m).mp h.ge)

theorem units_assign (h : assign precision scale x = some m) :
    m.units = halfAway (x * 10 ^ scale) := by
  unfold assign at h
  split_ifs at h with hfit
  rw [← Option.some.inj h]

theorem val_assign (h : assign precision scale x = some m) : m.val = roundTo scale x := by
  rw [val, units_assign h, roundTo]

theorem val_assign_of_onScale (h : assign precision scale x = some m) (hx : OnScale scale x) :
    m.val = x :=
  (val_assign h).trans hx

@[simp] theorem assign_val (m : Numeric precision scale) :
    assign precision scale m.val = some m := by
  unfold assign
  have hunits : halfAway (m.val * 10 ^ scale) = m.units := by
    rw [val_mul, halfAway_intCast]
  rw [dif_pos (by rw [hunits]; exact m.bound)]
  exact congrArg some (Numeric.ext hunits)

theorem assign_isSome_iff :
    (assign precision scale x).isSome ↔ |halfAway (x * 10 ^ scale)| < 10 ^ precision := by
  unfold assign
  split_ifs with hfits <;> simp [hfits]

theorem assign_neg_isSome :
    (assign precision scale (-x)).isSome ↔ (assign precision scale x).isSome := by
  rw [assign_isSome_iff, assign_isSome_iff, neg_mul, halfAway_neg, abs_neg]

theorem assign_isSome_of_le {y : ℚ} (hx : 0 ≤ x) (hxy : x ≤ y)
    (hy : (assign precision scale y).isSome) : (assign precision scale x).isSome := by
  rw [assign_isSome_iff] at hy ⊢
  have hle : halfAway (x * 10 ^ scale) ≤ halfAway (y * 10 ^ scale) := halfAway_mono (by gcongr)
  have hnonneg : 0 ≤ halfAway (x * 10 ^ scale) := halfAway_nonneg (by positivity)
  rw [abs_of_nonneg hnonneg]
  exact (hle.trans (le_abs_self _)).trans_lt hy

end Numeric

end SuperSbc.FixedPoint
