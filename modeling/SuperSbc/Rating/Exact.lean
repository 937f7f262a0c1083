import SuperSbc.Rating

/-!
What a price is and what a talk time buys. The usage of a call is rounded to
ten places and the amount to six; no usage of a rate with six places lies so
close below a half that the first rounding moves the second. The talk time is
the floor of a quotient that was rounded to sixteen places, which can lift it
over a whole second, but not by a rounding unit of money.

An increment that is not positive counts as a second. Blocks that leave the 64
bits of an `int` are billed as if they were not there.
-/

namespace SuperSbc.Rating

open FixedPoint

/-- Nearest multiple of `10 ^ (-places)`, halves up. -/
def halfUp (places : ℕ) (x : ℚ) : ℚ := ⌊x * 10 ^ places + 1 / 2⌋ / 10 ^ places

/-- Billed seconds that cover a call in whole blocks and waste less than
one. -/
structure Covers (inc : Increments) (billsec billed : ℤ) : Prop where
  covered : billsec ≤ billed
  blocks : billed = inc.initialBlock ∨ ∃ n : ℕ, billed = inc.initialBlock + n * inc.nextBlock
  tight : inc.initialBlock < billsec → billed < billsec + inc.nextBlock

section Seconds

variable {inc : Increments} {billsec : ℤ}

/-- Blocks of 64 bits cover a call exactly if they have room for it. -/
theorem covers_iff_fits (hpos : 0 < billsec) (hmin : inc.minDuration ≤ billsec)
    (hinitial : inc.initial < 2 ^ 63) (hsubsequent : inc.subsequent < 2 ^ 63)
    (hbillsec : billsec < 2 ^ 63) :
    Covers inc billsec (billedSeconds billsec inc) ↔ inc.Fits billsec := by
  have hblock := inc.nextBlock_pos
  have hbounds := inc.wholeBlocks_bounds billsec
  constructor
  · intro hcovers
    by_contra hfits
    have hless := billedSeconds_of_not_fits hpos hmin hinitial hsubsequent hbillsec hfits
    have hcovered := hcovers.covered
    have hrest : ¬ billsec ≤ inc.initialBlock := fun hle => hfits (.inl hle)
    omega
  · intro hfits
    rw [billedSeconds_of_fits hpos hmin hfits]
    split_ifs with hfirst
    · exact ⟨hfirst, .inl rfl, fun h => by omega⟩
    · have hcount : 0 ≤ (billsec - inc.initialBlock + inc.nextBlock - 1) / inc.nextBlock :=
        Int.ediv_nonneg (by omega) hblock.le
      obtain ⟨n, hn⟩ := Int.eq_ofNat_of_zero_le hcount
      refine ⟨hbounds.1, .inr ⟨n, ?_⟩, fun _ => hbounds.2⟩
      rw [Increments.wholeBlocks, hn]

end Seconds

section Amounts

variable {ratePerMin connectFee : Decimal}

theorem roundTo_eq_halfUp (places : ℕ) {x : ℚ} (hx : 0 ≤ x) :
    roundTo places x = halfUp places x := by
  unfold roundTo halfUp
  rw [halfAway_of_nonneg (by positivity)]

/-- A sixtieth, rounded to four more places and then to whole units, is the
sixtieth rounded at once. -/
theorem sixtieth_rounded_twice (m : ℤ) : ((1000 * m + 3) / 6 + 5000) / 10000 = (m + 30) / 60 := by
  omega

theorem floor_div_add_half (m : ℤ) (d : ℕ) (hd : 0 < d) :
    ⌊(m : ℚ) / d + 1 / 2⌋ = (2 * m + d) / (2 * d) := by
  have hcast : (m : ℚ) / d + 1 / 2 = ((2 * m + d : ℤ) : ℚ) / ((2 * d : ℕ) : ℚ) := by
    have hne : (d : ℚ) ≠ 0 := by exact_mod_cast hd.ne'
    push_cast
    field_simp
  rw [hcast, Rat.floor_intCast_div_natCast]
  push_cast
  rfl

/-- The rounding to ten places never changes the amount. -/
theorem roundTo_usage {units : ℤ} (hunits : 0 ≤ units) :
    roundTo 6 (roundTo 10 ((units : ℚ) / 10 ^ 6 / 60)) = roundTo 6 ((units : ℚ) / 10 ^ 6 / 60) := by
  have hcast : (0 : ℚ) ≤ units := by exact_mod_cast hunits
  have hinner : roundTo 10 ((units : ℚ) / 10 ^ 6 / 60) =
      (((1000 * units + 3) / 6 : ℤ) : ℚ) / 10 ^ 10 := by
    rw [roundTo, halfAway_of_nonneg (by positivity)]
    have harg : (units : ℚ) / 10 ^ 6 / 60 * 10 ^ 10 = ((500 * units : ℤ) : ℚ) / (3 : ℕ) := by
      push_cast
      ring
    rw [harg, floor_div_add_half _ _ (by norm_num)]
    congr 2
    push_cast
    ring_nf
  have hnonneg : (0 : ℤ) ≤ (1000 * units + 3) / 6 := by omega
  have hinnerNonneg : (0 : ℚ) ≤ (((1000 * units + 3) / 6 : ℤ) : ℚ) := by exact_mod_cast hnonneg
  have hleft : (((1000 * units + 3) / 6 : ℤ) : ℚ) / 10 ^ 10 * 10 ^ 6 =
      (((1000 * units + 3) / 6 : ℤ) : ℚ) / (10000 : ℕ) := by
    push_cast
    ring
  have hright : (units : ℚ) / 10 ^ 6 / 60 * 10 ^ 6 = (units : ℚ) / (60 : ℕ) := by
    push_cast
    ring
  rw [hinner, roundTo, roundTo, halfAway_of_nonneg (by positivity),
    halfAway_of_nonneg (by positivity), hleft, hright, floor_div_add_half _ _ (by norm_num),
    floor_div_add_half _ _ (by norm_num)]
  have htwice := sixtieth_rounded_twice units
  congr 2
  push_cast
  omega

theorem amount_exact {secs : ℤ} (hrate : 0 ≤ ratePerMin) (hrateScale : OnScale scale ratePerMin)
    (hfee : 0 ≤ connectFee) (hfeeScale : OnScale scale connectFee) (hsecs : 0 < secs) :
    amount secs ratePerMin connectFee = halfUp scale (connectFee + ratePerMin * secs / 60) := by
  obtain ⟨n, hn⟩ := onScale_iff.mp hrateScale
  have hcast : (0 : ℚ) ≤ secs := by exact_mod_cast hsecs.le
  have husage : ratePerMin * secs / 60 = ((n * secs : ℤ) : ℚ) / 10 ^ 6 / 60 := by
    have hrate_eq : ratePerMin = n / 10 ^ 6 := by
      rw [← hn]
      unfold scale
      field_simp
    rw [hrate_eq]
    push_cast
    ring
  have hunits : 0 ≤ n * secs := by
    have hscaled : (0 : ℚ) ≤ n := by
      rw [← hn]
      positivity
    exact mul_nonneg (by exact_mod_cast hscaled) hsecs.le
  have hnonneg : 0 ≤ ratePerMin * secs / 60 := by positivity
  have hrounded := roundTo_nonneg (scale + 4) hnonneg
  rw [← roundTo_eq_halfUp scale (by positivity), amount_of_pos hsecs,
    roundTo_add_of_nonneg hfeeScale hrounded (by positivity),
    roundTo_add_of_nonneg hfeeScale hnonneg (by positivity), husage]
  exact congrArg _ (roundTo_usage hunits)

end Amounts

/-- A price covers its call in whole blocks exactly if 64 bits have room for
them. Then it is rounded once and no shorter call costs more. -/
theorem price_exact (r : Rate) (hrate : 0 ≤ r.perMinute) (hrateScale : OnScale 6 r.perMinute)
    (hfee : 0 ≤ r.connectFee) (hfeeScale : OnScale 6 r.connectFee) (billsec : ℤ)
    (hbillsec : max r.minDuration 1 ≤ billsec)
    (hint : max billsec (max r.initial r.subsequent) < 2 ^ 63) :
    (Covers r.toIncrements billsec (price billsec r).1 ↔ r.Fits billsec) ∧
      (r.Fits billsec →
        (price billsec r).2 = halfUp 6 (r.connectFee + r.perMinute * (price billsec r).1 / 60) ∧
        ∀ shorter ≤ billsec,
          (price shorter r).1 ≤ (price billsec r).1 ∧
            (price shorter r).2 ≤ (price billsec r).2) := by
  obtain ⟨hmin, hpos⟩ : r.minDuration ≤ billsec ∧ 0 < billsec := max_le_iff.mp hbillsec
  obtain ⟨hlong, hincrements⟩ := max_lt_iff.mp hint
  obtain ⟨hinitial, hsubsequent⟩ := max_lt_iff.mp hincrements
  have hcovers := covers_iff_fits hpos hmin hinitial hsubsequent hlong
  refine ⟨hcovers, fun hfits => ⟨?_, fun shorter hle => ?_⟩⟩
  · exact amount_exact hrate hrateScale hfee hfeeScale
      (hpos.trans_le (hcovers.mpr hfits).covered)
  · exact ⟨billedSeconds_mono hfits hle, price_mono hrate hfee hfits hle⟩

/-- A minute and a second in 60/6 increments. -/
theorem price_exact_sample :
    (price 61 ⟨⟨60, 6, 0⟩, 2 / 100, 1 / 100⟩) = (66, 32 / 1000) ∧
      Covers ⟨60, 6, 0⟩ 61 (price 61 ⟨⟨60, 6, 0⟩, 2 / 100, 1 / 100⟩).1 := by
  refine ⟨by decide +kernel, (price_exact ⟨⟨60, 6, 0⟩, 2 / 100, 1 / 100⟩ (by norm_num)
    (by decide +kernel) (by norm_num) (by decide +kernel) 61 (by decide) (by decide)).1.mpr ?_⟩
  exact .inr (by decide)

/-- The longest call there is, in minutes, is billed as less than nothing and
costs nothing. -/
theorem longest_call_free :
    price 9223372036854775807 ⟨⟨60, 60, 0⟩, 2 / 100, 1 / 100⟩ = (-9223372036854775756, 0) := by
  decide +kernel

section TalkTime

/-- The talk time is the most seconds the money buys: a granted second is paid
for up to a rounding unit, and one more second would not be. -/
theorem maxCallSeconds_affordable (spendable : Decimal) (r : Rate) (capSeconds : ℤ)
    (hspendable : 0 < spendable) (hrate : 0 < r.perMinute) (hwidth : r.perMinute < 10 ^ 12)
    (hcap : 0 < capSeconds) :
    (0 ≤ maxCallSeconds spendable r capSeconds ∧
      maxCallSeconds spendable r capSeconds ≤ capSeconds) ∧
      (0 < maxCallSeconds spendable r capSeconds →
        r.connectFee + r.perMinute * maxCallSeconds spendable r capSeconds / 60 - spendable <
          1 / 10 ^ 6) ∧
      (maxCallSeconds spendable r capSeconds < capSeconds →
        spendable <
          r.connectFee + r.perMinute * (maxCallSeconds spendable r capSeconds + 1) / 60) := by
  refine ⟨⟨maxCallSeconds_nonneg, maxCallSeconds_le_cap hcap.le⟩, fun hpos => ?_, fun hless => ?_⟩
  · obtain ⟨-, husage⟩ := usage_le_of_maxCallSeconds hpos le_rfl
    have hcovered := husage hrate
    norm_num at hcovered hwidth ⊢
    linarith
  · rw [maxCallSeconds_eq] at hless ⊢
    split_ifs at hless ⊢ with hnone hfree
    · -- nothing is left after the fee
      have hspent : spendable ≤ r.connectFee := by
        rcases hnone with hzero | hzero | hspent
        · omega
        · exact absurd hspendable (not_lt.mpr hzero)
        · exact hspent
      push_cast
      linarith
    · exact absurd hrate (not_lt.mpr hfree)
    · obtain ⟨-, -, hleft⟩ : 0 < capSeconds ∧ 0 < spendable ∧ r.connectFee < spendable := by
        simpa [not_or] using hnone
      have hquotient : 0 ≤ (spendable - r.connectFee) * 60 / r.perMinute :=
        div_nonneg (by linarith) hrate.le
      rw [min_eq_right (by omega)]
      set secs := ⌊roundTo 16 ((spendable - r.connectFee) * 60 / r.perMinute)⌋
      -- a whole second more would have survived the rounding
      have hround : (spendable - r.connectFee) * 60 / r.perMinute < secs + 1 := by
        by_contra hge
        have hkept : ((secs + 1 : ℤ) : ℚ) ≤
            roundTo 16 ((spendable - r.connectFee) * 60 / r.perMinute) := by
          rw [intCast_le_roundTo_iff 16 _ hquotient]
          push_cast
          linarith [not_lt.mp hge]
        have hfloor := Int.le_floor.mpr hkept
        omega
      rw [div_lt_iff₀ hrate] at hround
      linarith

end TalkTime

/-- Ten cents, a connect fee of one and two cents a minute. -/
theorem maxCallSeconds_affordable_sample :
    maxCallSeconds (1 / 10) ⟨⟨60, 6, 0⟩, 2 / 100, 1 / 100⟩ 14400 = 270 ∧
      (1 : Decimal) / 10 < 1 / 100 + 2 / 100 * (270 + 1) / 60 := by
  have htime : maxCallSeconds (1 / 10) ⟨⟨60, 6, 0⟩, 2 / 100, 1 / 100⟩ 14400 = 270 := by
    decide +kernel
  have hnext := (maxCallSeconds_affordable (1 / 10) ⟨⟨60, 6, 0⟩, 2 / 100, 1 / 100⟩ 14400
    (by norm_num) (by norm_num) (by norm_num) (by norm_num)).2.2
  rw [htime] at hnext
  exact ⟨htime, hnext (by norm_num)⟩

end SuperSbc.Rating
