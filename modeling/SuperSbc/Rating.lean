import SuperSbc.FixedPoint.Rounding

/-!
The rating engine: how raw seconds become billed seconds, what billed seconds
cost, how much a setup reserves, and how long a customer may talk with a given
amount. Money is exact; the roundings are the ones of the source, to ten
places for the usage of a call, to six for an amount and to sixteen for the
quotient behind the talk time. Seconds are Go's `int` and wrap at 64 bits.
-/

namespace SuperSbc.Rating

open FixedPoint

/-- An exact decimal amount. -/
abbrev Decimal := ℚ

/-- How a rate bills time, in seconds. -/
structure Increments where
  initial : ℤ
  subsequent : ℤ
  minDuration : ℤ
deriving DecidableEq

/-- The money part of a rate row. -/
structure Rate extends Increments where
  perMinute : Decimal
  connectFee : Decimal
deriving DecidableEq

/-- Decimal places of every monetary result. -/
def scale : ℕ := 6

/-- An `int` after an operation that may have left its 64 bits. -/
def wrap (n : ℤ) : ℤ := n.bmod (2 ^ 64)

def billedSeconds (billsec : ℤ) (inc : Increments) : ℤ :=
  if billsec ≤ 0 then 0
  else if billsec < inc.minDuration then 0
  else
    let initial := if inc.initial ≤ 0 then 1 else inc.initial
    let subsequent := if inc.subsequent ≤ 0 then 1 else inc.subsequent
    if billsec ≤ initial then initial
    else
      -- of the wraps in a row of sums and products only the last one counts
      let rest := billsec - initial
      let blocks := (wrap (rest + subsequent - 1)).tdiv subsequent
      wrap (initial + blocks * subsequent)

/-- Zero billed seconds cost nothing, the connect fee included. -/
def amount (billedSeconds : ℤ) (ratePerMin connectFee : Decimal) : Decimal :=
  if billedSeconds ≤ 0 then 0
  else
    let usage := roundTo (scale + 4) (ratePerMin * billedSeconds / 60)
    roundTo scale (connectFee + usage)

/-- Billed seconds and amount of a raw duration. -/
def price (billsec : ℤ) (r : Rate) : ℤ × Decimal :=
  let billed := billedSeconds billsec r.toIncrements
  (billed, amount billed r.perMinute r.connectFee)

def reserveAmount (reserveMinutes : ℤ) (r : Rate) : Decimal :=
  (price (wrap (reserveMinutes * 60)) r).2

/-- Zero means that not even the connect fee is covered, or that no second
is. -/
def maxCallSeconds (spendable : Decimal) (r : Rate) (capSeconds : ℤ) : ℤ :=
  if capSeconds ≤ 0 then 0
  else if spendable ≤ 0 then 0
  else
    let afterFee := spendable - r.connectFee
    if afterFee ≤ 0 then 0
    else if r.perMinute ≤ 0 then capSeconds
    else
      let secs := ⌊roundTo 16 (afterFee * 60 / r.perMinute)⌋
      if capSeconds < secs then capSeconds else secs

/-- Increments the `rates` table admits, in columns of type `int`. -/
structure Increments.Valid (inc : Increments) : Prop where
  initial_pos : 0 < inc.initial
  subsequent_pos : 0 < inc.subsequent
  minDuration_nonneg : 0 ≤ inc.minDuration
  initial_lt : inc.initial < 2 ^ 31
  subsequent_lt : inc.subsequent < 2 ^ 31

/-- Money the `rates` table admits. -/
structure Rate.Valid (r : Rate) : Prop extends r.toIncrements.Valid where
  perMinute_nonneg : 0 ≤ r.perMinute
  connectFee_nonneg : 0 ≤ r.connectFee

section Seconds

def Increments.initialBlock (inc : Increments) : ℤ := if inc.initial ≤ 0 then 1 else inc.initial

def Increments.nextBlock (inc : Increments) : ℤ := if inc.subsequent ≤ 0 then 1 else inc.subsequent

/-- The whole blocks that a call beyond its initial block falls into. -/
def Increments.wholeBlocks (inc : Increments) (billsec : ℤ) : ℤ :=
  inc.initialBlock +
    (billsec - inc.initialBlock + inc.nextBlock - 1) / inc.nextBlock * inc.nextBlock

/-- The seconds before the division and the whole blocks after it are below
`2 ^ 63`, or there is no division. -/
def Increments.Fits (inc : Increments) (billsec : ℤ) : Prop :=
  billsec ≤ inc.initialBlock ∨
    billsec - inc.initialBlock + inc.nextBlock - 1 < 2 ^ 63 ∧ inc.wholeBlocks billsec < 2 ^ 63

variable {inc : Increments} {billsec shorter n : ℤ}

theorem Increments.initialBlock_pos (inc : Increments) : 0 < inc.initialBlock := by
  unfold initialBlock
  split_ifs <;> omega

theorem Increments.nextBlock_pos (inc : Increments) : 0 < inc.nextBlock := by
  unfold nextBlock
  split_ifs <;> omega

theorem Increments.Valid.initialBlock_eq (hinc : inc.Valid) : inc.initialBlock = inc.initial :=
  if_neg (not_le.mpr hinc.initial_pos)

theorem Increments.Valid.nextBlock_eq (hinc : inc.Valid) : inc.nextBlock = inc.subsequent :=
  if_neg (not_le.mpr hinc.subsequent_pos)

theorem wrap_cases (hlow : -2 ^ 63 ≤ n) (hhigh : n < 2 ^ 64) :
    wrap n = n ∧ n < 2 ^ 63 ∨ wrap n = n - 2 ^ 64 ∧ 2 ^ 63 ≤ n := by
  simp only [wrap, Int.bmod]
  split_ifs <;> omega

theorem wrap_lt (n : ℤ) : wrap n < 2 ^ 63 := by
  simp only [wrap, Int.bmod]
  split_ifs <;> omega

theorem billedSeconds_of_short (h : billsec ≤ 0 ∨ billsec < inc.minDuration) :
    billedSeconds billsec inc = 0 := by
  unfold billedSeconds
  rcases h with hneg | hgrace
  · rw [if_pos hneg]
  · split_ifs <;> rfl

theorem billedSeconds_eq (hpos : 0 < billsec) (hmin : inc.minDuration ≤ billsec) :
    billedSeconds billsec inc = if billsec ≤ inc.initialBlock then inc.initialBlock
      else wrap (inc.initialBlock + (wrap (billsec - inc.initialBlock + inc.nextBlock - 1)).tdiv
        inc.nextBlock * inc.nextBlock) := by
  unfold billedSeconds
  rw [if_neg (by omega), if_neg (by omega)]
  rfl

theorem Increments.wholeBlocks_bounds (inc : Increments) (billsec : ℤ) :
    billsec ≤ inc.wholeBlocks billsec ∧ inc.wholeBlocks billsec < billsec + inc.nextBlock := by
  have hblock := inc.nextBlock_pos
  have hmod := Int.emod_add_mul_ediv (billsec - inc.initialBlock + inc.nextBlock - 1) inc.nextBlock
  have hlow := Int.emod_nonneg (billsec - inc.initialBlock + inc.nextBlock - 1) hblock.ne'
  have hhigh := Int.emod_lt_of_pos (billsec - inc.initialBlock + inc.nextBlock - 1) hblock
  unfold wholeBlocks
  rw [mul_comm] at hmod
  omega

theorem billedSeconds_of_fits (hpos : 0 < billsec) (hmin : inc.minDuration ≤ billsec)
    (hfits : inc.Fits billsec) :
    billedSeconds billsec inc =
      if billsec ≤ inc.initialBlock then inc.initialBlock else inc.wholeBlocks billsec := by
  rw [billedSeconds_eq hpos hmin]
  split_ifs with hinitial
  · rfl
  obtain ⟨hsum, hend⟩ := hfits.resolve_left hinitial
  have hblock := inc.nextBlock_pos
  have hbounds := inc.wholeBlocks_bounds billsec
  rcases wrap_cases (n := billsec - inc.initialBlock + inc.nextBlock - 1) (by omega) (by omega)
    with ⟨hwrap, -⟩ | ⟨-, hover⟩
  · rw [hwrap, Int.tdiv_eq_ediv_of_nonneg (by omega)]
    rcases wrap_cases (n := inc.wholeBlocks billsec) (by omega) (by omega) with
      ⟨hwrap, -⟩ | ⟨-, hover⟩
    · exact hwrap
    · omega
  · omega

/-- Past 64 bits a call is billed its initial block at most, and nearly
`2 ^ 64` seconds less than it lasted. -/
theorem billedSeconds_of_not_fits (hpos : 0 < billsec) (hmin : inc.minDuration ≤ billsec)
    (hinitial : inc.initial < 2 ^ 63) (hsubsequent : inc.subsequent < 2 ^ 63)
    (hbillsec : billsec < 2 ^ 63) (hfits : ¬ inc.Fits billsec) :
    billedSeconds billsec inc ≤ inc.initialBlock ∧
      billedSeconds billsec inc ≤ billsec + 2 * inc.nextBlock - 2 - 2 ^ 64 := by
  have hfirst := inc.initialBlock_pos
  have hblock := inc.nextBlock_pos
  have hfirstLt : inc.initialBlock < 2 ^ 63 := by
    unfold Increments.initialBlock
    split_ifs <;> omega
  have hblockLt : inc.nextBlock < 2 ^ 63 := by
    unfold Increments.nextBlock
    split_ifs <;> omega
  obtain ⟨hrest, hover⟩ := not_or.mp hfits
  have hbounds := inc.wholeBlocks_bounds billsec
  rw [billedSeconds_eq hpos hmin, if_neg hrest]
  rcases wrap_cases (n := billsec - inc.initialBlock + inc.nextBlock - 1) (by omega) (by omega)
    with ⟨hwrap, hsum⟩ | ⟨hwrap, hsum⟩
  · rw [hwrap, Int.tdiv_eq_ediv_of_nonneg (by omega)]
    have hend : 2 ^ 63 ≤ inc.wholeBlocks billsec := not_lt.mp (fun hend => hover ⟨hsum, hend⟩)
    rcases wrap_cases (n := inc.wholeBlocks billsec) (by omega) (by omega) with
      ⟨-, hless⟩ | ⟨hwrap, -⟩
    · omega
    · unfold Increments.wholeBlocks at hwrap hbounds
      rw [hwrap]
      omega
  · -- the sum is negative now, and the division rounds it towards zero
    set short := 2 ^ 64 - (billsec - inc.initialBlock + inc.nextBlock - 1) with hshort
    rw [hwrap, show billsec - inc.initialBlock + inc.nextBlock - 1 - 2 ^ 64 = -short by omega,
      Int.neg_tdiv, Int.tdiv_eq_ediv_of_nonneg (by omega), neg_mul]
    have hmod := Int.emod_add_mul_ediv short inc.nextBlock
    have hlow := Int.emod_nonneg short hblock.ne'
    have hhigh := Int.emod_lt_of_pos short hblock
    have hcount : 0 ≤ short / inc.nextBlock * inc.nextBlock :=
      mul_nonneg (Int.ediv_nonneg (by omega) hblock.le) hblock.le
    rw [mul_comm] at hmod
    rcases wrap_cases (n := inc.initialBlock + -(short / inc.nextBlock * inc.nextBlock))
      (by omega) (by omega) with ⟨hwrap, -⟩ | ⟨-, hless⟩
    · rw [hwrap]
      omega
    · omega

theorem Increments.Valid.fits (hinc : inc.Valid) (hroom : billsec + inc.subsequent ≤ 2 ^ 63) :
    inc.Fits billsec := by
  have hbounds := inc.wholeBlocks_bounds billsec
  have hfirst := inc.initialBlock_pos
  rw [hinc.nextBlock_eq] at hbounds
  unfold Increments.Fits
  rw [hinc.nextBlock_eq]
  omega

theorem Increments.wholeBlocks_mono (inc : Increments) (hle : shorter ≤ billsec) :
    inc.wholeBlocks shorter ≤ inc.wholeBlocks billsec := by
  have hblock := inc.nextBlock_pos
  unfold wholeBlocks
  have hfewer : (shorter - inc.initialBlock + inc.nextBlock - 1) / inc.nextBlock ≤
      (billsec - inc.initialBlock + inc.nextBlock - 1) / inc.nextBlock :=
    Int.ediv_le_ediv hblock (by omega)
  nlinarith

theorem Increments.Fits.mono (hfits : inc.Fits billsec) (hle : shorter ≤ billsec) :
    inc.Fits shorter := by
  have hblocks := inc.wholeBlocks_mono hle
  unfold Increments.Fits at hfits ⊢
  omega

theorem billedSeconds_mono (hfits : inc.Fits billsec) (hle : shorter ≤ billsec) :
    billedSeconds shorter inc ≤ billedSeconds billsec inc := by
  have hfirst := inc.initialBlock_pos
  have hbounds := inc.wholeBlocks_bounds billsec
  by_cases hshort : shorter ≤ 0 ∨ shorter < inc.minDuration
  · rw [billedSeconds_of_short hshort]
    by_cases hboth : billsec ≤ 0 ∨ billsec < inc.minDuration
    · rw [billedSeconds_of_short hboth]
    · rw [billedSeconds_of_fits (by omega) (by omega) hfits]
      split_ifs <;> omega
  · have hblocks := inc.wholeBlocks_mono hle
    rw [billedSeconds_of_fits (by omega) (by omega) (hfits.mono hle),
      billedSeconds_of_fits (by omega) (by omega) hfits]
    split_ifs <;> omega

/-- What is billed at all has the initial block in it. -/
theorem initial_le_billedSeconds (hinc : inc.Valid) (hbillsec : billsec < 2 ^ 63)
    (hbilled : 0 < billedSeconds billsec inc) : inc.initial ≤ billedSeconds billsec inc := by
  by_cases hshort : billsec ≤ 0 ∨ billsec < inc.minDuration
  · rw [billedSeconds_of_short hshort] at hbilled
    omega
  obtain ⟨hpos, hmin⟩ : 0 < billsec ∧ inc.minDuration ≤ billsec := by omega
  have hinitial := hinc.initial_lt
  have hsubsequent := hinc.subsequent_lt
  by_cases hfits : inc.Fits billsec
  · have hbounds := inc.wholeBlocks_bounds billsec
    have hblock := hinc.initialBlock_eq
    rw [billedSeconds_of_fits hpos hmin hfits]
    split_ifs <;> omega
  · have hless := billedSeconds_of_not_fits hpos hmin (by omega) (by omega) hbillsec hfits
    rw [hinc.nextBlock_eq] at hless
    omega

end Seconds

section Amounts

variable {ratePerMin connectFee : Decimal} {secs more : ℤ}

theorem amount_of_pos (hsecs : 0 < secs) :
    amount secs ratePerMin connectFee =
      roundTo scale (connectFee + roundTo (scale + 4) (ratePerMin * secs / 60)) :=
  if_neg (not_le.mpr hsecs)

theorem amount_onScale (secs : ℤ) (ratePerMin connectFee : Decimal) :
    OnScale scale (amount secs ratePerMin connectFee) := by
  unfold amount
  split_ifs
  · exact OnScale.zero scale
  · exact roundTo_onScale _ _

theorem amount_nonneg (hrate : 0 ≤ ratePerMin) (hfee : 0 ≤ connectFee) :
    0 ≤ amount secs ratePerMin connectFee := by
  rcases le_or_gt secs 0 with hle | hpos
  · rw [amount, if_pos hle]
  · rw [amount_of_pos hpos]
    have hsecs : (0 : ℚ) ≤ secs := by exact_mod_cast hpos.le
    have husage := roundTo_nonneg (scale + 4) (by positivity : 0 ≤ ratePerMin * secs / 60)
    exact roundTo_nonneg _ (add_nonneg hfee husage)

theorem amount_mono (hrate : 0 ≤ ratePerMin) (hfee : 0 ≤ connectFee) (hle : secs ≤ more) :
    amount secs ratePerMin connectFee ≤ amount more ratePerMin connectFee := by
  rcases le_or_gt secs 0 with hzero | hpos
  · rw [amount, if_pos hzero]
    exact amount_nonneg hrate hfee
  · rw [amount_of_pos hpos, amount_of_pos (hpos.trans_le hle)]
    have hcast : (secs : ℚ) ≤ more := by exact_mod_cast hle
    refine roundTo_mono _ (add_le_add_right (roundTo_mono _ ?_) _)
    gcongr

/-- Both roundings together add less than a unit of the scale. -/
theorem amount_le (hrate : 0 ≤ ratePerMin) (hfee : 0 ≤ connectFee) (hsecs : 0 ≤ secs) :
    amount secs ratePerMin connectFee ≤
      connectFee + ratePerMin * secs / 60 + 6 / 10 ^ 7 := by
  have hcast : (0 : ℚ) ≤ secs := by exact_mod_cast hsecs
  rcases hsecs.eq_or_lt with rfl | hpos
  · rw [amount, if_pos le_rfl]
    positivity
  · rw [amount_of_pos hpos]
    have houter := abs_le.mp (abs_roundTo_sub_le scale
      (connectFee + roundTo (scale + 4) (ratePerMin * secs / 60)))
    have hinner := abs_le.mp (abs_roundTo_sub_le (scale + 4) (ratePerMin * secs / 60))
    norm_num [scale] at houter hinner ⊢
    linarith [houter.2, hinner.2]

end Amounts

theorem price_clamped (billsec : ℤ) (r : Rate) :
    price (if billsec < 0 then 0 else billsec) r = price billsec r := by
  split_ifs with hneg
  · unfold price
    rw [billedSeconds_of_short (.inl le_rfl), billedSeconds_of_short (.inl hneg.le)]
  · rfl

theorem price_onScale (billsec : ℤ) (r : Rate) : OnScale scale (price billsec r).2 :=
  amount_onScale _ _ _

theorem price_nonneg (billsec : ℤ) {r : Rate} (hr : r.Valid) : 0 ≤ (price billsec r).2 :=
  amount_nonneg hr.perMinute_nonneg hr.connectFee_nonneg

theorem price_mono {r : Rate} {billsec shorter : ℤ} (hrate : 0 ≤ r.perMinute)
    (hfee : 0 ≤ r.connectFee) (hfits : r.Fits billsec) (hle : shorter ≤ billsec) :
    (price shorter r).2 ≤ (price billsec r).2 :=
  amount_mono hrate hfee (billedSeconds_mono hfits hle)

theorem reserveAmount_onScale (reserveMinutes : ℤ) (r : Rate) :
    OnScale scale (reserveAmount reserveMinutes r) :=
  price_onScale _ _

theorem reserveAmount_nonneg (reserveMinutes : ℤ) {r : Rate} (hr : r.Valid) :
    0 ≤ reserveAmount reserveMinutes r :=
  price_nonneg _ hr

section TalkTime

variable {spendable : Decimal} {r : Rate} {capSeconds billsec reserveMinutes : ℤ}

theorem maxCallSeconds_eq :
    maxCallSeconds spendable r capSeconds =
      if capSeconds ≤ 0 ∨ spendable ≤ 0 ∨ spendable ≤ r.connectFee then 0
      else if r.perMinute ≤ 0 then capSeconds
      else min capSeconds ⌊roundTo 16 ((spendable - r.connectFee) * 60 / r.perMinute)⌋ := by
  unfold maxCallSeconds
  simp only [sub_nonpos]
  by_cases hcap : capSeconds ≤ 0
  · simp [hcap]
  · by_cases hspend : spendable ≤ 0
    · simp [hcap, hspend]
    · by_cases hfee : spendable ≤ r.connectFee
      · simp [hfee]
      · simp only [hcap, hspend, hfee, if_false, or_self]
        split_ifs <;> omega

theorem maxCallSeconds_le_cap (hcap : 0 ≤ capSeconds) :
    maxCallSeconds spendable r capSeconds ≤ capSeconds := by
  rw [maxCallSeconds_eq]
  split_ifs
  · exact hcap
  · exact le_rfl
  · exact min_le_left _ _

/-- Talk times below `2 ^ 63` less an increment are billed in 64 bits. -/
theorem maxCallSeconds_fits (spendable : Decimal) (hr : r.Valid)
    (hcap : capSeconds + r.subsequent ≤ 2 ^ 63) :
    r.Fits (maxCallSeconds spendable r capSeconds) := by
  refine hr.toValid.fits ?_
  rcases le_or_gt 0 capSeconds with hnonneg | hneg
  · have hle : maxCallSeconds spendable r capSeconds ≤ capSeconds :=
      maxCallSeconds_le_cap hnonneg
    omega
  · have hsubsequent := hr.subsequent_lt
    rw [maxCallSeconds, if_pos hneg.le]
    omega

theorem maxCallSeconds_nonneg : 0 ≤ maxCallSeconds spendable r capSeconds := by
  rw [maxCallSeconds_eq]
  split_ifs with hnone hfree
  · exact le_rfl
  · omega
  · obtain ⟨hcap, -, hfee⟩ : 0 < capSeconds ∧ 0 < spendable ∧ r.connectFee < spendable := by
      simpa [not_or] using hnone
    have hquotient : 0 ≤ (spendable - r.connectFee) * 60 / r.perMinute :=
      div_nonneg (by linarith) (not_le.mp hfree).le
    exact le_min hcap.le (Int.floor_nonneg.mpr (roundTo_nonneg 16 hquotient))

/-- When there is a talk time: the cap leaves a second, the connect fee leaves
something, and that pays for a second of the rate, up to the rounding of the
quotient. -/
theorem maxCallSeconds_pos_iff (r : Rate) (capSeconds : ℤ) (hspendable : 0 < spendable)
    (hrate : 0 ≤ r.perMinute) :
    0 < maxCallSeconds spendable r capSeconds ↔
      0 < capSeconds ∧ r.connectFee < spendable ∧
        r.perMinute * (1 - 1 / (2 * 10 ^ 16)) ≤ (spendable - r.connectFee) * 60 := by
  rw [maxCallSeconds_eq]
  by_cases hnone : capSeconds ≤ 0 ∨ spendable ≤ 0 ∨ spendable ≤ r.connectFee
  · rw [if_pos hnone]
    refine ⟨fun h => absurd h (lt_irrefl 0), fun h => ?_⟩
    rcases hnone with hcap | hspend | hfee
    · omega
    · exact absurd hspendable (not_lt.mpr hspend)
    · exact absurd h.2.1 (not_lt.mpr hfee)
  obtain ⟨hcap, -, hfee⟩ : 0 < capSeconds ∧ 0 < spendable ∧ r.connectFee < spendable := by
    simpa [not_or] using hnone
  rw [if_neg hnone]
  rcases hrate.eq_or_lt with hfree | hpaid
  · rw [← hfree, if_pos le_rfl]
    refine ⟨fun _ => ⟨hcap, hfee, ?_⟩, fun h => h.1⟩
    linarith
  · have hquotient : 0 ≤ (spendable - r.connectFee) * 60 / r.perMinute :=
      div_nonneg (by linarith) hpaid.le
    have hsecond : 0 < ⌊roundTo 16 ((spendable - r.connectFee) * 60 / r.perMinute)⌋ ↔
        r.perMinute * (1 - 1 / (2 * 10 ^ 16)) ≤ (spendable - r.connectFee) * 60 := by
      have hround := intCast_le_roundTo_iff 16 1 hquotient
      rw [← Int.add_one_le_iff, zero_add, Int.le_floor, hround, le_div_iff₀ hpaid, mul_comm,
        Int.cast_one]
    rw [if_neg (not_le.mpr hpaid), lt_min_iff, hsecond]
    exact ⟨fun h => ⟨hcap, hfee, h.2⟩, fun h => ⟨hcap, h.2.2⟩⟩

/-- Talk time is only granted when something is left after the connect fee,
and then its usage is covered by that, up to the rounding of the quotient. -/
theorem usage_le_of_maxCallSeconds (hpos : 0 < billsec)
    (hmax : billsec ≤ maxCallSeconds spendable r capSeconds) :
    r.connectFee < spendable ∧ (0 < r.perMinute →
      r.perMinute * billsec / 60 ≤
        spendable - r.connectFee + r.perMinute * (1 / (2 * 10 ^ 16)) / 60) := by
  rw [maxCallSeconds_eq] at hmax
  split_ifs at hmax with hnone hfree
  · omega
  · exact ⟨by simp_all, fun hrate => absurd hrate (not_lt.mpr hfree)⟩
  · refine ⟨by simp_all, fun hrate => ?_⟩
    have hfloor : (billsec : ℚ) ≤ roundTo 16 ((spendable - r.connectFee) * 60 / r.perMinute) :=
      Int.le_floor.mp (hmax.trans (min_le_right _ _))
    have hround := (abs_le.mp (abs_roundTo_sub_le 16
      ((spendable - r.connectFee) * 60 / r.perMinute))).2
    have hsecs : (billsec : ℚ) ≤
        (spendable - r.connectFee) * 60 / r.perMinute + 1 / (2 * 10 ^ 16) := by
      linarith
    calc r.perMinute * billsec / 60
        ≤ r.perMinute *
            ((spendable - r.connectFee) * 60 / r.perMinute + 1 / (2 * 10 ^ 16)) / 60 := by
          gcongr
      _ = spendable - r.connectFee + r.perMinute * (1 / (2 * 10 ^ 16)) / 60 := by
          field_simp

/-- A call that keeps to its talk time costs at most what was available at its
setup, one subsequent increment and a rounding unit, if the reservation covers
the initial block. -/
theorem price_le_of_maxCallSeconds (hr : r.Valid)
    (hfits : r.Fits (maxCallSeconds spendable r capSeconds))
    (hblock : r.initial ≤ (price (wrap (reserveMinutes * 60)) r).1) (hspendable : 0 < spendable)
    (hreserve : reserveAmount reserveMinutes r ≤ spendable)
    (hmax : billsec ≤ maxCallSeconds spendable r capSeconds) :
    (price billsec r).2 ≤
      spendable + (r.perMinute * r.subsequent / 60 + 1 / 10 ^ 6) := by
  have hrate := hr.perMinute_nonneg
  have hfee := hr.connectFee_nonneg
  have hsub : (1 : ℚ) ≤ r.subsequent := by exact_mod_cast hr.subsequent_pos
  have hincrement : 0 ≤ r.perMinute * r.subsequent / 60 := by positivity
  by_cases hshort : billsec ≤ 0 ∨ billsec < r.minDuration
  · have hzero : (price billsec r).2 = 0 := by
      simp [price, billedSeconds_of_short hshort, amount]
    rw [hzero]
    linarith
  obtain ⟨hpos, hmin⟩ : 0 < billsec ∧ r.minDuration ≤ billsec := by
    simpa [not_or] using hshort
  have hbilled := billedSeconds_of_fits hpos hmin (hfits.mono hmax)
  rw [hr.initialBlock_eq] at hbilled
  rcases le_or_gt billsec r.initial with hinitial | hrest
  · -- the initial block is part of the reservation
    have hcovered : (price billsec r).2 ≤ reserveAmount reserveMinutes r := by
      simp only [price, reserveAmount, hbilled, if_pos hinitial]
      exact amount_mono hrate hfee hblock
    linarith
  · obtain ⟨hfeeCovered, husage⟩ := usage_le_of_maxCallSeconds hpos hmax
    have hbounds := r.toIncrements.wholeBlocks_bounds billsec
    rw [if_neg (not_le.mpr hrest)] at hbilled
    rw [hr.nextBlock_eq, ← hbilled] at hbounds
    have hnonneg : 0 ≤ billedSeconds billsec r.toIncrements := by omega
    have hamount := amount_le hrate hfee hnonneg
    have hhigh : (billedSeconds billsec r.toIncrements : ℚ) ≤ billsec + r.subsequent - 1 := by
      exact_mod_cast Int.le_sub_one_of_lt hbounds.2
    have hscaled := mul_le_mul_of_nonneg_left hhigh hrate
    change amount _ _ _ ≤ _
    rcases hrate.eq_or_lt with hfree | hpaid
    · rw [← hfree] at hamount ⊢
      norm_num at hamount ⊢
      linarith
    · have hbound := husage hpaid
      norm_num at hamount hbound ⊢
      linarith

end TalkTime

end SuperSbc.Rating
