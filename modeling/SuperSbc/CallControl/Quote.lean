import SuperSbc.CallControl.Authorize

/-!
Step three of a setup: the selling rate, converted from the currency of its
deck into the currency of the account. Exchange rates come from a table that
is held in memory; a pair that is only listed the other way round is inverted
and rounded to eight decimals, which is zero for a rate above two hundred
million.
-/

namespace SuperSbc.CallControl

open FixedPoint Rating Billing

/-- A row of `fx_rates`. -/
structure FXRate where
  rate : Numeric 18 8
  rate_pos : 0 < rate.units
deriving DecidableEq

/-- The exchange rates in memory, by `BASE/QUOTE` in capitals. -/
abbrev FXTable := String → Option FXRate

/-- An exchange rate as a factor. -/
abbrev Multiplier := {m : Decimal // 0 ≤ m}

theorem FXRate.val_pos (r : FXRate) : 0 < r.rate.val :=
  div_pos (by exact_mod_cast r.rate_pos) (by positivity)

def FXRate.direct (r : FXRate) : Multiplier := ⟨r.rate.val, r.val_pos.le⟩

/-- `DivRound(1, rate, 8)`. -/
def FXRate.inverted (r : FXRate) : Multiplier :=
  ⟨roundTo 8 (1 / r.rate.val), roundTo_nonneg 8 (one_div_pos.mpr r.val_pos).le⟩

/-- No table means that the rates could not be loaded. -/
def fx (table : Option FXTable) (base quote : String) : Option Multiplier :=
  if base = "" ∨ quote = "" ∨ Text.equalFoldAscii base quote then some ⟨1, zero_le_one⟩
  else
    match table with
    | none => none
    | some rates =>
      match rates (base.toUpper ++ "/" ++ quote.toUpper) with
      | some r => some r.direct
      | none => (rates (quote.toUpper ++ "/" ++ base.toUpper)).map FXRate.inverted

/-- A rate row with its money converted and rounded. -/
def convert (r : RateRow) (m : Multiplier) : RateRow :=
  { r with
    ratePerMin := roundTo scale (r.ratePerMin * m)
    connectFee := roundTo scale (r.connectFee * m)
    ratePerMin_nonneg := roundTo_nonneg scale (mul_nonneg r.ratePerMin_nonneg m.2)
    ratePerMin_scale := roundTo_onScale _ _
    connectFee_nonneg := roundTo_nonneg scale (mul_nonneg r.connectFee_nonneg m.2)
    connectFee_scale := roundTo_onScale _ _ }

/-- `none` when there is no exchange rate. A deck that cannot be read counts as
being in the account's currency. -/
def convertRate (deck : Option RateGroup) (table : Option FXTable) (r : RateRow)
    (accountCurrency : String) : Option (RateRow × Multiplier) :=
  match deck with
  | none => some (r, ⟨1, zero_le_one⟩)
  | some deck =>
    match fx table deck.currency accountCurrency with
    | none => none
    | some m => if m.1 = 1 then some (r, m) else some (convert r m, m)

/-- A table lookup that failed is an error, a deck without a match is not. -/
def sellRateFor (cust : Customer) (matchRate : UUID → Except String (Option RateRow)) :
    Except String (Option RateRow) :=
  match cust.rateGroupId with
  | none => .ok none
  | some group => matchRate group

end SuperSbc.CallControl
