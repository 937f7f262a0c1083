import SuperSbc.Store.Accounts

/-!
What an operator does to rate rows: editing one, upserting one, importing a
deck, deleting some. An upsert finds its row by group, prefix and effective
date; the row it leads to, or the id of the new row, is an input here, as are
the rows a delete statement finds. An upsert whose row is deleted by another
transaction between its insert and its update fails instead of starting over.

Effective dates and the enabled flag steer which row a setup matches and are
not part of a row here.
-/

namespace SuperSbc.Admin

open FixedPoint Rating ReadCommitted Transaction Store

/-- The columns an edit or an import gives a rate row. -/
structure RateInput where
  dialPrefix : String
  destination : String
  ratePerMin : Decimal
  connectFee : Decimal
  initialIncrement : ℤ
  subsequentIncrement : ℤ
  minDuration : ℤ
deriving DecidableEq

/-- The row a statement would write, unless a column or a check refuses it. -/
def RateInput.row (x : RateInput) (id group : UUID) : Option RateRow :=
  match Numeric.assign 18 6 x.ratePerMin, Numeric.assign 18 6 x.connectFee with
  | some rate, some fee =>
    if h : 0 ≤ rate.units ∧ 0 ≤ fee.units ∧ 0 < x.initialIncrement ∧
        0 < x.subsequentIncrement ∧ 0 ≤ x.minDuration ∧
        x.dialPrefix ≠ "" ∧ x.dialPrefix.toList.all Char.isDigit = true ∧
        x.initialIncrement < 2 ^ 31 ∧ x.subsequentIncrement < 2 ^ 31 ∧
        x.minDuration < 2 ^ 31 then
      some
        { id := id
          rateGroupId := group
          dialPrefix := x.dialPrefix
          destination := x.destination
          ratePerMin := rate.val
          connectFee := fee.val
          initialIncrement := x.initialIncrement
          subsequentIncrement := x.subsequentIncrement
          minDuration := x.minDuration
          ratePerMin_nonneg := (Numeric.val_nonneg rate).mpr h.1
          ratePerMin_scale := rate.val_onScale
          connectFee_nonneg := (Numeric.val_nonneg fee).mpr h.2.1
          connectFee_scale := fee.val_onScale
          initialIncrement_pos := h.2.2.1
          subsequentIncrement_pos := h.2.2.2.1
          minDuration_nonneg := h.2.2.2.2.1
          initialIncrement_lt := h.2.2.2.2.2.2.2.1
          subsequentIncrement_lt := h.2.2.2.2.2.2.2.2.1 }
    else none
  | _, _ => none

/-- A row written over an existing one stays in its group. -/
def rateChange (x : RateInput) (id : UUID) (old : RateRow) : Change RateRow :=
  match x.row id old.rateGroupId with
  | none => .violate
  | some row => .put row

def updateRate (id : UUID) (x : RateInput) : Tx Unit := do
  let updated : Option RateRow ← updateRow (Key.rate id) (rateChange x id)
  match updated with
  | none => raise .notFound
  | some _ => pure ()

def upsertRate (id group : UUID) (x : RateInput) : Tx Unit :=
  match x.row id group with
  | none => raise .numericOverflow
  | some row => do
      let inserted ← insertRow (Key.rate id) row
      if inserted then pure () else updateRate id x

def deleteRates : List UUID → Tx Unit
  | [] => pure ()
  | id :: rest => do
      deleteRow (Key.rate id)
      deleteRates rest

def upsertRates (group : UUID) : List (UUID × RateInput) → Tx Unit
  | [] => pure ()
  | (id, x) :: rest => do
      upsertRate id group x
      upsertRates group rest

/-- `replaced` are the rows of the group when the import replaces them. -/
def importRates (group : UUID) (replaced : List UUID) (rates : List (UUID × RateInput)) :
    Tx Unit := do
  deleteRates replaced
  upsertRates group rates

inductive RateAction where
  | updateRate (id : UUID) (x : RateInput)
  | upsertRate (id group : UUID) (x : RateInput)
  | importRates (group : UUID) (replaced : List UUID) (rates : List (UUID × RateInput))
  | deleteRates (ids : List UUID)

def RateAction.tx : RateAction → Tx Unit
  | .updateRate id x => Admin.updateRate id x
  | .upsertRate id group x => Admin.upsertRate id group x
  | .importRates group replaced rates => Admin.importRates group replaced rates
  | .deleteRates ids => Admin.deleteRates ids

/-- How a row written from an input prices calls. -/
def RateInput.rating (x : RateInput) : Rate where
  perMinute := roundTo 6 x.ratePerMin
  connectFee := roundTo 6 x.connectFee
  initial := x.initialIncrement
  subsequent := x.subsequentIncrement
  minDuration := x.minDuration

theorem RateInput.toRating_row {x : RateInput} {id group : UUID} {row : RateRow}
    (h : x.row id group = some row) : toRating row = x.rating := by
  unfold RateInput.row at h
  split at h
  · rename_i rate fee hrate hfee
    split_ifs at h
    obtain rfl := Option.some.inj h
    simp [toRating, RateInput.rating, Numeric.val_assign hrate, Numeric.val_assign hfee]
  · cases h

/-- An action that neither deletes a row nor gives it other money, increments
or grace period. -/
def RateAction.Keeps (id : UUID) (rate : Rate) : RateAction → Prop
  | .updateRate other x => other = id → x.rating = rate
  | .upsertRate other _ x => other = id → x.rating = rate
  | .importRates _ replaced rates =>
    id ∉ replaced ∧ ∀ edit ∈ rates, edit.1 = id → edit.2.rating = rate
  | .deleteRates ids => id ∉ ids

/-- The row is there and prices calls like a given rate. -/
def PricedAs (db : DB) (id : UUID) (rate : Rate) : Prop :=
  ∃ row, db.row (.rate id) = some row ∧ toRating row = rate

/-- What an action that keeps a row does to the store. -/
structure RatesEdited (id : UUID) (rate : Rate) (db after : DB) : Prop where
  others : ∀ key, (∀ rateId, key ≠ .rate rateId) → after.row key = db.row key
  kept : PricedAs db id rate → PricedAs after id rate

theorem RatesEdited.refl (id : UUID) (rate : Rate) (db : DB) : RatesEdited id rate db db :=
  ⟨fun _ _ => rfl, fun h => h⟩

theorem RatesEdited.trans {id : UUID} {rate : Rate} {db mid after : DB}
    (h : RatesEdited id rate db mid) (h' : RatesEdited id rate mid after) :
    RatesEdited id rate db after where
  others key hkey := (h'.others key hkey).trans (h.others key hkey)
  kept hpriced := h'.kept (h.kept hpriced)

theorem RatesEdited.set {id other : UUID} {rate : Rate} {db : DB} {value : Option RateRow}
    (hsame : other = id → ∃ row, value = some row ∧ toRating row = rate) :
    RatesEdited id rate db (db.set (.rate other) value) where
  others key hkey := Database.row_set_of_ne _ _ (hkey other)
  kept hpriced := by
    by_cases hother : other = id
    · subst hother
      obtain ⟨row, rfl, hrow⟩ := hsame rfl
      exact ⟨row, Database.row_set_self _ _ _, hrow⟩
    · obtain ⟨row, hrow, hpriced⟩ := hpriced
      refine ⟨row, ?_, hpriced⟩
      rw [Database.row_set_of_ne _ _ (by simpa using Ne.symm hother), hrow]

section Rules

variable {seen : DB → Prop} {db : DB} {p : Progress Key Row LedgerEntry} {id : UUID} {rate : Rate}
  {post : Unit → Progress Key Row LedgerEntry → Prop}

theorem wp_updateRate {other : UUID} {x : RateInput} (hkeeps : other = id → x.rating = rate)
    (h : ∀ q, RatesEdited id rate (db.apply p.effects) (db.apply q.effects) → post () q) :
    (updateRate other x).wp seen db p post := by
  unfold updateRate
  rw [wp_bind, wp_updateRow]
  refine ⟨fun old new _ hput => ?_, fun d _ _ _ => trivial⟩
  refine h _ ?_
  rw [Progress.effects_write, Database.apply_set]
  refine .set (fun hother => ⟨new, rfl, ?_⟩)
  unfold rateChange at hput
  cases hrow : x.row other old.rateGroupId with
  | none =>
    rw [hrow] at hput
    cases hput
  | some row =>
    rw [hrow] at hput
    obtain rfl := Change.put.inj hput
    exact (RateInput.toRating_row hrow).trans (hkeeps hother)

theorem wp_upsertRate {other group : UUID} {x : RateInput} (hkeeps : other = id → x.rating = rate)
    (h : ∀ q, RatesEdited id rate (db.apply p.effects) (db.apply q.effects) → post () q) :
    (upsertRate other group x).wp seen db p post := by
  unfold upsertRate
  cases hrow : x.row other group with
  | none => trivial
  | some row =>
    dsimp only
    rw [wp_bind, wp_insertRow]
    refine ⟨fun _ => ?_, fun _ _ _ _ => wp_updateRate hkeeps h⟩
    refine h _ ?_
    rw [Progress.effects_write, Database.apply_set]
    exact .set (fun hother => ⟨row, rfl, (RateInput.toRating_row hrow).trans (hkeeps hother)⟩)

theorem wp_deleteRates (ids : List UUID) (hkeeps : id ∉ ids)
    (h : ∀ q, RatesEdited id rate (db.apply p.effects) (db.apply q.effects) → post () q) :
    (deleteRates ids).wp seen db p post := by
  induction ids generalizing p with
  | nil => exact h p (.refl _ _ _)
  | cons other rest ih =>
    have hother : other ≠ id := fun heq => hkeeps (heq ▸ List.mem_cons_self)
    have hrest : id ∉ rest := fun hmem => hkeeps (List.mem_cons_of_mem _ hmem)
    unfold deleteRates
    rw [wp_bind, wp_deleteRow]
    refine ⟨fun _ => ih hrest (fun q hq => h q ?_), fun _ _ _ _ => ih hrest h⟩
    rw [Progress.effects_write, Database.apply_set] at hq
    exact (RatesEdited.set (fun heq => absurd heq hother)).trans hq

theorem wp_upsertRates (group : UUID) (rates : List (UUID × RateInput))
    (hkeeps : ∀ edit ∈ rates, edit.1 = id → edit.2.rating = rate)
    (h : ∀ q, RatesEdited id rate (db.apply p.effects) (db.apply q.effects) → post () q) :
    (upsertRates group rates).wp seen db p post := by
  induction rates generalizing p with
  | nil => exact h p (.refl _ _ _)
  | cons edit rest ih =>
    unfold upsertRates
    rw [wp_bind]
    refine wp_upsertRate (hkeeps edit List.mem_cons_self) (fun q hq => ?_)
    exact ih (fun other hother => hkeeps other (List.mem_cons_of_mem _ hother))
      (fun q' hq' => h q' (hq.trans hq'))

theorem RateAction.wp_tx (a : RateAction) (hkeeps : a.Keeps id rate)
    (h : ∀ q, RatesEdited id rate (db.apply p.effects) (db.apply q.effects) → post () q) :
    a.tx.wp seen db p post := by
  cases a with
  | updateRate other x => exact wp_updateRate hkeeps h
  | upsertRate other group x => exact wp_upsertRate hkeeps h
  | deleteRates ids => exact wp_deleteRates ids hkeeps h
  | importRates group replaced rates =>
    refine (wp_bind _ _ _).mpr (wp_deleteRates replaced hkeeps.1
      (fun q (hq : RatesEdited id rate _ _) => ?_))
    exact wp_upsertRates group rates hkeeps.2 (fun q' hq' => h q' (hq.trans hq'))

end Rules

end SuperSbc.Admin
