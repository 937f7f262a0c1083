import SuperSbc.Admin.RateCsv
import SuperSbc.Query.Tables

/-!
Importing a rate deck: what the table `rates` makes of the rates that were read.
A reading refuses a second rate for one prefix and one effective date by the
text of the date, the table by its instant, and the table has bounds and checks
the reading does not know. The deck is the rows of the group, in the order of
their ids.
-/

namespace SuperSbc.Admin

open Calendar FixedPoint Rating Text

/-- `timestamptz` keeps microseconds and no zone. -/
def storedTime (m : Moment) : Moment := ⟨m.nanos / 1000 * 1000, 0⟩

/-- The same rate with its dates in UTC. -/
def DatedRate.utc (x : DatedRate) : DatedRate :=
  { x with effectiveFrom := x.effectiveFrom.utc, effectiveTo := x.effectiveTo.map Moment.utc }

/-- A value of type `int` that a check bounds from below. -/
def Int4From (least n : ℤ) : Prop := least ≤ n ∧ n < 2 ^ 31

instance (least n : ℤ) : Decidable (Int4From least n) := inferInstanceAs (Decidable (_ ∧ _))

/-- What the columns and checks of the table ask of the numbers and texts of a
rate that are stored as they are. -/
def RateInput.InRange (x : RateInput) : Prop :=
  '\x00' ∉ x.destination.toList ∧ Int4From 1 x.initialIncrement ∧
    Int4From 1 x.subsequentIncrement ∧ Int4From 0 x.minDuration

instance (x : RateInput) : Decidable x.InRange := inferInstanceAs (Decidable (_ ∧ _))

/-- The row a rate becomes, unless the table refuses it. -/
def DatedRate.store (x : DatedRate) : Option DatedRate :=
  match Numeric.assign 18 6 x.ratePerMin, Numeric.assign 18 6 x.connectFee with
  | some rate, some fee =>
    if 0 ≤ rate.val ∧ 0 ≤ fee.val ∧ x.dialPrefix ≠ "" ∧
        x.dialPrefix.toList.all Char.isDigit = true ∧ x.InRange then
      some { x with
        ratePerMin := rate.val
        connectFee := fee.val
        effectiveFrom := storedTime x.effectiveFrom
        effectiveTo := x.effectiveTo.map storedTime }
    else none
  | _, _ => none

/-- `UNIQUE (rate_group_id, prefix, effective_from)`, in one group. -/
def DatedRate.tableKey (x : DatedRate) : String × ℤ := (x.dialPrefix, x.effectiveFrom.nanos)

/-- `INSERT .. ON CONFLICT (rate_group_id, prefix, effective_from) DO UPDATE`. -/
def upsertRow (deck : List DatedRate) (row : DatedRate) : List DatedRate :=
  if row.tableKey ∈ deck.map DatedRate.tableKey then
    deck.map (fun old => if old.tableKey = row.tableKey then row else old)
  else deck ++ [row]

/-- `ImportRates`: the deck afterwards, and the number of rates. -/
def importDeck (deck rates : List DatedRate) (replace : Bool) : Option (List DatedRate × ℕ) :=
  (rates.foldlM (fun deck (x : DatedRate) => x.store.map (upsertRow deck))
    (if replace then [] else deck)).map (fun after => (after, rates.length))

section Reading

/-- An amount `numeric(18,6)` has as it is. -/
def SixPlaces (x : Decimal) : Prop := OnScale 6 x ∧ x < 10 ^ 12

/-- When the rate of a line starts. -/
def RateForm.start (defaultFrom : Moment) (form : RateForm) : Option Moment :=
  form.effectiveFrom.elim (some defaultFrom) parseTime

/-- What a line says that the table keeps as it is. -/
structure RateForm.Storable (defaultFrom : Moment) (form : RateForm) : Prop where
  ratePerMin : ∀ x ∈ newFromString form.ratePerMin, SixPlaces x
  connectFee : form.connectFee ≠ [] → ∀ x ∈ newFromString form.connectFee, SixPlaces x
  destination : '\x00' ∉ form.destination
  initialIncrement : Int4From 0 form.initialIncrement
  subsequentIncrement : Int4From 0 form.subsequentIncrement
  minDuration : Int4From 0 form.minDuration
  effectiveFrom : ∀ m ∈ form.start defaultFrom, 1000 ∣ m.nanos
  effectiveTo : ∀ s ∈ form.effectiveTo, ∀ m ∈ parseTime s, 1000 ∣ m.nanos

def IsPrefix (s : List Char) : Prop := s ≠ [] ∧ s.all Char.isDigit = true ∧ s.length ≤ 15

/-- A line that says a rate. -/
structure RateForm.Says (defaultFrom : Moment) (form : RateForm) (x : DatedRate) : Prop where
  dialPrefix : x.dialPrefix = String.ofList form.dialPrefix
  destination : x.destination = String.ofList form.destination
  ratePerMin : newFromString form.ratePerMin = some x.ratePerMin
  rate_nonneg : 0 ≤ x.ratePerMin
  connectFee : if form.connectFee = [] then x.connectFee = 0
    else newFromString form.connectFee = some x.connectFee
  fee_nonneg : 0 ≤ x.connectFee
  initialIncrement : x.initialIncrement = if form.initialIncrement = 0 then 60
    else form.initialIncrement
  subsequentIncrement : x.subsequentIncrement = if form.subsequentIncrement = 0 then 60
    else form.subsequentIncrement
  minDuration : x.minDuration = form.minDuration
  effectiveFrom : form.start defaultFrom = some x.effectiveFrom
  effectiveTo : form.effectiveTo.map parseTime = x.effectiveTo.map some
  enabled : x.enabled = form.enabled.getD true

theorem readAmount_ok_iff {why : Rejection} {s : List Char} {x : Decimal} :
    readAmount why s = .ok x ↔ newFromString s = some x ∧ 0 ≤ x := by
  have hfilter : (newFromString s).filter (0 ≤ ·) = some x ↔ newFromString s = some x ∧ 0 ≤ x := by
    rw [Option.filter_eq_some_iff, decide_eq_true_iff]
  rw [readAmount, ← hfilter]
  cases (newFromString s).filter (0 ≤ ·) <;> simp

theorem readTime_ok_iff {column : String} {s : List Char} {m : Moment} :
    readTime column s = .ok m ↔ parseTime s = some m := by
  rw [readTime]
  cases parseTime s <;> simp

theorem mapM_readTime_ok_iff {column : String} {given : Option (List Char)} {to_ : Option Moment} :
    given.mapM (readTime column) = .ok to_ ↔ given.map parseTime = to_.map some := by
  cases given with
  | none => cases to_ <;> simp [pure, Except.pure]
  | some s =>
    have hread := @readTime_ok_iff column s
    cases to_ with
    | none => cases hs : readTime column s <;> simp [Except.map, hs, Functor.map]
    | some m => cases hs : readTime column s <;> simp [Except.map, hs, Functor.map, ← hread]

theorem RateForm.toModel_ok_iff {now : Moment} {form : RateForm} {x : DatedRate}
    (hfrom : form.effectiveFrom.filter (· ≠ []) = form.effectiveFrom)
    (hto : form.effectiveTo.filter (· ≠ []) = form.effectiveTo) :
    form.toModel now = .ok x ↔ form.Says now x := by
  have hstart {m : Moment} : form.effectiveFrom.elim (.ok now) (readTime "effective_from") = .ok m ↔
      form.start now = some m := by
    unfold RateForm.start
    cases form.effectiveFrom with
    | none => simp
    | some s => exact readTime_ok_iff
  have hfee {fee : Decimal} : (if form.connectFee = [] then .ok 0
        else readAmount .badFee form.connectFee) = .ok fee ↔
      (if form.connectFee = [] then fee = 0 else newFromString form.connectFee = some fee) ∧
        0 ≤ fee := by
    split_ifs
    · simp only [Except.ok.injEq]
      exact ⟨fun h => h ▸ ⟨rfl, le_rfl⟩, fun h => h.1.symm⟩
    · exact readAmount_ok_iff
  unfold RateForm.toModel
  rw [hfrom, hto]
  constructor
  · intro h
    obtain ⟨rate, hrate, h⟩ := Query.exists_of_bind_ok h
    obtain ⟨fee, hpaid, h⟩ := Query.exists_of_bind_ok h
    obtain ⟨from_, hgiven, h⟩ := Query.exists_of_bind_ok h
    obtain ⟨to_, hended, h⟩ := Query.exists_of_bind_ok h
    cases h
    obtain ⟨hrate, hnonneg⟩ := readAmount_ok_iff.mp hrate
    obtain ⟨hpaid, hpaid'⟩ := hfee.mp hpaid
    exact ⟨rfl, rfl, hrate, hnonneg, hpaid, hpaid', rfl, rfl, rfl, hstart.mp hgiven,
      mapM_readTime_ok_iff.mp hended, rfl⟩
  · intro h
    rw [readAmount_ok_iff.mpr ⟨h.ratePerMin, h.rate_nonneg⟩, hfee.mpr ⟨h.connectFee, h.fee_nonneg⟩,
      hstart.mpr h.effectiveFrom, mapM_readTime_ok_iff.mpr h.effectiveTo]
    change Except.ok _ = _
    rw [← h.dialPrefix, ← h.destination, ← h.initialIncrement, ← h.subsequentIncrement,
      ← h.minDuration, ← h.enabled]

theorem RateForm.toModel_default (now defaultFrom : Moment) {form : RateForm}
    (hfrom : form.effectiveFrom.filter (· ≠ []) = form.effectiveFrom) :
    (do let m ← form.toModel now
        return if form.effectiveFrom = none then { m with effectiveFrom := defaultFrom } else m) =
      form.toModel defaultFrom := by
  unfold RateForm.toModel
  rw [hfrom]
  cases form.effectiveFrom with
  | none =>
    simp
    rfl
  | some s => simp

/-- A record is read as a rate exactly if its line has a prefix and says the rate. -/
theorem readRate_ok_iff {r : Reading} {header record : List Csv.Cell} {rate : Csv.Cell}
    {x : DatedRate} : readRate r header record rate = .ok x ↔
      IsPrefix (formOf r.u header record rate).dialPrefix ∧
        (formOf r.u header record rate).Says r.defaultFrom x := by
  have hfrom : (formOf r.u header record rate).effectiveFrom.filter (· ≠ []) =
      (formOf r.u header record rate).effectiveFrom := by
    simp [formOf, Option.filter_filter]
  have hto : (formOf r.u header record rate).effectiveTo.filter (· ≠ []) =
      (formOf r.u header record rate).effectiveTo := by
    simp [formOf, Option.filter_filter]
  have hdial : IsPrefix (formOf r.u header record rate).dialPrefix ↔
      ¬ ((formOf r.u header record rate).dialPrefix = [] ∨
        ¬ (formOf r.u header record rate).dialPrefix.all Char.isDigit = true ∨
        15 < (formOf r.u header record rate).dialPrefix.length) := by
    rw [not_or, not_or, not_not, not_lt]
    rfl
  rw [← RateForm.toModel_ok_iff hfrom hto, ← RateForm.toModel_default r.now r.defaultFrom hfrom,
    hdial, readRate]
  by_cases hbad : (formOf r.u header record rate).dialPrefix = [] ∨
      ¬ (formOf r.u header record rate).dialPrefix.all Char.isDigit = true ∨
      15 < (formOf r.u header record rate).dialPrefix.length
  · rw [if_pos hbad]
    exact iff_of_false (fun h => by cases h) (fun h => h.1 hbad)
  · rw [if_neg hbad]
    exact (and_iff_right hbad).symm

/-- A line that is not blank, with the cell of its rate. -/
def rateLine (rateCol : ℕ) : Except Csv.Error (List Csv.Cell) → Option (List Csv.Cell × Csv.Cell)
  | .error _ => none
  | .ok record => if isBlank record then none else record[rateCol]?.map (record, ·)

def rateLines (rateCol : ℕ) (text : List Char) : List (List Csv.Cell × Csv.Cell) :=
  (Csv.readAll text).filterMap (rateLine rateCol)

theorem Parsed.step_clean {r : Reading} {header : List Csv.Cell} {rateCol : ℕ} {p q : Parsed}
    {record : Except Csv.Error (List Csv.Cell)} (hstep : p.step r header rateCol record = some q)
    (hclean : q.bad = []) :
    p.bad = [] ∧ q.rates.map .ok = p.rates.map .ok ++
      (rateLine rateCol record).toList.map (fun l => readRate r header l.1 l.2) := by
  have hreject {why : Rejection} : (p.reject why).bad ≠ [] := by simp [Parsed.reject]
  cases record with
  | error e =>
    cases hstep
    exact absurd hclean hreject
  | ok record =>
    unfold Parsed.step at hstep
    unfold rateLine
    dsimp only at hstep ⊢
    split_ifs at hstep ⊢
    · cases hstep
      exact ⟨hclean, by simp⟩
    · obtain ⟨rate, hrate, rfl⟩ := Option.map_eq_some_iff.mp hstep
      rw [hrate]
      cases hx : readRate r header record rate with
      | error why =>
        rw [hx] at hclean
        exact absurd hclean hreject
      | ok x =>
        rw [hx] at hclean
        unfold Parsed.take at hclean ⊢
        dsimp only at hclean ⊢
        split_ifs at hclean ⊢
        · exact absurd hclean hreject
        · exact ⟨hclean, by simp [hx]⟩

/-- Without an error the rates are what the lines say, one by one. -/
theorem readRates_clean {r : Reading} {header : List Csv.Cell} {rateCol steps : ℕ} {p q : Parsed}
    {text : List Char} (hrun : readRates r .eof header rateCol steps p text = .returned q)
    (hclean : q.bad = []) :
    p.bad = [] ∧ q.rates.map .ok =
      p.rates.map .ok ++ (rateLines rateCol text).map (fun l => readRate r header l.1 l.2) := by
  induction steps generalizing p text with
  | zero => cases hrun
  | succ steps ih =>
    unfold readRates at hrun
    cases hread : Csv.read .eof text with
    | none =>
      rw [hread] at hrun
      cases hrun
      exact ⟨hclean, by simp [rateLines, Csv.readAll_nil hread]⟩
    | some s =>
      rw [hread] at hrun
      dsimp only at hrun
      cases hstep : p.step r header rateCol s.record with
      | none =>
        rw [hstep] at hrun
        cases hrun
      | some next =>
        rw [hstep] at hrun
        obtain ⟨hnext, hrates⟩ := ih hrun
        obtain ⟨hbad, htaken⟩ := Parsed.step_clean hstep hnext
        have hlines : rateLines rateCol text =
            (rateLine rateCol s.record).toList ++ rateLines rateCol s.rest := by
          rw [rateLines, Csv.readAll_cons hread, List.filterMap_cons]
          cases rateLine rateCol s.record <;> rfl
        exact ⟨hbad, by rw [hrates, htaken, hlines, List.map_append, List.append_assoc]⟩

/-- No two rates of a reading have one key. -/
def Parsed.Distinct (p : Parsed) : Prop := (p.rates.map DatedRate.key).Nodup

theorem Parsed.Distinct.step {r : Reading} {header : List Csv.Cell} {rateCol : ℕ} {p q : Parsed}
    (h : p.Distinct) {record : Except Csv.Error (List Csv.Cell)}
    (hstep : p.step r header rateCol record = some q) : q.Distinct := by
  cases record with
  | error e => exact Option.some.inj hstep ▸ h
  | ok record =>
    unfold Parsed.step at hstep
    dsimp only at hstep
    split_ifs at hstep
    · exact Option.some.inj hstep ▸ h
    · obtain ⟨rate, -, rfl⟩ := Option.map_eq_some_iff.mp hstep
      cases readRate r header record rate with
      | error why => exact h
      | ok x =>
        unfold Parsed.take
        dsimp only
        split_ifs with hseen
        · exact h
        · unfold Parsed.Distinct
          rw [List.map_append, List.nodup_append]
          refine ⟨h, List.nodup_singleton _, fun key hkey other hother hsame => hseen ?_⟩
          rw [List.mem_singleton.mp hother] at hsame
          exact hsame ▸ hkey

end Reading

section Import

variable {x y : DatedRate} {deck after rates : List DatedRate}

theorem assign_val_eq_iff {amount : Decimal} (hnonneg : 0 ≤ amount) :
    (∃ m, Numeric.assign 18 6 amount = some m ∧ m.val = amount) ↔ SixPlaces amount := by
  constructor
  · rintro ⟨m, -, rfl⟩
    have hunits : (m.units : ℚ) < 10 ^ 18 := by exact_mod_cast (le_abs_self _).trans_lt m.bound
    refine ⟨m.val_onScale, ?_⟩
    rw [Numeric.val, div_lt_iff₀ (by norm_num)]
    linarith
  · rintro ⟨hscale, hsmall⟩
    obtain ⟨n, hn⟩ := onScale_iff.mp hscale
    have hpos : (0 : ℚ) ≤ n := by rw [← hn]; positivity
    have hbound : |n| < 10 ^ 18 := by
      rw [abs_of_nonneg (by exact_mod_cast hpos)]
      have hlt : (n : ℚ) < 10 ^ 18 := by rw [← hn]; linarith
      exact_mod_cast hlt
    have hval : (⟨n, hbound⟩ : Numeric 18 6).val = amount := by
      rw [Numeric.val, ← hn]
      exact mul_div_cancel_right₀ _ (by norm_num)
    exact ⟨⟨n, hbound⟩, by rw [← hval, Numeric.assign_val], hval⟩

theorem storedTime_eq_iff {m : Moment} : storedTime m = m.utc ↔ 1000 ∣ m.nanos := by
  rw [storedTime, Moment.utc, Moment.mk.injEq]
  omega

theorem int4From_default_iff {n : ℤ} :
    Int4From 1 (if n = 0 then 60 else n) ↔ Int4From 0 n := by
  unfold Int4From
  split_ifs <;> omega

theorem DatedRate.store_eq_iff (hrate : 0 ≤ x.ratePerMin) (hfee : 0 ≤ x.connectFee)
    (hdial : IsPrefix x.dialPrefix.toList) :
    x.store = some x.utc ↔ SixPlaces x.ratePerMin ∧ SixPlaces x.connectFee ∧ x.InRange ∧
      1000 ∣ x.effectiveFrom.nanos ∧ ∀ m ∈ x.effectiveTo, 1000 ∣ m.nanos := by
  have hto : x.effectiveTo.map storedTime = x.effectiveTo.map Moment.utc ↔
      ∀ m ∈ x.effectiveTo, 1000 ∣ m.nanos := by
    cases x.effectiveTo <;> simp [storedTime_eq_iff]
  rw [← hto, ← storedTime_eq_iff, ← assign_val_eq_iff hrate, ← assign_val_eq_iff hfee]
  constructor
  · intro h
    unfold DatedRate.store at h
    split at h
    · rename_i rate fee hr hf
      split_ifs at h with hchecks
      have hsame := Option.some.inj h
      exact ⟨⟨rate, hr, congrArg (·.ratePerMin) hsame⟩, ⟨fee, hf, congrArg (·.connectFee) hsame⟩,
        hchecks.2.2.2.2, congrArg DatedRate.effectiveFrom hsame,
        congrArg DatedRate.effectiveTo hsame⟩
    · cases h
  · rintro ⟨⟨rate, hr, hrate'⟩, ⟨fee, hf, hfee'⟩, hrange, hfrom, hto⟩
    have hne : x.dialPrefix ≠ "" := fun h => hdial.1 (by rw [h]; rfl)
    unfold DatedRate.store
    rw [hr, hf]
    dsimp only
    rw [hrate', hfee', if_pos ⟨hrate, hfee, hne, hdial.2.1, hrange⟩, hfrom, hto]
    rfl

/-- The table keeps a rate as it is exactly if its line is storable. -/
theorem RateForm.Says.store_iff {defaultFrom : Moment} {form : RateForm}
    (h : form.Says defaultFrom x) (hdial : IsPrefix form.dialPrefix) :
    x.store = some x.utc ↔ form.Storable defaultFrom := by
  have hfee : SixPlaces x.connectFee ↔
      (form.connectFee ≠ [] → ∀ a ∈ newFromString form.connectFee, SixPlaces a) := by
    have hfee := h.connectFee
    split_ifs at hfee with hempty
    · rw [hfee]
      exact iff_of_true ⟨OnScale.zero 6, by norm_num⟩ (fun hne => absurd hempty hne)
    · simp [hfee, hempty]
  have hto : (∀ m ∈ x.effectiveTo, 1000 ∣ m.nanos) ↔
      ∀ s ∈ form.effectiveTo, ∀ m ∈ parseTime s, 1000 ∣ m.nanos := by
    have hto := h.effectiveTo
    cases hgiven : form.effectiveTo <;> cases hread : x.effectiveTo <;> simp_all
  rw [DatedRate.store_eq_iff h.rate_nonneg h.fee_nonneg
    (by rw [h.dialPrefix, String.toList_ofList]; exact hdial), hfee, hto, RateInput.InRange,
    h.destination, String.toList_ofList, h.initialIncrement, h.subsequentIncrement, h.minDuration,
    int4From_default_iff, int4From_default_iff]
  constructor
  · rintro ⟨hrate, hfee, ⟨hdestination, hinitial, hsubsequent, hmin⟩, hfrom, hto⟩
    exact ⟨by simpa [h.ratePerMin] using hrate, hfee, hdestination, hinitial, hsubsequent, hmin,
      by simpa [h.effectiveFrom] using hfrom, hto⟩
  · rintro ⟨hrate, hfee, hdestination, hinitial, hsubsequent, hmin, hfrom, hto⟩
    exact ⟨hrate _ h.ratePerMin, hfee, ⟨hdestination, hinitial, hsubsequent, hmin⟩,
      hfrom _ h.effectiveFrom, hto⟩

theorem mem_upsertRow (deck : List DatedRate) (x : DatedRate) : x ∈ upsertRow deck x := by
  unfold upsertRow
  split_ifs with hfound
  · obtain ⟨old, hold, hkey⟩ := List.mem_map.mp hfound
    exact List.mem_map.mpr ⟨old, hold, if_pos hkey⟩
  · exact List.mem_append_right _ (List.mem_singleton_self _)

theorem mem_upsertRow_of_mem (hy : y ∈ deck) (hkey : y.tableKey ≠ x.tableKey) :
    y ∈ upsertRow deck x := by
  unfold upsertRow
  split_ifs
  · exact List.mem_map.mpr ⟨y, hy, if_neg hkey⟩
  · exact List.mem_append_left _ hy

/-- Rates that are stored as they are and share no key are all in the deck in
the end, and so are the rows with other keys. -/
theorem importDeck_mem (hstore : ∀ x ∈ rates, x.store = some x.utc)
    (hkeys : (rates.map DatedRate.tableKey).Nodup) (deck : List DatedRate) :
    ∃ after, importDeck deck rates false = some (after, rates.length) ∧
      (∀ x ∈ rates, x.utc ∈ after) ∧
      ∀ y ∈ deck, y.tableKey ∉ rates.map DatedRate.tableKey → y ∈ after := by
  suffices hfold : ∃ after, rates.foldlM (fun deck x => x.store.map (upsertRow deck)) deck =
      some after ∧ (∀ x ∈ rates, x.utc ∈ after) ∧
      ∀ y ∈ deck, y.tableKey ∉ rates.map DatedRate.tableKey → y ∈ after by
    obtain ⟨after, himport, hall⟩ := hfold
    exact ⟨after, by rw [importDeck, if_neg Bool.false_ne_true, himport, Option.map_some], hall⟩
  induction rates generalizing deck with
  | nil => exact ⟨deck, rfl, by simp, fun y hy _ => hy⟩
  | cons x rest ih =>
    rw [List.map_cons, List.nodup_cons] at hkeys
    obtain ⟨after, himport, hmem, hkept⟩ := ih (fun y hy => hstore y (List.mem_cons_of_mem _ hy))
      hkeys.2 (upsertRow deck x.utc)
    refine ⟨after, ?_, fun y hy => ?_, fun y hy hkey => ?_⟩
    · rw [List.foldlM_cons, hstore x List.mem_cons_self]
      exact himport
    · rcases List.mem_cons.mp hy with rfl | hy
      · exact hkept _ (mem_upsertRow deck _) hkeys.1
      · exact hmem y hy
    · rw [List.map_cons, List.mem_cons, not_or] at hkey
      exact hkept y (mem_upsertRow_of_mem hy hkey.1) hkey.2

theorem mem_of_mem_upsertRow {row : DatedRate} (h : row ∈ upsertRow deck x) :
    row ∈ deck ∨ row = x := by
  unfold upsertRow at h
  split_ifs at h
  · obtain ⟨old, hold, rfl⟩ := List.mem_map.mp h
    split_ifs
    · exact .inr rfl
    · exact .inl hold
  · simpa using h

/-- The rows of an import are those of the deck and what the rates became. -/
theorem importDeck_stores {row : DatedRate} {n : ℕ}
    (h : importDeck deck rates false = some (after, n)) (hrow : row ∈ after) :
    row ∈ deck ∨ ∃ x ∈ rates, x.store = some row := by
  obtain ⟨after', hfold, hsame⟩ := Option.map_eq_some_iff.mp h
  obtain rfl : after' = after := congrArg Prod.fst hsame
  rw [if_neg Bool.false_ne_true] at hfold
  clear h hsame
  induction rates generalizing deck with
  | nil =>
    cases hfold
    exact .inl hrow
  | cons x rest ih =>
    rw [List.foldlM_cons] at hfold
    obtain ⟨mid, hmid, hfold⟩ := Option.bind_eq_some_iff.mp hfold
    obtain ⟨new, hnew, rfl⟩ := Option.map_eq_some_iff.mp hmid
    rcases ih hfold with hold | ⟨y, hy, hstore⟩
    · rcases mem_of_mem_upsertRow hold with hold | rfl
      · exact .inl hold
      · exact .inr ⟨x, List.mem_cons_self, hnew⟩
    · exact .inr ⟨y, List.mem_cons_of_mem _ hy, hstore⟩

theorem DatedRate.tableKey_store {row : DatedRate} (h : x.store = some row) :
    row.dialPrefix = x.dialPrefix ∧ row.effectiveFrom = storedTime x.effectiveFrom := by
  unfold DatedRate.store at h
  split at h
  · split_ifs at h
    cases h
    exact ⟨rfl, rfl⟩
  · cases h

/-- Rates that share no key are imported as they are, into every deck, exactly if
the table keeps each as it is. -/
theorem importDeck_iff (hkeys : (rates.map DatedRate.tableKey).Nodup) :
    (∀ deck, ∃ after, importDeck deck rates false = some (after, rates.length) ∧
      ∀ x ∈ rates, x.utc ∈ after) ↔ ∀ x ∈ rates, x.store = some x.utc := by
  constructor
  · intro h
    obtain ⟨after, himport, hmem⟩ := h []
    have hstored : ∀ x ∈ rates, ∃ z ∈ rates, z.store = some x.utc :=
      fun x hx => (importDeck_stores himport (hmem x hx)).resolve_left List.not_mem_nil
    -- nothing below a microsecond is in the deck, so no rate has it
    have hwhole : ∀ x ∈ rates, x.effectiveFrom.nanos / 1000 * 1000 = x.effectiveFrom.nanos := by
      intro x hx
      obtain ⟨z, -, hz⟩ := hstored x hx
      have htime : x.effectiveFrom.nanos = z.effectiveFrom.nanos / 1000 * 1000 :=
        congrArg Moment.nanos (DatedRate.tableKey_store hz).2
      omega
    intro x hx
    obtain ⟨z, hzmem, hz⟩ := hstored x hx
    obtain ⟨hdial, htime⟩ := DatedRate.tableKey_store hz
    have hnanos : x.effectiveFrom.nanos = z.effectiveFrom.nanos / 1000 * 1000 :=
      congrArg Moment.nanos htime
    have hsame : z.tableKey = x.tableKey := Prod.ext hdial.symm (by
      rw [DatedRate.tableKey, DatedRate.tableKey, hnanos, hwhole z hzmem])
    exact List.inj_on_of_nodup_map hkeys hzmem hx hsame ▸ hz
  · intro h deck
    obtain ⟨after, himport, hmem, -⟩ := importDeck_mem h hkeys deck
    exact ⟨after, himport, hmem⟩

/-- Lines the table keeps as they are, in which one instant has one offset for
each prefix. -/
def DeckStorable (defaultFrom : Moment) (forms : List RateForm) : Prop :=
  (∀ f ∈ forms, f.Storable defaultFrom) ∧
    ∀ f ∈ forms, ∀ g ∈ forms, f.dialPrefix = g.dialPrefix →
      ∀ m ∈ f.start defaultFrom, ∀ n ∈ g.start defaultFrom, m.nanos = n.nanos → m.offset = n.offset

/-- Rates and lines that say them. -/
def SaidBy (defaultFrom : Moment) (rates : List DatedRate) (forms : List RateForm) : Prop :=
  (∀ x ∈ rates, ∃ f ∈ forms, IsPrefix f.dialPrefix ∧ f.Says defaultFrom x) ∧
    ∀ f ∈ forms, ∃ x ∈ rates, IsPrefix f.dialPrefix ∧ f.Says defaultFrom x

theorem SaidBy.imports_iff {defaultFrom : Moment} {forms : List RateForm}
    (hsaid : SaidBy defaultFrom rates forms) (hdistinct : (rates.map DatedRate.key).Nodup) :
    ((rates.map DatedRate.tableKey).Nodup ∧ ∀ deck, ∃ after,
        importDeck deck rates false = some (after, rates.length) ∧ ∀ x ∈ rates, x.utc ∈ after) ↔
      DeckStorable defaultFrom forms := by
  constructor
  · rintro ⟨hkeys, himport⟩
    have hstore := (importDeck_iff hkeys).mp himport
    refine ⟨fun f hf => ?_, fun f hf g hg hdial m hm n hn hnanos => ?_⟩
    · obtain ⟨x, hx, hdial, hrate⟩ := hsaid.2 f hf
      exact (hrate.store_iff hdial).mp (hstore x hx)
    · obtain ⟨x, hx, -, hf⟩ := hsaid.2 f hf
      obtain ⟨y, hy, -, hg⟩ := hsaid.2 g hg
      obtain rfl := Option.some.inj (hf.effectiveFrom.symm.trans hm)
      obtain rfl := Option.some.inj (hg.effectiveFrom.symm.trans hn)
      have hsame : x.tableKey = y.tableKey :=
        Prod.ext (by rw [DatedRate.tableKey, hf.dialPrefix, hdial, ← hg.dialPrefix]; rfl) hnanos
      rw [List.inj_on_of_nodup_map hkeys hx hy hsame]
  · rintro ⟨hstorable, hzones⟩
    have hkeys : (rates.map DatedRate.tableKey).Nodup := by
      refine (List.nodup_map_iff_inj_on hdistinct.of_map).mpr (fun x hx y hy hsame => ?_)
      obtain ⟨f, hf, -, hx'⟩ := hsaid.1 x hx
      obtain ⟨g, hg, -, hy'⟩ := hsaid.1 y hy
      have hdial : x.dialPrefix = y.dialPrefix := congrArg Prod.fst hsame
      have hnanos : x.effectiveFrom.nanos = y.effectiveFrom.nanos := congrArg Prod.snd hsame
      have hzone := hzones f hf g hg
        (String.ofList_injective (by rw [← hx'.dialPrefix, hdial, hy'.dialPrefix]))
        _ hx'.effectiveFrom _ hy'.effectiveFrom hnanos
      have hfrom : x.effectiveFrom = y.effectiveFrom := Moment.ext hnanos hzone
      refine List.inj_on_of_nodup_map hdistinct hx hy ?_
      rw [DatedRate.key, DatedRate.key, hfrom, hdial]
    refine ⟨hkeys, (importDeck_iff hkeys).mpr (fun x hx => ?_)⟩
    obtain ⟨f, hf, hdial, hrate⟩ := hsaid.1 x hx
    exact (hrate.store_iff hdial).mpr (hstorable f hf)

end Import

theorem readRates_said {r : Reading} {header : List Csv.Cell} {rateCol steps : ℕ} {p : Parsed}
    {text : List Char}
    (hrun : readRates r .eof header rateCol steps ⟨[], [], 0, 1⟩ text = .returned p)
    (hclean : p.bad = []) :
    SaidBy r.defaultFrom p.rates
      ((rateLines rateCol text).map (fun l => formOf r.u header l.1 l.2)) := by
  obtain ⟨-, hlines⟩ := readRates_clean hrun hclean
  rw [List.map_nil, List.nil_append] at hlines
  refine ⟨fun x hx => ?_, fun f hf => ?_⟩
  · have hmem := List.mem_map_of_mem (f := Except.ok (ε := Rejection)) hx
    rw [hlines] at hmem
    obtain ⟨l, hl, hread⟩ := List.mem_map.mp hmem
    exact ⟨_, List.mem_map_of_mem hl, readRate_ok_iff.mp hread⟩
  · obtain ⟨l, hl, rfl⟩ := List.mem_map.mp hf
    have hmem := List.mem_map_of_mem (f := fun l => readRate r header l.1 l.2) hl
    rw [← hlines] at hmem
    obtain ⟨x, hx, hread⟩ := List.mem_map.mp hmem
    exact ⟨x, hx, readRate_ok_iff.mp hread.symm⟩

def sampleRate49 (initialIncrement : ℤ) : DatedRate where
  dialPrefix := "49"
  destination := ""
  ratePerMin := 1 / 10
  connectFee := 0
  initialIncrement := initialIncrement
  subsequentIncrement := 60
  minDuration := 0
  effectiveFrom := ⟨0, 0⟩
  effectiveTo := none
  enabled := true

def sampleBody (initialIncrement : String) : Body :=
  ⟨"prefix,rate,initial_increment\n49,0.1,".toList ++ initialIncrement.toList, .eof⟩

def sampleForm : RateForm := ⟨['4', '9'], [], "0.1".toList, [], 30, 0, 0, none, none, none⟩

theorem sampleForm_storable : sampleForm.Storable ⟨0, 0⟩ where
  ratePerMin x hx := by
    have hread : newFromString "0.1".toList = some (1 / 10) := by decide +kernel
    obtain rfl := Option.some.inj (hread.symm.trans hx)
    exact ⟨by decide +kernel, by norm_num⟩
  connectFee h := absurd rfl h
  destination := by decide
  initialIncrement := by decide
  subsequentIncrement := by decide
  minDuration := by decide
  effectiveFrom m hm := Option.some.inj hm ▸ by decide
  effectiveTo s hs := by cases hs

end SuperSbc.Admin
