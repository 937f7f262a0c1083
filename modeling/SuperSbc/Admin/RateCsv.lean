import SuperSbc.Admin.Rates
import SuperSbc.Calendar.Layouts
import SuperSbc.Csv.Reader
import SuperSbc.Text.Quote

/-!
Reading a rate deck from comma separated values: which columns a header gives,
what a record says, and the loop that takes record after record from the body
of a request. A record shorter than its header has empty values, except for the
rate, which is taken by its index.

The group a rate is read for is the one it is imported into and is not part of
it here. The messages of the reader are its own; they name a line and a column.
-/

namespace SuperSbc.Admin

open Calendar Rating Text

/-- `rateInput`: a rate as it is typed. -/
structure RateForm where
  dialPrefix : List Char
  destination : List Char
  ratePerMin : List Char
  connectFee : List Char
  initialIncrement : ℤ
  subsequentIncrement : ℤ
  minDuration : ℤ
  effectiveFrom : Option (List Char)
  effectiveTo : Option (List Char)
  enabled : Option Bool
deriving DecidableEq

/-- `model.Rate`, before it has a row. -/
structure DatedRate extends RateInput where
  effectiveFrom : Moment
  effectiveTo : Option Moment
  enabled : Bool
deriving DecidableEq

/-- Why a record is not taken. -/
inductive Rejection where
  | badPrefix (given : List Char)
  | badRate
  | badFee
  | badTime (column : String) (given : List Char)
  | duplicate (dialPrefix : String)
  | unreadable (e : Csv.Error)
  /-- `none` is the end of the file. -/
  | noHeader (e : Option Csv.Error)
  | noPrefix
  | noRate
deriving DecidableEq

def parseTime (s : List Char) : Option Moment :=
  [Layout.rfc3339, .dateTime, .spaced, .dateOnly].findSome? (parse · s)

/-- A decimal that is not negative. -/
def readAmount (why : Rejection) (s : List Char) : Except Rejection Decimal :=
  ((newFromString s).filter (0 ≤ ·)).elim (.error why) .ok

def readTime (column : String) (s : List Char) : Except Rejection Moment :=
  (parseTime s).elim (.error (.badTime column s)) .ok

def RateForm.toModel (now : Moment) (form : RateForm) : Except Rejection DatedRate := do
  let rate ← readAmount .badRate form.ratePerMin
  let fee ← (if form.connectFee = [] then .ok 0 else readAmount .badFee form.connectFee)
  let effectiveFrom ← (form.effectiveFrom.filter (· ≠ [])).elim (.ok now)
    (readTime "effective_from")
  let effectiveTo ← (form.effectiveTo.filter (· ≠ [])).mapM (readTime "effective_to")
  return {
    dialPrefix := String.ofList form.dialPrefix
    destination := String.ofList form.destination
    ratePerMin := rate
    connectFee := fee
    initialIncrement := if form.initialIncrement = 0 then 60 else form.initialIncrement
    subsequentIncrement := if form.subsequentIncrement = 0 then 60 else form.subsequentIncrement
    minDuration := form.minDuration
    effectiveFrom := effectiveFrom
    effectiveTo := effectiveTo
    enabled := form.enabled.getD true }

/-- What a reading of a deck depends on besides its text: Go's tables, the
time it is made at and the date of rates that give none. -/
structure Reading where
  u : Unicode
  now : Moment
  defaultFrom : Moment

/-- The name of a column: without a byte order mark, space and case. -/
def columnName (u : Unicode) (cell : Csv.Cell) : List Char :=
  (trimSpace (if cell.head? = some '\ufeff' then cell.tail else cell)).map u.lower

/-- Of two columns with one name the later counts. -/
def column (u : Unicode) (header : List Csv.Cell) (name : String) : Option ℕ :=
  (header.zipIdx.filter (fun cell => columnName u cell.1 = name.toList)).getLast?.map (·.2)

/-- The column of the rate, in a header that has what it must have. -/
def rateColumn (u : Unicode) (header : List Csv.Cell) : Except Rejection ℕ :=
  if column u header "prefix" = none then .error .noPrefix
  else ((column u header "rate_per_min").or (column u header "rate")).elim (.error .noRate) .ok

/-- `get`: empty where the record has no such column. -/
def get (u : Unicode) (header record : List Csv.Cell) (name : String) : List Char :=
  trimSpace (((column u header name).bind (record[·]?)).getD [])

def isBlank : List Csv.Cell → Bool
  | [] => true
  | [cell] => trimSpace cell = []
  | _ => false

def formOf (u : Unicode) (header record : List Csv.Cell) (rate : Csv.Cell) : RateForm :=
  let value := get u header record
  { dialPrefix := value "prefix"
    destination := value "destination"
    ratePerMin := trimSpace rate
    connectFee := value "connect_fee"
    initialIncrement := atoi (String.ofList (value "initial_increment"))
    subsequentIncrement := atoi (String.ofList (value "subsequent_increment"))
    minDuration := atoi (String.ofList (value "min_duration"))
    effectiveFrom := (some (value "effective_from")).filter (· ≠ [])
    effectiveTo := (some (value "effective_to")).filter (· ≠ [])
    enabled := (some ((value "enabled").map u.lower)).filter (· ≠ []) |>.map
      (fun v => ["true", "1", "yes", "y"].contains (String.ofList v)) }

/-- The rate of a record that has one. -/
def readRate (r : Reading) (header record : List Csv.Cell) (rate : Csv.Cell) :
    Except Rejection DatedRate := do
  let form := formOf r.u header record rate
  let m ← (if form.dialPrefix = [] ∨ ¬ form.dialPrefix.all Char.isDigit ∨
      15 < form.dialPrefix.length then .error (.badPrefix form.dialPrefix)
    else form.toModel r.now)
  return if form.effectiveFrom = none then { m with effectiveFrom := r.defaultFrom } else m

/-- What two rates of one deck may not share. -/
def DatedRate.key (x : DatedRate) : List Char :=
  x.dialPrefix.toList ++ '@' :: x.effectiveFrom.rfc3339

structure ImportRow where
  line : ℕ
  error : Rejection
deriving DecidableEq

structure Parsed where
  rates : List DatedRate
  bad : List ImportRow
  total : ℕ
  line : ℕ
deriving DecidableEq

def Parsed.reject (p : Parsed) (why : Rejection) : Parsed :=
  { p with bad := p.bad ++ [⟨p.line + 1, why⟩], total := p.total + 1, line := p.line + 1 }

/-- A record that is a rate, a duplicate or refused. -/
def Parsed.take (p : Parsed) : Except Rejection DatedRate → Parsed
  | .error why => p.reject why
  | .ok x =>
    if x.key ∈ p.rates.map DatedRate.key then p.reject (.duplicate x.dialPrefix)
    else { p with rates := p.rates ++ [x], total := p.total + 1, line := p.line + 1 }

/-- One record; `none` is an index out of range. -/
def Parsed.step (r : Reading) (header : List Csv.Cell) (rateCol : ℕ) (p : Parsed) :
    Except Csv.Error (List Csv.Cell) → Option Parsed
  | .error e => some (p.reject (.unreadable e))
  | .ok record =>
    if isBlank record then some { p with line := p.line + 1 }
    else record[rateCol]?.map (fun rate => p.take (readRate r header record rate))

inductive Run where
  /-- Not finished with the steps it was given. -/
  | running
  | panicked
  | returned (p : Parsed)
deriving DecidableEq

/-- The loop over the records, for a number of them. -/
def readRates (r : Reading) (ending : Csv.Ending) (header : List Csv.Cell) (rateCol : ℕ) :
    ℕ → Parsed → List Char → Run
  | 0, _, _ => .running
  | steps + 1, p, text =>
    match Csv.read ending text with
    | none => .returned p
    | some s =>
      match p.step r header rateCol s.record with
      | none => .panicked
      | some q => readRates r ending header rateCol steps q s.rest

/-- The body of a request: what its text is and how it ends. -/
structure Body where
  text : List Char
  ending : Csv.Ending

/-- A header, the column of its rate and the text after it. -/
def Body.header (u : Unicode) (b : Body) : Except Rejection (List Csv.Cell × ℕ × List Char) :=
  match Csv.read b.ending (Csv.dropReturns b.text) with
  | none => .error (.noHeader none)
  | some ⟨.error e, _⟩ => .error (.noHeader (some e))
  | some ⟨.ok header, rest⟩ => (rateColumn u header).map (fun rateCol => (header, rateCol, rest))

/-- `parseRatesCSV`, for a number of records. -/
def parseRatesCSV (r : Reading) (b : Body) (steps : ℕ) : Run :=
  match b.header r.u with
  | .error why => .returned ⟨[], [⟨1, why⟩], 0, 1⟩
  | .ok (header, rateCol, rest) =>
    readRates r b.ending header rateCol steps ⟨[], [], 0, 1⟩ rest

section Accounting

variable {r : Reading} {header : List Csv.Cell} {rateCol : ℕ} {p q : Parsed}

/-- Every counted record is a rate or was refused. -/
def Parsed.Counted (p : Parsed) : Prop := p.total = p.rates.length + p.bad.length

theorem Parsed.Counted.take (h : p.Counted) (x : Except Rejection DatedRate) :
    (p.take x).Counted := by
  unfold Parsed.Counted at h ⊢
  unfold Parsed.take
  cases x with
  | error why =>
    simp only [Parsed.reject, List.length_append, List.length_singleton]
    omega
  | ok x =>
    dsimp only
    split_ifs
    · simp only [Parsed.reject, List.length_append, List.length_singleton]
      omega
    · simp only [List.length_append, List.length_singleton]
      omega

theorem Parsed.Counted.step (h : p.Counted) {record : Except Csv.Error (List Csv.Cell)}
    (hstep : p.step r header rateCol record = some q) : q.Counted := by
  cases record with
  | error e => exact Option.some.inj hstep ▸ h.take (.error (.unreadable e))
  | ok record =>
    unfold Parsed.step at hstep
    dsimp only at hstep
    split_ifs at hstep
    · exact Option.some.inj hstep ▸ h
    · obtain ⟨rate, -, rfl⟩ := Option.map_eq_some_iff.mp hstep
      exact h.take _

theorem readRates_invariant (P : Parsed → Prop)
    (hstep : ∀ p q record, P p → p.step r header rateCol record = some q → P q)
    {ending : Csv.Ending} {steps : ℕ} {text : List Char} (h : P p)
    (hrun : readRates r ending header rateCol steps p text = .returned q) : P q := by
  induction steps generalizing p text with
  | zero => cases hrun
  | succ steps ih =>
    unfold readRates at hrun
    split at hrun
    · cases hrun
      exact h
    · split at hrun
      · cases hrun
      · rename_i hnext
        exact ih (hstep _ _ _ h hnext) hrun

/-- A record that is not blank has the column of the rate. -/
def Reaches (rateCol : ℕ) (record : List Csv.Cell) : Prop :=
  isBlank record = false → rateCol < record.length

theorem Parsed.exists_step_iff (r : Reading) (header : List Csv.Cell) (rateCol : ℕ) (p : Parsed)
    (record : Except Csv.Error (List Csv.Cell)) :
    (∃ q, p.step r header rateCol record = some q) ↔
      ∀ cells, .ok cells = record → Reaches rateCol cells := by
  cases record with
  | error e => simp [Parsed.step]
  | ok cells =>
    cases hblank : isBlank cells <;>
      simp [Parsed.step, Reaches, hblank, ← Option.isSome_iff_exists, isSome_getElem?]

theorem readRates_fails (steps : ℕ) (p : Parsed) (text : List Char) :
    readRates r .fails header rateCol steps p text ≠ .returned q := by
  induction steps generalizing p text with
  | zero => exact Run.noConfusion
  | succ steps ih =>
    unfold readRates
    split
    · exact absurd ‹_› (Csv.read_fails_ne_none text)
    · split
      · exact Run.noConfusion
      · exact ih _ _

/-- A body that ends is read to its end unless a record is too short. -/
theorem readRates_returns_iff (r : Reading) (header : List Csv.Cell) (p : Parsed)
    (text : List Char) :
    (∃ steps q, readRates r .eof header rateCol steps p text = .returned q) ↔
      ∀ record, .ok record ∈ Csv.readAll text → Reaches rateCol record := by
  induction hlength : text.length using Nat.strong_induction_on generalizing p text with
  | _ length ih =>
    subst hlength
    -- one turn of the loop, whatever steps are left after it
    have hturn : (∃ steps q, readRates r .eof header rateCol steps p text = .returned q) ↔
        ∃ steps q, readRates r .eof header rateCol (steps + 1) p text = .returned q := by
      constructor
      · rintro ⟨steps, q, hrun⟩
        cases steps with
        | zero => cases hrun
        | succ steps => exact ⟨steps, q, hrun⟩
      · rintro ⟨steps, q, hrun⟩
        exact ⟨steps + 1, q, hrun⟩
    rw [hturn]
    cases hread : Csv.read .eof text with
    | none => simp [readRates, hread, Csv.readAll_nil hread]
    | some s =>
      have hfirst := Parsed.exists_step_iff r header rateCol p s.record
      have hrest := fun q => ih _ (Csv.length_read_rest hread) q s.rest rfl
      simp only [readRates, hread, Csv.readAll_cons hread, List.mem_cons, or_imp, forall_and]
      cases hstep : p.step r header rateCol s.record with
      | none =>
        rw [hstep] at hfirst
        refine iff_of_false (by simp) (fun hall => ?_)
        simpa using hfirst.mpr (fun cells hcells => hall.1 cells hcells)
      | some q =>
        rw [hstep] at hfirst
        rw [and_iff_right (hfirst.mp ⟨q, rfl⟩)]
        exact hrest q

end Accounting

/-- The loop over a body returns, with every counted record among the rates or
the refused, exactly if there is no loop because the header is refused, or the
body comes to its end and no record that is not blank is too short for the
column of the rate. -/
theorem parseRatesCSV_accounts_iff (r : Reading) (b : Body) :
    (∃ steps p, parseRatesCSV r b steps = .returned p ∧
      (∀ found, b.header r.u = .ok found → p.total = p.rates.length + p.bad.length)) ↔
    ∀ header rateCol rest, b.header r.u = .ok (header, rateCol, rest) →
      b.ending = .eof ∧ ∀ record, .ok record ∈ Csv.readAll rest → Reaches rateCol record := by
  unfold parseRatesCSV
  cases hheader : b.header r.u with
  | error why =>
    refine iff_of_true ⟨0, _, rfl, fun found hfound => ?_⟩ (fun header rateCol rest hfound => ?_)
    · cases hfound
    · cases hfound
  | ok found =>
    obtain ⟨header, rateCol, rest⟩ := found
    have hstart : Parsed.Counted ⟨[], [], 0, 1⟩ := rfl
    dsimp only
    constructor
    · rintro ⟨steps, p, hrun, -⟩ header' rateCol' rest' hsame
      cases hsame
      cases hending : b.ending with
      | fails =>
        rw [hending] at hrun
        exact absurd hrun (readRates_fails steps _ _)
      | eof =>
        rw [hending] at hrun
        exact ⟨rfl, (readRates_returns_iff r header _ rest).mp ⟨steps, p, hrun⟩⟩
    · intro hall
      obtain ⟨hending, hrecords⟩ := hall header rateCol rest rfl
      obtain ⟨steps, p, hrun⟩ := (readRates_returns_iff r header ⟨[], [], 0, 1⟩ rest).mpr hrecords
      refine ⟨steps, p, hending ▸ hrun, fun _ _ =>
        readRates_invariant Parsed.Counted (fun _ _ _ h => h.step) hstart hrun⟩

def sampleReading : Reading := ⟨.ascii, ⟨0, 0⟩, ⟨0, 0⟩⟩

/-- A record without the second column of its header ends the process, and a
body that fails after its header is read for ever. -/
theorem short_record_panics :
    parseRatesCSV sampleReading ⟨"prefix,rate\n49\n".toList, .eof⟩ 1 = .panicked ∧
      ∀ steps p, parseRatesCSV sampleReading ⟨"prefix,rate\n".toList, .fails⟩ steps ≠
        .returned p := by
  refine ⟨by decide +kernel, fun steps p => ?_⟩
  have hheader : Body.header .ascii ⟨"prefix,rate\n".toList, .fails⟩ =
      .ok (["prefix".toList, "rate".toList], 1, []) := by
    decide +kernel
  unfold parseRatesCSV
  rw [show sampleReading.u = .ascii from rfl, hheader]
  exact readRates_fails steps _ _

end SuperSbc.Admin
