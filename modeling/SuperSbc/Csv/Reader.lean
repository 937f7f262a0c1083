import SuperSbc.Text.Reading

/-!
Comma separated values, as Go's `encoding/csv` reads them when it trims leading
space, takes no lazy quotes, knows no comments and asks for no number of fields.

A source is a text that comes to its end, or after which every read gives the
same error.
-/

namespace SuperSbc.Csv

open Text

/-- What a source gives after its text. -/
inductive Ending where
  | eof
  | fails
deriving DecidableEq

inductive Error where
  /-- `ErrBareQuote` -/
  | bareQuote
  /-- `ErrQuote` -/
  | quote
  /-- The source's own error. -/
  | read
deriving DecidableEq

abbrev Cell := List Char

/-- Lines end in `\n`: the reader drops a `\r` before it, and one that is the
last character of all. -/
def dropReturns : List Char → List Char
  | [] => []
  | c :: rest =>
    if c = '\r' ∧ (rest = [] ∨ rest.head? = some '\n') then dropReturns rest
    else c :: dropReturns rest

/-- Where in a record the reader is. -/
inductive Mode where
  /-- Before a field, whose leading space is dropped. -/
  | start
  | bare (cell : Cell)
  | quoted (cell : Cell)
  /-- After a quote inside a quoted field. -/
  | closed (cell : Cell)
  /-- After an error: what is left of the line is dropped. -/
  | broken (e : Error)

inductive Step where
  | goes (mode : Mode)
  | field (cell : Cell)
  | record (cell : Cell)
  | fails (e : Error)

def step : Mode → Char → Step
  | .start, c =>
    if c = '"' then .goes (.quoted [])
    else if c = ',' then .field []
    else if c = '\n' then .record []
    else if isSpace c then .goes .start
    else .goes (.bare [c])
  | .bare cell, c =>
    if c = ',' then .field cell
    else if c = '\n' then .record cell
    else if c = '"' then .goes (.broken .bareQuote)
    else .goes (.bare (cell ++ [c]))
  | .quoted cell, c =>
    if c = '"' then .goes (.closed cell) else .goes (.quoted (cell ++ [c]))
  | .closed cell, c =>
    if c = '"' then .goes (.quoted (cell ++ ['"']))
    else if c = ',' then .field cell
    else if c = '\n' then .record cell
    else .goes (.broken .quote)
  | .broken e, c => if c = '\n' then .fails e else .goes (.broken e)

/-- The last field of a record that the text ends in. -/
def Mode.finish : Ending → Mode → Except Error Cell
  | _, .broken e => .error e
  | .fails, _ => .error .read
  | .eof, .start => .ok []
  | .eof, .bare cell => .ok cell
  | .eof, .quoted _ => .error .quote
  | .eof, .closed cell => .ok cell

/-- A record, and the text after it. -/
structure Scan where
  record : Except Error (List Cell)
  rest : List Char
deriving DecidableEq

def scan (ending : Ending) : Mode → List Cell → List Char → Scan
  | mode, cells, [] => ⟨(mode.finish ending).map (fun cell => cells ++ [cell]), []⟩
  | mode, cells, c :: rest =>
    match step mode c with
    | .goes mode => scan ending mode cells rest
    | .field cell => scan ending .start (cells ++ [cell]) rest
    | .record cell => ⟨.ok (cells ++ [cell]), rest⟩
    | .fails e => ⟨.error e, rest⟩

/-- `Reader.Read`, on a text without the dropped returns; `none` is `io.EOF`.
Empty lines are passed over. -/
def read (ending : Ending) (text : List Char) : Option Scan :=
  match text.dropWhile (· = '\n'), ending with
  | [], .eof => none
  | [], .fails => some ⟨.error .read, []⟩
  | c :: line, _ => some (scan ending .start [] (c :: line))

section Progress

variable {text : List Char} {s : Scan}

theorem length_scan_rest (ending : Ending) (mode : Mode) (cells : List Cell) (text : List Char) :
    (scan ending mode cells text).rest.length ≤ text.length - 1 := by
  induction text generalizing mode cells with
  | nil => exact le_rfl
  | cons c rest ih =>
    have hbefore (mode : Mode) (cells : List Cell) :
        (scan ending mode cells rest).rest.length ≤ rest.length :=
      (ih mode cells).trans (Nat.sub_le _ _)
    rw [scan, List.length_cons, Nat.add_sub_cancel]
    cases step mode c with
    | goes mode => exact hbefore mode cells
    | field cell => exact hbefore .start _
    | record cell | fails e => exact le_rfl

theorem length_read_rest (h : read .eof text = some s) :
    s.rest.length < text.length := by
  have hshort : (text.dropWhile (· = '\n')).length ≤ text.length :=
    (List.dropWhile_suffix _).length_le
  unfold read at h
  cases hline : text.dropWhile (· = '\n') with
  | nil =>
    rw [hline] at h
    cases h
  | cons c line =>
    rw [hline] at h hshort
    obtain rfl := Option.some.inj h
    have hrest := length_scan_rest .eof .start [] (c :: line)
    rw [List.length_cons] at hrest hshort
    omega

theorem read_fails_ne_none (text : List Char) : read .fails text ≠ none := by
  unfold read
  cases text.dropWhile (· = '\n') with
  | nil | cons c line => exact Option.some_ne_none _

/-- What a whole text that comes to its end is read as. -/
def readUpTo : ℕ → List Char → List (Except Error (List Cell))
  | 0, _ => []
  | bound + 1, text =>
    match read .eof text with
    | none => []
    | some s => s.record :: readUpTo bound s.rest

def readAll (text : List Char) : List (Except Error (List Cell)) :=
  readUpTo (text.length + 1) text

theorem readUpTo_congr (bound bound' : ℕ) {text : List Char} (h : text.length < bound)
    (h' : text.length < bound') : readUpTo bound text = readUpTo bound' text := by
  induction bound generalizing bound' text with
  | zero => omega
  | succ bound ih =>
    cases bound' with
    | zero => omega
    | succ bound' =>
      unfold readUpTo
      cases hread : read .eof text with
      | none => rfl
      | some s =>
        have hshort := length_read_rest hread
        dsimp only
        rw [ih bound' (by omega) (by omega)]

theorem readAll_nil (h : read .eof text = none) : readAll text = [] := by
  rw [readAll, readUpTo, h]

theorem readAll_cons (h : read .eof text = some s) :
    readAll text = s.record :: readAll s.rest := by
  have hshort := length_read_rest h
  rw [readAll, readUpTo, h, readAll]
  dsimp only
  rw [readUpTo_congr _ (s.rest.length + 1) hshort (Nat.lt_succ_self _)]

end Progress

end SuperSbc.Csv
