import SuperSbc.ReadCommitted.Database

/-!
Transaction bodies as programs over single statements, their execution alone,
and a weakest-precondition rule for their execution among others.

At READ COMMITTED a statement sees the rows committed before it started and
the transaction's own writes. A row that was locked, updated, inserted or
deleted stays with the transaction until it ends, so what was read from it is
still true at commit. Everything else is only known to have been true of some
committed state in between: a plain `SELECT`, a `SELECT FOR UPDATE` or
`UPDATE` that found no row, and an `INSERT` that met a conflict. The rule
`Transaction.wp` makes exactly that difference.
-/

namespace SuperSbc.ReadCommitted

/-- What an `UPDATE` does to the row it addresses: its `WHERE` clause does
not hold, it writes a row, or the row it would write violates a constraint. -/
inductive Change (ρ : Type) where
  | skip
  | put (row : ρ)
  | violate

/-- A transaction body. `ret` commits, `fail` rolls back. `query` is any plain
`SELECT`, `lock` is `SELECT ... FOR UPDATE`, `insert` is `INSERT ... ON
CONFLICT DO NOTHING` and `update` is `UPDATE ... WHERE ... RETURNING`, the
last four on one row. -/
inductive Transaction (Key : Type) (Row : Key → Type) (Entry Err α : Type) where
  | ret (value : α)
  | fail (error : Err)
  | query (next : Database Key Row Entry → Transaction Key Row Entry Err α)
  | lock (key : Key) (next : Option (Row key) → Transaction Key Row Entry Err α)
  | insert (key : Key) (row : Row key) (next : Bool → Transaction Key Row Entry Err α)
  | update (key : Key) (change : Row key → Change (Row key))
      (next : Option (Row key) → Transaction Key Row Entry Err α)
  | delete (key : Key) (next : Transaction Key Row Entry Err α)
  | append (entry : Entry) (next : Transaction Key Row Entry Err α)

variable {Key : Type} {Row : Key → Type} {Entry Err α β : Type}

namespace Transaction

def bind : Transaction Key Row Entry Err α → (α → Transaction Key Row Entry Err β) →
    Transaction Key Row Entry Err β
  | .ret value, f => f value
  | .fail error, _ => .fail error
  | .query next, f => .query (fun db => (next db).bind f)
  | .lock key next, f => .lock key (fun found => (next found).bind f)
  | .insert key row next, f => .insert key row (fun done => (next done).bind f)
  | .update key change next, f => .update key change (fun found => (next found).bind f)
  | .delete key next, f => .delete key (next.bind f)
  | .append entry next, f => .append entry (next.bind f)

instance : Monad (Transaction Key Row Entry Err) where
  pure := .ret
  bind := .bind

def select (f : Database Key Row Entry → α) : Transaction Key Row Entry Err α :=
  .query (fun db => .ret (f db))

def lockRow (key : Key) : Transaction Key Row Entry Err (Option (Row key)) :=
  .lock key .ret

def insertRow (key : Key) (row : Row key) : Transaction Key Row Entry Err Bool :=
  .insert key row .ret

def updateRow (key : Key) (change : Row key → Change (Row key)) :
    Transaction Key Row Entry Err (Option (Row key)) :=
  .update key change .ret

def deleteRow (key : Key) : Transaction Key Row Entry Err Unit :=
  .delete key (.ret ())

def appendEntry (entry : Entry) : Transaction Key Row Entry Err Unit :=
  .append entry (.ret ())

def raise (error : Err) : Transaction Key Row Entry Err α := .fail error

end Transaction

/-- Why a transaction executed alone rolled back. -/
inductive Fault (Err : Type) where
  | error (error : Err)
  | constraint
deriving DecidableEq

/-- What a running transaction has done: its effects, newest first, and the
rows nobody else may change before it ends. -/
structure Progress (Key : Type) (Row : Key → Type) (Entry : Type) where
  effects : List (Effect Key Row Entry)
  held : Set Key

namespace Progress

def start : Progress Key Row Entry := ⟨[], ∅⟩

variable (p : Progress Key Row Entry)

def hold (key : Key) : Progress Key Row Entry :=
  { p with held := insert key p.held }

/-- Hold a row and write it. -/
def write (key : Key) (value : Option (Row key)) : Progress Key Row Entry :=
  ⟨.set key value :: p.effects, insert key p.held⟩

def push (entry : Entry) : Progress Key Row Entry :=
  { p with effects := .push entry :: p.effects }

/-- Two stores with the same held rows. -/
def Agrees (left right : Database Key Row Entry) : Prop :=
  ∀ key ∈ p.held, left.row key = right.row key

section Projections

variable (p : Progress Key Row Entry) (key : Key)

@[simp] theorem effects_start : (start : Progress Key Row Entry).effects = [] := rfl

@[simp] theorem effects_hold : (p.hold key).effects = p.effects := rfl

@[simp] theorem effects_write (value : Option (Row key)) :
    (p.write key value).effects = .set key value :: p.effects := rfl

@[simp] theorem effects_push (entry : Entry) :
    (p.push entry).effects = .push entry :: p.effects := rfl

@[simp] theorem held_start : (start : Progress Key Row Entry).held = ∅ := rfl

@[simp] theorem held_hold : (p.hold key).held = insert key p.held := rfl

@[simp] theorem held_write (value : Option (Row key)) :
    (p.write key value).held = insert key p.held := rfl

@[simp] theorem held_push (entry : Entry) : (p.push entry).held = p.held := rfl

end Projections

@[simp] theorem agrees_start (left right : Database Key Row Entry) :
    (start : Progress Key Row Entry).Agrees left right := by
  simp [Agrees, start]

end Progress

namespace Transaction

variable [DecidableEq Key]

/-- Execution with nothing else running. -/
def exec (db : Database Key Row Entry) : Transaction Key Row Entry Err α →
    List (Effect Key Row Entry) → Except (Fault Err) (α × List (Effect Key Row Entry))
  | .ret value, effects => .ok (value, effects)
  | .fail error, _ => .error (.error error)
  | .query next, effects => (next (db.apply effects)).exec db effects
  | .lock key next, effects => (next ((db.apply effects).row key)).exec db effects
  | .insert key row next, effects =>
    match (db.apply effects).row key with
    | none => (next true).exec db (.set key (some row) :: effects)
    | some _ => (next false).exec db effects
  | .update key change next, effects =>
    match (db.apply effects).row key with
    | none => (next none).exec db effects
    | some row =>
      match change row with
      | .skip => (next none).exec db effects
      | .put row' => (next (some row')).exec db (.set key (some row') :: effects)
      | .violate => .error .constraint
  | .delete key next, effects =>
    match (db.apply effects).row key with
    | none => next.exec db effects
    | some _ => next.exec db (.set key none :: effects)
  | .append entry next, effects => next.exec db (.push entry :: effects)

def run (code : Transaction Key Row Entry Err α) (db : Database Key Row Entry) :
    Except (Fault Err) (α × Database Key Row Entry) :=
  match code.exec db [] with
  | .ok (value, effects) => .ok (value, db.apply effects)
  | .error fault => .error fault

theorem exec_of_run {code : Transaction Key Row Entry Err α} {db after : Database Key Row Entry}
    {value : α} (h : code.run db = .ok (value, after)) :
    ∃ effects, code.exec db [] = .ok (value, effects) ∧ db.apply effects = after := by
  unfold run at h
  split at h
  · rename_i result effects hexec
    obtain ⟨rfl, rfl⟩ := Prod.mk.inj (Except.ok.inj h)
    exact ⟨effects, hexec, rfl⟩
  · cases h

theorem log_isPrefix_run {code : Transaction Key Row Entry Err α}
    {db after : Database Key Row Entry} {value : α} (h : code.run db = .ok (value, after)) :
    db.log <+: after.log := by
  obtain ⟨effects, -, rfl⟩ := exec_of_run h
  exact Database.log_isPrefix_apply db effects

section Alone

variable (db : Database Key Row Entry) (effects : List (Effect Key Row Entry))

variable (code : Transaction Key Row Entry Err α) (f : α → Transaction Key Row Entry Err β)

theorem exec_bind : (code >>= f).exec db effects =
      (code.exec db effects).bind (fun done => (f done.1).exec db done.2) := by
  change (code.bind f).exec db effects = _
  induction code generalizing effects with
  | ret value => rfl
  | fail error => rfl
  | query next ih | lock key next ih => exact ih _ effects
  | insert key row next ih =>
    simp only [bind, exec]
    cases (db.apply effects).row key with
    | none | some found => exact ih _ _
  | update key change next ih =>
    simp only [bind, exec]
    cases (db.apply effects).row key with
    | none => exact ih _ _
    | some row =>
      dsimp only
      cases change row with
      | skip | put row' => exact ih _ _
      | violate => rfl
  | delete key next ih =>
    simp only [bind, exec]
    cases (db.apply effects).row key with
    | none | some found => exact ih _
  | append entry next ih => exact ih _

theorem exec_bind_ok_iff : (∃ done, (code >>= f).exec db effects = .ok done) ↔
      ∃ first, code.exec db effects = .ok first ∧
        ∃ done, (f first.1).exec db first.2 = .ok done := by
  rw [exec_bind]
  cases code.exec db effects with
  | error fault | ok first => simp [Except.bind]

theorem exec_bind_error_iff (fault : Fault Err) :
    (code >>= f).exec db effects = .error fault ↔ code.exec db effects = .error fault ∨
      ∃ done, code.exec db effects = .ok done ∧ (f done.1).exec db done.2 = .error fault := by
  rw [exec_bind]
  cases code.exec db effects with
  | error found | ok done => simp [Except.bind]

@[simp] theorem exec_pure (value : α) :
    (pure value : Transaction Key Row Entry Err α).exec db effects = .ok (value, effects) := rfl

@[simp] theorem exec_raise (error : Err) :
    (raise error : Transaction Key Row Entry Err α).exec db effects = .error (.error error) := rfl

@[simp] theorem exec_select (f : Database Key Row Entry → α) :
    (select f : Transaction Key Row Entry Err α).exec db effects =
      .ok (f (db.apply effects), effects) := rfl

@[simp] theorem exec_lockRow (key : Key) :
    (lockRow key : Transaction Key Row Entry Err (Option (Row key))).exec db effects =
      .ok ((db.apply effects).row key, effects) := rfl

/-- An insert executed alone writes the row or leaves the one that is there. -/
theorem exec_insertRow (key : Key) (row : Row key) :
    (insertRow key row : Transaction Key Row Entry Err Bool).exec db effects =
      if ((db.apply effects).row key).isNone then .ok (true, .set key (some row) :: effects)
      else .ok (false, effects) := by
  unfold insertRow exec
  cases (db.apply effects).row key <;> rfl

theorem exec_updateRow (key : Key) (change : Row key → Change (Row key)) :
    (updateRow key change : Transaction Key Row Entry Err (Option (Row key))).exec db effects =
      match (db.apply effects).row key with
      | none => .ok (none, effects)
      | some row =>
        match change row with
        | .skip => .ok (none, effects)
        | .put row' => .ok (some row', .set key (some row') :: effects)
        | .violate => .error .constraint := by
  unfold updateRow exec
  cases (db.apply effects).row key with
  | none => rfl
  | some row =>
    dsimp only
    cases change row <;> rfl

theorem exec_deleteRow (key : Key) :
    (deleteRow key : Transaction Key Row Entry Err Unit).exec db effects =
      .ok ((), if ((db.apply effects).row key).isNone then effects
        else .set key none :: effects) := by
  unfold deleteRow exec
  cases (db.apply effects).row key <;> rfl

end Alone

/-- Weakest precondition of a transaction body that commits on the store `db`.
`seen` describes the committed states that other transactions may have shown
it on the way. A statement that found its row speaks about `db` itself,
because the row is held from then on; any other statement speaks about some
`seen` store that has the held rows of `db`. -/
def wp (seen : Database Key Row Entry → Prop) (db : Database Key Row Entry) :
    Transaction Key Row Entry Err α → Progress Key Row Entry →
    (α → Progress Key Row Entry → Prop) → Prop
  | .ret value, p, post => post value p
  | .fail _, _, _ => True
  | .query next, p, post => ∀ d, seen d → p.Agrees d db →
      (next (d.apply p.effects)).wp seen db p post
  | .lock key next, p, post =>
    (∀ row, (db.apply p.effects).row key = some row →
      (next (some row)).wp seen db (p.hold key) post) ∧
    (∀ d, seen d → p.Agrees d db → (d.apply p.effects).row key = none →
      (next none).wp seen db p post)
  | .insert key row next, p, post =>
    ((db.apply p.effects).row key = none →
      (next true).wp seen db (p.write key (some row)) post) ∧
    (∀ d, seen d → p.Agrees d db → (d.apply p.effects).row key ≠ none →
      (next false).wp seen db p post)
  | .update key change next, p, post =>
    (∀ row row', (db.apply p.effects).row key = some row → change row = .put row' →
      (next (some row')).wp seen db (p.write key (some row')) post) ∧
    (∀ d, seen d → p.Agrees d db →
      (∀ row, (d.apply p.effects).row key = some row → change row = .skip) →
      (next none).wp seen db p post)
  | .delete key next, p, post =>
    ((db.apply p.effects).row key ≠ none →
      next.wp seen db (p.write key none) post) ∧
    (∀ d, seen d → p.Agrees d db → (d.apply p.effects).row key = none →
      next.wp seen db p post)
  | .append entry next, p, post => next.wp seen db (p.push entry) post

section Rules

variable {seen : Database Key Row Entry → Prop} {db : Database Key Row Entry}
  {p : Progress Key Row Entry}

theorem wp_bind (code : Transaction Key Row Entry Err α)
    (f : α → Transaction Key Row Entry Err β)
    (post : β → Progress Key Row Entry → Prop) :
    (code >>= f).wp seen db p post ↔
      code.wp seen db p (fun value q => (f value).wp seen db q post) := by
  change (code.bind f).wp seen db p post ↔ _
  induction code generalizing p with
  | ret value => rfl
  | fail error => rfl
  | query next ih | lock key next ih | insert key row next ih | update key change next ih
  | delete key next ih | append entry next ih => simp only [bind, wp, ih]

variable {post : α → Progress Key Row Entry → Prop}

@[simp] theorem wp_pure (value : α) :
    (pure value : Transaction Key Row Entry Err α).wp seen db p post ↔ post value p :=
  Iff.rfl

@[simp] theorem wp_raise (error : Err) :
    (raise error : Transaction Key Row Entry Err α).wp seen db p post ↔ True :=
  Iff.rfl

@[simp] theorem wp_select (f : Database Key Row Entry → α) :
    (select f : Transaction Key Row Entry Err α).wp seen db p post ↔
      ∀ d, seen d → p.Agrees d db → post (f (d.apply p.effects)) p :=
  Iff.rfl

@[simp] theorem wp_lockRow (key : Key)
    (post : Option (Row key) → Progress Key Row Entry → Prop) :
    (lockRow key : Transaction Key Row Entry Err _).wp seen db p post ↔
      (∀ row, (db.apply p.effects).row key = some row → post (some row) (p.hold key)) ∧
      (∀ d, seen d → p.Agrees d db → (d.apply p.effects).row key = none → post none p) :=
  Iff.rfl

@[simp] theorem wp_insertRow (key : Key) (row : Row key)
    (post : Bool → Progress Key Row Entry → Prop) :
    (insertRow key row : Transaction Key Row Entry Err _).wp seen db p post ↔
      ((db.apply p.effects).row key = none → post true (p.write key (some row))) ∧
      (∀ d, seen d → p.Agrees d db → (d.apply p.effects).row key ≠ none → post false p) :=
  Iff.rfl

@[simp] theorem wp_updateRow (key : Key) (change : Row key → Change (Row key))
    (post : Option (Row key) → Progress Key Row Entry → Prop) :
    (updateRow key change : Transaction Key Row Entry Err _).wp seen db p post ↔
      (∀ row row', (db.apply p.effects).row key = some row → change row = .put row' →
        post (some row') (p.write key (some row'))) ∧
      (∀ d, seen d → p.Agrees d db →
        (∀ row, (d.apply p.effects).row key = some row → change row = .skip) → post none p) :=
  Iff.rfl

@[simp] theorem wp_deleteRow (key : Key) (post : Unit → Progress Key Row Entry → Prop) :
    (deleteRow key : Transaction Key Row Entry Err _).wp seen db p post ↔
      ((db.apply p.effects).row key ≠ none → post () (p.write key none)) ∧
      (∀ d, seen d → p.Agrees d db → (d.apply p.effects).row key = none → post () p) :=
  Iff.rfl

@[simp] theorem wp_appendEntry (entry : Entry) (post : Unit → Progress Key Row Entry → Prop) :
    (appendEntry entry : Transaction Key Row Entry Err _).wp seen db p post ↔
      post () (p.push entry) :=
  Iff.rfl

end Rules

end Transaction

end SuperSbc.ReadCommitted
