import SuperSbc.ReadCommitted.Transaction
import Mathlib.Logic.Relation

/-!
Many transactions on one store at READ COMMITTED, one statement at a time in
any order.

A statement that writes or locks a row waits until no other running
transaction owns the row, so the rule for it asks for a free row and then
reads the committed version of that moment: this is the re-read after a wait.
Writes stay private until commit. A transaction can be aborted at any point,
which covers deadlocks, constraint violations, lost connections and the
program's own rollback.
-/

namespace SuperSbc.ReadCommitted

inductive Status (Key : Type) (Row : Key → Type) (Entry Err α : Type) where
  | idle
  | running (code : Transaction Key Row Entry Err α) (effects : List (Effect Key Row Entry))
  | committed
  | aborted

/-- One commit: who, what it returned, and the store around it. -/
structure Commit (Id Key : Type) (Row : Key → Type) (Entry α : Type) where
  id : Id
  value : α
  before : Database Key Row Entry
  after : Database Key Row Entry

/-- `owner` says which running transaction holds a row. `history` lists the
commits, newest first. -/
structure Server (Id Key : Type) (Row : Key → Type) (Entry Err α : Type) where
  db : Database Key Row Entry
  owner : Key → Option Id
  status : Id → Status Key Row Entry Err α
  history : List (Commit Id Key Row Entry α)

variable {Id Key : Type} {Row : Key → Type} {Entry Err α : Type}

namespace Server

variable {σ : Server Id Key Row Entry Err α} {t : Id}

/-- Nothing has run yet. -/
def initial (db : Database Key Row Entry) : Server Id Key Row Entry Err α where
  db := db
  owner _ := none
  status _ := .idle
  history := []

/-- The error `t` is about to roll back with. -/
def failure (σ : Server Id Key Row Entry Err α) (t : Id) : Option Err :=
  match σ.status t with
  | .running (.fail error) _ => some error
  | _ => none

theorem status_of_failure {error : Err} (h : σ.failure t = some error) :
    ∃ effects, σ.status t = .running (.fail error) effects := by
  unfold failure at h
  split at h
  · rename_i found effects hstatus
    obtain rfl := Option.some.inj h
    exact ⟨effects, hstatus⟩
  · cases h

variable [DecidableEq Id]

def Free (σ : Server Id Key Row Entry Err α) (t : Id) (key : Key) : Prop :=
  σ.owner key = none ∨ σ.owner key = some t

def advance (σ : Server Id Key Row Entry Err α) (t : Id)
    (code : Transaction Key Row Entry Err α) (effects : List (Effect Key Row Entry)) :
    Server Id Key Row Entry Err α :=
  { σ with status := Function.update σ.status t (.running code effects) }

/-- Give up every row a transaction owns. -/
def unlocked (σ : Server Id Key Row Entry Err α) (t : Id) (key : Key) : Option Id :=
  if σ.owner key = some t then none else σ.owner key

theorem unlocked_other {u : Id} (hut : u ≠ t) (key : Key) :
    σ.unlocked t key = some u ↔ σ.owner key = some u := by
  unfold unlocked
  split_ifs with howner
  · simp [howner, Ne.symm hut]
  · rfl

theorem unlocked_self (key : Key) : σ.unlocked t key ≠ some t := by
  unfold unlocked
  split_ifs with howner
  · simp
  · exact howner

variable [DecidableEq Key]

def take (σ : Server Id Key Row Entry Err α) (t : Id) (key : Key) :
    Server Id Key Row Entry Err α :=
  { σ with owner := Function.update σ.owner key (some t) }

def commit (σ : Server Id Key Row Entry Err α) (t : Id) (value : α)
    (effects : List (Effect Key Row Entry)) : Server Id Key Row Entry Err α where
  db := σ.db.apply effects
  owner := σ.unlocked t
  status := Function.update σ.status t .committed
  history := ⟨t, value, σ.db, σ.db.apply effects⟩ :: σ.history

def abort (σ : Server Id Key Row Entry Err α) (t : Id) : Server Id Key Row Entry Err α where
  db := σ.db
  owner := σ.unlocked t
  status := Function.update σ.status t .aborted
  history := σ.history

end Server

variable [DecidableEq Id] [DecidableEq Key]

/-- One statement of one transaction, or its start or end. `body` is the
program of each transaction. -/
inductive Step (body : Id → Transaction Key Row Entry Err α) :
    Server Id Key Row Entry Err α → Server Id Key Row Entry Err α → Prop where
  | start {σ} (t : Id) (hidle : σ.status t = .idle) :
      Step body σ (σ.advance t (body t) [])
  | query {σ} (t : Id) {next effects}
      (hrun : σ.status t = .running (.query next) effects) :
      Step body σ (σ.advance t (next (σ.db.apply effects)) effects)
  | lock {σ} (t : Id) {key next effects row}
      (hrun : σ.status t = .running (.lock key next) effects) (hfree : σ.Free t key)
      (hrow : (σ.db.apply effects).row key = some row) :
      Step body σ ((σ.take t key).advance t (next (some row)) effects)
  | lockMiss {σ} (t : Id) {key next effects}
      (hrun : σ.status t = .running (.lock key next) effects)
      (hrow : (σ.db.apply effects).row key = none) :
      Step body σ (σ.advance t (next none) effects)
  | insert {σ} (t : Id) {key row next effects}
      (hrun : σ.status t = .running (.insert key row next) effects) (hfree : σ.Free t key)
      (hrow : (σ.db.apply effects).row key = none) :
      Step body σ ((σ.take t key).advance t (next true) (.set key (some row) :: effects))
  | insertConflict {σ} (t : Id) {key row next effects}
      (hrun : σ.status t = .running (.insert key row next) effects)
      (hrow : (σ.db.apply effects).row key ≠ none) :
      Step body σ (σ.advance t (next false) effects)
  | update {σ} (t : Id) {key change next effects row row'}
      (hrun : σ.status t = .running (.update key change next) effects)
      (hfree : σ.Free t key) (hrow : (σ.db.apply effects).row key = some row)
      (hput : change row = .put row') :
      Step body σ
        ((σ.take t key).advance t (next (some row')) (.set key (some row') :: effects))
  | updateMiss {σ} (t : Id) {key change next effects}
      (hrun : σ.status t = .running (.update key change next) effects)
      (hskip : ∀ row, (σ.db.apply effects).row key = some row → change row = .skip) :
      Step body σ (σ.advance t (next none) effects)
  | delete {σ} (t : Id) {key next effects}
      (hrun : σ.status t = .running (.delete key next) effects) (hfree : σ.Free t key)
      (hrow : (σ.db.apply effects).row key ≠ none) :
      Step body σ ((σ.take t key).advance t next (.set key none :: effects))
  | deleteMiss {σ} (t : Id) {key next effects}
      (hrun : σ.status t = .running (.delete key next) effects)
      (hrow : (σ.db.apply effects).row key = none) :
      Step body σ (σ.advance t next effects)
  | append {σ} (t : Id) {entry next effects}
      (hrun : σ.status t = .running (.append entry next) effects) :
      Step body σ (σ.advance t next (.push entry :: effects))
  | commit {σ} (t : Id) {value effects}
      (hrun : σ.status t = .running (.ret value) effects) :
      Step body σ (σ.commit t value effects)
  | abort {σ} (t : Id) {code effects}
      (hrun : σ.status t = .running code effects) :
      Step body σ (σ.abort t)

/-- The states of every finite interleaving from a store nobody works on. -/
def Reachable (body : Id → Transaction Key Row Entry Err α) (db : Database Key Row Entry)
    (σ : Server Id Key Row Entry Err α) : Prop :=
  Relation.ReflTransGen (Step body) (Server.initial db) σ

end SuperSbc.ReadCommitted
