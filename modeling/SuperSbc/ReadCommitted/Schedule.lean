import SuperSbc.ReadCommitted.Server

/-!
Interleavings that can be executed. `Server.tick` lets one transaction take
its next statement, or do nothing if it has to wait, is over or is about to
roll back; a schedule is a list of turns. Every state a schedule leads to is a
state some interleaving reaches. Executing bodies one after another is one of
the schedules.
-/

namespace SuperSbc.ReadCommitted

variable {Id Key : Type} {Row : Key → Type} {Entry Err α : Type} [DecidableEq Id] [DecidableEq Key]

namespace Server

instance (σ : Server Id Key Row Entry Err α) (t : Id) (key : Key) : Decidable (σ.Free t key) :=
  inferInstanceAs (Decidable (_ ∨ _))

/-- The next statement of `t`. -/
def statement (σ : Server Id Key Row Entry Err α) (t : Id)
    (effects : List (Effect Key Row Entry)) :
    Transaction Key Row Entry Err α → Server Id Key Row Entry Err α
  | .ret value => σ.commit t value effects
  | .fail _ => σ
  | .query next => σ.advance t (next (σ.db.apply effects)) effects
  | .lock key next =>
    match (σ.db.apply effects).row key with
    | none => σ.advance t (next none) effects
    | some row =>
      if σ.Free t key then (σ.take t key).advance t (next (some row)) effects else σ
  | .insert key row next =>
    match (σ.db.apply effects).row key with
    | none =>
      if σ.Free t key then
        (σ.take t key).advance t (next true) (.set key (some row) :: effects)
      else σ
    | some _ => σ.advance t (next false) effects
  | .update key change next =>
    match (σ.db.apply effects).row key with
    | none => σ.advance t (next none) effects
    | some row =>
      match change row with
      | .skip => σ.advance t (next none) effects
      | .put row' =>
        if σ.Free t key then
          (σ.take t key).advance t (next (some row')) (.set key (some row') :: effects)
        else σ
      | .violate => σ
  | .delete key next =>
    match (σ.db.apply effects).row key with
    | none => σ.advance t next effects
    | some _ =>
      if σ.Free t key then (σ.take t key).advance t next (.set key none :: effects) else σ
  | .append entry next => σ.advance t next (.push entry :: effects)

def tick (body : Id → Transaction Key Row Entry Err α) (σ : Server Id Key Row Entry Err α)
    (t : Id) : Server Id Key Row Entry Err α :=
  match σ.status t with
  | .idle => σ.advance t (body t) []
  | .running code effects => σ.statement t effects code
  | .committed | .aborted => σ

/-- The turns of a schedule, in order. -/
def play (body : Id → Transaction Key Row Entry Err α) (db : Database Key Row Entry)
    (turns : List Id) : Server Id Key Row Entry Err α :=
  turns.foldl (tick body) (initial db)

end Server

variable {body : Id → Transaction Key Row Entry Err α} {σ : Server Id Key Row Entry Err α}
  {t : Id}

theorem step_statement {code : Transaction Key Row Entry Err α}
    {effects : List (Effect Key Row Entry)} (hrun : σ.status t = .running code effects) :
    σ.statement t effects code = σ ∨ Step body σ (σ.statement t effects code) := by
  cases code with
  | ret value => exact .inr (.commit t hrun)
  | fail error => exact .inl rfl
  | query next => exact .inr (.query t hrun)
  | append entry next => exact .inr (.append t hrun)
  | lock key next =>
    simp only [Server.statement]
    split
    · rename_i hrow
      exact .inr (.lockMiss t hrun hrow)
    · rename_i row hrow
      split_ifs with hfree
      · exact .inr (.lock t hrun hfree hrow)
      · exact .inl rfl
  | insert key row next =>
    simp only [Server.statement]
    split
    · rename_i hrow
      split_ifs with hfree
      · exact .inr (.insert t hrun hfree hrow)
      · exact .inl rfl
    · rename_i hrow
      exact .inr (.insertConflict t hrun (by simp [hrow]))
  | update key change next =>
    simp only [Server.statement]
    split
    · rename_i hrow
      exact .inr (.updateMiss t hrun (by simp [hrow]))
    · rename_i row hrow
      split
      · rename_i hskip
        refine .inr (.updateMiss t hrun (fun found hfound => ?_))
        obtain rfl := Option.some.inj (hrow.symm.trans hfound)
        exact hskip
      · rename_i row' hput
        split_ifs with hfree
        · exact .inr (.update t hrun hfree hrow hput)
        · exact .inl rfl
      · exact .inl rfl
  | delete key next =>
    simp only [Server.statement]
    split
    · rename_i hrow
      exact .inr (.deleteMiss t hrun hrow)
    · rename_i hrow
      split_ifs with hfree
      · exact .inr (.delete t hrun hfree (by simp [hrow]))
      · exact .inl rfl

theorem Reachable.tick {db : Database Key Row Entry} (hreach : Reachable body db σ) (t : Id) :
    Reachable body db (σ.tick body t) := by
  unfold Server.tick
  split
  · rename_i hidle
    exact hreach.tail (.start t hidle)
  · rename_i code effects hrun
    rcases step_statement hrun with hsame | hstep
    · rw [hsame]
      exact hreach
    · exact hreach.tail hstep
  · exact hreach
  · exact hreach

theorem Reachable.play {db : Database Key Row Entry} (hreach : Reachable body db σ)
    (turns : List Id) : Reachable body db (turns.foldl (Server.tick body) σ) := by
  induction turns generalizing σ with
  | nil => exact hreach
  | cons t rest ih => exact ih (hreach.tick t)

theorem reachable_play (body : Id → Transaction Key Row Entry Err α) (db : Database Key Row Entry)
    (turns : List Id) : Reachable body db (Server.play body db turns) :=
  Reachable.play .refl turns

/-- Bodies executed one after another, each with more turns than it has
statements; `none` when one of them does not commit. -/
def serial (body : Id → Transaction Key Row Entry Err α) (order : List Id)
    (db : Database Key Row Entry) :
    Option (Database Key Row Entry × List (Commit Id Key Row Entry α)) :=
  let σ := Server.play body db (order.flatMap (List.replicate 64))
  if σ.history.length = order.length then some (σ.db, σ.history) else none

theorem reachable_serial {db : Database Key Row Entry} {order : List Id} {β : Type}
    {f : Database Key Row Entry × List (Commit Id Key Row Entry α) → β} {x : β}
    (hserial : (serial body order db).map f = some x) :
    ∃ σ, Reachable body db σ ∧ f (σ.db, σ.history) = x := by
  obtain ⟨final, hfinal, rfl⟩ := Option.map_eq_some_iff.mp hserial
  obtain ⟨-, hlast⟩ := Option.ite_none_right_eq_some.mp hfinal
  exact ⟨_, reachable_play .., congrArg f (Option.some.inj hlast)⟩

end SuperSbc.ReadCommitted
