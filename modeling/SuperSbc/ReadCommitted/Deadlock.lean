import SuperSbc.ReadCommitted.Soundness

/-!
Deadlocks, and the discipline that rules them out. A transaction waits for
another when its next statement needs a row the other one holds; a deadlock is
a cycle of such waits.

If rows have ranks and every transaction takes a row only when it ranks above
all rows it holds, there is no cycle: along a chain of waits the rows waited
for rank higher and higher. Which rows a transaction takes can depend on what
it reads, so `Transaction.climbs` checks the discipline under a property `ok`
of single rows that all writes keep.
-/

namespace SuperSbc.ReadCommitted

variable {Id Key : Type} {Row : Key → Type} {Entry Err α β ρ : Type}

namespace Transaction

/-- The row the next statement has to own before it can go on, when it runs on
`view`. A statement that finds nothing to do does not wait. -/
def needs (view : Database Key Row Entry) : Transaction Key Row Entry Err α → Option Key
  | .ret _ | .fail _ | .query _ | .append _ _ => none
  | .lock key _ => if (view.row key).isSome then some key else none
  | .insert key _ _ => if (view.row key).isSome then none else some key
  | .update key change _ =>
    match (view.row key).map change with
    | none | some .skip => none
    | some (.put _) | some .violate => some key
  | .delete key _ => if (view.row key).isSome then some key else none

section Discipline

variable [Preorder ρ] (rank : Key → ρ) (ok : (key : Key) → Option (Row key) → Prop)

/-- A row may be taken when it is held already or ranks above what is held. -/
def Above (held : Set Key) (key : Key) : Prop :=
  key ∈ held ∨ ∀ other ∈ held, rank other < rank key

/-- Every statement takes a row that may be taken and writes what is `ok`,
whatever the statements before it found, as long as that is `ok`. -/
def climbs : Transaction Key Row Entry Err α → Set Key → (α → Set Key → Prop) → Prop
  | .ret value, held, post => post value held
  | .fail _, _, _ => True
  | .query next, held, post => ∀ d : Database Key Row Entry, (∀ key, ok key (d.row key)) →
      (next d).climbs held post
  | .lock key next, held, post => Above rank held key ∧
      (∀ row, ok key (some row) → (next (some row)).climbs (Insert.insert key held) post) ∧
      (next none).climbs held post
  | .insert key row next, held, post => Above rank held key ∧ ok key (some row) ∧
      (next true).climbs (Insert.insert key held) post ∧ (next false).climbs held post
  | .update key change next, held, post => Above rank held key ∧
      (∀ row row', ok key (some row) → change row = .put row' → ok key (some row') ∧
        (next (some row')).climbs (Insert.insert key held) post) ∧
      (next none).climbs held post
  | .delete key next, held, post => Above rank held key ∧ ok key none ∧
      next.climbs (Insert.insert key held) post ∧ next.climbs held post
  | .append _ next, held, post => next.climbs held post

variable {rank ok} {held : Set Key}

theorem climbs_bind (code : Transaction Key Row Entry Err α)
    (f : α → Transaction Key Row Entry Err β) (post : β → Set Key → Prop) :
    (code >>= f).climbs rank ok held post ↔
      code.climbs rank ok held (fun value later => (f value).climbs rank ok later post) := by
  change (code.bind f).climbs rank ok held post ↔ _
  induction code generalizing held with
  | ret value => rfl
  | fail error => rfl
  | query next ih | lock key next ih | insert key row next ih | update key change next ih
  | delete key next ih | append entry next ih => simp only [bind, climbs, ih]

theorem climbs_select {f : Database Key Row Entry → α} {post : α → Set Key → Prop} :
    (select f : Transaction Key Row Entry Err α).climbs rank ok held post ↔
      ∀ d : Database Key Row Entry, (∀ key, ok key (d.row key)) → post (f d) held :=
  Iff.rfl

theorem climbs_lockRow {key : Key} {post : Option (Row key) → Set Key → Prop} :
    (lockRow key : Transaction Key Row Entry Err _).climbs rank ok held post ↔
      Above rank held key ∧ (∀ row, ok key (some row) → post (some row) (Insert.insert key held)) ∧
        post none held :=
  Iff.rfl

theorem climbs_insertRow {key : Key} {row : Row key} {post : Bool → Set Key → Prop} :
    (insertRow key row : Transaction Key Row Entry Err _).climbs rank ok held post ↔
      Above rank held key ∧ ok key (some row) ∧
        post true (Insert.insert key held) ∧ post false held :=
  Iff.rfl

theorem climbs_updateRow {key : Key} {change : Row key → Change (Row key)}
    {post : Option (Row key) → Set Key → Prop} :
    (updateRow key change : Transaction Key Row Entry Err _).climbs rank ok held post ↔
      Above rank held key ∧
        (∀ row row', ok key (some row) → change row = .put row' → ok key (some row') ∧
          post (some row') (Insert.insert key held)) ∧ post none held :=
  Iff.rfl

theorem climbs_deleteRow {key : Key} {post : Unit → Set Key → Prop} :
    (deleteRow key : Transaction Key Row Entry Err _).climbs rank ok held post ↔
      Above rank held key ∧ ok key none ∧ post () (Insert.insert key held) ∧ post () held :=
  Iff.rfl

theorem climbs_appendEntry {entry : Entry} {post : Unit → Set Key → Prop} :
    (appendEntry entry : Transaction Key Row Entry Err _).climbs rank ok held post ↔
      post () held :=
  Iff.rfl

/-- What a disciplined transaction waits for may be taken. -/
theorem climbs.above {code : Transaction Key Row Entry Err α} {post : α → Set Key → Prop}
    {view : Database Key Row Entry} {key : Key} (h : code.climbs rank ok held post)
    (hneeds : code.needs view = some key) : Above rank held key := by
  cases code with
  | ret _ | fail _ | query _ | append _ _ => cases hneeds
  | lock k _ | insert k _ _ | delete k _ =>
    obtain rfl : k = key := by simp_all [needs]
    exact h.1
  | update k change _ =>
    simp only [needs] at hneeds
    obtain rfl : k = key := by
      split at hneeds
      · cases hneeds
      · cases hneeds
      · exact Option.some.inj hneeds
      · exact Option.some.inj hneeds
    exact h.1

end Discipline

end Transaction

namespace Server

variable [DecidableEq Key]

def wanted (σ : Server Id Key Row Entry Err α) (t : Id) : Option Key :=
  match σ.status t with
  | .running code effects => code.needs (σ.db.apply effects)
  | .idle | .committed | .aborted => none

/-- `t` cannot go on before `u` ends. -/
def WaitsFor (σ : Server Id Key Row Entry Err α) (t u : Id) : Prop :=
  ∃ key, σ.wanted t = some key ∧ σ.owner key = some u ∧ u ≠ t

/-- A cycle of transactions, each waiting for the next. -/
def Deadlocked (σ : Server Id Key Row Entry Err α) : Prop :=
  ∃ t, Relation.TransGen σ.WaitsFor t t

end Server

open Transaction

section Invariant

variable [Preorder ρ] {rank : Key → ρ} {ok : (key : Key) → Option (Row key) → Prop}
  {σ : Server Id Key Row Entry Err α} {t : Id}
  {code : Transaction Key Row Entry Err α} {effects : List (Effect Key Row Entry)}

/-- Effects that write what is `ok`. -/
def Writes (ok : (key : Key) → Option (Row key) → Prop)
    (effects : List (Effect Key Row Entry)) : Prop :=
  ∀ key value, Effect.set key value ∈ effects → ok key value

theorem Writes.nil : Writes ok ([] : List (Effect Key Row Entry)) := by
  intro key value hmem
  cases hmem

theorem Writes.set {key : Key} {value : Option (Row key)} (h : Writes ok effects)
    (hvalue : ok key value) : Writes ok (.set key value :: effects) := by
  intro other written hmem
  rcases List.mem_cons.mp hmem with heq | hmem
  · cases heq
    exact hvalue
  · exact h other written hmem

theorem Writes.push {entry : Entry} (h : Writes ok effects) :
    Writes ok (.push entry :: effects) := by
  intro other written hmem
  rcases List.mem_cons.mp hmem with heq | hmem
  · cases heq
  · exact h other written hmem

theorem Writes.of_cons {effect : Effect Key Row Entry} (h : Writes ok (effect :: effects)) :
    Writes ok effects :=
  fun key value hmem => h key value (List.mem_cons_of_mem _ hmem)

/-- Every running transaction keeps the discipline with what it holds. -/
structure Climbing (rank : Key → ρ) (ok : (key : Key) → Option (Row key) → Prop)
    (σ : Server Id Key Row Entry Err α) : Prop where
  rows : ∀ key, ok key (σ.db.row key)
  idle : ∀ t, σ.status t = .idle → σ.locks t = ∅
  climbs : ∀ t code effects, σ.status t = .running code effects →
    code.climbs rank ok (σ.locks t) (fun _ _ => True)
  writes : ∀ t code effects, σ.status t = .running code effects → Writes ok effects

theorem Climbing.initial {db : Database Key Row Entry} (hdb : ∀ key, ok key (db.row key)) :
    Climbing rank ok (Server.initial db : Server Id Key Row Entry Err α) where
  rows := hdb
  idle t _ := by simp [Server.locks, Server.initial]
  climbs t code effects hrun := by cases hrun
  writes t code effects hrun := by cases hrun

section Statement

variable [DecidableEq Id]

/-- A statement of `t`: rows may change hands towards `t` only. -/
theorem Climbing.step_own (h : Climbing rank ok σ) {owner : Key → Option Id}
    (hothers : ∀ u, u ≠ t → ∀ key, owner key = some u ↔ σ.owner key = some u)
    (hclimbs : code.climbs rank ok {key | owner key = some t} (fun _ _ => True))
    (hwrites : Writes ok effects) :
    Climbing rank ok { σ with
      owner := owner
      status := Function.update σ.status t (.running code effects) } := by
  refine ⟨h.rows, fun u hidle => ?_, fun u code' effects' hrun => ?_,
    fun u code' effects' hrun => ?_⟩
  · by_cases hut : u = t
    · subst hut
      simp at hidle
    · rw [← h.idle u (by simpa [Function.update_of_ne hut] using hidle)]
      exact Set.ext (hothers u hut)
  · by_cases hut : u = t
    · subst hut
      obtain ⟨rfl, rfl⟩ : code = code' ∧ effects = effects' := by simpa using hrun
      exact hclimbs
    · have hlocks : {key | owner key = some u} = σ.locks u := Set.ext (hothers u hut)
      have hbefore := h.climbs u code' effects' (by simpa [Function.update_of_ne hut] using hrun)
      rw [← hlocks] at hbefore
      exact hbefore
  · by_cases hut : u = t
    · subst hut
      obtain ⟨rfl, rfl⟩ : code = code' ∧ effects = effects' := by simpa using hrun
      exact hwrites
    · exact h.writes u code' effects' (by simpa [Function.update_of_ne hut] using hrun)

theorem Climbing.step_read (h : Climbing rank ok σ)
    (hclimbs : code.climbs rank ok (σ.locks t) (fun _ _ => True)) (hwrites : Writes ok effects) :
    Climbing rank ok (σ.advance t code effects) :=
  h.step_own (fun _ _ _ => Iff.rfl) hclimbs hwrites

theorem Climbing.finish {db : Database Key Row Entry} {history : List (Commit Id Key Row Entry α)}
    {done : Status Key Row Entry Err α} (h : Climbing rank ok σ)
    (hidle : done ≠ .idle) (hrun : ∀ code effects, done ≠ .running code effects)
    (hdb : ∀ key, ok key (db.row key)) :
    Climbing rank ok ⟨db, σ.unlocked t, Function.update σ.status t done, history⟩ := by
  have hlocks : ∀ u, u ≠ t → {key | σ.unlocked t key = some u} = σ.locks u :=
    fun u hut => Set.ext (fun key => Server.unlocked_other hut key)
  -- whoever has not ended is not `t`
  have hother : ∀ u status, Function.update σ.status t done u = status → status ≠ done →
      u ≠ t ∧ σ.status u = status := by
    intro u status hu hstatus
    have hut : u ≠ t := by
      rintro rfl
      rw [Function.update_self] at hu
      exact hstatus hu.symm
    rw [Function.update_of_ne hut] at hu
    exact ⟨hut, hu⟩
  refine ⟨hdb, fun u hu => ?_, fun u code effects hu => ?_, fun u code effects hu => ?_⟩
  · obtain ⟨hut, hbefore⟩ := hother u _ hu hidle.symm
    exact (hlocks u hut).trans (h.idle u hbefore)
  · obtain ⟨hut, hbefore⟩ := hother u _ hu (hrun code effects).symm
    have hclimbs := h.climbs u code effects hbefore
    rw [← hlocks u hut] at hclimbs
    exact hclimbs
  · obtain ⟨-, hbefore⟩ := hother u _ hu (hrun code effects).symm
    exact h.writes u code effects hbefore

end Statement

variable [DecidableEq Key]

theorem Climbing.waitsFor {u : Id} (h : Climbing rank ok σ) (hwait : σ.WaitsFor t u) :
    ∃ key, σ.owner key = some u ∧ ∀ other, σ.owner other = some t → rank other < rank key := by
  obtain ⟨key, hwanted, howner, hut⟩ := hwait
  refine ⟨key, howner, ?_⟩
  unfold Server.wanted at hwanted
  split at hwanted
  · rename_i code effects hrun
    rcases (h.climbs t code effects hrun).above hwanted with hheld | habove
    · have hown : σ.owner key = some t := hheld
      exact absurd (Option.some.inj (howner.symm.trans hown)) hut
    · exact habove
  · cases hwanted
  · cases hwanted
  · cases hwanted

theorem Climbing.not_deadlocked (h : Climbing rank ok σ) : ¬ σ.Deadlocked := by
  rintro ⟨t, hcycle⟩
  -- along a chain of waits the ranks rise
  have hchain : ∀ u, Relation.TransGen σ.WaitsFor t u →
      ∃ key, σ.owner key = some u ∧ ∀ other, σ.owner other = some t → rank other < rank key := by
    intro u hpath
    induction hpath with
    | single hwait => exact h.waitsFor hwait
    | tail _ hwait ih =>
      obtain ⟨key, hkey, hbelow⟩ := ih
      obtain ⟨key', hkey', hbelow'⟩ := h.waitsFor hwait
      exact ⟨key', hkey', fun other hother => (hbelow other hother).trans (hbelow' key hkey)⟩
  obtain ⟨key, hkey, hbelow⟩ := hchain t hcycle
  exact lt_irrefl _ (hbelow key hkey)

theorem Writes.apply {db : Database Key Row Entry} (h : Writes ok effects)
    (hdb : ∀ key, ok key (db.row key)) (key : Key) : ok key ((db.apply effects).row key) := by
  induction effects with
  | nil => exact hdb key
  | cons effect older ih =>
    cases effect with
    | push entry => exact ih h.of_cons
    | set written value =>
      rw [Database.apply_set]
      by_cases hkey : key = written
      · subst hkey
        rw [Database.row_set_self]
        exact h key value List.mem_cons_self
      · rw [Database.row_set_of_ne _ _ hkey]
        exact ih h.of_cons

variable [DecidableEq Id]

theorem Climbing.step_take {key : Key} (h : Climbing rank ok σ) (hfree : σ.Free t key)
    (hclimbs : code.climbs rank ok (insert key (σ.locks t)) (fun _ _ => True))
    (hwrites : Writes ok effects) : Climbing rank ok ((σ.take t key).advance t code effects) := by
  refine h.step_own (fun u hut other => ?_) ?_ hwrites
  · by_cases hother : other = key
    · subst hother
      rcases hfree with hnone | hown
      · simp [Server.take, hnone, Ne.symm hut]
      · simp [Server.take, hown]
    · simp only [Server.take, Function.update_of_ne hother]
  · have hlocks : {other | (σ.take t key).owner other = some t} = insert key (σ.locks t) := by
      ext other
      by_cases hother : other = key
      · simp [Server.take, hother]
      · simp [Server.take, hother, Server.locks]
    rw [hlocks]
    exact hclimbs

variable {body : Id → Transaction Key Row Entry Err α}

theorem Climbing.step {σ' : Server Id Key Row Entry Err α}
    (hbody : ∀ t, (body t).climbs rank ok ∅ (fun _ _ => True)) (h : Climbing rank ok σ)
    (hstep : Step body σ σ') : Climbing rank ok σ' := by
  cases hstep with
  | start t hidle =>
    refine h.step_read ?_ Writes.nil
    rw [h.idle t hidle]
    exact hbody t
  | query t hrun =>
    have hwrites := h.writes t _ _ hrun
    exact h.step_read (h.climbs t _ _ hrun _ (hwrites.apply h.rows)) hwrites
  | @lock t key _ _ row hrun hfree hrow =>
    have hwrites := h.writes t _ _ hrun
    have hok : ok key (some row) := hrow ▸ hwrites.apply h.rows key
    exact h.step_take hfree ((h.climbs t _ _ hrun).2.1 row hok) hwrites
  | lockMiss t hrun _ | updateMiss t hrun _ =>
    exact h.step_read (h.climbs t _ _ hrun).2.2 (h.writes t _ _ hrun)
  | insert t hrun hfree _ | delete t hrun hfree _ =>
    obtain ⟨-, hok, hnext, -⟩ := h.climbs t _ _ hrun
    exact h.step_take hfree hnext ((h.writes t _ _ hrun).set hok)
  | insertConflict t hrun _ | deleteMiss t hrun _ =>
    exact h.step_read (h.climbs t _ _ hrun).2.2.2 (h.writes t _ _ hrun)
  | @update t key _ _ _ row row' hrun hfree hrow hput =>
    have hwrites := h.writes t _ _ hrun
    have hold : ok key (some row) := hrow ▸ hwrites.apply h.rows key
    obtain ⟨hnew, hnext⟩ := (h.climbs t _ _ hrun).2.1 row row' hold hput
    exact h.step_take hfree hnext (hwrites.set hnew)
  | append t hrun =>
    have hclimbs := h.climbs t _ _ hrun
    exact h.step_read hclimbs (h.writes t _ _ hrun).push
  | commit t hrun =>
    exact h.finish (by simp) (by simp) ((h.writes t _ _ hrun).apply h.rows)
  | abort t _ => exact h.finish (by simp) (by simp) h.rows

theorem Reachable.climbing {db : Database Key Row Entry} (hreach : Reachable body db σ)
    (hbody : ∀ t, (body t).climbs rank ok ∅ (fun _ _ => True))
    (hdb : ∀ key, ok key (db.row key)) : Climbing rank ok σ := by
  induction hreach with
  | refl => exact Climbing.initial hdb
  | tail _ hstep ih => exact ih.step hbody hstep

end Invariant

end SuperSbc.ReadCommitted
