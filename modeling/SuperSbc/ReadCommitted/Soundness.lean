import SuperSbc.ReadCommitted.Server

/-!
The proof rule for interleavings: an invariant of commit histories and
committed stores holds in every reachable state when each transaction body,
taken by itself, satisfies its weakest precondition for it.

The argument replays a running transaction on every store that has the rows
it owns. Rows it owns cannot change under it, so the store it finally commits
on is such a store, and what it saw elsewhere was a committed store of some
earlier history.
-/

namespace SuperSbc.ReadCommitted

variable {Id Key : Type} {Row : Key → Type} {Entry Err α : Type}
variable [DecidableEq Key]
variable {body : Id → Transaction Key Row Entry Err α}
  {Inv : List (Commit Id Key Row Entry α) → Database Key Row Entry → Prop}
  {σ : Server Id Key Row Entry Err α} {t : Id}
  {code : Transaction Key Row Entry Err α} {effects : List (Effect Key Row Entry)}

variable {σ' : Server Id Key Row Entry Err α}

/-- Every body, run for the first time on a store that has the invariant,
commits to one that has it. On the way it may see stores of earlier
histories. -/
def Preserved (body : Id → Transaction Key Row Entry Err α)
    (Inv : List (Commit Id Key Row Entry α) → Database Key Row Entry → Prop) : Prop :=
  ∀ t history db, (∀ c ∈ history, c.id ≠ t) → Inv history db →
    (body t).wp (fun d => ∃ older, older <:+ history ∧ Inv older d) db .start
      (fun value p =>
        Inv (⟨t, value, db, db.apply p.effects⟩ :: history) (db.apply p.effects))

def Server.locks (σ : Server Id Key Row Entry Err α) (t : Id) : Set Key :=
  {key | σ.owner key = some t}

/-- The rest of a running transaction satisfies whatever the whole body
satisfies on a store with the same owned rows. -/
def Replays (body : Id → Transaction Key Row Entry Err α)
    (Inv : List (Commit Id Key Row Entry α) → Database Key Row Entry → Prop)
    (σ : Server Id Key Row Entry Err α) (t : Id)
    (code : Transaction Key Row Entry Err α) (effects : List (Effect Key Row Entry)) : Prop :=
  ∀ (seen : Database Key Row Entry → Prop) db post,
    (∀ older d, older <:+ σ.history → Inv older d → seen d) →
    (∀ key ∈ σ.locks t, db.row key = σ.db.row key) →
    (body t).wp seen db .start post → code.wp seen db ⟨effects, σ.locks t⟩ post

structure Coherent (body : Id → Transaction Key Row Entry Err α)
    (Inv : List (Commit Id Key Row Entry α) → Database Key Row Entry → Prop)
    (σ : Server Id Key Row Entry Err α) : Prop where
  inv : Inv σ.history σ.db
  fresh : ∀ t, σ.status t ≠ .committed → ∀ c ∈ σ.history, c.id ≠ t
  live : ∀ t, (∀ code effects, σ.status t ≠ .running code effects) →
    ∀ key, σ.owner key ≠ some t
  owned : ∀ t code effects, σ.status t = .running code effects →
    ∀ effect ∈ effects, ∀ key, effect.touches key → σ.owner key = some t
  replay : ∀ t code effects, σ.status t = .running code effects →
    Replays body Inv σ t code effects

theorem Replays.of_locks_eq (h : Replays body Inv σ t code effects)
    (hlocks : σ'.locks t = σ.locks t) (hhistory : σ.history <:+ σ'.history)
    (hdb : ∀ key ∈ σ.locks t, σ'.db.row key = σ.db.row key) :
    Replays body Inv σ' t code effects := by
  intro seen db post hseen hrows hbody
  rw [hlocks] at hrows ⊢
  refine h seen db post (fun older d holder => hseen older d (holder.trans hhistory)) ?_ hbody
  intro key hkey
  rw [hrows key hkey, hdb key hkey]

variable [DecidableEq Id]

/-- One statement of `t`: only `t`'s rows may change hands, and only towards
`t`. -/
theorem Coherent.step_own (h : Coherent body Inv σ) {owner' : Key → Option Id}
    (hstatus : σ.status t ≠ .committed)
    (hothers : ∀ u, u ≠ t → ∀ key, owner' key = some u ↔ σ.owner key = some u)
    (howned : ∀ effect ∈ effects, ∀ key, effect.touches key → owner' key = some t)
    (hreplay : Replays body Inv
      (Server.advance { σ with owner := owner' } t code effects) t code effects) :
    Coherent body Inv (Server.advance { σ with owner := owner' } t code effects) where
  inv := h.inv
  fresh u hu := by
    by_cases hut : u = t
    · exact hut ▸ h.fresh t hstatus
    · exact h.fresh u (by simpa [Server.advance, hut] using hu)
  live u hu key := by
    have hut : u ≠ t := by
      rintro rfl
      exact hu code effects (by simp [Server.advance])
    have hlive := h.live u (by simpa [Server.advance, hut] using hu) key
    exact fun howner => hlive ((hothers u hut key).mp howner)
  owned u code' effects' hu := by
    by_cases hut : u = t
    · subst hut
      have heq : code = code' ∧ effects = effects' := by
        simpa [Server.advance] using hu
      exact heq.2 ▸ howned
    · have hrun : σ.status u = .running code' effects' := by
        simpa [Server.advance, hut] using hu
      intro effect heffect key htouch
      exact (hothers u hut key).mpr (h.owned u code' effects' hrun effect heffect key htouch)
  replay u code' effects' hu := by
    by_cases hut : u = t
    · subst hut
      have heq : code = code' ∧ effects = effects' := by
        simpa [Server.advance] using hu
      obtain ⟨rfl, rfl⟩ := heq
      exact hreplay
    · have hrun : σ.status u = .running code' effects' := by
        simpa [Server.advance, hut] using hu
      have hlocks : Server.locks (Server.advance { σ with owner := owner' } t code effects) u =
          σ.locks u := by
        ext key
        exact hothers u hut key
      exact (h.replay u code' effects' hrun).of_locks_eq hlocks
        (List.suffix_refl _) (fun _ _ => rfl)

theorem Coherent.step_read (h : Coherent body Inv σ) {old : Transaction Key Row Entry Err α}
    {olderEffects : List (Effect Key Row Entry)}
    (hrun : σ.status t = .running old olderEffects)
    (htouches : ∀ effect ∈ effects, ∀ key, effect.touches key →
      ∃ older ∈ olderEffects, older.touches key)
    (hwp : ∀ (seen : Database Key Row Entry → Prop) db post, seen σ.db →
      (Progress.mk olderEffects (σ.locks t)).Agrees σ.db db →
      old.wp seen db ⟨olderEffects, σ.locks t⟩ post →
      code.wp seen db ⟨effects, σ.locks t⟩ post) :
    Coherent body Inv (σ.advance t code effects) := by
  refine h.step_own (by simp [hrun]) (fun _ _ _ => Iff.rfl) ?_ ?_
  · intro effect heffect key htouch
    obtain ⟨older, holder, hkey⟩ := htouches effect heffect key htouch
    exact h.owned t _ _ hrun older holder key hkey
  · intro seen db post hseen hrows hbody
    refine hwp seen db post (hseen _ _ (List.suffix_refl _) h.inv) ?_
      (h.replay t _ _ hrun seen db post hseen hrows hbody)
    exact fun key hkey => (hrows key hkey).symm

theorem Coherent.step_take (h : Coherent body Inv σ) {old : Transaction Key Row Entry Err α}
    {olderEffects : List (Effect Key Row Entry)} {key : Key}
    (hrun : σ.status t = .running old olderEffects) (hfree : σ.Free t key)
    (htouches : ∀ effect ∈ effects, ∀ other, effect.touches other →
      other = key ∨ ∃ older ∈ olderEffects, older.touches other)
    (hwp : ∀ (seen : Database Key Row Entry → Prop) db post, db.row key = σ.db.row key →
      old.wp seen db ⟨olderEffects, σ.locks t⟩ post →
      code.wp seen db ⟨effects, insert key (σ.locks t)⟩ post) :
    Coherent body Inv ((σ.take t key).advance t code effects) := by
  have hmine : ∀ other, (σ.take t key).owner other = some t ↔
      other = key ∨ σ.owner other = some t := by
    intro other
    by_cases hother : other = key <;> simp [Server.take, hother]
  have hlocks : ((σ.take t key).advance t code effects).locks t = insert key (σ.locks t) := by
    ext other
    exact hmine other
  refine h.step_own (by simp [hrun]) ?_ ?_ ?_
  · intro u hut other
    by_cases hother : other = key
    · subst hother
      rcases hfree with hnone | hself
      · simp [hnone, Ne.symm hut]
      · simp [hself, Ne.symm hut]
    · simp [hother]
  · intro effect heffect other htouch
    refine (hmine other).mpr ?_
    rcases htouches effect heffect other htouch with hkey | ⟨older, holder, hother⟩
    · exact .inl hkey
    · exact .inr (h.owned t _ _ hrun older holder other hother)
  · intro seen db post hseen hrows hbody
    change code.wp seen db ⟨effects, ((σ.take t key).advance t code effects).locks t⟩ post
    rw [hlocks]
    have hkeep : ∀ other ∈ insert key (σ.locks t), db.row other = σ.db.row other := by
      intro other hother
      exact hrows other (hlocks.symm ▸ hother)
    refine hwp seen db post (hkeep key (Set.mem_insert _ _)) ?_
    exact h.replay t _ _ hrun seen db post hseen
      (fun other hother => hkeep other (Set.mem_insert_of_mem _ hother)) hbody

theorem Coherent.start (h : Coherent body Inv σ) (hidle : σ.status t = .idle) :
    Coherent body Inv (σ.advance t (body t) []) := by
  have hlocks : σ.locks t = ∅ :=
    Set.eq_empty_iff_forall_notMem.mpr (h.live t (by simp [hidle]))
  refine h.step_own (by simp [hidle]) (fun _ _ _ => Iff.rfl) (by simp) ?_
  intro seen db post _ _ hbody
  change (body t).wp seen db ⟨[], σ.locks t⟩ post
  rw [hlocks]
  exact hbody

/-- A transaction that ends leaves the others as they were, provided the rows
they own keep their committed value. -/
private theorem Coherent.finish (h : Coherent body Inv σ) (done : Status Key Row Entry Err α)
    (hdone : ∀ code effects, done ≠ .running code effects)
    (hstatus : σ'.status = Function.update σ.status t done) (howner : σ'.owner = σ.unlocked t)
    (hinv : Inv σ'.history σ'.db) (hhistory : σ.history <:+ σ'.history)
    (hfresh : ∀ u, σ'.status u ≠ .committed → ∀ c ∈ σ'.history, c.id ≠ u)
    (hrows : ∀ u, u ≠ t → ∀ key, σ.owner key = some u → σ'.db.row key = σ.db.row key) :
    Coherent body Inv σ' := by
  have hother : ∀ u code effects, σ'.status u = .running code effects →
      u ≠ t ∧ σ.status u = .running code effects := by
    intro u code effects hu
    rw [hstatus] at hu
    by_cases hut : u = t
    · subst hut
      exact absurd (by simpa using hu) (hdone code effects)
    · exact ⟨hut, by simpa [hut] using hu⟩
  refine ⟨hinv, hfresh, ?_, ?_, ?_⟩
  · intro u hu key hkey
    rw [howner] at hkey
    by_cases hut : u = t
    · exact Server.unlocked_self key (hut ▸ hkey)
    · refine h.live u (fun code effects hrun => hu code effects ?_) key
        ((Server.unlocked_other hut key).mp hkey)
      rw [hstatus]
      simpa [hut] using hrun
  · intro u code effects hu effect heffect key htouch
    obtain ⟨hut, hrun⟩ := hother u code effects hu
    rw [howner]
    exact (Server.unlocked_other hut key).mpr
      (h.owned u code effects hrun effect heffect key htouch)
  · intro u code effects hu
    obtain ⟨hut, hrun⟩ := hother u code effects hu
    refine (h.replay u code effects hrun).of_locks_eq ?_ hhistory (hrows u hut)
    ext key
    change σ'.owner key = some u ↔ σ.owner key = some u
    rw [howner]
    exact Server.unlocked_other hut key

theorem Coherent.abort (h : Coherent body Inv σ) (hrun : σ.status t = .running code effects) :
    Coherent body Inv (σ.abort t) := by
  refine h.finish (t := t) .aborted (by simp) rfl rfl h.inv
    (List.suffix_refl _) ?_ (fun _ _ _ _ => rfl)
  intro u hu
  by_cases hut : u = t
  · exact hut ▸ h.fresh t (by simp [hrun])
  · exact h.fresh u (by simpa [Server.abort, hut] using hu)

theorem Coherent.commit (hpreserved : Preserved body Inv) (h : Coherent body Inv σ) {value : α}
    (hrun : σ.status t = .running (.ret value) effects) :
    Coherent body Inv (σ.commit t value effects) := by
  have hbody := hpreserved t σ.history σ.db (h.fresh t (by simp [hrun])) h.inv
  have hinv := h.replay t _ _ hrun _ σ.db _ (fun older d holder hd => ⟨older, holder, hd⟩)
    (fun _ _ => rfl) hbody
  refine h.finish (t := t) .committed (by simp) rfl rfl hinv
    (List.suffix_cons _ _) ?_ ?_
  · intro u hu c hc
    have hut : u ≠ t := by
      rintro rfl
      simp [Server.commit] at hu
    rcases List.mem_cons.mp hc with rfl | hc
    · exact Ne.symm hut
    · exact h.fresh u (by simpa [Server.commit, hut] using hu) c hc
  · intro u hut key hkey
    -- a row owned by `u` is not among the rows `t` wrote
    refine Database.row_apply_of_untouched _ _ _ (fun effect heffect htouch => hut ?_)
    have howner := h.owned t _ _ hrun effect heffect key htouch
    exact Option.some.inj (hkey.symm.trans howner)

theorem Coherent.step (hpreserved : Preserved body Inv) (h : Coherent body Inv σ)
    (hstep : Step body σ σ') : Coherent body Inv σ' := by
  cases hstep with
  | start t hidle => exact h.start hidle
  | query t hrun =>
    exact h.step_read hrun (fun effect he _ hk => ⟨effect, he, hk⟩)
      (fun _ db _ hseen hagree hwp => hwp _ hseen hagree)
  | @lock t key _ effects row hrun hfree hrow =>
    refine h.step_take hrun hfree (fun effect he _ hk => .inr ⟨effect, he, hk⟩) ?_
    intro seen db post hkey hwp
    exact hwp.1 row ((Database.row_apply_congr _ _ _ effects hkey).trans hrow)
  | lockMiss t hrun hmiss | insertConflict t hrun hmiss | updateMiss t hrun hmiss
  | deleteMiss t hrun hmiss =>
    exact h.step_read hrun (fun effect he _ hk => ⟨effect, he, hk⟩)
      (fun _ db _ hseen hagree hwp => hwp.2 _ hseen hagree hmiss)
  | @insert t key row _ effects hrun hfree hrow =>
    refine h.step_take hrun hfree (fun effect he other hk => ?_) ?_
    · rcases List.mem_cons.mp he with rfl | he
      · exact .inl hk.symm
      · exact .inr ⟨effect, he, hk⟩
    · intro seen db post hkey hwp
      exact hwp.1 ((Database.row_apply_congr _ _ _ effects hkey).trans hrow)
  | @update t key change _ effects row row' hrun hfree hrow hput =>
    refine h.step_take hrun hfree (fun effect he other hk => ?_) ?_
    · rcases List.mem_cons.mp he with rfl | he
      · exact .inl hk.symm
      · exact .inr ⟨effect, he, hk⟩
    · intro seen db post hkey hwp
      exact hwp.1 row row' ((Database.row_apply_congr _ _ _ effects hkey).trans hrow) hput
  | @delete t key _ effects hrun hfree hrow =>
    refine h.step_take hrun hfree (fun effect he other hk => ?_) ?_
    · rcases List.mem_cons.mp he with rfl | he
      · exact .inl hk.symm
      · exact .inr ⟨effect, he, hk⟩
    · intro seen db post hkey hwp
      refine hwp.1 ?_
      rw [Database.row_apply_congr _ _ _ effects hkey]
      exact hrow
  | @append t entry _ effects hrun =>
    refine h.step_read hrun (fun effect he other hk => ?_) (fun _ db _ _ _ hwp => hwp)
    rcases List.mem_cons.mp he with rfl | he
    · exact absurd hk (by simp [Effect.touches])
    · exact ⟨effect, he, hk⟩
  | commit t hrun => exact h.commit hpreserved hrun
  | abort t hrun => exact h.abort hrun

/-- The rule. An invariant of the initial store that every body preserves
holds after every commit of every interleaving. -/
theorem Reachable.invariant {db : Database Key Row Entry} (hreach : Reachable body db σ)
    (hinit : Inv [] db) (hpreserved : Preserved body Inv) : Inv σ.history σ.db := by
  have hcoherent : Coherent body Inv σ := by
    induction hreach with
    | refl =>
      refine ⟨hinit, ?_, ?_, ?_, ?_⟩ <;> simp [Server.initial]
    | tail _ hstep ih => exact ih.step hpreserved hstep
  exact hcoherent.inv

end SuperSbc.ReadCommitted
