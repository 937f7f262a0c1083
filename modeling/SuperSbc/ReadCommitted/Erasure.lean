import SuperSbc.ReadCommitted.Server

/-!
A transaction that does not commit leaves no trace. Whatever an interleaving
reaches, the same interleaving without the steps of that transaction reaches
too: the same store, the same history, and the others where they were. What
makes it work is that its writes stay private, and that a row it would have
owned is free for the others.
-/

namespace SuperSbc.ReadCommitted

variable {Id Key : Type} {Row : Key → Type} {Entry Err α : Type} [DecidableEq Id]
  {σ σ' : Server Id Key Row Entry Err α} {t u : Id} {code : Transaction Key Row Entry Err α}
  {effects : List (Effect Key Row Entry)} {key : Key}

namespace Server

/-- The server as if a transaction had never started. -/
def without (σ : Server Id Key Row Entry Err α) (t : Id) : Server Id Key Row Entry Err α where
  db := σ.db
  owner := σ.unlocked t
  status := Function.update σ.status t .idle
  history := σ.history

theorem without_initial (db : Database Key Row Entry) (t : Id) :
    (Server.initial db : Server Id Key Row Entry Err α).without t = Server.initial db := by
  have hstatus : Function.update (fun _ => Status.idle) t Status.idle =
      (fun _ : Id => (Status.idle : Status Key Row Entry Err α)) := Function.update_eq_self t _
  have howner : (Server.initial db : Server Id Key Row Entry Err α).unlocked t =
      fun _ => none := by
    funext key
    simp [unlocked, initial]
  simp only [without, howner]
  simp only [initial, hstatus]

theorem status_without (hut : u ≠ t) : (σ.without t).status u = σ.status u := by
  simp [without, hut]

theorem Free.without (hfree : σ.Free u key) : (σ.without t).Free u key := by
  change σ.unlocked t key = none ∨ σ.unlocked t key = some u
  unfold unlocked
  split_ifs
  · exact .inl rfl
  · exact hfree

theorem without_advance (hut : u ≠ t) :
    (σ.advance u code effects).without t = (σ.without t).advance u code effects := by
  have hstatus := Function.update_comm hut (Status.running code effects) Status.idle σ.status
  simp only [without, advance, hstatus]
  rfl

theorem without_advance_self : (σ.advance t code effects).without t = σ.without t := by
  have hstatus := Function.update_idem (Status.running code effects) Status.idle σ.status (a := t)
  simp only [without, advance, hstatus]
  rfl

theorem unlocked_comm (hut : u ≠ t) (done : Server Id Key Row Entry Err α)
    (hdone : done.owner = σ.unlocked u) : done.unlocked t = (σ.without t).unlocked u := by
  funext key
  simp only [unlocked, hdone, without]
  by_cases hu : σ.owner key = some u
  · simp [hu, hut]
  · by_cases ht : σ.owner key = some t
    · simp [ht, Ne.symm hut]
    · simp [hu, ht]

theorem without_abort (hut : u ≠ t) : (σ.abort u).without t = (σ.without t).abort u := by
  have hstatus := Function.update_comm hut Status.aborted Status.idle σ.status
  have howner := unlocked_comm hut (σ.abort u) rfl
  simp only [without, howner]
  simp only [abort, hstatus]

theorem without_abort_self : (σ.abort t).without t = σ.without t := by
  have hstatus := Function.update_idem Status.aborted Status.idle σ.status (a := t)
  have howner : (σ.abort t).unlocked t = σ.unlocked t := by
    funext key
    by_cases ht : σ.owner key = some t <;> simp [unlocked, abort, ht]
  simp only [without, howner]
  simp only [abort, hstatus]

variable [DecidableEq Key]

theorem without_take (hut : u ≠ t) : (σ.take u key).without t = (σ.without t).take u key := by
  have howner : (σ.take u key).unlocked t = Function.update (σ.unlocked t) key (some u) := by
    funext other
    by_cases hother : other = key
    · subst hother
      simp [unlocked, take, hut]
    · simp [unlocked, take, hother]
  simp only [without, howner]
  rfl

theorem without_take_self (hfree : σ.Free t key) : (σ.take t key).without t = σ.without t := by
  have howner : (σ.take t key).unlocked t = σ.unlocked t := by
    funext other
    by_cases hother : other = key
    · subst hother
      rcases hfree with hnone | hself
      · simp [unlocked, take, hnone]
      · simp [unlocked, take, hself]
    · simp [unlocked, take, hother]
  simp only [without, howner]
  rfl

theorem without_commit (hut : u ≠ t) {value : α} :
    (σ.commit u value effects).without t = (σ.without t).commit u value effects := by
  have hstatus := Function.update_comm hut Status.committed Status.idle σ.status
  have howner := unlocked_comm hut (σ.commit u value effects) rfl
  simp only [without, howner]
  simp only [commit, hstatus]

end Server

variable [DecidableEq Key] {body : Id → Transaction Key Row Entry Err α}

theorem Step.committed_stays (hstep : Step body σ σ') (hdone : σ.status t = .committed) :
    σ'.status t = .committed := by
  have hother : ∀ {u : Id} {status : Status Key Row Entry Err α}, σ.status u = status →
      status ≠ .committed → t ≠ u := by
    rintro u status rfl hne rfl
    exact hne hdone
  cases hstep with
  | start u hidle => simpa [Server.advance, hother hidle (by simp)] using hdone
  | query u hrun | append u hrun => simpa [Server.advance, hother hrun (by simp)] using hdone
  | lock u hrun _ _ | insert u hrun _ _ | update u hrun _ _ _ | delete u hrun _ _ =>
    simpa [Server.advance, Server.take, hother hrun (by simp)] using hdone
  | lockMiss u hrun _ | insertConflict u hrun _ | updateMiss u hrun _ | deleteMiss u hrun _ =>
    simpa [Server.advance, hother hrun (by simp)] using hdone
  | commit u hrun => simpa [Server.commit, hother hrun (by simp)] using hdone
  | abort u hrun => simpa [Server.abort, hother hrun (by simp)] using hdone

theorem Step.history_cases (hstep : Step body σ σ') :
    σ'.history = σ.history ∨
      ∃ c, σ'.history = c :: σ.history ∧ σ'.status c.id = .committed := by
  cases hstep with
  | @commit u value effects _ =>
    exact .inr ⟨⟨u, value, σ.db, σ.db.apply effects⟩, rfl, by simp [Server.commit]⟩
  | _ => exact .inl rfl

theorem Reachable.committed_of_mem {db : Database Key Row Entry} (hreach : Reachable body db σ) :
    ∀ c ∈ σ.history, σ.status c.id = .committed := by
  induction hreach with
  | refl => simp [Server.initial]
  | tail _ hstep ih =>
    intro c hc
    rcases hstep.history_cases with hsame | ⟨new, hnew, hdone⟩
    · exact hstep.committed_stays (ih c (hsame ▸ hc))
    · rw [hnew] at hc
      rcases List.mem_cons.mp hc with rfl | hold
      · exact hdone
      · exact hstep.committed_stays (ih c hold)

section Gone

variable {u : Id} {key : Key} {code : Transaction Key Row Entry Err α}
  {effects : List (Effect Key Row Entry)}

theorem gone_or_advances
    (h : u ≠ t → Step body (σ.without t) ((σ.without t).advance u code effects)) :
    (σ.advance u code effects).without t = σ.without t ∨
      Step body (σ.without t) ((σ.advance u code effects).without t) := by
  by_cases hut : u = t
  · exact .inl (hut ▸ Server.without_advance_self)
  · rw [Server.without_advance hut]
    exact .inr (h hut)

theorem gone_or_takes (hfree : σ.Free u key)
    (h : u ≠ t → Step body (σ.without t) (((σ.without t).take u key).advance u code effects)) :
    ((σ.take u key).advance u code effects).without t = σ.without t ∨
      Step body (σ.without t) (((σ.take u key).advance u code effects).without t) := by
  by_cases hut : u = t
  · subst hut
    exact .inl (Server.without_advance_self.trans (Server.without_take_self hfree))
  · rw [Server.without_advance hut, Server.without_take hut]
    exact .inr (h hut)

end Gone

/-- A step of the transaction itself disappears, and a step of another one can
be taken without it. -/
theorem Step.without (hstep : Step body σ σ') (hopen : σ'.status t ≠ .committed) :
    σ'.without t = σ.without t ∨ Step body (σ.without t) (σ'.without t) := by
  have hstatus : ∀ {u : Id}, u ≠ t → (σ.without t).status u = σ.status u :=
    fun hut => Server.status_without hut
  cases hstep with
  | start u hidle => exact gone_or_advances (fun hut => .start u ((hstatus hut).trans hidle))
  | query u hrun => exact gone_or_advances (fun hut => .query u ((hstatus hut).trans hrun))
  | lock u hrun hfree hrow =>
    exact gone_or_takes hfree (fun hut => .lock u ((hstatus hut).trans hrun) hfree.without hrow)
  | lockMiss u hrun hrow =>
    exact gone_or_advances (fun hut => .lockMiss u ((hstatus hut).trans hrun) hrow)
  | insert u hrun hfree hrow =>
    exact gone_or_takes hfree (fun hut => .insert u ((hstatus hut).trans hrun) hfree.without hrow)
  | insertConflict u hrun hrow =>
    exact gone_or_advances (fun hut => .insertConflict u ((hstatus hut).trans hrun) hrow)
  | update u hrun hfree hrow hput =>
    exact gone_or_takes hfree
      (fun hut => .update u ((hstatus hut).trans hrun) hfree.without hrow hput)
  | updateMiss u hrun hskip =>
    exact gone_or_advances (fun hut => .updateMiss u ((hstatus hut).trans hrun) hskip)
  | delete u hrun hfree hrow =>
    exact gone_or_takes hfree (fun hut => .delete u ((hstatus hut).trans hrun) hfree.without hrow)
  | deleteMiss u hrun hrow =>
    exact gone_or_advances (fun hut => .deleteMiss u ((hstatus hut).trans hrun) hrow)
  | append u hrun => exact gone_or_advances (fun hut => .append u ((hstatus hut).trans hrun))
  | commit u hrun =>
    by_cases hut : u = t
    · subst hut
      exact absurd (by simp [Server.commit]) hopen
    · rw [Server.without_commit hut]
      exact .inr (.commit u ((hstatus hut).trans hrun))
  | abort u hrun =>
    by_cases hut : u = t
    · exact .inl (hut ▸ Server.without_abort_self)
    · rw [Server.without_abort hut]
      exact .inr (.abort u ((hstatus hut).trans hrun))

/-- A run in which a transaction did not commit is a run without it. -/
theorem Reachable.without {db : Database Key Row Entry} (hreach : Reachable body db σ)
    (hopen : σ.status t ≠ .committed) : Reachable body db (σ.without t) := by
  induction hreach with
  | refl =>
    rw [Server.without_initial]
    exact Relation.ReflTransGen.refl
  | tail _ hstep ih =>
    have hbefore := ih (fun hdone => hopen (hstep.committed_stays hdone))
    rcases hstep.without hopen with hsame | hother
    · rw [hsame]
      exact hbefore
    · exact hbefore.tail hother

end SuperSbc.ReadCommitted
