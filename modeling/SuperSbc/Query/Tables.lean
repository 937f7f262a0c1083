import Mathlib.Data.List.Dedup
import Mathlib.Data.List.Forall2
import Mathlib.Data.List.Perm.Basic
import Mathlib.Tactic

/-!
`GROUP BY` over a table, `UPDATE … WHERE` of a table, and statements that are
executed one after the other. Tables are lists of rows in no particular order.
-/

namespace SuperSbc.Query

section GroupBy

variable {Row Key Agg : Type} [DecidableEq Key] {key : Row → Key} {agg : List Row → Agg}
  {rows rows' : List Row} {g : Key × Agg}

/-- One result for each key that occurs. -/
def groupBy (key : Row → Key) (agg : List Row → Agg) (rows : List Row) : List (Key × Agg) :=
  (rows.map key).dedup.map (fun k => (k, agg (rows.filter (key · = k))))

theorem mem_groupBy : g ∈ groupBy key agg rows ↔
    ∃ r ∈ rows, g = (key r, agg (rows.filter (key · = key r))) := by
  unfold groupBy
  constructor
  · intro hg
    obtain ⟨k, hk, rfl⟩ := List.mem_map.mp hg
    obtain ⟨r, hr, rfl⟩ := List.mem_map.mp (List.mem_dedup.mp hk)
    exact ⟨r, hr, rfl⟩
  · rintro ⟨r, hr, rfl⟩
    exact List.mem_map.mpr ⟨key r, List.mem_dedup.mpr (List.mem_map_of_mem hr), rfl⟩

theorem groupBy_keys_nodup : ((groupBy key agg rows).map Prod.fst).Nodup := by
  have hkeys : (groupBy key agg rows).map Prod.fst = (rows.map key).dedup := by
    rw [groupBy, List.map_map]
    exact List.map_id _
  rw [hkeys]
  exact List.nodup_dedup _

theorem mem_groupBy_of_perm (hagg : ∀ a b : List Row, a.Perm b → agg a = agg b)
    (h : rows.Perm rows') : g ∈ groupBy key agg rows ↔ g ∈ groupBy key agg rows' := by
  have hsame : ∀ k, agg (rows.filter (key · = k)) = agg (rows'.filter (key · = k)) :=
    fun k => hagg _ _ (h.filter _)
  simp only [mem_groupBy, h.mem_iff, hsame]

theorem mem_groupBy_filter (part : Key → Bool) :
    g ∈ groupBy key agg (rows.filter (fun r => part (key r))) ↔
      g ∈ groupBy key agg rows ∧ part g.1 = true := by
  have hgroup : ∀ r, part (key r) = true →
      (rows.filter (fun r => part (key r))).filter (key · = key r) =
        rows.filter (key · = key r) := by
    intro r hpart
    rw [List.filter_filter]
    apply List.filter_congr
    intro other _
    by_cases hkey : key other = key r
    · simp [hkey, hpart]
    · simp [hkey]
  simp only [mem_groupBy]
  constructor
  · rintro ⟨r, hr, rfl⟩
    obtain ⟨hmem, hpart⟩ := List.mem_filter.mp hr
    exact ⟨⟨r, hmem, by rw [hgroup r hpart]⟩, hpart⟩
  · rintro ⟨⟨r, hr, rfl⟩, hpart⟩
    exact ⟨r, List.mem_filter.mpr ⟨hr, hpart⟩, by rw [hgroup r hpart]⟩

end GroupBy

section Update

variable {Row ε : Type} {cond : Row → Bool} {change : Row → Except ε Row} {rows rows' : List Row}

variable {α β : Type}

/-- `UPDATE … WHERE`; it fails when the new values of a row are refused. -/
def updateWhere (cond : Row → Bool) (change : Row → Except ε Row) (rows : List Row) :
    Except ε (List Row) :=
  rows.mapM (fun r => if cond r then change r else .ok r)

theorem exists_of_bind_ok {x : Except ε α} {f : α → Except ε β} {result : β}
    (h : x >>= f = .ok result) : ∃ a, x = .ok a ∧ f a = .ok result := by
  cases x with
  | error err => cases h
  | ok a => exact ⟨a, rfl, h⟩

theorem forall₂_of_mapM_ok {f : α → Except ε β} {l : List α} {results : List β}
    (h : l.mapM f = .ok results) : List.Forall₂ (fun a b => f a = .ok b) l results := by
  induction l generalizing results with
  | nil =>
    cases h
    exact .nil
  | cons a l ih =>
    rw [List.mapM_cons] at h
    obtain ⟨first, hfirst, h⟩ := exists_of_bind_ok h
    obtain ⟨rest, hrest, h⟩ := exists_of_bind_ok h
    obtain rfl := Except.ok.inj h
    exact .cons hfirst (ih hrest)

theorem mem_mapM_ok {f : α → Except ε β} {l : List α} {results : List β} {b : β}
    (h : l.mapM f = .ok results) (hb : b ∈ results) : ∃ a ∈ l, f a = .ok b := by
  have hall := forall₂_of_mapM_ok h
  clear h
  induction hall with
  | nil => cases hb
  | cons hfirst _ ih =>
    rcases List.mem_cons.mp hb with rfl | hb
    · exact ⟨_, List.mem_cons_self, hfirst⟩
    · obtain ⟨a, ha, hresult⟩ := ih hb
      exact ⟨a, List.mem_cons_of_mem _ ha, hresult⟩

theorem forall₂_updateWhere (h : updateWhere cond change rows = .ok rows') :
    List.Forall₂ (fun r r' => if cond r then change r = .ok r' else r' = r) rows rows' := by
  refine (forall₂_of_mapM_ok h).imp (fun r r' hr => ?_)
  split_ifs at hr ⊢
  · exact hr
  · exact (Except.ok.inj hr).symm

theorem map_updateWhere {column : Row → β}
    (hcolumn : ∀ r r', change r = .ok r' → column r' = column r)
    (h : updateWhere cond change rows = .ok rows') : rows'.map column = rows.map column := by
  have hrows := forall₂_updateWhere h
  clear h
  induction hrows with
  | nil => rfl
  | cons hrow _ ih =>
    rw [List.map_cons, List.map_cons, ih]
    split_ifs at hrow
    · rw [hcolumn _ _ hrow]
    · rw [hrow]

theorem mem_updateWhere {r' : Row} (h : updateWhere cond change rows = .ok rows')
    (hr' : r' ∈ rows') : r' ∈ rows ∨ ∃ r ∈ rows, cond r = true ∧ change r = .ok r' := by
  have hrows := forall₂_updateWhere h
  clear h
  induction hrows with
  | nil => cases hr'
  | cons hrow _ ih =>
    rcases List.mem_cons.mp hr' with rfl | hr'
    · split_ifs at hrow with hcond
      · exact .inr ⟨_, List.mem_cons_self, hcond, hrow⟩
      · exact .inl (hrow ▸ List.mem_cons_self)
    · rcases ih hr' with hold | ⟨r, hr, hchange⟩
      · exact .inl (List.mem_cons_of_mem _ hold)
      · exact .inr ⟨r, List.mem_cons_of_mem _ hr, hchange⟩

theorem exists_updateWhere {r : Row} (h : updateWhere cond change rows = .ok rows')
    (hr : r ∈ rows) : r ∈ rows' ∨ ∃ r' ∈ rows', change r = .ok r' := by
  have hrows := forall₂_updateWhere h
  clear h
  induction hrows with
  | nil => cases hr
  | cons hrow _ ih =>
    rcases List.mem_cons.mp hr with rfl | hr
    · split_ifs at hrow
      · exact .inr ⟨_, List.mem_cons_self, hrow⟩
      · exact .inl (hrow ▸ List.mem_cons_self)
    · rcases ih hr with hkept | ⟨r', hr', hchange⟩
      · exact .inl (List.mem_cons_of_mem _ hkept)
      · exact .inr ⟨r', List.mem_cons_of_mem _ hr', hchange⟩

end Update

theorem foldlM_invariant {α β ε : Type} {f : β → α → Except ε β} {Inv : β → Prop} {l : List α}
    (hstep : ∀ a ∈ l, ∀ b b', Inv b → f b a = .ok b' → Inv b') {b c : β} (hb : Inv b)
    (h : l.foldlM f b = .ok c) : Inv c := by
  induction l generalizing b with
  | nil =>
    cases h
    exact hb
  | cons a rest ih =>
    rw [List.foldlM_cons] at h
    cases hfirst : f b a with
    | error err =>
      rw [hfirst] at h
      cases h
    | ok next =>
      rw [hfirst] at h
      exact ih (fun x hx => hstep x (List.mem_cons_of_mem _ hx))
        (hstep a List.mem_cons_self b next hb hfirst) h

end SuperSbc.Query
