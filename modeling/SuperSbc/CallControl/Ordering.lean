import SuperSbc.CallControl.Routing
import SuperSbc.Random.Draw
import Mathlib.Data.List.SplitBy

/-!
The order in which the candidates of a route are dialled. Rates and quality
tiers are only compared, so a float is kept as the rational number it is.
-/

namespace SuperSbc.CallControl

open Query SuperSbc.Random

/-- What the ordering needs from a candidate. -/
structure Orderable where
  priority : ℤ
  weight : ℤ
  degraded : Bool := false
  buyRate : ℚ := 0
  quality : ℚ := 0
deriving DecidableEq

/-- The sort key, smallest first; a mode that is off leaves its part zero. -/
def keyOf (modes : RouteModes) (c : Orderable) : ℚ ×ₗ ℚ ×ₗ ℤ :=
  toLex (if modes.quality then -c.quality else 0,
    toLex (if modes.lcr then c.buyRate else 0, c.priority))

/-- The part of the calls a candidate gets in percent mode. -/
def Orderable.share (c : Orderable) : ℤ := max c.weight 0

/-- Larger shares first, then by priority. -/
def shareKey (c : Orderable) : ℤᵒᵈ ×ₗ ℤ := toLex (OrderDual.toDual c.share, c.priority)

section Order

variable {n : ℕ} (cands : Fin n → Orderable)

def weightedShuffle (group : List (Fin n)) (rnd : Option Source) :
    List (Fin n) × Option Source :=
  shuffle (fun i => max (cands i).weight 1) group.length group rnd

def shuffleGroups : List (List (Fin n)) → Option Source → List (Fin n) × Option Source
  | [], rnd => ([], rnd)
  | group :: groups, rnd =>
    let front := weightedShuffle cands group rnd
    let back := shuffleGroups groups front.2
    (front.1 ++ back.1, back.2)

def keyedOrder (idx : List (Fin n)) (modes : RouteModes) (rnd : Option Source) :
    List (Fin n) × Option Source :=
  let key (i : Fin n) := keyOf modes (cands i)
  shuffleGroups cands ((orderBy key idx).splitBy (fun i j => key i = key j)) rnd

def shareOrder (idx : List (Fin n)) : List (Fin n) := orderBy (fun i => shareKey (cands i)) idx

/-- The candidate drawn by share comes first, then the others by share. -/
def percentOrder (idx : List (Fin n)) (rnd : Option Source) : List (Fin n) × Option Source :=
  let rest := shareOrder cands idx
  let shares := rest.map (fun i => (cands i).share)
  let drawn : ℕ × Option Source :=
    match rnd with
    | some src =>
      if 0 < total shares then
        let draw := intn (total shares) src
        ((place shares draw.1).getD 0, some draw.2)
      else (0, some src)
    | none => (0, none)
  ((rest[drawn.1]?).toList ++ rest.eraseIdx drawn.1, drawn.2)

def degradedLast (out : List (Fin n)) : List (Fin n) :=
  out.filter (fun i => !(cands i).degraded) ++ out.filter (fun i => (cands i).degraded)

def orderCandidates (modes : RouteModes) (rnd : Option Source) : List (Fin n) × Option Source :=
  let idx := List.finRange n
  let out := if modes.percent then percentOrder cands idx rnd else keyedOrder cands idx modes rnd
  (degradedLast cands out.1, out.2)

end Order

section Keyed

variable {n : ℕ} {cands : Fin n → Orderable} {modes : RouteModes}

/-- Sorted by what the modes ask for: the better tier, then the cheaper rate,
then the priority. -/
def Ranked (modes : RouteModes) (c d : Orderable) : Prop :=
  (modes.quality ∧ d.quality < c.quality) ∨
    ((modes.quality → c.quality = d.quality) ∧
      ((modes.lcr ∧ c.buyRate < d.buyRate) ∨
        ((modes.lcr → c.buyRate = d.buyRate) ∧ c.priority ≤ d.priority)))

theorem keyOf_le_iff {c d : Orderable} : keyOf modes c ≤ keyOf modes d ↔ Ranked modes c d := by
  unfold keyOf Ranked
  rw [Prod.Lex.toLex_le_toLex, Prod.Lex.toLex_le_toLex]
  cases modes.quality <;> cases modes.lcr <;> simp

theorem weightedShuffle_perm (cands : Fin n → Orderable) (group : List (Fin n))
    (rnd : Option Source) : (weightedShuffle cands group rnd).1.Perm group :=
  shuffle_perm _ _ _ le_rfl

theorem shuffleGroups_perm (cands : Fin n → Orderable) (groups : List (List (Fin n)))
    (rnd : Option Source) : (shuffleGroups cands groups rnd).1.Perm groups.flatten := by
  induction groups generalizing rnd with
  | nil => exact .nil
  | cons group groups ih =>
    rw [List.flatten_cons]
    exact (weightedShuffle_perm cands group rnd).append (ih _)

theorem shuffleGroups_sorted {K : Type} [LinearOrder K] {key : Fin n → K}
    {groups : List (List (Fin n))} (hgroup : ∀ g ∈ groups, ∀ i ∈ g, ∀ j ∈ g, key i = key j)
    (hsorted : groups.flatten.Pairwise (fun i j => key i ≤ key j)) (rnd : Option Source) :
    (shuffleGroups cands groups rnd).1.Pairwise (fun i j => key i ≤ key j) := by
  induction groups generalizing rnd with
  | nil => exact .nil
  | cons group groups ih =>
    rw [List.flatten_cons, List.pairwise_append] at hsorted
    obtain ⟨-, hback, hcross⟩ := hsorted
    have hfront := weightedShuffle_perm cands group rnd
    refine List.pairwise_append.mpr ⟨?_, ?_, ?_⟩
    · refine List.pairwise_of_forall_mem_list (fun i hi j hj => ?_)
      exact (hgroup group List.mem_cons_self i (hfront.mem_iff.mp hi) j
        (hfront.mem_iff.mp hj)).le
    · exact ih (fun g hg => hgroup g (List.mem_cons_of_mem _ hg)) hback _
    · intro i hi j hj
      exact hcross i (hfront.mem_iff.mp hi) j ((shuffleGroups_perm cands groups _).mem_iff.mp hj)

theorem splitBy_key {K : Type} [DecidableEq K] {key : Fin n → K} {idx g : List (Fin n)}
    (hg : g ∈ idx.splitBy (fun i j => key i = key j)) {i j : Fin n} (hi : i ∈ g) (hj : j ∈ g) :
    key i = key j := by
  have hchain := List.isChain_of_mem_splitBy hg
  simp only [decide_eq_true_eq] at hchain
  have : IsTrans (Fin n) (fun i j => key i = key j) := ⟨fun _ _ _ => Eq.trans⟩
  have : Std.Symm (fun i j => key i = key j) := ⟨fun _ _ => Eq.symm⟩
  exact List.Pairwise.forall_of_forall (R := fun i j => key i = key j) (fun _ _ => rfl)
    (List.isChain_iff_pairwise.mp hchain) hi hj

theorem keyedOrder_perm (cands : Fin n → Orderable) (idx : List (Fin n)) (modes : RouteModes)
    (rnd : Option Source) :
    (keyedOrder cands idx modes rnd).1.Perm idx := by
  refine (shuffleGroups_perm cands _ rnd).trans ?_
  rw [List.flatten_splitBy]
  exact List.perm_insertionSort _ idx

theorem keyedOrder_sorted (cands : Fin n → Orderable) (idx : List (Fin n)) (modes : RouteModes)
    (rnd : Option Source) :
    (keyedOrder cands idx modes rnd).1.Pairwise
      (fun i j => Ranked modes (cands i) (cands j)) := by
  have hsorted : (keyedOrder cands idx modes rnd).1.Pairwise
      (fun i j => keyOf modes (cands i) ≤ keyOf modes (cands j)) := by
    refine shuffleGroups_sorted (fun g hg i hi j hj => splitBy_key hg hi hj) ?_ rnd
    rw [List.flatten_splitBy]
    exact orderBy_pairwise _ idx
  exact hsorted.imp keyOf_le_iff.mp

end Keyed

section Percent

variable {n : ℕ} {cands : Fin n → Orderable}

/-- Larger shares first, ties by priority. -/
def ByShare (c d : Orderable) : Prop :=
  d.share < c.share ∨ (c.share = d.share ∧ c.priority ≤ d.priority)

theorem shareKey_le_iff {c d : Orderable} : shareKey c ≤ shareKey d ↔ ByShare c d := by
  unfold shareKey ByShare
  rw [Prod.Lex.toLex_le_toLex, OrderDual.toDual_lt_toDual, OrderDual.toDual_inj]

theorem ByShare.share_le {c d : Orderable} (h : ByShare c d) : d.share ≤ c.share := by
  rcases h with hless | ⟨hsame, -⟩
  · exact hless.le
  · exact hsame.ge

theorem share_nonneg (c : Orderable) : 0 ≤ c.share := le_max_right _ _

theorem byShare_sorted (cands : Fin n → Orderable) (idx : List (Fin n)) :
    (shareOrder cands idx).Pairwise
      (fun i j => ByShare (cands i) (cands j)) := by
  have hsorted := orderBy_pairwise (fun i => shareKey (cands i)) idx
  exact hsorted.imp shareKey_le_iff.mp

/-- The head of the list by shares has a share if any candidate has one. -/
theorem share_head_pos {idx : List (Fin n)} {i : Fin n} (hi : i ∈ idx)
    (hpos : 0 < (cands i).share) :
    ∃ j, (shareOrder cands idx)[0]? = some j ∧ 0 < (cands j).share := by
  have hmem : i ∈ shareOrder cands idx := mem_orderBy.mpr hi
  have hsorted := byShare_sorted cands idx
  cases hrest : shareOrder cands idx with
  | nil =>
    rw [hrest] at hmem
    cases hmem
  | cons j rest =>
    rw [hrest] at hmem hsorted
    refine ⟨j, rfl, ?_⟩
    rcases List.mem_cons.mp hmem with rfl | hlater
    · exact hpos
    · exact hpos.trans_le (List.rel_of_pairwise_cons hsorted hlater).share_le

theorem share_drawn_pos {rest : List (Fin n)}
    (htotal : 0 < total (rest.map (fun i => (cands i).share))) (src : Source) :
    ∃ j, rest[(place (rest.map (fun i => (cands i).share))
        (intn (total (rest.map (fun i => (cands i).share))) src).1).getD 0]? = some j ∧
      0 < (cands j).share := by
  generalize hshares : rest.map (fun i => (cands i).share) = shares at htotal ⊢
  have hsum : 0 ≤ shares.sum := by
    rw [← hshares]
    refine List.sum_nonneg (fun w hw => ?_)
    obtain ⟨i, -, rfl⟩ := List.mem_map.mp hw
    exact share_nonneg _
  have hpick := intn_nonneg htotal src
  have hbelow : (intn (total shares) src).1 < shares.sum :=
    (intn_lt htotal src).trans_le (total_le_sum hsum htotal)
  obtain ⟨k, hplace⟩ := Option.ne_none_iff_exists'.mp (place_ne_none hbelow hpick)
  obtain ⟨w, hw, hpos⟩ := place_pos hpick hplace
  rw [← hshares, List.getElem?_map] at hw
  obtain ⟨j, hj, rfl⟩ := Option.map_eq_some_iff.mp hw
  exact ⟨j, by rw [hplace, Option.getD_some, hj], hpos⟩

/-- One candidate goes to the front of the list by shares; it has a share if
any candidate has one. -/
theorem percentOrder_cases (cands : Fin n → Orderable) (idx : List (Fin n)) (rnd : Option Source) :
    ∃ d, (percentOrder cands idx rnd).1 =
        ((shareOrder cands idx)[d]?).toList ++
          (shareOrder cands idx).eraseIdx d ∧
      (idx ≠ [] → d < (shareOrder cands idx).length) ∧
      ((∃ i ∈ idx, 0 < (cands i).share) →
        ∃ j, (shareOrder cands idx)[d]? = some j ∧ 0 < (cands j).share) := by
  have hfront (hne : idx ≠ []) : 0 < (shareOrder cands idx).length := by
    rw [shareOrder, orderBy, List.length_insertionSort]
    exact List.length_pos_iff.mpr hne
  have hhead : (∃ i ∈ idx, 0 < (cands i).share) →
      ∃ j, (shareOrder cands idx)[0]? = some j ∧ 0 < (cands j).share := by
    rintro ⟨_, hi, hpos⟩
    exact share_head_pos hi hpos
  unfold percentOrder
  dsimp only
  cases rnd with
  | none => exact ⟨0, rfl, hfront, hhead⟩
  | some src =>
    by_cases htotal : 0 < total ((shareOrder cands idx).map
        (fun i => (cands i).share))
    · obtain ⟨j, hj, hpos⟩ := share_drawn_pos htotal src
      refine ⟨_, by simp only [if_pos htotal], fun _ => ?_, fun _ => ⟨j, hj, hpos⟩⟩
      exact (List.getElem?_eq_some_iff.mp hj).1
    · exact ⟨0, by simp only [if_neg htotal], hfront, hhead⟩

theorem percentOrder_perm (cands : Fin n → Orderable) (idx : List (Fin n)) (rnd : Option Source) :
    (percentOrder cands idx rnd).1.Perm idx := by
  obtain ⟨d, hout, hlt, -⟩ := percentOrder_cases cands idx rnd
  have hsorted : (shareOrder cands idx).Perm idx :=
    List.perm_insertionSort _ idx
  rw [hout]
  by_cases hne : idx = []
  · subst hne
    exact .nil
  · rw [List.getElem?_eq_getElem (hlt hne)]
    exact (List.getElem_cons_eraseIdx_perm (hlt hne)).trans hsorted

end Percent

section Modes

variable {n : ℕ} {cands : Fin n → Orderable} {modes : RouteModes}

/-- What a dial order has to be for the modes of its route group. The two parts
of it are the candidates that are degraded and those that are not. -/
structure ObeysModes (cands : Fin n → Orderable) (modes : RouteModes) (out : List (Fin n)) :
    Prop where
  perm : out.Perm (List.finRange n)
  degraded_last : out.Pairwise (fun i j => (cands i).degraded → (cands j).degraded)
  ranked : modes.percent = false → ∀ part : Bool,
    (out.filter (fun i => (cands i).degraded = part)).Pairwise
      (fun i j => Ranked modes (cands i) (cands j))
  first : modes.percent = true → (∃ i, 0 < (cands i).share) →
    ∀ i, out.head? = some i → (cands i).share = 0 →
      (cands i).degraded = false ∧ ∀ j, 0 < (cands j).share → (cands j).degraded = true
  failover : modes.percent = true → (∃ i, 0 < (cands i).share) →
    ∃ drawn, 0 < (cands drawn).share ∧ ∀ part : Bool,
      ((out.filter (fun i => (cands i).degraded = part)).erase drawn).Pairwise
        (fun i j => ByShare (cands i) (cands j))

theorem degradedLast_perm (cands : Fin n → Orderable) (out : List (Fin n)) :
    (degradedLast cands out).Perm out := by
  refine List.perm_append_comm.trans ?_
  exact List.filter_append_perm (fun i => (cands i).degraded) out

theorem degradedLast_pairwise (cands : Fin n → Orderable) (out : List (Fin n)) :
    (degradedLast cands out).Pairwise (fun i j => (cands i).degraded → (cands j).degraded) := by
  refine List.pairwise_append.mpr ⟨?_, ?_, ?_⟩
  · refine List.pairwise_of_forall_mem_list (fun i hi j _ hdegraded => ?_)
    have hhealthy := (List.mem_filter.mp hi).2
    simp [hdegraded] at hhealthy
  · exact List.pairwise_of_forall_mem_list (fun i _ j hj _ => (List.mem_filter.mp hj).2)
  · exact fun i _ j hj _ => (List.mem_filter.mp hj).2

theorem filter_degradedLast (cands : Fin n → Orderable) (out : List (Fin n)) (part : Bool) :
    (degradedLast cands out).filter (fun i => (cands i).degraded = part) =
      out.filter (fun i => (cands i).degraded = part) := by
  rw [degradedLast, List.filter_append, List.filter_filter, List.filter_filter]
  cases part with
  | false =>
    have hnone : out.filter (fun i => decide ((cands i).degraded = false) &&
        (cands i).degraded) = [] := by
      refine List.filter_eq_nil_iff.mpr (fun i _ => ?_)
      simp
    rw [hnone, List.append_nil]
    refine List.filter_congr (fun i _ => ?_)
    cases (cands i).degraded <;> rfl
  | true =>
    have hnone : out.filter (fun i => decide ((cands i).degraded = true) &&
        !(cands i).degraded) = [] := by
      refine List.filter_eq_nil_iff.mpr (fun i _ => ?_)
      simp
    rw [hnone, List.nil_append]
    refine List.filter_congr (fun i _ => ?_)
    cases (cands i).degraded <;> rfl

/-- The candidate drawn in percent mode and the others behind it. -/
theorem percentOrder_drawn (cands : Fin n → Orderable) (rnd : Option Source)
    (hshare : ∃ i, 0 < (cands i).share) :
    ∃ drawn others, (percentOrder cands (List.finRange n) rnd).1 = drawn :: others ∧
      0 < (cands drawn).share ∧ others.Pairwise (fun i j => ByShare (cands i) (cands j)) := by
  obtain ⟨i, hi⟩ := hshare
  obtain ⟨d, hout, -, hdrawn⟩ := percentOrder_cases cands (List.finRange n) rnd
  obtain ⟨drawn, hd, hpos⟩ := hdrawn ⟨i, List.mem_finRange i, hi⟩
  rw [hd] at hout
  exact ⟨drawn, _, hout, hpos, (byShare_sorted cands _).sublist (List.eraseIdx_sublist _ _)⟩

theorem first_percent {drawn : Fin n} {others : List (Fin n)} (hpos : 0 < (cands drawn).share)
    (hall : ∀ j, j ∈ drawn :: others)
    (hsorted : others.Pairwise (fun i j => ByShare (cands i) (cands j))) {i : Fin n}
    (hfirst : (degradedLast cands (drawn :: others)).head? = some i)
    (hzero : (cands i).share = 0) :
    (cands i).degraded = false ∧ ∀ j, 0 < (cands j).share → (cands j).degraded = true := by
  have hdrawn : i ≠ drawn := by
    rintro rfl
    omega
  unfold degradedLast at hfirst
  cases hdegraded : (cands drawn).degraded with
  | false =>
    -- the drawn candidate would be first
    rw [List.filter_cons_of_pos (by simp [hdegraded])] at hfirst
    exact absurd (Option.some.inj hfirst).symm hdrawn
  | true =>
    rw [List.filter_cons_of_neg (by simp [hdegraded]),
      List.filter_cons_of_pos (by simp [hdegraded])] at hfirst
    cases hhealthy : others.filter (fun i => !(cands i).degraded) with
    | nil =>
      rw [hhealthy] at hfirst
      exact absurd (Option.some.inj hfirst).symm hdrawn
    | cons h healthy =>
      rw [hhealthy] at hfirst
      obtain rfl : h = i := Option.some.inj hfirst
      have hmem : h ∈ others.filter (fun i => !(cands i).degraded) := by
        rw [hhealthy]
        exact List.mem_cons_self
      refine ⟨by simpa using (List.mem_filter.mp hmem).2, fun j hj => ?_⟩
      by_contra hnot
      have hother : j ∈ others := by
        refine (List.mem_cons.mp (hall j)).resolve_left ?_
        rintro rfl
        exact hnot hdegraded
      have hsorted' := hsorted.filter (fun i => !(cands i).degraded)
      have hj' : j ∈ others.filter (fun i => !(cands i).degraded) :=
        List.mem_filter.mpr ⟨hother, by simpa using hnot⟩
      rw [hhealthy] at hsorted' hj'
      rcases List.mem_cons.mp hj' with rfl | hlater
      · omega
      · have hle := (List.rel_of_pairwise_cons hsorted' hlater).share_le
        omega

/-- Whatever is drawn, every candidate is dialled once. -/
theorem orderCandidates_perm (cands : Fin n → Orderable) (modes : RouteModes)
    (rnd : Option Source) : (orderCandidates cands modes rnd).1.Perm (List.finRange n) := by
  refine (degradedLast_perm cands _).trans ?_
  split_ifs
  · exact percentOrder_perm cands _ rnd
  · exact keyedOrder_perm cands _ modes rnd

/-- Whatever is drawn, a dial order obeys the modes of its route group. -/
theorem dial_order_obeys_modes (n : ℕ) (cands : Fin n → Orderable) (modes : RouteModes)
    (rnd : Option Source) : ObeysModes cands modes (orderCandidates cands modes rnd).1 := by
  cases hpercent : modes.percent with
  | false =>
    have hout : (orderCandidates cands modes rnd).1 =
        degradedLast cands (keyedOrder cands (List.finRange n) modes rnd).1 := by
      simp [orderCandidates, hpercent]
    have hsorted := keyedOrder_sorted cands (List.finRange n) modes rnd
    refine ⟨orderCandidates_perm cands modes rnd, ?_, fun _ part => ?_, fun h => ?_, fun h => ?_⟩
    · rw [hout]
      exact degradedLast_pairwise cands _
    · rw [hout, filter_degradedLast]
      exact hsorted.filter _
    · exact absurd (hpercent.symm.trans h) (by decide)
    · exact absurd (hpercent.symm.trans h) (by decide)
  | true =>
    have hout : (orderCandidates cands modes rnd).1 =
        degradedLast cands (percentOrder cands (List.finRange n) rnd).1 := by
      simp [orderCandidates, hpercent]
    have hperm := percentOrder_perm cands (List.finRange n) rnd
    refine ⟨orderCandidates_perm cands modes rnd, ?_, fun h => ?_,
      fun _ hshare i hfirst hzero => ?_, fun _ hshare => ?_⟩
    · rw [hout]
      exact degradedLast_pairwise cands _
    · exact absurd (hpercent.symm.trans h) (by decide)
    · obtain ⟨drawn, others, hlist, hpos, hsorted⟩ := percentOrder_drawn cands rnd hshare
      rw [hout, hlist] at hfirst
      rw [hlist] at hperm
      exact first_percent hpos (fun j => hperm.mem_iff.mpr (List.mem_finRange j)) hsorted hfirst
        hzero
    · obtain ⟨drawn, others, hlist, hpos, hsorted⟩ := percentOrder_drawn cands rnd hshare
      refine ⟨drawn, hpos, fun part => ?_⟩
      rw [hout, filter_degradedLast, hlist]
      by_cases hpart : (cands drawn).degraded = part
      · rw [List.filter_cons_of_pos (by simpa using hpart), List.erase_cons_head]
        exact hsorted.filter _
      · rw [List.filter_cons_of_neg (by simpa using hpart)]
        exact (hsorted.filter _).sublist List.erase_sublist

end Modes

end SuperSbc.CallControl
