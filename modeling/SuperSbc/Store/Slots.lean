import Mathlib.Tactic

/-!
Numbers handed out in one pass. Each request remembers a number or is new. A
remembered number is given again if it is still free; everyone else gets the
least free number from 1 on. A new request that comes early can therefore take
a number that a later one remembers. Who keeps its number is a matter of
counting the requests in front of it.
-/

namespace SuperSbc.Slots

/-- The numbers given so far, in order, and where the search for a free one
goes on. -/
structure SlotPass where
  used : List ℤ
  next : ℤ

/-- The search: one step for every number in use is enough. -/
def scan (used : List ℤ) : ℕ → ℤ → ℤ
  | 0, next => next
  | fuel + 1, next => if next ∈ used then scan used fuel (next + 1) else next

def SlotPass.free (p : SlotPass) : ℤ := scan p.used p.used.length p.next

def SlotPass.takeFree (p : SlotPass) : SlotPass := ⟨p.used ++ [p.free], p.free⟩

def SlotPass.take (p : SlotPass) : Option ℤ → SlotPass
  | some q => if q ∈ p.used then p.takeFree else ⟨p.used ++ [q], p.next⟩
  | none => p.takeFree

def handOut (requests : List (Option ℤ)) : SlotPass := requests.foldl SlotPass.take ⟨[], 1⟩

/-- Every request that remembers a number got it. -/
def Kept (requests : List (Option ℤ)) : Prop :=
  ∀ x ∈ requests.zip (handOut requests).used, ∀ q, x.1 = some q → x.2 = q

/-- In front of a request that remembers a number there are fewer requests
that are new or remember a smaller one than the number says. -/
def RoomFor (requests : List (Option ℤ)) : Prop :=
  ∀ before q after, requests = before ++ some q :: after →
    (before.countP (Option.all (· < q)) : ℤ) < q

section Scan

variable {used : List ℤ}

theorem le_scan (fuel : ℕ) (next : ℤ) : next ≤ scan used fuel next := by
  induction fuel generalizing next with
  | zero => exact le_rfl
  | succ fuel ih =>
    unfold scan
    split_ifs
    · exact (Int.le_add_one le_rfl).trans (ih (next + 1))
    · exact le_rfl

theorem mem_of_lt_scan {fuel : ℕ} {next n : ℤ} (hle : next ≤ n) (hlt : n < scan used fuel next) :
    n ∈ used := by
  induction fuel generalizing next with
  | zero => exact absurd hlt (not_lt.mpr hle)
  | succ fuel ih =>
    unfold scan at hlt
    split_ifs at hlt with hused
    · rcases hle.eq_or_lt with rfl | hbeyond
      · exact hused
      · exact ih (Int.add_one_le_of_lt hbeyond) hlt
    · exact absurd hlt (not_lt.mpr hle)

/-- A search that ends on a number in use has met only such numbers. -/
theorem mem_of_scan_mem {fuel : ℕ} {next n : ℤ} (hscan : scan used fuel next ∈ used)
    (hle : next ≤ n) (hn : n ≤ next + fuel) : n ∈ used := by
  induction fuel generalizing next with
  | zero =>
    obtain rfl : n = next := by push_cast at hn; omega
    exact hscan
  | succ fuel ih =>
    unfold scan at hscan
    split_ifs at hscan with hused
    · rcases hle.eq_or_lt with rfl | hbeyond
      · exact hused
      · refine ih hscan (Int.add_one_le_of_lt hbeyond) ?_
        push_cast at hn
        omega
    · exact absurd hscan hused

end Scan

theorem SlotPass.free_notMem (p : SlotPass) : p.free ∉ p.used := by
  intro hmem
  -- The search would have met one more number than there are.
  have hall : Finset.Icc p.next (p.next + p.used.length) ⊆ p.used.toFinset := by
    intro n hn
    rw [Finset.mem_Icc] at hn
    exact List.mem_toFinset.mpr (mem_of_scan_mem hmem hn.1 hn.2)
  have hcard := (Finset.card_le_card hall).trans (List.toFinset_card_le p.used)
  rw [Int.card_Icc] at hcard
  omega

/-- What holds after some requests. -/
structure Sound (requests : List (Option ℤ)) (p : SlotPass) : Prop where
  length : p.used.length = requests.length
  nodup : p.used.Nodup
  pos : ∀ n ∈ p.used, 0 < n
  next_pos : 0 < p.next
  below : ∀ n, 0 < n → n < p.next → n ∈ p.used
  fresh : ∀ x ∈ requests.zip p.used, x.1 = none → x.2 ≤ p.next

section Step

variable {requests : List (Option ℤ)} {p : SlotPass}

theorem Sound.zip_concat (h : Sound requests p) (r : Option ℤ) (n : ℤ) :
    (requests ++ [r]).zip (p.used ++ [n]) = requests.zip p.used ++ [(r, n)] :=
  List.zip_append h.length.symm

theorem Sound.takeFree (h : Sound requests p) (r : Option ℤ) :
    Sound (requests ++ [r]) p.takeFree := by
  have hnext : p.next ≤ p.free := le_scan _ _
  have hpos : 0 < p.free := h.next_pos.trans_le hnext
  refine ⟨by simp [SlotPass.takeFree, h.length], ?_, ?_, hpos, ?_, ?_⟩
  · exact List.nodup_append.mpr ⟨h.nodup, List.nodup_singleton _, by
      rintro n hn _ hfree rfl
      exact p.free_notMem (List.mem_singleton.mp hfree ▸ hn)⟩
  · intro n hn
    rcases List.mem_append.mp hn with hn | hn
    · exact h.pos n hn
    · rwa [List.mem_singleton.mp hn]
  · intro n hn hlt
    refine List.mem_append_left _ ?_
    rcases lt_or_ge n p.next with hbelow | habove
    · exact h.below n hn hbelow
    · exact mem_of_lt_scan habove hlt
  · intro x hx hnew
    change x ∈ (requests ++ [r]).zip (p.used ++ [p.free]) at hx
    rw [h.zip_concat] at hx
    rcases List.mem_append.mp hx with hx | hx
    · exact (h.fresh x hx hnew).trans hnext
    · rw [List.mem_singleton.mp hx]
      exact le_rfl

theorem Sound.take (h : Sound requests p) {r : Option ℤ} (hr : ∀ q, r = some q → 0 < q) :
    Sound (requests ++ [r]) (p.take r) := by
  cases r with
  | none => exact h.takeFree none
  | some q =>
    by_cases hused : q ∈ p.used
    · rw [SlotPass.take, if_pos hused]
      exact h.takeFree (some q)
    · rw [SlotPass.take, if_neg hused]
      refine ⟨by simp [h.length], ?_, ?_, h.next_pos, ?_, ?_⟩
      · exact List.nodup_append.mpr ⟨h.nodup, List.nodup_singleton _, by
          rintro n hn _ hq rfl
          exact hused (List.mem_singleton.mp hq ▸ hn)⟩
      · intro n hn
        rcases List.mem_append.mp hn with hn | hn
        · exact h.pos n hn
        · rw [List.mem_singleton.mp hn]
          exact hr q rfl
      · intro n hn hlt
        exact List.mem_append_left _ (h.below n hn hlt)
      · intro x hx hnew
        change x ∈ (requests ++ [some q]).zip (p.used ++ [q]) at hx
        rw [h.zip_concat] at hx
        rcases List.mem_append.mp hx with hx | hx
        · exact h.fresh x hx hnew
        · rw [List.mem_singleton.mp hx] at hnew
          cases hnew

end Step

theorem handOut_concat (requests : List (Option ℤ)) (r : Option ℤ) :
    handOut (requests ++ [r]) = (handOut requests).take r := by
  simp [handOut]

theorem sound_handOut {requests : List (Option ℤ)} (hpos : ∀ q, some q ∈ requests → 0 < q) :
    Sound requests (handOut requests) := by
  induction requests using List.reverseRecOn with
  | nil =>
    refine ⟨rfl, List.nodup_nil, fun _ hn => ?_, Int.one_pos, fun n hn hlt => ?_, fun _ hx => ?_⟩
    · cases hn
    · exact absurd (Int.add_one_le_of_lt hn) (not_le.mpr hlt)
    · cases hx
  | append_singleton requests r ih =>
    rw [handOut_concat]
    refine (ih (fun q hq => hpos q (List.mem_append_left _ hq))).take ?_
    rintro q rfl
    exact hpos q (by simp)

/-- The numbers of the requests that are new or remember a number below a
bound. -/
def counted (bound : ℤ) (requests : List (Option ℤ)) (used : List ℤ) : List ℤ :=
  ((requests.zip used).filter (fun x => x.1.all (· < bound))).map Prod.snd

section Count

variable {requests : List (Option ℤ)} {p : SlotPass} {q n : ℤ}

theorem mem_counted : n ∈ counted q requests p.used ↔
    ∃ r, (r, n) ∈ requests.zip p.used ∧ r.all (· < q) = true := by
  simp only [counted, List.mem_map, List.mem_filter, Prod.exists, exists_eq_right]

theorem Sound.length_counted (h : Sound requests p) :
    (counted q requests p.used).length = requests.countP (Option.all (· < q)) := by
  rw [counted, List.length_map, ← List.countP_eq_length_filter]
  have hfst : (requests.zip p.used).map Prod.fst = requests :=
    List.map_fst_zip h.length.ge
  conv_rhs => rw [← hfst]
  rw [List.countP_map]
  rfl

theorem Sound.nodup_counted (h : Sound requests p) : (counted q requests p.used).Nodup := by
  have hsnd : (requests.zip p.used).map Prod.snd = p.used := List.map_snd_zip h.length.le
  have hsub : (counted q requests p.used).Sublist p.used := by
    conv_rhs => rw [← hsnd]
    exact List.filter_sublist.map Prod.snd
  exact hsub.nodup h.nodup

theorem Sound.exists_zip (h : Sound requests p) (hn : n ∈ p.used) :
    ∃ r, (r, n) ∈ requests.zip p.used := by
  have hsnd : (requests.zip p.used).map Prod.snd = p.used := List.map_snd_zip h.length.le
  rw [← hsnd] at hn
  obtain ⟨⟨r, m⟩, hx, rfl⟩ := List.mem_map.mp hn
  exact ⟨r, hx⟩

/-- As long as everyone kept its number, one that is remembered next is taken
exactly when the requests that come before it fill the numbers up to it. -/
theorem Sound.mem_used_iff (h : Sound requests p)
    (hkept : ∀ x ∈ requests.zip p.used, ∀ m, x.1 = some m → x.2 = m) (hq : 0 < q)
    (hnew : some q ∉ requests) :
    q ∈ p.used ↔ q ≤ requests.countP (Option.all (· < q)) := by
  rw [← h.length_counted]
  -- A number given to a new request is at most where the search stands.
  have hgiven : ∀ r, (r, q) ∈ requests.zip p.used → r = none := by
    intro r hx
    cases r with
    | none => rfl
    | some m =>
      obtain rfl : q = m := hkept _ hx m rfl
      exact absurd (List.of_mem_zip hx).1 hnew
  constructor
  · intro hused
    obtain ⟨r, hx⟩ := h.exists_zip hused
    have hle : q ≤ p.next := h.fresh _ hx (hgiven r hx)
    have hfilled : Finset.Icc 1 q ⊆ (counted q requests p.used).toFinset := by
      intro n hn
      rw [Finset.mem_Icc] at hn
      rw [List.mem_toFinset, mem_counted]
      rcases hn.2.eq_or_lt with rfl | hlt
      · exact ⟨r, hx, by rw [hgiven r hx]; rfl⟩
      · obtain ⟨s, hs⟩ := h.exists_zip (h.below n (by omega) (hlt.trans_le hle))
        refine ⟨s, hs, ?_⟩
        cases s with
        | none => rfl
        | some m =>
          obtain rfl : n = m := hkept _ hs m rfl
          simpa using hlt
    have hcard := (Finset.card_le_card hfilled).trans (List.toFinset_card_le _)
    rw [Int.card_Icc] at hcard
    omega
  · intro hcount
    by_contra hfree
    have hroom : (counted q requests p.used).toFinset ⊆ Finset.Ico 1 q := by
      intro n hn
      rw [List.mem_toFinset, mem_counted] at hn
      obtain ⟨r, hx, hr⟩ := hn
      have hmem : n ∈ p.used := (List.of_mem_zip hx).2
      have hpos := h.pos n hmem
      rw [Finset.mem_Ico]
      refine ⟨by omega, ?_⟩
      cases r with
      | some m =>
        obtain rfl : n = m := hkept _ hx m rfl
        simpa using hr
      | none =>
        have hle := h.fresh _ hx rfl
        by_contra hge
        rcases (not_lt.mp hge).eq_or_lt with rfl | hlt
        · exact hfree hmem
        · exact hfree (h.below q hq (hlt.trans_le hle))
    have hcard := Finset.card_le_card hroom
    rw [List.toFinset_card_of_nodup h.nodup_counted, Int.card_Ico] at hcard
    omega

end Count

theorem kept_concat_iff {requests : List (Option ℤ)} {r : Option ℤ}
    (h : Sound requests (handOut requests)) :
    Kept (requests ++ [r]) ↔ Kept requests ∧ ∀ q, r = some q → q ∉ (handOut requests).used := by
  unfold Kept
  rw [handOut_concat]
  cases r with
  | none =>
    have hstep : ((handOut requests).take none).used =
        (handOut requests).used ++ [(handOut requests).free] := rfl
    rw [hstep, h.zip_concat]
    simp [or_imp, forall_and]
  | some q =>
    by_cases hused : q ∈ (handOut requests).used
    · have hstep : ((handOut requests).take (some q)).used =
          (handOut requests).used ++ [(handOut requests).free] := by
        rw [SlotPass.take, if_pos hused]
        rfl
      have hne : (handOut requests).free ≠ q := by
        rintro rfl
        exact (handOut requests).free_notMem hused
      rw [hstep, h.zip_concat]
      simp [or_imp, forall_and, hne, hused]
    · have hstep : ((handOut requests).take (some q)).used =
          (handOut requests).used ++ [q] := by
        rw [SlotPass.take, if_neg hused]
      rw [hstep, h.zip_concat]
      simp [or_imp, forall_and, hused]

theorem roomFor_concat_iff {requests : List (Option ℤ)} {r : Option ℤ} :
    RoomFor (requests ++ [r]) ↔ RoomFor requests ∧
      ∀ q, r = some q → (requests.countP (Option.all (· < q)) : ℤ) < q := by
  constructor
  · intro h
    refine ⟨?_, ?_⟩
    · rintro before q after rfl
      exact h before q (after ++ [r]) (by simp)
    · rintro q rfl
      exact h requests q [] rfl
  · rintro ⟨hbefore, hlast⟩ before q after heq
    rcases List.eq_nil_or_concat after with rfl | ⟨after, last, rfl⟩
    · obtain ⟨rfl, hr⟩ := List.append_inj' heq rfl
      exact hlast q (List.singleton_inj.mp hr)
    · have hsplit : requests ++ [r] = (before ++ some q :: after) ++ [last] := by
        rw [heq]
        simp
      exact hbefore before q after (List.append_inj' hsplit rfl).1

theorem kept_iff_roomFor {requests : List (Option ℤ)} (hpos : ∀ q, some q ∈ requests → 0 < q)
    (hdistinct : (requests.filterMap id).Nodup) : Kept requests ↔ RoomFor requests := by
  induction requests using List.reverseRecOn with
  | nil =>
    refine iff_of_true (fun x hx => ?_) (fun before q after heq => ?_)
    · cases hx
    · simp at heq
  | append_singleton requests r ih =>
    have hpos' : ∀ q, some q ∈ requests → 0 < q :=
      fun q hq => hpos q (List.mem_append_left _ hq)
    rw [List.filterMap_append] at hdistinct
    have hsound := sound_handOut hpos'
    have hkept := ih hpos' (List.Nodup.of_append_left hdistinct)
    rw [kept_concat_iff hsound, roomFor_concat_iff, ← hkept]
    refine and_congr_right (fun hall => forall₂_congr ?_)
    rintro q rfl
    have hnew : some q ∉ requests := by
      intro hmem
      refine List.disjoint_of_nodup_append hdistinct (a := q) ?_ ?_
      · exact List.mem_filterMap.mpr ⟨some q, hmem, rfl⟩
      · simp
    rw [hsound.mem_used_iff hall (hpos q (by simp)) hnew, not_le]

end SuperSbc.Slots
