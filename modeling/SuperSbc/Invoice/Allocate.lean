import SuperSbc.CallControl.Setup
import SuperSbc.Query.Tables
import SuperSbc.Text.Reading

/-!
How `InsertPayment` spreads a payment over the open invoices of an account:
first the allocations that were asked for, each checked against what the
invoice still owes and what is left of the payment, then, if wanted, the rest
over the open invoices in their order.
-/

namespace SuperSbc.Invoice

open FixedPoint Rating CallControl Text

/-- An open invoice with what it owes, as the payment saw it. -/
structure OpenInvoice where
  id : UUID
  number : String
  due : Decimal

/-- What is planned for each invoice, and what is left of the payment. -/
structure Plan where
  planned : UUID → Decimal
  remaining : Decimal

def Plan.take (p : Plan) (id : UUID) (amount : Decimal) : Plan :=
  ⟨Function.update p.planned id (p.planned id + amount), p.remaining - amount⟩

/-- One allocation that was asked for. -/
def allocate (opens : List OpenInvoice) (p : Plan) (a : UUID × Decimal) : Except String Plan :=
  match opens.find? (·.id = a.1) with
  | none => .error s!"invoice {uuidText a.1} does not belong to this account"
  | some o =>
    if a.2 ≤ 0 then .error s!"allocation to {o.number} must be positive"
    else if o.due - p.planned a.1 < a.2 then
      .error (s!"allocation to {o.number} exceeds what it owes " ++
        s!"({stringFixed 6 (o.due - p.planned a.1)})")
    else if p.remaining < a.2 then .error "allocations exceed the payment amount"
    else .ok (p.take a.1 a.2)

/-- One open invoice in turn. -/
def autoAllocate (p : Plan) (o : OpenInvoice) : Plan :=
  if p.remaining ≤ 0 ∨ o.due - p.planned o.id ≤ 0 then p
  else p.take o.id (min (o.due - p.planned o.id) p.remaining)

def plan (amount : Decimal) (allocs : List (UUID × Decimal)) (opens : List OpenInvoice)
    (auto : Bool) : Except String Plan := do
  let p ← allocs.foldlM (allocate opens) ⟨fun _ => 0, amount⟩
  return if auto then opens.foldl autoAllocate p else p

/-- A plan spends no more than the payment and no more than is owed, and says
nothing of other invoices. -/
structure Plan.Sound (opens : List OpenInvoice) (amount : Decimal) (p : Plan) : Prop where
  nonneg : ∀ id, 0 ≤ p.planned id
  owed : ∀ o ∈ opens, p.planned o.id ≠ 0 → p.planned o.id ≤ o.due
  total : (opens.map (fun o => p.planned o.id)).sum + p.remaining = amount
  left : 0 ≤ p.remaining

/-- What the rows that are written for a plan add up to. -/
def Plan.stored (opens : List OpenInvoice) (p : Plan) : Decimal :=
  (opens.map (fun o => roundTo 6 (p.planned o.id))).sum

/-- Rounding each row and rounding the payment come to the same: at most the
last amount, which takes all that is left, has more decimals than a column. -/
structure Plan.Storable (opens : List OpenInvoice) (amount : Decimal) (p : Plan) : Prop where
  scale : (∀ id, OnScale 6 (p.planned id)) ∨ p.remaining = 0
  total : p.stored opens + roundTo 6 p.remaining = roundTo 6 amount

section Take

variable {opens : List OpenInvoice} {amount share : Decimal} {p : Plan} {o : OpenInvoice}

theorem planned_take_self : (p.take o.id share).planned o.id = p.planned o.id + share :=
  Function.update_self _ _ _

theorem planned_take_other {id : UUID} (hid : id ≠ o.id) :
    (p.take o.id share).planned id = p.planned id :=
  Function.update_of_ne hid _ _

theorem sum_take (f : Decimal → Decimal) (hnodup : (opens.map (·.id)).Nodup) (ho : o ∈ opens)
    (share : Decimal) :
    (opens.map (fun q => f ((p.take o.id share).planned q.id))).sum =
      (opens.map (fun q => f (p.planned q.id))).sum - f (p.planned o.id) +
        f (p.planned o.id + share) := by
  induction opens with
  | nil => cases ho
  | cons first rest ih =>
    obtain ⟨hfresh, hrest⟩ := List.nodup_cons.mp hnodup
    have hapart : ∀ q ∈ rest, q.id ≠ first.id := by
      intro q hq hsame
      exact hfresh (List.mem_map.mpr ⟨q, hq, hsame⟩)
    simp only [List.map_cons, List.sum_cons]
    rcases List.mem_cons.mp ho with rfl | ho
    · have hothers : rest.map (fun q => f ((p.take o.id share).planned q.id)) =
          rest.map (fun q => f (p.planned q.id)) :=
        List.map_congr_left (fun q hq => congrArg f (planned_take_other (hapart q hq)))
      rw [hothers, planned_take_self]
      ring
    · rw [ih hrest ho, planned_take_other (hapart o ho).symm]
      ring

theorem Plan.Sound.take (hp : p.Sound opens amount) (hnodup : (opens.map (·.id)).Nodup)
    (ho : o ∈ opens) (hpos : 0 < share) (howed : share ≤ o.due - p.planned o.id)
    (hleft : share ≤ p.remaining) : (p.take o.id share).Sound opens amount := by
  constructor
  · intro id
    by_cases hid : id = o.id
    · rw [hid, planned_take_self]
      linarith [hp.nonneg o.id]
    · rw [planned_take_other hid]
      exact hp.nonneg id
  · intro q hq
    by_cases hid : q.id = o.id
    · obtain rfl : q = o := List.inj_on_of_nodup_map hnodup hq ho hid
      rw [planned_take_self]
      intro _
      linarith
    · rw [planned_take_other hid]
      exact hp.owed q hq
  · have hsum := sum_take (p := p) id hnodup ho share
    simp only [id_eq] at hsum
    rw [hsum, ← hp.total]
    change _ + (p.remaining - share) = _
    ring
  · exact sub_nonneg.mpr hleft

/-- An amount that fits the column, or all that is left. -/
theorem Plan.Storable.take (hp : p.Storable opens amount) (hsound : p.Sound opens amount)
    (hnodup : (opens.map (·.id)).Nodup) (ho : o ∈ opens) (hpos : 0 < share)
    (hleft : share ≤ p.remaining) (hshare : OnScale 6 share ∨ share = p.remaining) :
    (p.take o.id share).Storable opens amount := by
  have hscale : ∀ id, OnScale 6 (p.planned id) := by
    apply hp.scale.resolve_right
    intro hzero
    exact absurd (hzero ▸ hpos.trans_le hleft) (lt_irrefl 0)
  have hnonneg := hsound.nonneg o.id
  have hplanned : roundTo 6 (p.planned o.id) = p.planned o.id := hscale o.id
  have htotal := hp.total
  unfold Plan.stored at htotal
  constructor
  · rcases hshare with hshare | rfl
    · apply Or.inl
      intro id
      by_cases hid : id = o.id
      · rw [hid, planned_take_self]
        exact (hscale o.id).add hshare
      · rw [planned_take_other hid]
        exact hscale id
    · exact Or.inr (sub_self p.remaining)
  · unfold Plan.stored
    rw [sum_take (roundTo 6) hnodup ho share, hplanned, roundTo_add_of_nonneg (hscale o.id) hpos.le
      (by linarith)]
    change _ + roundTo 6 (p.remaining - share) = _
    rcases hshare with hshare | rfl
    · have hsplit := roundTo_add_of_nonneg hshare (sub_nonneg.mpr hleft) (by linarith)
      rw [add_sub_cancel] at hsplit
      have hround : roundTo 6 share = share := hshare
      linarith
    · have hzero : roundTo 6 (0 : ℚ) = 0 := OnScale.zero 6
      rw [sub_self, hzero]
      linarith

end Take

section Steps

variable {opens : List OpenInvoice} {amount : Decimal} {allocs : List (UUID × Decimal)}
  {auto : Bool} {p p' : Plan}

theorem allocate_ok {a : UUID × Decimal} (h : allocate opens p a = .ok p') :
    ∃ o ∈ opens, 0 < a.2 ∧ a.2 ≤ o.due - p.planned o.id ∧ a.2 ≤ p.remaining ∧
      p' = p.take o.id a.2 := by
  unfold allocate at h
  split at h
  · cases h
  · rename_i o hfind
    have hid : o.id = a.1 := by simpa using List.find?_some hfind
    rw [← hid] at h
    split_ifs at h with hpos howed hleft
    cases h
    exact ⟨o, List.mem_of_find?_eq_some hfind, not_le.mp hpos, not_lt.mp howed,
      not_lt.mp hleft, rfl⟩

theorem plan_invariant (Inv : Plan → Prop) (hstart : Inv ⟨fun _ => 0, amount⟩)
    (hasked : ∀ a ∈ allocs, ∀ q q', Inv q → allocate opens q a = .ok q' → Inv q')
    (hauto : ∀ o ∈ opens, ∀ q, Inv q → Inv (autoAllocate q o))
    (h : plan amount allocs opens auto = .ok p) : Inv p := by
  unfold plan at h
  cases hfold : allocs.foldlM (allocate opens) ⟨fun _ => 0, amount⟩ with
  | error text =>
    rw [hfold] at h
    cases h
  | ok asked =>
    rw [hfold] at h
    have hinv := Query.foldlM_invariant hasked hstart hfold
    obtain rfl : (if auto then opens.foldl autoAllocate asked else asked) = p := Except.ok.inj h
    split_ifs
    · exact List.foldlRecOn opens autoAllocate hinv (fun q hq o ho => hauto o ho q hq)
    · exact hinv

theorem Plan.Sound.start (hamount : 0 < amount) : Plan.Sound opens amount ⟨fun _ => 0, amount⟩ :=
  ⟨fun _ => le_rfl, fun _ _ hne => absurd rfl hne, by simp, hamount.le⟩

theorem Plan.Sound.autoAllocate (hp : p.Sound opens amount) (hnodup : (opens.map (·.id)).Nodup)
    {o : OpenInvoice} (ho : o ∈ opens) : (Invoice.autoAllocate p o).Sound opens amount := by
  unfold Invoice.autoAllocate
  split_ifs with hstop
  · exact hp
  · obtain ⟨hleft, hdue⟩ := not_or.mp hstop
    exact hp.take hnodup ho (lt_min (not_le.mp hdue) (not_le.mp hleft)) (min_le_left _ _)
      (min_le_right _ _)

/-- A plan never spends more than the payment, nor more than any invoice
owes. -/
theorem plan_sound (hamount : 0 < amount) (hnodup : (opens.map (·.id)).Nodup)
    (h : plan amount allocs opens auto = .ok p) : p.Sound opens amount := by
  refine plan_invariant (Plan.Sound opens amount) (.start hamount) ?_ ?_ h
  · intro a _ q q' hq hstep
    obtain ⟨o, ho, hpos, howed, hleft, rfl⟩ := allocate_ok hstep
    exact hq.take hnodup ho hpos howed hleft
  · intro o ho q hq
    exact hq.autoAllocate hnodup ho

/-- Asked for amounts that fit the column, a plan's rows spend no more than is
stored of the payment, whatever its decimals. -/
theorem plan_storable (hamount : 0 < amount) (hnodup : (opens.map (·.id)).Nodup)
    (hallocs : ∀ a ∈ allocs, OnScale 6 a.2) (hopens : ∀ o ∈ opens, OnScale 6 o.due)
    (h : plan amount allocs opens auto = .ok p) : p.Storable opens amount := by
  have hzero : roundTo 6 (0 : ℚ) = 0 := OnScale.zero 6
  refine (plan_invariant (fun q => q.Sound opens amount ∧ q.Storable opens amount) ?_ ?_ ?_ h).2
  · refine ⟨.start hamount, Or.inl (fun _ => .zero 6), ?_⟩
    simp [Plan.stored, hzero]
  · intro a ha q q' ⟨hsound, hq⟩ hstep
    obtain ⟨o, ho, hpos, howed, hleft, rfl⟩ := allocate_ok hstep
    exact ⟨hsound.take hnodup ho hpos howed hleft,
      hq.take hsound hnodup ho hpos hleft (Or.inl (hallocs a ha))⟩
  · intro o ho q ⟨hsound, hq⟩
    refine ⟨hsound.autoAllocate hnodup ho, ?_⟩
    unfold autoAllocate
    split_ifs with hstop
    · exact hq
    · obtain ⟨hleft, hdue⟩ := not_or.mp hstop
      apply hq.take hsound hnodup ho (lt_min (not_le.mp hdue) (not_le.mp hleft)) (min_le_right _ _)
      -- While something is left, all that is planned has the scale.
      have hscale : ∀ id, OnScale 6 (q.planned id) :=
        hq.scale.resolve_right (fun hnothing => hleft hnothing.le)
      rcases min_choice (o.due - q.planned o.id) q.remaining with hmin | hmin
      · rw [hmin]
        exact Or.inl ((hopens o ho).sub (hscale o.id))
      · exact Or.inr hmin

end Steps

end SuperSbc.Invoice
