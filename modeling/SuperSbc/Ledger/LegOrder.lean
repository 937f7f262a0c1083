import SuperSbc.Billing.CarrierLeg
import SuperSbc.Ledger.MessageOrder
import SuperSbc.ReadCommitted.Serial

/-!
The media columns of a record in every run of the messages about its call: the
hangups of the carriers' legs and the bill, each a transaction of its own. After
any commits the columns are those of the deliveries in the order of the
commits, whatever else the transactions did in between.
-/

namespace SuperSbc.Ledger

open ReadCommitted Transaction Store Billing

/-- The message with this number: a leg, or the bill. -/
def legTx (j : Jsonb) (e : Engine) (now : Time) (h : HangupInfo) (legs : List Leg) (t : ℕ) :
    Tx Unit :=
  match legs[t]? with
  | some l => recordBLeg j h.callUUID l
  | none => do
      let _ ← bill e now h
      pure ()

def legDelivery (legs : List Leg) (t : ℕ) : Delivery :=
  match legs[t]? with
  | some l => .leg l
  | none => .bill

abbrev LegCommit := Commit ℕ Key Row LedgerEntry Unit

abbrev LegServer := Server ℕ Key Row LedgerEntry StoreError Unit

/-- The record while its messages arrive: the columns are those of the
deliveries so far, and it is billed by the bill only. -/
def Enriched (j : Jsonb) (h : HangupInfo) (legs : List Leg) (history : List LegCommit) (db : DB) :
    Prop :=
  (∀ c ∈ history, c.id ≤ legs.length) → ∃ row, db.row (.cdr h.callUUID) = some row ∧
    mediaOf row = played j h (history.reverse.map (fun c => legDelivery legs c.id)) ∧
    (row.billedAt.isSome → ∃ c ∈ history, c.id = legs.length)

section Run

variable {j : Jsonb} {e : Engine} {now : Time} {h : HangupInfo} {legs : List Leg}
  {history : List LegCommit} {start before after : DB}

theorem Enriched.present {older : List LegCommit} {d : DB} (holder : older <:+ history)
    (hids : ∀ c ∈ history, c.id ≤ legs.length) (henriched : Enriched j h legs older d) :
    d.row (.cdr h.callUUID) ≠ none := by
  obtain ⟨row, hrow, -⟩ := henriched (fun c hc => hids c (holder.subset hc))
  rw [hrow]
  exact Option.some_ne_none row

theorem Enriched.leg {t : ℕ} {l : Leg} {row : CDR} (hleg : legs[t]? = some l)
    (henriched : Enriched j h legs history before)
    (hrow : before.row (.cdr h.callUUID) = some row)
    (hafter : after.row (.cdr h.callUUID) = some (withLeg j l row)) :
    Enriched j h legs (⟨t, (), before, after⟩ :: history) after := by
  intro hids
  obtain ⟨found, hfound, hmedia, hbilled⟩ := henriched (fun c hc => hids c (.tail _ hc))
  obtain rfl : row = found := Option.some.inj (hrow.symm.trans hfound)
  refine ⟨_, hafter, ?_, fun hsome => ?_⟩
  · have hact : legDelivery legs t = .leg l := by rw [legDelivery, hleg]
    rw [List.reverse_cons, List.map_append, List.map_singleton, hact, played_append, ← hmedia]
    exact mediaOf_withLeg j h l row
  · obtain ⟨c, hc, hid⟩ := hbilled hsome
    exact ⟨c, .tail _ hc, hid⟩

theorem Enriched.bill {t : ℕ} {out : Outcome} (hbill : legs[t]? = none)
    (hfresh : ∀ c ∈ history, c.id ≠ t) (henriched : Enriched j h legs history before)
    (billed : BilledAs (fun d => ∃ older, older <:+ history ∧ Enriched j h legs older d) e now h
      before after out) :
    Enriched j h legs (⟨t, (), before, after⟩ :: history) after := by
  intro hids
  have hearlier : ∀ c ∈ history, c.id ≤ legs.length := fun c hc => hids c (.tail _ hc)
  have hlast : t = legs.length :=
    le_antisymm (hids _ (.head _)) (List.getElem?_eq_none_iff.mp hbill)
  obtain ⟨found, hfound, hmedia, hbilled⟩ := henriched hearlier
  cases billed with
  | noCDR _ _ d hseen hmissing =>
    obtain ⟨older, holder, hd⟩ := hseen
    exact absurd hmissing (hd.present holder hearlier)
  | already cdr hcdr hdone _ _ =>
    obtain rfl : cdr = found := Option.some.inj (hcdr.symm.trans hfound)
    obtain ⟨c, hc, hid⟩ := hbilled hdone
    exact absurd (hid.trans hlast.symm) (hfresh c hc)
  | settled cdr row routed ac priced fees mid hcdr _ _ _ hmoney hrouted _ hrow hcosts hcustomer _ =>
    obtain rfl : cdr = found := Option.some.inj (hcdr.symm.trans hfound)
    refine ⟨row, ?_, ?_, fun _ => ⟨_, .head _, hlast⟩⟩
    · exact CustomerSettled.record hcustomer (hcosts.row_of_ne (by simp))
    · have hact : legDelivery legs t = .bill := by rw [legDelivery, hbill]
      rw [List.reverse_cons, List.map_append, List.map_singleton, hact, played_append, ← hmedia]
      exact media_settled j (moneyRead_of_yields hmoney) hrouted hrow

theorem preserved_enriched : Preserved (legTx j e now h legs) (Enriched j h legs) := by
  intro t history db hfresh henriched
  cases hleg : legs[t]? with
  | some l =>
    rw [legTx, hleg]
    simp only
    unfold recordBLeg
    rw [wp_bind, wp_updateRow]
    refine ⟨fun row row' hrow hput => ?_, fun d hd _ hskip => ?_⟩
    · obtain rfl := Change.put.inj hput
      exact henriched.leg hleg hrow (by simp)
    · obtain ⟨older, holder, hd⟩ := hd
      intro hids
      refine absurd ?_ (hd.present holder (fun c hc => hids c (.tail _ hc)))
      cases hrow : d.row (.cdr h.callUUID) with
      | none => rfl
      | some row => cases hskip row hrow
  | none =>
    rw [legTx, hleg]
    simp only
    rw [wp_bind]
    exact wp_billedAs (fun out q billed => henriched.bill hleg hfresh billed)

theorem map_legDelivery_range (legs : List Leg) :
    (List.range (legs.length + 1)).map (legDelivery legs) = legs.map .leg ++ [.bill] := by
  rw [List.range_succ, List.map_append, List.map_singleton]
  congr 1
  · refine List.ext_getElem (by simp) (fun t ht _ => ?_)
    have hlt : t < legs.length := by simpa using ht
    simp [legDelivery, hlt]
  · simp [legDelivery]

theorem media_of_run {cdr : CDR} (hcdr : start.row (.cdr h.callUUID) = some cdr)
    (hempty : mediaOf cdr = {}) (hpending : cdr.billedAt = none) {σ : LegServer}
    (hrun : Reachable (legTx j e now h legs) start σ)
    (hids : (σ.history.map (·.id)).Perm (List.range (legs.length + 1))) :
    ∃ row order, σ.db.row (.cdr h.callUUID) = some row ∧ mediaOf row = played j h order ∧
      order.Perm (.bill :: legs.map .leg) := by
  have hstart : Enriched j h legs [] start := by
    intro _
    refine ⟨cdr, hcdr, hempty, fun hsome => ?_⟩
    rw [hpending] at hsome
    cases hsome
  have hend := hrun.invariant hstart preserved_enriched
  obtain ⟨row, hrow, hmedia, -⟩ := hend (fun c hc => by
    have hmem := hids.mem_iff.mp (List.mem_map_of_mem hc)
    exact Nat.le_of_lt_succ (List.mem_range.mp hmem))
  refine ⟨row, _, hrow, hmedia, ?_⟩
  have hperm := (((List.reverse_perm σ.history).map (·.id)).trans hids).map (legDelivery legs)
  rw [List.map_map, map_legDelivery_range] at hperm
  exact hperm.trans List.perm_append_comm

end Run

/-- In every two runs in which the legs and the bill of a call all commit, the
media columns of its record end up the same, when no leg was answered or the
answered one is `OrderFree`. -/
theorem media_in_any_order {j : Jsonb} {e : Engine} {now : Time} {h : HangupInfo} {start : DB}
    {c cdr : CDR} (hsetup : setupRow c = some cdr) (hopen : c.billedAt = none)
    (hcdr : start.row (.cdr h.callUUID) = some cdr) (answered : Option Leg) (failed : List Leg)
    (hanswered : ∀ l ∈ answered, l.Answered) (hfailed : ∀ l ∈ failed, l.Failed)
    (hfree : ∀ l ∈ answered, OrderFree j h failed l) (σ τ : LegServer)
    (hrun : Reachable (legTx j e now h (answered.toList ++ failed)) start σ)
    (hother : Reachable (legTx j e now h (answered.toList ++ failed)) start τ)
    (hids : (σ.history.map (·.id)).Perm (List.range ((answered.toList ++ failed).length + 1)))
    (hotherIds :
      (τ.history.map (·.id)).Perm (List.range ((answered.toList ++ failed).length + 1))) :
    ∃ row row', σ.db.row (.cdr h.callUUID) = some row ∧
      τ.db.row (.cdr h.callUUID) = some row' ∧ mediaOf row = mediaOf row' := by
  have hempty := mediaOf_setupRow hsetup
  have hpending : cdr.billedAt = none := (setupRow_head hsetup).2.trans hopen
  obtain ⟨row, order, hrow, hmedia, horder⟩ := media_of_run hcdr hempty hpending hrun hids
  obtain ⟨row', order', hrow', hmedia', horder'⟩ :=
    media_of_run hcdr hempty hpending hother hotherIds
  refine ⟨row, row', hrow, hrow', ?_⟩
  rw [hmedia, hmedia']
  exact (orders_agree_iff hanswered hfailed).mpr hfree order order' horder horder'

/-- The least a format has to keep: the carrier's statistics. -/
def sampleJsonb : Jsonb where
  read text :=
    if Text.hasPrefix "carrier:" text then [("carrier", Text.dropFront "carrier:" text)] else []
  write members :=
    match members.lookup "carrier" with
    | none => "own"
    | some stats => "carrier:" ++ stats
  carrier_write members := by
    cases members.lookup "carrier" with
    | none => rfl
    | some stats => simp [Text.hasPrefix_append, Text.dropFront_append]

def sampleCarrierLeg : Leg := ⟨"PCMU", some "4.5", true⟩

def sampleFailedLeg : Leg := ⟨"", none, false⟩

/-- The hangup of the answered call, with or without statistics of its own. -/
def sampleEnded (stats : Option String) : HangupInfo :=
  { sampleAnswered 42 22 with codecIn := "PCMA", rtpStats := stats }

theorem setupRow_sampleDialled : setupRow sampleDialled = some sampleDialled := by
  have hreserved : asMoney sampleDialled.reservedAmount = some 0 := by decide +kernel
  have hfx : asFX (storedFX sampleDialled.sellFX) = some 1 := by decide +kernel
  rw [setupRow, hreserved, hfx]
  rfl

def sampleMedia (db : DB) : Option Media := (db.row (.cdr 42)).map mediaOf

theorem run_sampleLegs {stats : Option String} {legs : List Leg} {order ids : List ℕ}
    {media : Option Media}
    (hserial : (serial (legTx sampleJsonb sampleEngine 90000000000 (sampleEnded stats) legs) order
      sampleOpen).map (fun f => (f.2.map (·.id), sampleMedia f.1)) = some (ids, media)) :
    ∃ σ, Reachable (legTx sampleJsonb sampleEngine 90000000000 (sampleEnded stats) legs)
      sampleOpen σ ∧ σ.history.map (·.id) = ids ∧ sampleMedia σ.db = media := by
  obtain ⟨σ, hrun, hfinal⟩ := reachable_serial hserial
  exact ⟨σ, hrun, Prod.mk.inj hfinal⟩

theorem media_sampleLeg :
    ∃ σ τ, Reachable (legTx sampleJsonb sampleEngine 90000000000 (sampleEnded none)
        [sampleCarrierLeg]) sampleOpen σ ∧
      Reachable (legTx sampleJsonb sampleEngine 90000000000 (sampleEnded none) [sampleCarrierLeg])
        sampleOpen τ ∧
      σ.history.map (·.id) = [1, 0] ∧ τ.history.map (·.id) = [0, 1] ∧
      ∃ row row', σ.db.row (.cdr 42) = some row ∧ τ.db.row (.cdr 42) = some row' ∧
        mediaOf row = mediaOf row' := by
  obtain ⟨σ, hrun, hids, -⟩ := run_sampleLegs
    (by decide +kernel : (serial (legTx sampleJsonb sampleEngine 90000000000 (sampleEnded none)
      [sampleCarrierLeg]) [0, 1] sampleOpen).map (fun f => (f.2.map (·.id), sampleMedia f.1)) =
        some ([1, 0], some ⟨some "PCMA", some "PCMU", some "transcode", some "carrier:4.5", true⟩))
  obtain ⟨τ, hother, hotherIds, -⟩ := run_sampleLegs
    (by decide +kernel : (serial (legTx sampleJsonb sampleEngine 90000000000 (sampleEnded none)
      [sampleCarrierLeg]) [1, 0] sampleOpen).map (fun f => (f.2.map (·.id), sampleMedia f.1)) =
        some ([0, 1], some ⟨some "PCMA", some "PCMU", some "transcode", some "carrier:4.5", true⟩))
  have hfree : OrderFree sampleJsonb (sampleEnded none) [] sampleCarrierLeg :=
    ⟨rfl, fun _ _ hnone => (by cases hnone), .inl rfl⟩
  refine ⟨σ, τ, hrun, hother, hids, hotherIds, ?_⟩
  exact media_in_any_order setupRow_sampleDialled rfl rfl (some sampleCarrierLeg) []
    (by simp [Leg.Answered, sampleCarrierLeg]) (by simp) (by simpa using hfree) σ τ hrun hother
    (by rw [hids]; decide) (by rw [hotherIds]; decide)

/-- A failed leg after the answered one takes the egress codec off the record,
and the bill after the leg takes off the carrier's statistics. -/
theorem leg_order_shows :
    ∃ σ τ, Reachable (legTx sampleJsonb sampleEngine 90000000000 (sampleEnded (some "own"))
        [sampleCarrierLeg, sampleFailedLeg]) sampleOpen σ ∧
      Reachable (legTx sampleJsonb sampleEngine 90000000000 (sampleEnded (some "own"))
        [sampleCarrierLeg, sampleFailedLeg]) sampleOpen τ ∧
      σ.history.map (·.id) = [2, 1, 0] ∧ τ.history.map (·.id) = [0, 2, 1] ∧
      sampleMedia σ.db = some ⟨some "PCMA", none, none, some "own", true⟩ ∧
      sampleMedia τ.db =
        some ⟨some "PCMA", some "PCMU", some "transcode", some "carrier:4.5", true⟩ ∧
      sampleJsonb.carrier (some "own") = none ∧
      sampleJsonb.carrier (some "carrier:4.5") = some "4.5" := by
  obtain ⟨σ, hrun, hids, hmedia⟩ := run_sampleLegs
    (by decide +kernel : (serial (legTx sampleJsonb sampleEngine 90000000000
      (sampleEnded (some "own")) [sampleCarrierLeg, sampleFailedLeg]) [0, 1, 2] sampleOpen).map
        (fun f => (f.2.map (·.id), sampleMedia f.1)) =
          some ([2, 1, 0], some ⟨some "PCMA", none, none, some "own", true⟩))
  obtain ⟨τ, hother, hotherIds, hotherMedia⟩ := run_sampleLegs
    (by decide +kernel : (serial (legTx sampleJsonb sampleEngine 90000000000
      (sampleEnded (some "own")) [sampleCarrierLeg, sampleFailedLeg]) [1, 2, 0] sampleOpen).map
        (fun f => (f.2.map (·.id), sampleMedia f.1)) =
          some ([0, 2, 1],
            some ⟨some "PCMA", some "PCMU", some "transcode", some "carrier:4.5", true⟩))
  exact ⟨σ, τ, hrun, hother, hids, hotherIds, hmedia, hotherMedia, by decide +kernel,
    by decide +kernel⟩

end SuperSbc.Ledger
