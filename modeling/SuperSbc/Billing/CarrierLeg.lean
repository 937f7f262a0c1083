import SuperSbc.Billing.Settlement
import SuperSbc.Billing.Variables

/-!
What the carriers' legs of a call leave on its record, and in which order. The
hangup of a leg is one `UPDATE` of the record, the bill another, and they can
commit in any order. Both fill the media columns, each from what it knows and
from what it finds. An order matters as soon as a leg that failed follows one
that was answered, and when both the hangup and the answered leg bring
statistics.
-/

namespace SuperSbc.Billing

open FixedPoint Rating ReadCommitted Transaction Store Text

/-- JSON objects as texts of a `jsonb` column, by the names of their members
and the texts of the values. A member that is written can be read. -/
structure Jsonb where
  read : String → List (String × String)
  write : List (String × String) → String
  carrier_write : ∀ members, (read (write members)).lookup "carrier" = members.lookup "carrier"

/-- `COALESCE(rtp_stats, empty object) || jsonb_build_object('carrier', stats)`. -/
def Jsonb.withCarrier (j : Jsonb) (old : Option String) (stats : String) : String :=
  j.write ((old.elim [] j.read).filter (fun m => m.1 ≠ "carrier") ++ [("carrier", stats)])

/-- `rtp_stats -> 'carrier'`. -/
def Jsonb.carrier (j : Jsonb) (text : Option String) : Option String :=
  text.bind (fun t => (j.read t).lookup "carrier")

structure Leg where
  codec : String
  stats : Option String
  srtp : Bool
deriving DecidableEq

/-- The mode of a record with this ingress codec and mode, after a leg. -/
def legMediaMode (codec : String) (codecIn old : Option String) : Option String :=
  if old = some "bypass" ∨ old = some "proxy" then old
  else
    match codecIn with
    | none => old
    | some ingress =>
      if codec = "" then old
      else if ingress.toUpper = codec.toUpper then some "relay"
      else some "transcode"

def withLeg (j : Jsonb) (leg : Leg) (c : CDR) : CDR :=
  { c with
    codecOut := if leg.codec = "" then none else some leg.codec
    mediaMode := legMediaMode leg.codec c.codecIn c.mediaMode
    rtpStats :=
      match leg.stats with
      | none => c.rtpStats
      | some stats => some (j.withCarrier c.rtpStats stats)
    srtpOut := c.srtpOut || leg.srtp }

def recordBLeg (j : Jsonb) (callUUID : UUID) (leg : Leg) : Tx Unit := do
  let _ ← updateRow (Key.cdr callUUID) (fun row => .put (withLeg j leg row))
  pure ()

/-- The media columns of a record; at first they are empty. -/
structure Media where
  codecIn : Option String := none
  codecOut : Option String := none
  mediaMode : Option String := none
  rtpStats : Option String := none
  srtpOut : Bool := false
deriving DecidableEq

def mediaOf (c : CDR) : Media := ⟨c.codecIn, c.codecOut, c.mediaMode, c.rtpStats, c.srtpOut⟩

theorem mediaOf_setupRow {c row : CDR} (h : setupRow c = some row) : mediaOf row = {} := by
  simp only [setupRow, Option.bind_eq_bind, Option.bind_eq_some_iff] at h
  obtain ⟨_, -, _, -, _, -, hrow⟩ := h
  obtain rfl := Option.some.inj hrow
  rfl

/-- What reaches a record after its setup. -/
inductive Delivery where
  | bill
  | leg (l : Leg)
deriving DecidableEq

/-- What a delivery makes of the media columns. -/
def Delivery.apply (j : Jsonb) (h : HangupInfo) (m : Media) : Delivery → Media
  | .bill =>
    let codecIn := if h.codecIn = "" then m.codecIn else some h.codecIn
    { m with
      codecIn := codecIn
      mediaMode := mediaMode h codecIn m.codecOut m.mediaMode
      rtpStats := h.rtpStats <|> m.rtpStats }
  | .leg l =>
    { m with
      codecOut := if l.codec = "" then none else some l.codec
      mediaMode := legMediaMode l.codec m.codecIn m.mediaMode
      rtpStats :=
        match l.stats with
        | none => m.rtpStats
        | some stats => some (j.withCarrier m.rtpStats stats)
      srtpOut := m.srtpOut || l.srtp }

theorem mediaOf_withLeg (j : Jsonb) (h : HangupInfo) (leg : Leg) (c : CDR) :
    mediaOf (withLeg j leg c) = (Delivery.leg leg).apply j h (mediaOf c) := rfl

section Bill

variable {seen : DB → Prop} {e : Engine} {h : HangupInfo} {c : CDR}

theorem MoneyRead.media {result : CDR × Decimal × Decimal} (hread : MoneyRead seen e h c result) :
    mediaOf result.1 = mediaOf c := by
  cases hread with
  | unsold _ => rfl
  | sold => rfl
  | carried _ _ _ _ _ _ _ _ _ _ hcost =>
    cases hcost with
    | free => rfl
    | priced => rfl

theorem media_closed {routed : CDR} (hrouted : (withTransport c).Yields seen routed)
    (ac : Option ActiveCall) (price : Decimal) (fees : List AttemptRecord × List AttemptFee) :
    mediaOf (reservationClosed ac price (withFees fees routed)) = mediaOf c := by
  obtain ⟨transport, rfl⟩ := withTransport_yields hrouted
  cases ac with
  | none => rfl
  | some a => rfl

theorem mediaOf_finalizedRow {row row' : CDR} (hrow : finalizedRow c row = some row') :
    mediaOf row' = ⟨c.codecIn, row.codecOut <|> c.codecOut, c.mediaMode <|> row.mediaMode,
      c.rtpStats <|> row.rtpStats, c.srtpOut || row.srtpOut⟩ := by
  simp only [finalizedRow, Option.bind_eq_bind, Option.bind_eq_some_iff] at hrow
  obtain ⟨_, _, _, _, _, _, _, _, _, _, _, _, hrow⟩ := hrow
  obtain rfl := Option.some.inj hrow
  rfl

theorem mediaMode_orElse (codecIn codecOut old : Option String) :
    (mediaMode h codecIn codecOut old <|> old) = mediaMode h codecIn codecOut old := by
  unfold mediaMode
  split_ifs
  · rfl
  · cases codecIn <;> cases codecOut <;> simp

theorem media_settled {now : Time} {node : String} {row routed : CDR}
    {priced : CDR × Decimal × Decimal} {ac : Option ActiveCall} {price : Decimal}
    {fees : List AttemptRecord × List AttemptFee} (j : Jsonb)
    (hread : MoneyRead seen e h (withHangup node now h c) priced)
    (hrouted : (withTransport priced.1).Yields seen routed)
    (hrow : finalizedRow (reservationClosed ac price (withFees fees routed)) c = some row) :
    mediaOf row = Delivery.bill.apply j h (mediaOf c) := by
  have hmedia := (media_closed hrouted ac price fees).trans hread.media
  have hcolumns := hmedia
  simp only [mediaOf, Media.mk.injEq] at hcolumns
  obtain ⟨hcodecIn, hcodecOut, hmode, hstats, hsrtp⟩ := hcolumns
  rw [mediaOf_finalizedRow hrow, hcodecIn, hcodecOut, hmode, hstats, hsrtp]
  simp only [withHangup, Delivery.apply, mediaOf, Media.mk.injEq, mediaMode_orElse, true_and]
  refine ⟨?_, ?_, ?_⟩
  · cases c.codecOut <;> rfl
  · cases h.rtpStats <;> cases c.rtpStats <;> rfl
  · exact Bool.or_self _

end Bill

def played (j : Jsonb) (h : HangupInfo) (order : List Delivery) : Media :=
  order.foldl (fun m d => d.apply j h m) {}

theorem played_append (j : Jsonb) (h : HangupInfo) (order : List Delivery) (d : Delivery) :
    played j h (order ++ [d]) = d.apply j h (played j h order) := by
  rw [played, List.foldl_append]
  rfl

/-- A leg that was answered has a codec. -/
def Leg.Answered (l : Leg) : Prop := l.codec ≠ ""

/-- A leg that failed has neither codec nor statistics. -/
def Leg.Failed (l : Leg) : Prop := l.codec = "" ∧ l.stats = none

def callDeliveries (answered : Option Leg) (failed : List Leg) : List Delivery :=
  .bill :: (answered.toList ++ failed).map .leg

/-- The mode two codecs make. -/
def modeOf (ingress egress : String) : String :=
  if equalFoldAscii ingress egress then "relay" else "transcode"

/-- The order does not matter: of an answered leg there is no failed one beside
it, its statistics meet none of the hangup or are there already, and the mode
of the hangup is one a leg does not change. -/
structure OrderFree (j : Jsonb) (h : HangupInfo) (failed : List Leg) (l : Leg) : Prop where
  alone : failed = []
  stats : ∀ own stats, h.rtpStats = some own → l.stats = some stats →
    j.withCarrier (some own) stats = own
  mode : h.mediaMode = "" ∨ h.mediaMode = "bypass" ∨ h.mediaMode = "proxy" ∨ h.codecIn = "" ∨
    h.mediaMode = modeOf h.codecIn l.codec

section Orders

variable {j : Jsonb} {h : HangupInfo} {order : List Delivery}

/-- The statement of a leg compares codecs like the bill does. -/
theorem legMediaMode_some {codec ingress : String} {old : Option String} (hcodec : codec ≠ "")
    (hold : old ≠ some "bypass" ∧ old ≠ some "proxy") :
    legMediaMode codec (some ingress) old = some (modeOf ingress codec) := by
  have hfold : ingress.toUpper = codec.toUpper ↔ equalFoldAscii ingress codec = true :=
    beq_iff_eq.symm
  unfold legMediaMode modeOf
  rw [if_neg (not_or.mpr hold)]
  simp only [if_neg hcodec, hfold]
  split_ifs <;> rfl

@[simp] theorem legMediaMode_nil (codecIn old : Option String) :
    legMediaMode "" codecIn old = old := by
  cases codecIn <;> simp [legMediaMode]

@[simp] theorem legMediaMode_none (codec : String) (old : Option String) :
    legMediaMode codec none old = old := by
  simp [legMediaMode]

theorem mediaMode_noEgress (codecIn old : Option String) :
    mediaMode h codecIn none old = if h.mediaMode = "" then old else some h.mediaMode := by
  unfold mediaMode
  by_cases hmode : h.mediaMode = ""
  · cases codecIn <;> simp [hmode]
  · simp [hmode]

def Delivery.isBill : Delivery → Bool
  | .bill => true
  | .leg _ => false

def Delivery.srtp : Delivery → Bool
  | .bill => false
  | .leg l => l.srtp

def unansweredMedia (h : HangupInfo) (billed srtp : Bool) : Media :=
  if billed then
    { codecIn := if h.codecIn = "" then none else some h.codecIn
      mediaMode := if h.mediaMode = "" then none else some h.mediaMode
      rtpStats := h.rtpStats
      srtpOut := srtp }
  else { srtpOut := srtp }

theorem played_unanswered (hall : ∀ l, .leg l ∈ order → l.Failed) :
    played j h order = unansweredMedia h (order.any Delivery.isBill) (order.any Delivery.srtp) := by
  induction order using List.reverseRecOn with
  | nil => rfl
  | append_singleton earlier last ih =>
    have hearlier := ih (fun l hl => hall l (List.mem_append_left _ hl))
    rw [played_append, hearlier, List.any_append, List.any_append]
    cases last with
    | bill =>
      have hsrtp : (earlier.any Delivery.srtp || [Delivery.bill].any Delivery.srtp) =
          earlier.any Delivery.srtp := Bool.or_false _
      have hbilled : (earlier.any Delivery.isBill || [Delivery.bill].any Delivery.isBill) =
          true := Bool.or_true _
      rw [hsrtp, hbilled]
      cases earlier.any Delivery.isBill with
      | false =>
        cases h.rtpStats <;> simp [Delivery.apply, unansweredMedia, mediaMode_noEgress]
      | true =>
        simp only [Delivery.apply, unansweredMedia, mediaMode_noEgress, if_true]
        split_ifs <;> cases h.rtpStats <;> rfl
    | leg l =>
      obtain ⟨hcodec, hstats⟩ := hall l (by simp)
      have hbilled : (earlier.any Delivery.isBill || [Delivery.leg l].any Delivery.isBill) =
          earlier.any Delivery.isBill := Bool.or_false _
      have hsrtp : (earlier.any Delivery.srtp || [Delivery.leg l].any Delivery.srtp) =
          (earlier.any Delivery.srtp || l.srtp) := by simp [Delivery.srtp]
      rw [hsrtp, hbilled]
      cases earlier.any Delivery.isBill <;>
        simp [Delivery.apply, unansweredMedia, hcodec, hstats]

theorem perm_pair {a b : Delivery} (hperm : order.Perm [a, b]) :
    order = [a, b] ∨ order = [b, a] := by
  match order, hperm.length_eq, hperm with
  | [c, d], _, hperm =>
    rcases List.mem_cons.mp (hperm.mem_iff.mp List.mem_cons_self) with rfl | hc
    · have hrest := (List.perm_cons _).mp hperm
      rw [List.singleton_perm_singleton.mp hrest]
      exact .inl rfl
    · obtain rfl := List.mem_singleton.mp hc
      have hrest := (List.perm_cons _).mp (hperm.trans (List.Perm.swap _ _ _))
      rw [List.singleton_perm_singleton.mp hrest]
      exact .inr rfl

variable {l : Leg}

/-- The leg first: the bill has the last word on mode and statistics. -/
theorem played_leg_bill (hl : l.Answered) : played j h [.leg l, .bill] =
    { codecIn := if h.codecIn = "" then none else some h.codecIn
      codecOut := some l.codec
      mediaMode :=
        if h.mediaMode ≠ "" then some h.mediaMode
        else if h.codecIn = "" then none else some (modeOf h.codecIn l.codec)
      rtpStats := h.rtpStats <|> l.stats.map (j.withCarrier none)
      srtpOut := l.srtp } := by
  have hcodec : l.codec ≠ "" := hl
  by_cases hingress : h.codecIn = "" <;> by_cases hmode : h.mediaMode = "" <;>
    cases hstats : l.stats <;>
    simp [played, Delivery.apply, mediaMode, modeOf, hcodec, hingress, hmode, hstats]

/-- The bill first: the leg adds its statistics and may replace the mode. -/
theorem played_bill_leg (hl : l.Answered) : played j h [.bill, .leg l] =
    { codecIn := if h.codecIn = "" then none else some h.codecIn
      codecOut := some l.codec
      mediaMode :=
        if h.mediaMode = "bypass" ∨ h.mediaMode = "proxy" then some h.mediaMode
        else if h.codecIn = "" then (if h.mediaMode = "" then none else some h.mediaMode)
        else some (modeOf h.codecIn l.codec)
      rtpStats :=
        match l.stats with
        | none => h.rtpStats
        | some stats => some (j.withCarrier h.rtpStats stats)
      srtpOut := l.srtp } := by
  have hmode : legMediaMode l.codec (if h.codecIn = "" then none else some h.codecIn)
      (if h.mediaMode = "" then none else some h.mediaMode) =
        if h.mediaMode = "bypass" ∨ h.mediaMode = "proxy" then some h.mediaMode
        else if h.codecIn = "" then (if h.mediaMode = "" then none else some h.mediaMode)
        else some (modeOf h.codecIn l.codec) := by
    by_cases hkept : h.mediaMode = "bypass" ∨ h.mediaMode = "proxy"
    · have hsome : h.mediaMode ≠ "" := by
        rintro hnone
        rw [hnone] at hkept
        exact absurd hkept (by decide)
      rw [if_pos hkept, if_neg hsome]
      unfold legMediaMode
      rw [if_pos (by simpa using hkept)]
    · rw [if_neg hkept]
      by_cases hingress : h.codecIn = ""
      · rw [if_pos hingress, if_pos hingress, legMediaMode_none]
      · rw [if_neg hingress, if_neg hingress, legMediaMode_some hl]
        obtain ⟨hbypass, hproxy⟩ := not_or.mp hkept
        split_ifs <;> simp [hbypass, hproxy]
  have hcodec : l.codec ≠ "" := hl
  simp only [played, List.foldl_cons, List.foldl_nil, Delivery.apply, mediaMode_noEgress, hmode,
    if_neg hcodec, Bool.false_or]
  cases l.stats <;> cases h.rtpStats <;> rfl

theorem orderFree_iff (hl : l.Answered) :
    played j h [.leg l, .bill] = played j h [.bill, .leg l] ↔ OrderFree j h [] l := by
  rw [played_leg_bill hl, played_bill_leg hl]
  simp only [Media.mk.injEq, true_and, and_true]
  constructor
  · rintro ⟨hmode, hstats⟩
    refine ⟨rfl, fun own stats hown hleg => ?_, ?_⟩
    · rw [hown, hleg] at hstats
      exact (Option.some.inj hstats).symm
    · by_contra hall
      simp only [not_or] at hall
      obtain ⟨hsome, hbypass, hproxy, hingress, hother⟩ := hall
      simp only [hsome, hbypass, hproxy, hingress, or_self, not_false_eq_true, ne_eq, if_true,
        if_false, Option.some.injEq] at hmode
      exact hother hmode
  · rintro ⟨-, hstats, hmode⟩
    refine ⟨?_, ?_⟩
    · rcases hmode with hnone | hkept | hkept | hingress | hsame
      · simp [hnone]
      · simp [hkept]
      · simp [hkept]
      · simp only [hingress, if_true]
        split_ifs <;> simp_all
      · by_cases hingress : h.codecIn = ""
        · simp only [hingress, if_true]
          split_ifs <;> simp_all
        · rw [← hsame]
          split_ifs <;> simp_all
    · cases hown : h.rtpStats with
      | none => cases l.stats <;> rfl
      | some own =>
        cases hleg : l.stats with
        | none => rfl
        | some stats => exact congrArg some (hstats own stats hown hleg).symm

theorem codecOut_last (order : List Delivery) (l : Leg) :
    (played j h (order ++ [.leg l])).codecOut = if l.codec = "" then none else some l.codec := by
  rw [played_append]
  rfl

/-- The order in which the legs of a call and its bill arrive shows in the
media columns, unless no leg was answered or the answered leg is `OrderFree`. -/
theorem orders_agree_iff {answered : Option Leg} {failed : List Leg}
    (hanswered : ∀ l ∈ answered, l.Answered) (hfailed : ∀ l ∈ failed, l.Failed) :
    (∀ order other : List Delivery, order.Perm (callDeliveries answered failed) →
        other.Perm (callDeliveries answered failed) → played j h order = played j h other) ↔
      ∀ l ∈ answered, OrderFree j h failed l := by
  constructor
  · intro hagree l hl
    obtain rfl := Option.mem_def.mp hl
    have hl := hanswered l rfl
    rcases List.eq_nil_or_concat' failed with rfl | ⟨earlier, last, rfl⟩
    · exact (orderFree_iff hl).mp (hagree _ _ (List.Perm.swap _ _ _) (List.Perm.refl _))
    · -- a leg that failed takes the codec of the answered one off again
      have horder : Delivery.bill :: (l :: earlier).map Delivery.leg ++ [.leg last] =
          callDeliveries (some l) (earlier ++ [last]) := by
        simp [callDeliveries]
      have hother : (Delivery.bill :: (earlier ++ [last]).map Delivery.leg ++ [Delivery.leg l]).Perm
          (callDeliveries (some l) (earlier ++ [last])) :=
        List.Perm.cons _ (List.perm_append_singleton _ _)
      have hsame := congrArg Media.codecOut (hagree _ _ (List.Perm.refl _) hother)
      rw [← horder, codecOut_last, codecOut_last,
        if_pos (hfailed last (List.mem_append_right _ List.mem_cons_self)).1, if_neg hl] at hsame
      cases hsame
  · intro hfree order other horder hother
    cases answered with
    | none =>
      have hall : ∀ o : List Delivery, o.Perm (callDeliveries none failed) →
          ∀ l, .leg l ∈ o → l.Failed := by
        intro o ho l hl
        have hmem := ho.mem_iff.mp hl
        simp only [callDeliveries, Option.toList_none, List.nil_append, List.mem_cons,
          reduceCtorEq, false_or, List.mem_map, Delivery.leg.injEq, exists_eq_right] at hmem
        exact hfailed l hmem
      have hperm := horder.trans hother.symm
      rw [played_unanswered (hall order horder), played_unanswered (hall other hother),
        hperm.any_eq, hperm.any_eq]
    | some l =>
      have hl := hanswered l rfl
      obtain rfl := (hfree l rfl).alone
      have hsame := (orderFree_iff hl).mpr (hfree l rfl)
      rcases perm_pair horder with rfl | rfl <;> rcases perm_pair hother with rfl | rfl
      · rfl
      · exact hsame.symm
      · exact hsame
      · rfl

end Orders

end SuperSbc.Billing
