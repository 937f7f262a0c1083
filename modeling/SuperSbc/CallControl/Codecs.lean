import SuperSbc.CallControl.Setup
import SuperSbc.Query.Selection
import SuperSbc.Text.Fold
import SuperSbc.Text.Split

/-!
Codec selection for the carrier leg. The codecs the caller offered are narrowed
to those that both sides allow; the media mode `smart` is settled by the same
match. Two spellings of one codec count as one when their upper case is the
same, a codec is allowed when its name folds to a configured one.
-/

namespace SuperSbc.CallControl

open Query Text

/-- `media_mode_kind`. -/
inductive MediaMode where
  | anchor
  | smart
  | proxy
  | bypass
deriving DecidableEq

/-- The most conservative side decides. -/
def mediaModeFor (customer carrier : MediaMode) : MediaMode :=
  if customer = .anchor ∨ carrier = .anchor then .anchor
  else if customer = .smart ∨ carrier = .smart then .smart
  else if customer = .proxy ∨ carrier = .proxy then .proxy
  else .bypass

section Codecs

variable (u : CaseTable)

def containsFold (list : List String) (want : String) : Bool := list.any (u.equalFold · want)

/-- Payloads of an audio offer that are no codecs. -/
def notAudio (name : String) : Bool :=
  u.equalFold name "telephone-event" || u.equalFold name "CN"

/-- The codec in an entry `<module>.<codec>@<rate>h@<ptime>i@<bitrate>b`: the
part after the last dot of what comes before the first `@`. -/
def codecName (entry : List Char) : List Char :=
  (((trimSpace entry).takeWhile (· ≠ '@')).reverse.takeWhile (· ≠ '.')).reverse

def audioName (name : String) : Option String :=
  if name = "" ∨ notAudio u name = true then none else some name

def offeredCodec (entry : String) : Option String :=
  audioName u (String.ofList (codecName entry.toList))

/-- The plain codec names of an `ep_codec_string`. -/
def offeredCodecs (s : String) : List String := (commaParts s).filterMap (offeredCodec u)

def allowedCodecs (customer carrier : List String) : List String :=
  carrier.filter (containsFold u customer)

/-- The carrier's spelling of a codec that both sides allow. -/
def matchedCodec (customer carrier : List String) (w : String) : Option String :=
  if containsFold u customer w then carrier.find? (u.equalFold · w) else none

/-- What the caller offered and both sides allow, in the order of the offer. -/
def matchedCodecs (offered : String) (customer carrier : List String) : List String :=
  firsts u.toUpper (matchedCodec u customer carrier) [] (offeredCodecs u offered)

def codecStringFor (customer carrier : List String) (offered : String) : String :=
  if carrier.length = 0 then ",".intercalate customer
  else if customer.length = 0 then ",".intercalate carrier
  else
    let allowed := allowedCodecs u customer carrier
    if allowed.length = 0 then ",".intercalate carrier
    else
      let matched := matchedCodecs u offered customer carrier
      if 0 < matched.length then ",".intercalate matched else ",".intercalate allowed

def resolveMediaMode (mode : MediaMode) (offered : String) (customer carrier : List String) :
    MediaMode :=
  if mode ≠ .smart then mode
  else if 0 < (matchedCodecs u offered customer carrier).length then .proxy
  else .anchor

end Codecs

section Match

variable {u : CaseTable} {customer carrier : List String} {w w' x : String}

def Allowed (u : CaseTable) (customer carrier : List String) (w : String) : Prop :=
  containsFold u customer w = true ∧ containsFold u carrier w = true

theorem containsFold_congr {list : List String} (h : u.equalFold w w' = true)
    (hw : containsFold u list w = true) : containsFold u list w' = true := by
  obtain ⟨c, hc, hsame⟩ := List.any_eq_true.mp hw
  exact List.any_eq_true.mpr ⟨c, hc, CaseTable.equalFold_trans hsame h⟩

theorem Allowed.congr (hw : Allowed u customer carrier w) (h : u.equalFold w w' = true) :
    Allowed u customer carrier w' :=
  ⟨containsFold_congr h hw.1, containsFold_congr h hw.2⟩

theorem isSome_matchedCodec :
    (matchedCodec u customer carrier w).isSome = true ↔ Allowed u customer carrier w := by
  have hcarrier : containsFold u carrier w = true ↔ ∃ c ∈ carrier, u.equalFold c w = true :=
    List.any_eq_true
  unfold matchedCodec Allowed
  by_cases hcustomer : containsFold u customer w = true
  · rw [if_pos hcustomer, List.find?_isSome, hcarrier, and_iff_right hcustomer]
  · simp [hcustomer]

theorem equalFold_of_matchedCodec (h : matchedCodec u customer carrier w = some x) :
    u.equalFold x w = true := by
  unfold matchedCodec at h
  split_ifs at h
  exact List.find?_some (p := fun c => u.equalFold c w) h

def AsciiNames (list : List String) : Prop := ∀ c ∈ list, CaseTable.Ascii c

instance : DecidablePred AsciiNames := fun list => List.decidableBAll _ list

theorem Allowed.folds (hascii : AsciiNames carrier) (hw : Allowed u customer carrier w) :
    CaseTable.FoldsToAscii u w := by
  obtain ⟨c, hc, hsame⟩ := List.any_eq_true.mp hw.2
  exact (hascii c hc).folds.congr hsame

/-- The offers the loop works through: the first of each codec that both sides
allow. -/
def kept (u : CaseTable) (customer carrier offered : List String) : List String :=
  distinctOn u.toUpper
    (offered.filter (fun w => (matchedCodec u customer carrier w).isSome))

variable {offered : List String}

theorem mem_kept (h : w ∈ kept u customer carrier offered) :
    w ∈ offered ∧ Allowed u customer carrier w := by
  obtain ⟨hmem, hsome⟩ := List.mem_filter.mp (mem_of_distinctOn h)
  exact ⟨hmem, isSome_matchedCodec.mp hsome⟩

theorem exists_kept (hw : w ∈ offered) (hallowed : Allowed u customer carrier w) :
    ∃ v ∈ kept u customer carrier offered, u.toUpper v = u.toUpper w :=
  exists_distinctOn u.toUpper
    (List.mem_filter.mpr ⟨hw, isSome_matchedCodec.mpr hallowed⟩)

theorem matchedCodecs_eq (offered : String) :
    matchedCodecs u offered customer carrier =
      (kept u customer carrier (offeredCodecs u offered)).filterMap
        (matchedCodec u customer carrier) := by
  rw [matchedCodecs, firsts_eq]
  congr 1
  exact List.filter_eq_self.mpr (fun w _ => by simp)

theorem mem_matchedCodecs {offered : String} : x ∈ matchedCodecs u offered customer carrier ↔
    ∃ w ∈ kept u customer carrier (offeredCodecs u offered),
      matchedCodec u customer carrier w = some x := by
  rw [matchedCodecs_eq, List.mem_filterMap]

theorem resolveMediaMode_smart (offered : String) :
    (resolveMediaMode u .smart offered customer carrier = .proxy ↔
        matchedCodecs u offered customer carrier ≠ []) ∧
      (resolveMediaMode u .smart offered customer carrier = .anchor ↔
        matchedCodecs u offered customer carrier = []) := by
  unfold resolveMediaMode
  rw [if_neg (not_not.mpr rfl)]
  cases matchedCodecs u offered customer carrier <;> simp

theorem of_audioName {name : String} (h : audioName u name = some w) : w = name := by
  unfold audioName at h
  split_ifs at h
  exact (Option.some.inj h).symm

theorem audioName_eq_some {name : String} (hne : name ≠ "") (haudio : ¬ notAudio u name = true) :
    audioName u name = some name :=
  if_neg (not_or.mpr ⟨hne, haudio⟩)

theorem no_comma_of_mem_offeredCodecs {offered : String} (h : w ∈ offeredCodecs u offered) :
    ',' ∉ w.toList := by
  obtain ⟨part, hpart, hname⟩ := List.mem_filterMap.mp h
  obtain ⟨text, htext, rfl⟩ := List.mem_map.mp hpart
  obtain rfl := of_audioName hname
  intro hcomma
  rw [String.toList_ofList, String.toList_ofList, codecName, List.mem_reverse] at hcomma
  have hbefore := List.mem_reverse.mp ((List.takeWhile_sublist _).mem hcomma)
  have htrimmed := (List.takeWhile_sublist _).mem hbefore
  exact notMem_of_mem_splitOn htext (mem_of_mem_trimSpace htrimmed)

/-- What both sides allow of an offer is the codec list of the carrier leg. -/
theorem codecList_of_matched {offered : String}
    (hne : matchedCodecs u offered customer carrier ≠ []) :
    commaParts (codecStringFor u customer carrier offered) =
      matchedCodecs u offered customer carrier := by
  obtain ⟨x, hx⟩ := List.exists_mem_of_ne_nil _ hne
  obtain ⟨w, hw, -⟩ := mem_matchedCodecs.mp hx
  obtain ⟨-, ⟨hcustomer, hcarrier⟩⟩ := mem_kept hw
  obtain ⟨c, hc, hsame⟩ := List.any_eq_true.mp hcarrier
  have hallowed : c ∈ allowedCodecs u customer carrier :=
    List.mem_filter.mpr ⟨hc, containsFold_congr (CaseTable.equalFold_symm hsame) hcustomer⟩
  obtain ⟨c', hc', -⟩ := List.any_eq_true.mp hcustomer
  rw [codecStringFor, if_neg (List.length_pos_of_mem hc).ne',
    if_neg (List.length_pos_of_mem hc').ne']
  extract_lets allowed matched
  rw [if_neg (List.length_pos_of_mem hallowed).ne', if_pos (List.length_pos_of_mem hx)]
  refine commaParts_intercalate hne (fun x hx hcomma => ?_)
  obtain ⟨w, hw, hmatched⟩ := mem_matchedCodecs.mp hx
  exact no_comma_of_mem_offeredCodecs (mem_kept hw).1
    (CaseTable.mem_sign_of_equalFold (by decide) (equalFold_of_matchedCodec hmatched) hcomma)

end Match

section Narrowing

/-- Where a codec was first offered. -/
def firstOffer (u : CaseTable) (offered : String) (codec : String) : ℕ :=
  (offeredCodecs u offered).findIdx (u.equalFold codec)

/-- The codec list of a proxied call is what was offered and is allowed, each
codec once and in the order of the offer; of an anchored call nothing that was
offered is allowed. -/
structure NarrowingAgrees (u : CaseTable) (customer carrier : List String) (offered : String) :
    Prop where
  nonempty : resolveMediaMode u .smart offered customer carrier = .proxy →
    commaParts (codecStringFor u customer carrier offered) ≠ []
  no_duplicate : resolveMediaMode u .smart offered customer carrier = .proxy →
    (commaParts (codecStringFor u customer carrier offered)).Pairwise
      (fun x y => ¬ u.equalFold x y = true)
  complete : resolveMediaMode u .smart offered customer carrier = .proxy →
    ∀ w ∈ offeredCodecs u offered, Allowed u customer carrier w →
      containsFold u (commaParts (codecStringFor u customer carrier offered)) w = true
  sound : resolveMediaMode u .smart offered customer carrier = .proxy →
    ∀ x ∈ commaParts (codecStringFor u customer carrier offered),
      ∃ w ∈ offeredCodecs u offered, Allowed u customer carrier w ∧ u.equalFold x w = true
  in_order : resolveMediaMode u .smart offered customer carrier = .proxy →
    (commaParts (codecStringFor u customer carrier offered)).Pairwise
      (fun x y => firstOffer u offered x < firstOffer u offered y)
  anchored : resolveMediaMode u .smart offered customer carrier = .anchor →
    ∀ w ∈ offeredCodecs u offered, ¬ Allowed u customer carrier w

/-- The offer spells each codec that both sides allow in one way, up to what
upper case takes for one. -/
def OneSpelling (u : CaseTable) (customer carrier : List String) (offered : String) : Prop :=
  ∀ w ∈ offeredCodecs u offered, ∀ w' ∈ offeredCodecs u offered,
    Allowed u customer carrier w → u.equalFold w w' = true → u.toUpper w = u.toUpper w'

variable {u : CaseTable} {customer carrier : List String} {offered : String}

theorem pairwise_matchedCodecs {R : String → String → Prop} :
    (matchedCodecs u offered customer carrier).Pairwise R ↔
      (kept u customer carrier (offeredCodecs u offered)).Pairwise (fun w w' =>
        ∀ x, matchedCodec u customer carrier w = some x →
          ∀ y, matchedCodec u customer carrier w' = some y → R x y) := by
  rw [matchedCodecs_eq, List.pairwise_filterMap]

/-- Of an allowed offer one with its upper case is kept, and the leg has the
codec. -/
theorem exists_matched {w : String} (hascii : AsciiNames carrier)
    (hw : w ∈ offeredCodecs u offered) (hallowed : Allowed u customer carrier w) :
    ∃ v ∈ kept u customer carrier (offeredCodecs u offered), u.toUpper v = u.toUpper w ∧
      ∃ x, matchedCodec u customer carrier v = some x ∧ u.equalFold x w = true := by
  obtain ⟨v, hv, hupper⟩ := exists_kept hw hallowed
  have hallowed' := (mem_kept hv).2
  obtain ⟨x, hx⟩ := Option.isSome_iff_exists.mp (isSome_matchedCodec.mpr hallowed')
  refine ⟨v, hv, hupper, x, hx, CaseTable.equalFold_trans (equalFold_of_matchedCodec hx) ?_⟩
  exact CaseTable.equalFold_of_toUpper_eq (hallowed'.folds hascii) (hallowed.folds hascii) hupper

theorem OneSpelling.kept_pairwise (hone : OneSpelling u customer carrier offered) :
    (kept u customer carrier (offeredCodecs u offered)).Pairwise
      (fun w w' => ¬ u.equalFold w w' = true) := by
  refine (distinctOn_pairwise _).imp_of_mem (fun {w w'} hw hw' hne hsame => ?_)
  obtain ⟨hmem, hallowed⟩ := mem_kept hw
  exact hne (hone w hmem w' (mem_kept hw').1 hallowed hsame)

theorem OneSpelling.in_order (hone : OneSpelling u customer carrier offered)
    (hascii : AsciiNames carrier) :
    (kept u customer carrier (offeredCodecs u offered)).Pairwise
      (fun w w' => firstOffer u offered w < firstOffer u offered w') := by
  refine distinctOn_in_order (fun w hw hallowed w' hw' => ?_)
  rw [isSome_matchedCodec] at hallowed ⊢
  constructor
  · intro hsame
    exact ⟨hallowed.congr hsame, hone w hw w' hw' hallowed hsame⟩
  · rintro ⟨hallowed', hupper⟩
    exact CaseTable.equalFold_of_toUpper_eq (hallowed.folds hascii) (hallowed'.folds hascii) hupper

theorem firstOffer_congr {w x : String} (h : u.equalFold x w = true) :
    firstOffer u offered x = firstOffer u offered w := by
  unfold firstOffer
  congr 1
  funext v
  rw [Bool.eq_iff_iff]
  exact ⟨CaseTable.equalFold_trans (CaseTable.equalFold_symm h), CaseTable.equalFold_trans h⟩

/-- An offer without a Kelvin sign spells each codec in one way. -/
theorem OneSpelling.of_no_kelvin (hascii : AsciiNames carrier)
    (hkelvin : ∀ w ∈ offeredCodecs u offered, kelvin ∉ w.toList) :
    OneSpelling u customer carrier offered := fun w hw w' hw' hallowed hsame =>
  CaseTable.toUpper_eq_of_equalFold (hallowed.folds hascii) (hkelvin w hw) (hkelvin w' hw') hsame

/-- No codec twice in the leg's list takes one spelling of each. -/
theorem OneSpelling.of_no_duplicate (hascii : AsciiNames carrier)
    (hno : (matchedCodecs u offered customer carrier).Pairwise
      (fun x y => ¬ u.equalFold x y = true)) : OneSpelling u customer carrier offered := by
  intro w hw w' hw' hallowed hsame
  by_contra hne
  obtain ⟨v, hv, hupper, x, hx, hxw⟩ := exists_matched hascii hw hallowed
  obtain ⟨v', hv', hupper', x', hx', hxw'⟩ := exists_matched hascii hw' (hallowed.congr hsame)
  have hdistinct : v ≠ v' := by
    rintro rfl
    exact hne (hupper.symm.trans hupper')
  have : Std.Symm (fun v v' : String => ∀ x, matchedCodec u customer carrier v = some x →
      ∀ y, matchedCodec u customer carrier v' = some y → ¬ u.equalFold x y = true) :=
    ⟨fun _ _ hab y hy x hx hyx => hab x hx y hy (CaseTable.equalFold_symm hyx)⟩
  refine (pairwise_matchedCodecs.mp hno).forall hv hv' hdistinct x hx x' hx' ?_
  exact CaseTable.equalFold_trans hxw
    (CaseTable.equalFold_trans hsame (CaseTable.equalFold_symm hxw'))

/-- With one spelling of each codec the leg's list is as it should be. -/
theorem OneSpelling.narrowing_agrees (hone : OneSpelling u customer carrier offered)
    (hascii : AsciiNames carrier) : NarrowingAgrees u customer carrier offered := by
  have hlist (hproxy : resolveMediaMode u .smart offered customer carrier = .proxy) :
      commaParts (codecStringFor u customer carrier offered) =
        matchedCodecs u offered customer carrier :=
    codecList_of_matched ((resolveMediaMode_smart offered).1.mp hproxy)
  refine ⟨fun hproxy => ?_, fun hproxy => ?_, fun hproxy w hw hallowed => ?_,
    fun hproxy x hx => ?_, fun hproxy => ?_, fun hanchor w hw hallowed => ?_⟩
  · rw [hlist hproxy]
    exact (resolveMediaMode_smart offered).1.mp hproxy
  · rw [hlist hproxy, pairwise_matchedCodecs]
    refine hone.kept_pairwise.imp (fun hne x hx y hy hxy => hne ?_)
    exact CaseTable.equalFold_trans
      (CaseTable.equalFold_symm (equalFold_of_matchedCodec hx))
      (CaseTable.equalFold_trans hxy (equalFold_of_matchedCodec hy))
  · obtain ⟨v, hv, -, x, hx, hxw⟩ := exists_matched hascii hw hallowed
    rw [hlist hproxy]
    exact List.any_eq_true.mpr ⟨x, mem_matchedCodecs.mpr ⟨v, hv, hx⟩, hxw⟩
  · rw [hlist hproxy] at hx
    obtain ⟨w, hw, hmatched⟩ := mem_matchedCodecs.mp hx
    obtain ⟨hmem, hallowed⟩ := mem_kept hw
    exact ⟨w, hmem, hallowed, equalFold_of_matchedCodec hmatched⟩
  · rw [hlist hproxy, pairwise_matchedCodecs]
    refine (hone.in_order hascii).imp (fun hlt x hx y hy => ?_)
    rwa [firstOffer_congr (equalFold_of_matchedCodec hx),
      firstOffer_congr (equalFold_of_matchedCodec hy)]
  · obtain ⟨v, hv, -, x, hx, -⟩ := exists_matched hascii hw hallowed
    have hmem : x ∈ matchedCodecs u offered customer carrier := mem_matchedCodecs.mpr ⟨v, hv, hx⟩
    rw [(resolveMediaMode_smart offered).2.mp hanchor] at hmem
    exact List.not_mem_nil hmem

/-- Narrowing agrees with the media decision exactly for the offers that spell
each allowed codec in one way. -/
theorem codec_narrowing_agrees (u : CaseTable) (customer carrier : List String)
    (hcarrier : AsciiNames carrier) (offered : String) :
    NarrowingAgrees u customer carrier offered ↔ OneSpelling u customer carrier offered := by
  refine ⟨fun hagrees => ?_, fun hone => hone.narrowing_agrees hcarrier⟩
  by_cases hnil : matchedCodecs u offered customer carrier = []
  · exact OneSpelling.of_no_duplicate hcarrier (by rw [hnil]; exact List.Pairwise.nil)
  · have hno := hagrees.no_duplicate ((resolveMediaMode_smart offered).1.mpr hnil)
    rw [codecList_of_matched hnil] at hno
    exact OneSpelling.of_no_duplicate hcarrier hno

theorem codec_narrowing_agrees_g729 :
    AsciiNames ["PCMA", "G729"] ∧
      NarrowingAgrees plainCase ["g729", "PCMU"] ["PCMA", "G729"] "PCMU@8000h,G729@8000h@20i" := by
  have hascii : AsciiNames ["PCMA", "G729"] := by decide
  refine ⟨hascii, (codec_narrowing_agrees plainCase _ _ hascii _).mpr ?_⟩
  exact OneSpelling.of_no_kelvin hascii (by decide)

/-- `SILK` written with a Kelvin sign folds to `SILK` and has another upper
case: the leg lists the codec twice. -/
theorem silk_listed_twice :
    AsciiNames ["SILK"] ∧
      codecStringFor plainCase ["SILK"] ["SILK"] "SILK,SIL\u212a" = "SILK,SILK" ∧
      ¬ NarrowingAgrees plainCase ["SILK"] ["SILK"] "SILK,SIL\u212a" := by
  have hproxy : resolveMediaMode plainCase .smart "SILK,SIL\u212a" ["SILK"] ["SILK"] = .proxy := by
    decide
  refine ⟨by decide, by decide, fun hagrees => ?_⟩
  have hno := hagrees.no_duplicate hproxy
  exact absurd hno (by decide)

end Narrowing

end SuperSbc.CallControl
