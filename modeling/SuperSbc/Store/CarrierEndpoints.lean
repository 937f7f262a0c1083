import SuperSbc.FsConfig.Gateways
import SuperSbc.Store.Slots

/-!
The endpoint list of a carrier is replaced as a whole: its rows are deleted and
written again. An address that stays is meant to keep its sequence number,
which names its gateway. Its health hangs on the id of the row, and rows get
new ids.
-/

namespace SuperSbc.Store

open FsConfig CallControl Text Slots Query

/-- One entry of a list of endpoints. The transport is empty or a
`transport_kind`; any other text fails the statement. -/
structure EndpointSpec where
  host : String
  port : ℤ
  transport : Option TransportKind
  priority : ℤ
  weight : ℤ
  enabled : Option Bool

structure Address where
  host : String
  port : ℤ
  transport : TransportKind
deriving DecidableEq

def EndpointSpec.address (s : EndpointSpec) : Address where
  host := String.ofList (trimSpace s.host.toList)
  port := if s.port ≤ 0 then 5060 else s.port
  transport := s.transport.getD .udp

def addressOf (e : CarrierEndpoint) : Address := ⟨e.host, e.port, e.transport⟩

def endpointKey (a : Address) : String :=
  a.host ++ "|" ++ toString a.port ++ "|" ++ a.transport.text

/-- The rows of a carrier under the keys of `carrier_endpoints`. The schema
does not ask for positive numbers, but every statement writes them. -/
structure EndpointList where
  carrierId : UUID
  rows : List CarrierEndpoint
  owned : ∀ e ∈ rows, e.carrierId = carrierId
  seqs_unique : (rows.map (·.seq)).Nodup
  addresses_unique : (rows.map addressOf).Nodup
  seqs_pos : ∀ e ∈ rows, 0 < e.seq

/-- The map of sequence numbers by key; a later row replaces an earlier one. -/
def EndpointList.seqOf (l : EndpointList) (key : String) : Option ℤ :=
  (l.rows.reverse.find? (fun e => endpointKey (addressOf e) = key)).map (·.seq)

/-- The number each entry of a new list had before. -/
def EndpointList.remembered (l : EndpointList) (specs : List EndpointSpec) : List (Option ℤ) :=
  specs.map (fun s => l.seqOf (endpointKey s.address))

def EndpointList.numbers (l : EndpointList) (specs : List EndpointSpec) : List ℤ :=
  (handOut (l.remembered specs)).used

/-- The row that is written for the entry at an index. -/
def EndpointSpec.row (carrierId : UUID) (ids : ℕ → UUID) (i : ℕ) (s : EndpointSpec) (seq : ℤ) :
    CarrierEndpoint where
  id := ids i
  carrierId := carrierId
  seq := seq
  host := s.address.host
  port := s.address.port
  transport := s.address.transport
  priority := if s.priority ≤ 0 then i + 1 else s.priority
  weight := if s.weight ≤ 0 then 100 else s.weight
  enabled := s.enabled.getD true

/-- The checks and types of the columns. -/
def storable (e : CarrierEndpoint) : Bool :=
  '\x00' ∉ e.host.toList && 0 < e.port && e.port < 65536 && 0 < e.priority &&
    e.priority < 2 ^ 31 && 0 ≤ e.weight && e.weight < 2 ^ 31

def EndpointList.newRows (l : EndpointList) (specs : List EndpointSpec) (ids : ℕ → UUID) :
    List CarrierEndpoint :=
  (specs.zip (l.numbers specs)).zipIdx.map (fun x => x.1.1.row l.carrierId ids x.2 x.1.2)

/-- The endpoints afterwards, and the one that the carrier's own gateway
columns are set from. -/
structure Replaced where
  endpoints : List CarrierEndpoint
  primary : Option CarrierEndpoint

/-- `ReplaceEndpoints`; `none` is an error, and the transaction is undone. The
new ids are what `gen_random_uuid()` draws. -/
def replaceEndpoints (l : EndpointList) (specs : List EndpointSpec) (ids : ℕ → UUID) :
    Option Replaced :=
  let rows := l.newRows specs ids
  if rows.all storable && decide (rows.map (·.seq)).Nodup && decide (rows.map addressOf).Nodup then
    some
      { endpoints := orderBy (fun e : CarrierEndpoint => toLex (e.priority, e.seq)) rows
        primary := first (fun e : CarrierEndpoint => toLex (e.priority, e.seq)) rows }
  else none

/-- `EndpointHealth.Dead`: the endpoints whose key exists. Without an answer
from Redis there are none. -/
def dead (exists? : Option (UUID → Bool)) (endpoints : List CarrierEndpoint) : List UUID :=
  match exists? with
  | none => []
  | some keys => (endpoints.map (·.id)).filter keys

section Key

theorem notMem_transport (k : TransportKind) : '|' ∉ k.text.toList := by
  cases k <;> decide

theorem endpointKey_inj {a b : Address} (h : endpointKey a = endpointKey b) : a = b := by
  have hlist (x : Address) : (endpointKey x).toList =
      (x.host.toList ++ '|' :: (toString x.port).toList) ++ '|' :: x.transport.text.toList := by
    simp only [endpointKey, String.toList_append, List.append_assoc]
    rfl
  have hport (n : ℤ) : '|' ∉ (toString n).toList := notMem_toString (by decide) (by decide) n
  have hchars := congrArg String.toList h
  rw [hlist, hlist] at hchars
  obtain ⟨hfront, htransport⟩ :=
    append_separator_inj (notMem_transport _) (notMem_transport _) hchars
  obtain ⟨hhost, hnumber⟩ := append_separator_inj (hport _) (hport _) hfront
  obtain ⟨host, port, transport⟩ := a
  obtain ⟨host', port', transport'⟩ := b
  obtain rfl : host = host' := String.toList_inj.mp hhost
  obtain rfl : port = port' := decimal_inj (String.toList_inj.mp hnumber)
  obtain rfl : transport = transport' :=
    TransportKind.text_injective (String.toList_inj.mp htransport)
  rfl

end Key

section Numbers

variable {l : EndpointList} {specs : List EndpointSpec} {s : EndpointSpec} {q : ℤ}

theorem EndpointList.seqOf_eq_some_iff {a : Address} :
    l.seqOf (endpointKey a) = some q ↔ ∃ e ∈ l.rows, addressOf e = a ∧ e.seq = q := by
  unfold seqOf
  constructor
  · intro h
    obtain ⟨e, hfound, rfl⟩ := Option.map_eq_some_iff.mp h
    have hkey := List.find?_some hfound
    rw [decide_eq_true_eq] at hkey
    exact ⟨e, List.mem_reverse.mp (List.mem_of_find?_eq_some hfound), endpointKey_inj hkey, rfl⟩
  · rintro ⟨e, he, rfl, rfl⟩
    cases hfound : l.rows.reverse.find?
        (fun f => endpointKey (addressOf f) = endpointKey (addressOf e)) with
    | none =>
      have hnone := List.find?_eq_none.mp hfound e (List.mem_reverse.mpr he)
      simp at hnone
    | some f =>
      have hkey := List.find?_some hfound
      rw [decide_eq_true_eq] at hkey
      have hf := List.mem_reverse.mp (List.mem_of_find?_eq_some hfound)
      rw [List.inj_on_of_nodup_map l.addresses_unique hf he (endpointKey_inj hkey)]
      rfl

theorem EndpointList.remembered_pos (hq : some q ∈ l.remembered specs) : 0 < q := by
  obtain ⟨s, -, hs⟩ := List.mem_map.mp hq
  obtain ⟨e, he, -, rfl⟩ := seqOf_eq_some_iff.mp hs
  exact l.seqs_pos e he

/-- Entries with different addresses remember different numbers. -/
theorem EndpointList.remembered_nodup (hdistinct : (specs.map EndpointSpec.address).Nodup) :
    ((l.remembered specs).filterMap id).Nodup := by
  have hmap : l.remembered specs =
      (specs.map EndpointSpec.address).map (fun a => l.seqOf (endpointKey a)) := by
    rw [remembered, List.map_map]
    rfl
  rw [hmap, List.filterMap_map]
  refine List.Nodup.filterMap ?_ hdistinct
  intro a b q ha hb
  obtain ⟨e, he, rfl, rfl⟩ := seqOf_eq_some_iff.mp ha
  obtain ⟨f, hf, rfl, hseq⟩ := seqOf_eq_some_iff.mp hb
  rw [List.inj_on_of_nodup_map l.seqs_unique he hf hseq.symm]

theorem EndpointList.sound_numbers (l : EndpointList) (specs : List EndpointSpec) :
    Sound (l.remembered specs) (handOut (l.remembered specs)) :=
  sound_handOut (fun _ hq => remembered_pos hq)

theorem EndpointList.length_numbers : (l.numbers specs).length = specs.length := by
  rw [numbers, (l.sound_numbers specs).length, remembered, List.length_map]

end Numbers

section Rows

variable {l : EndpointList} {specs : List EndpointSpec} {ids : ℕ → UUID}

theorem EndpointList.newRows_seq (l : EndpointList) (specs : List EndpointSpec)
    (ids : ℕ → UUID) : (l.newRows specs ids).map (·.seq) = l.numbers specs := by
  have hfst : (specs.zip (l.numbers specs)).zipIdx.map Prod.fst = specs.zip (l.numbers specs) :=
    List.zipIdx_map_fst _ _
  calc (l.newRows specs ids).map (·.seq)
      = ((specs.zip (l.numbers specs)).zipIdx.map Prod.fst).map Prod.snd := by
        rw [newRows, List.map_map, List.map_map]
        rfl
    _ = l.numbers specs := by rw [hfst, List.map_snd_zip length_numbers.le]

theorem EndpointList.newRows_address (l : EndpointList) (specs : List EndpointSpec)
    (ids : ℕ → UUID) :
    (l.newRows specs ids).map addressOf = specs.map EndpointSpec.address := by
  have hfst : (specs.zip (l.numbers specs)).zipIdx.map Prod.fst = specs.zip (l.numbers specs) :=
    List.zipIdx_map_fst _ _
  calc (l.newRows specs ids).map addressOf
      = (((specs.zip (l.numbers specs)).zipIdx.map Prod.fst).map Prod.fst).map
          EndpointSpec.address := by
        rw [newRows, List.map_map, List.map_map, List.map_map]
        rfl
    _ = specs.map EndpointSpec.address := by rw [hfst, List.map_fst_zip length_numbers.ge]

theorem EndpointList.of_mem_newRows {e : CarrierEndpoint} (he : e ∈ l.newRows specs ids) :
    ∃ s n i, (s, n) ∈ specs.zip (l.numbers specs) ∧ addressOf e = s.address ∧ e.seq = n ∧
      e.id = ids i := by
  obtain ⟨x, hx, rfl⟩ := List.mem_map.mp he
  exact ⟨x.1.1, x.1.2, x.2, List.fst_mem_of_mem_zipIdx hx, rfl, rfl, rfl⟩

theorem EndpointList.exists_newRow {s : EndpointSpec} {n : ℤ}
    (h : (s, n) ∈ specs.zip (l.numbers specs)) :
    ∃ e ∈ l.newRows specs ids, addressOf e = s.address ∧ e.seq = n := by
  rw [← List.zipIdx_map_fst 0 (specs.zip (l.numbers specs))] at h
  obtain ⟨x, hx, hfst⟩ := List.mem_map.mp h
  refine ⟨_, List.mem_map_of_mem hx, ?_, ?_⟩
  · rw [hfst]
    rfl
  · rw [hfst]
    rfl

theorem EndpointList.kept_remembered_iff :
    Kept (l.remembered specs) ↔ ∀ s n, (s, n) ∈ specs.zip (l.numbers specs) →
      ∀ q, l.seqOf (endpointKey s.address) = some q → n = q := by
  have hzip : (l.remembered specs).zip (handOut (l.remembered specs)).used =
      (specs.zip (l.numbers specs)).map
        (Prod.map (fun s => l.seqOf (endpointKey s.address)) id) := by
    rw [← numbers, remembered, ← List.zip_map, List.map_id]
  unfold Kept
  rw [hzip]
  constructor
  · intro h s n hsn q hq
    exact h _ (List.mem_map_of_mem hsn) q hq
  · intro h x hx q hq
    obtain ⟨⟨s, n⟩, hsn, rfl⟩ := List.mem_map.mp hx
    exact h s n hsn q hq

/-- Addresses that stay keep their numbers exactly when every entry that
remembers a number got it. -/
theorem EndpointList.keeps_iff_kept :
    (∀ old ∈ l.rows, ∀ e ∈ l.newRows specs ids, addressOf e = addressOf old → e.seq = old.seq) ↔
      Kept (l.remembered specs) := by
  rw [kept_remembered_iff]
  constructor
  · intro hkeeps s n hsn q hq
    obtain ⟨old, hold, haddress, rfl⟩ := seqOf_eq_some_iff.mp hq
    obtain ⟨e, he, hnew, rfl⟩ := exists_newRow hsn
    exact hkeeps old hold e he (hnew.trans haddress.symm)
  · intro hkept old hold e he hsame
    obtain ⟨s, n, -, hsn, haddress, hseq, -⟩ := of_mem_newRows he
    rw [hseq]
    refine hkept s n hsn old.seq (seqOf_eq_some_iff.mpr ⟨old, hold, ?_, rfl⟩)
    exact hsame.symm.trans haddress

theorem notMem_dead {exists? : Option (UUID → Bool)} {i : ℕ} {endpoints : List CarrierEndpoint}
    (hfresh : ∀ keys, exists? = some keys → keys (ids i) = false) :
    ids i ∉ dead exists? endpoints := by
  cases exists? with
  | none => exact List.not_mem_nil
  | some keys =>
    intro hmem
    have hkey := (List.mem_filter.mp hmem).2
    rw [hfresh keys rfl] at hkey
    cases hkey

end Rows

/-- The unique keys stand in the way of no list of different addresses. -/
theorem replaceEndpoints_eq (l : EndpointList) {specs : List EndpointSpec}
    (hdistinct : (specs.map EndpointSpec.address).Nodup) (ids : ℕ → UUID) :
    replaceEndpoints l specs ids =
      if (l.newRows specs ids).all storable then
        some
          { endpoints := orderBy (fun e : CarrierEndpoint => toLex (e.priority, e.seq))
              (l.newRows specs ids)
            primary := first (fun e : CarrierEndpoint => toLex (e.priority, e.seq))
              (l.newRows specs ids) }
      else none := by
  have hseqs : ((l.newRows specs ids).map (·.seq)).Nodup := by
    rw [l.newRows_seq specs ids]
    exact (l.sound_numbers specs).nodup
  have haddresses : ((l.newRows specs ids).map addressOf).Nodup := by
    rwa [l.newRows_address specs ids]
  simp only [replaceEndpoints, hseqs, haddresses, decide_true, Bool.and_true]

/-- A replacement that fits the columns is carried out, and its numbers are
different and positive. Addresses that stay keep their numbers exactly when
there is room for them in the order of the list; they stay parked or not
exactly when none of them is parked. -/
theorem replaceEndpoints_keeps_iff (l : EndpointList) (specs : List EndpointSpec)
    (hdistinct : (specs.map EndpointSpec.address).Nodup) (ids : ℕ → UUID)
    (exists? : Option (UUID → Bool))
    (hfresh : ∀ i keys, exists? = some keys → keys (ids i) = false) :
    match replaceEndpoints l specs ids with
    | none => ∃ e ∈ l.newRows specs ids, storable e = false
    | some out =>
      (out.endpoints.map addressOf).Perm (specs.map EndpointSpec.address) ∧
      (out.endpoints.map (·.seq)).Nodup ∧ (∀ e ∈ out.endpoints, 0 < e.seq) ∧
      ((∀ old ∈ l.rows, ∀ e ∈ out.endpoints, addressOf e = addressOf old →
          e.seq = old.seq) ↔ RoomFor (l.remembered specs)) ∧
      ((∀ old ∈ l.rows, ∀ e ∈ out.endpoints, addressOf e = addressOf old →
          (e.id ∈ dead exists? out.endpoints ↔ old.id ∈ dead exists? l.rows)) ↔
        ∀ old ∈ l.rows, addressOf old ∈ specs.map EndpointSpec.address →
          old.id ∉ dead exists? l.rows) := by
  rw [replaceEndpoints_eq l hdistinct ids]
  by_cases hall : (l.newRows specs ids).all storable = true
  · rw [if_pos hall]
    have hperm := List.perm_insertionSort
      (fun a b : CarrierEndpoint => toLex (a.priority, a.seq) ≤ toLex (b.priority, b.seq))
      (l.newRows specs ids)
    have hsound := l.sound_numbers specs
    refine ⟨?_, ?_, ?_, ?_, ?_⟩
    · rw [← l.newRows_address specs ids]
      exact hperm.map _
    · refine (hperm.map _).nodup_iff.mpr ?_
      rw [l.newRows_seq specs ids]
      exact hsound.nodup
    · intro e he
      refine hsound.pos e.seq ?_
      rw [← EndpointList.numbers, ← l.newRows_seq specs ids]
      exact List.mem_map_of_mem (mem_orderBy.mp he)
    · simp only [mem_orderBy]
      rw [EndpointList.keeps_iff_kept]
      exact kept_iff_roomFor (fun _ hq => EndpointList.remembered_pos hq)
        (EndpointList.remembered_nodup hdistinct)
    · simp only [mem_orderBy]
      constructor
      · intro hparked old hold hstays hdead
        rw [← l.newRows_address specs ids] at hstays
        obtain ⟨e, he, hsame⟩ := List.mem_map.mp hstays
        obtain ⟨-, -, i, -, -, -, hid⟩ := EndpointList.of_mem_newRows he
        have hstill := (hparked old hold e he hsame).mpr hdead
        rw [hid] at hstill
        exact notMem_dead (hfresh i) hstill
      · intro hnone old hold e he hsame
        obtain ⟨s, n, i, hsn, haddress, -, hid⟩ := EndpointList.of_mem_newRows he
        rw [hid]
        refine iff_of_false (notMem_dead (hfresh i)) (hnone old hold ?_)
        exact List.mem_map.mpr ⟨s, (List.of_mem_zip hsn).1, haddress.symm.trans hsame⟩
  · rw [if_neg hall]
    obtain ⟨e, he, hbad⟩ := List.all_eq_false.mp (Bool.eq_false_of_not_eq_true hall)
    exact ⟨e, he, by simpa using hbad⟩

def oneEndpoint : EndpointList where
  carrierId := 9
  rows := [⟨41, 9, 1, "sip1.example", 5060, .udp, 1, 100, true⟩]
  owned := by
    intro e he
    rw [List.mem_singleton.mp he]
  seqs_unique := List.nodup_singleton _
  addresses_unique := List.nodup_singleton _
  seqs_pos := by
    intro e he
    rw [List.mem_singleton.mp he]
    exact Int.one_pos

def plainSpec (host : String) : EndpointSpec := ⟨host, 0, none, 0, 0, none⟩

def drawnIds (i : ℕ) : UUID := if i = 0 then 51 else 52

/-- A second address is added behind the first one, which is not parked. -/
theorem replaceEndpoints_keeps_second :
    ∃ out, replaceEndpoints oneEndpoint [plainSpec "sip1.example", plainSpec "sip2.example"]
        drawnIds = some out ∧
      out.endpoints.map (·.seq) = [1, 2] ∧
      ∀ old ∈ oneEndpoint.rows, ∀ e ∈ out.endpoints, addressOf e = addressOf old →
        e.seq = old.seq := by
  have hfresh : ∀ i keys, some (fun id : UUID => decide (id = 99)) = some keys →
      keys (drawnIds i) = false := by
    intro i keys hkeys
    obtain rfl := Option.some.inj hkeys
    unfold drawnIds
    split <;> decide
  have h := replaceEndpoints_keeps_iff oneEndpoint
    [plainSpec "sip1.example", plainSpec "sip2.example"] (by decide) drawnIds _ hfresh
  have hseqs : (replaceEndpoints oneEndpoint [plainSpec "sip1.example", plainSpec "sip2.example"]
      drawnIds).map (fun out => out.endpoints.map (·.seq)) = some [1, 2] := by
    decide +kernel
  obtain ⟨out, hout, hnumbers⟩ := Option.map_eq_some_iff.mp hseqs
  rw [hout] at h
  refine ⟨out, hout, hnumbers, h.2.2.2.1.mpr ?_⟩
  have hremembered : oneEndpoint.remembered [plainSpec "sip1.example", plainSpec "sip2.example"] =
      [some 1, none] := by
    decide +kernel
  rw [hremembered]
  intro before q after heq
  match before, heq with
  | [], heq =>
    obtain ⟨hq, -⟩ := List.cons.inj heq
    obtain rfl := Option.some.inj hq
    decide
  | [_], heq => simp at heq
  | _ :: _ :: _, heq => simp at heq

/-- The only endpoint is parked. A new address is put in front of it: it loses
its number to the new one, and it is no longer parked. -/
theorem replaceEndpoints_moves_parked :
    ∃ out, replaceEndpoints oneEndpoint [plainSpec "sip2.example", plainSpec "sip1.example"]
        drawnIds = some out ∧
      out.endpoints.map (fun e => (e.host, e.seq)) = [("sip2.example", 1), ("sip1.example", 2)] ∧
      dead (some (· = 41)) oneEndpoint.rows = [41] ∧
      dead (some (· = 41)) out.endpoints = [] := by
  have hrun : (replaceEndpoints oneEndpoint [plainSpec "sip2.example", plainSpec "sip1.example"]
      drawnIds).map (fun out => (out.endpoints.map (fun e => (e.host, e.seq)),
        dead (some (· = 41)) out.endpoints)) =
      some ([("sip2.example", 1), ("sip1.example", 2)], []) := by
    decide +kernel
  obtain ⟨out, hout, hpair⟩ := Option.map_eq_some_iff.mp hrun
  obtain ⟨hrows, hdead⟩ := Prod.mk.inj hpair
  exact ⟨out, hout, hrows, by decide, hdead⟩

end SuperSbc.Store
