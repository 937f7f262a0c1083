import Mathlib.Data.List.AList
import SuperSbc.Query.Selection
import SuperSbc.Text.Case
import SuperSbc.Text.Replace

/-!
Header rules of a customer and of a carrier, merged into what is added to, and
copied onto, the INVITE to the carrier and the responses to the customer.
-/

namespace SuperSbc.CallControl

open Query Text

inductive HeaderDirection where
  | egress
  | response
deriving DecidableEq

inductive HeaderAction where
  | add
  | passthrough
  | remove
deriving DecidableEq

/-- `header ~ '^[A-Za-z0-9-]+$'`. -/
def HeaderOK (header : String) : Prop :=
  header ≠ "" ∧ header.toList.all (fun c => c.isAlphanum || c = '-')

instance HeaderOK.decidable (header : String) : Decidable (HeaderOK header) :=
  inferInstanceAs (Decidable (_ ∧ _))

/-- A row of `header_rules`, without its owner. -/
structure HeaderRule where
  direction : HeaderDirection
  action : HeaderAction
  header : String
  value : String
  priority : ℤ
  enabled : Bool
  header_ok : HeaderOK header

/-- The values that stand for the placeholders in a rule. -/
structure HeaderContext where
  caller : String
  called : String
  customer : String
  carrier : String
  callUUID : String
  nodeIP : String

def HeaderContext.expand (ctx : HeaderContext) (value : String) : String :=
  replaceAll
    [("{caller}", ctx.caller), ("{called}", ctx.called), ("{customer}", ctx.customer),
      ("{carrier}", ctx.carrier), ("{call_uuid}", ctx.callUUID), ("{node_ip}", ctx.nodeIP)] value

def capitalized : List Char → List Char
  | [] => []
  | c :: rest => c.toUpper :: rest

def canonicalHeader (lower : String) : String :=
  String.ofList (['-'].intercalate ((lower.toList.splitOn '-').map capitalized))

/-- Safe as the value of a variable of a dial string. -/
def escapeDialValue (v : String) : String :=
  String.ofList (replaceChar '}' [] (replaceChar ',' ['\\', ','] (replaceChar '\\' ['\\', '\\']
    v.toList)))

/-- What is known of a header while the rules are merged. -/
structure HeaderEntry where
  action : HeaderAction
  value : String
  order : ℕ
deriving DecidableEq

/-- Headers by their name in lower case. -/
abbrev HeaderMap := AList (fun _ : String => HeaderEntry)

structure HeaderMerge where
  target : HeaderDirection → HeaderMap
  order : ℕ

/-- The body of the loop over the rules. -/
def HeaderMerge.apply (m : HeaderMerge) (r : HeaderRule) : HeaderMerge :=
  let key := r.header.toLower
  let entries := m.target r.direction
  if r.enabled = false then m
  else if r.action = .remove then
    { m with target := Function.update m.target r.direction (entries.erase key) }
  else
    { target := Function.update m.target r.direction
        (entries.insert key ⟨r.action, r.value, m.order + 1⟩),
      order := m.order + 1 }

def HeaderMerge.applyAll (m : HeaderMerge) (rules : List HeaderRule) : HeaderMerge :=
  (orderBy HeaderRule.priority rules).foldl HeaderMerge.apply m

/-- The entries in the order they were written; no two have one counter. -/
def sortedEntries (m : HeaderMap) : List (Sigma fun _ : String => HeaderEntry) :=
  orderBy (fun x => x.2.order) m.entries

structure HeaderPlan where
  egressVars : List String
  passthrough : List String
  responseVars : List (String × String)
deriving DecidableEq

section Plan

variable (ctx : HeaderContext)

def egressVar (key value : String) : String :=
  "sip_h_" ++ canonicalHeader key ++ "=" ++ escapeDialValue (ctx.expand value)

def responseVar (key value : String) : String × String :=
  ("sip_rh_" ++ canonicalHeader key, ctx.expand value)

def HeaderMerge.plan (m : HeaderMerge) : HeaderPlan where
  egressVars := (sortedEntries (m.target .egress)).filterMap (fun x =>
    if x.2.action = .add then some (egressVar ctx x.1 x.2.value) else none)
  passthrough := (sortedEntries (m.target .egress)).filterMap (fun x =>
    if x.2.action = .passthrough then some (canonicalHeader x.1) else none)
  responseVars := (sortedEntries (m.target .response)).filterMap (fun x =>
    if x.2.action = .add then some (responseVar ctx x.1 x.2.value) else none)

def applyHeaderRules (customerRules carrierRules : List HeaderRule) : HeaderPlan :=
  (((HeaderMerge.mk (fun _ => ∅) 0).applyAll customerRules).applyAll carrierRules).plan ctx

end Plan

section Names

theorem map_intercalate {α β : Type} (f : α → β) (sep : List α) (parts : List (List α)) :
    (sep.intercalate parts).map f = (sep.map f).intercalate (parts.map (List.map f)) := by
  induction parts with
  | nil => rfl
  | cons part rest ih =>
    cases rest with
    | nil => simp
    | cons next rest =>
      rw [List.intercalate_cons_cons, List.map_cons, List.map_cons, List.intercalate_cons_cons,
        List.map_append, List.map_append, ih, List.map_cons]

theorem toLower_toUpper (c : Char) : c.toUpper.toLower = c.toLower := by
  rw [← toUpper_char_inj, ← Char.toNat_inj, toNat_toUpper, toNat_toUpper]
  split_ifs <;> omega

theorem map_toLower_capitalized (part : List Char) :
    (capitalized part).map Char.toLower = part.map Char.toLower := by
  cases part with
  | nil => rfl
  | cons c rest => rw [capitalized, List.map_cons, toLower_toUpper, List.map_cons]

theorem toLower_canonicalHeader (s : String) : (canonicalHeader s).toLower = s.toLower := by
  have hlower (s : String) : s.toLower.toList = s.toList.map Char.toLower := String.toList_map
  have hparts (parts : List (List Char)) : (parts.map capitalized).map (List.map Char.toLower) =
      parts.map (List.map Char.toLower) := by
    rw [List.map_map]
    exact List.map_congr_left (fun part _ => map_toLower_capitalized part)
  rw [← String.toList_inj, hlower, hlower, canonicalHeader, String.toList_ofList, map_intercalate,
    hparts, ← map_intercalate, List.intercalate_splitOn]

theorem mem_toLower {c : Char} (hc : c.toLower = c) (hupper : c.toUpper = c) {s : String} :
    c ∈ s.toLower.toList ↔ c ∈ s.toList := by
  have hlower : s.toLower.toList = s.toList.map Char.toLower := String.toList_map
  rw [hlower, List.mem_map]
  constructor
  · rintro ⟨d, hd, hsame⟩
    have hcase : d.toUpper = c.toUpper := (toUpper_char_inj d c).mpr (hsame.trans hc.symm)
    have hd' : d = c := by
      rw [← Char.toNat_inj] at hc hupper hsame hcase ⊢
      rw [toNat_toLower] at hc hsame
      rw [toNat_toUpper] at hupper
      rw [toNat_toUpper, toNat_toUpper] at hcase
      split_ifs at hc hupper hsame hcase <;> omega
    rwa [← hd']
  · exact fun h => ⟨c, h, hc⟩

end Names

section Merge

/-- The rule is in force for a header, given in lower case. -/
def HeaderRule.governs (r : HeaderRule) (dir : HeaderDirection) (key : String) : Bool :=
  r.enabled && r.direction = dir && r.header.toLower = key

/-- The last rule of a sequence that is in force for a header. -/
def lastRule (rules : List HeaderRule) (dir : HeaderDirection) (key : String) :
    Option HeaderRule :=
  rules.reverse.find? (·.governs dir key)

variable {rules : List HeaderRule} {dir : HeaderDirection} {key : String} {r : HeaderRule}

theorem lastRule_concat (rules : List HeaderRule) (r : HeaderRule) (dir : HeaderDirection)
    (key : String) :
    lastRule (rules ++ [r]) dir key =
      if r.governs dir key then some r else lastRule rules dir key := by
  unfold lastRule
  rw [List.reverse_append, List.reverse_singleton, List.singleton_append, List.find?_cons]
  split_ifs with h <;> simp [h]

theorem governs_lastRule (h : lastRule rules dir key = some r) : r.governs dir key = true := by
  unfold lastRule at h
  exact List.find?_some (p := fun r : HeaderRule => r.governs dir key) h

theorem toLower_of_governs (h : r.governs dir key = true) : r.header.toLower = key := by
  simp only [HeaderRule.governs, Bool.and_eq_true, decide_eq_true_eq] at h
  exact h.2

/-- The maps hold what the last rules say, and nothing where they remove. -/
def HeaderMerge.Follows (m : HeaderMerge) (rules : List HeaderRule) : Prop :=
  ∀ dir key, ((m.target dir).lookup key).map (fun e => (e.action, e.value)) =
    ((lastRule rules dir key).filter (·.action ≠ .remove)).map (fun r => (r.action, r.value))

theorem HeaderMerge.Follows.apply {m : HeaderMerge} (h : m.Follows rules) (r : HeaderRule) :
    (m.apply r).Follows (rules ++ [r]) := by
  intro dir key
  rw [lastRule_concat]
  unfold HeaderMerge.apply
  dsimp only
  by_cases hgoverns : r.governs dir key = true
  · obtain ⟨⟨henabled, rfl⟩, rfl⟩ :
        (r.enabled = true ∧ r.direction = dir) ∧ r.header.toLower = key := by
      simpa [HeaderRule.governs] using hgoverns
    rw [if_neg (by simp [henabled]), if_pos hgoverns]
    split_ifs with hremove
    · simp [hremove]
    · simp [hremove]
  · rw [if_neg hgoverns, ← h dir key]
    -- another header, another direction, or a rule that is switched off
    have hother : r.enabled = true → r.direction = dir → key ≠ r.header.toLower := by
      rintro henabled rfl rfl
      exact hgoverns (by simp [HeaderRule.governs, henabled])
    split_ifs with hdisabled hremove
    · rfl
    · by_cases hdir : dir = r.direction
      · subst hdir
        simp only [Function.update_self]
        rw [AList.lookup_erase_ne (hother (by simpa using hdisabled) rfl)]
      · simp only [Function.update_of_ne hdir]
    · by_cases hdir : dir = r.direction
      · subst hdir
        simp only [Function.update_self]
        rw [AList.lookup_insert_ne (hother (by simpa using hdisabled) rfl)]
      · simp only [Function.update_of_ne hdir]

theorem HeaderMerge.Follows.applyRules {m : HeaderMerge} (h : m.Follows rules)
    (more : List HeaderRule) : (more.foldl HeaderMerge.apply m).Follows (rules ++ more) := by
  induction more generalizing m rules with
  | nil =>
    rw [List.append_nil]
    exact h
  | cons r more ih =>
    rw [List.append_cons]
    exact ih (h.apply r)

/-- The rules in the order they are applied. -/
def ruleSequence (customerRules carrierRules : List HeaderRule) : List HeaderRule :=
  orderBy HeaderRule.priority customerRules ++ orderBy HeaderRule.priority carrierRules

theorem follows_ruleSequence (customerRules carrierRules : List HeaderRule) :
    (((HeaderMerge.mk (fun _ => ∅) 0).applyAll customerRules).applyAll carrierRules).Follows
      (ruleSequence customerRules carrierRules) := by
  have hstart : (HeaderMerge.mk (fun _ => ∅) 0).Follows [] := fun dir key => by
    rw [AList.lookup_empty]
    rfl
  exact (hstart.applyRules _).applyRules _

end Merge

section Entries

/-- In a list with different keys, those with one key are what it looks up to. -/
theorem filter_key {β : Type} {L : List (Sigma fun _ : String => β)} (hL : L.NodupKeys)
    (key : String) :
    L.filter (·.1 = key) = (L.dlookup key).toList.map (fun b => ⟨key, b⟩) := by
  induction L with
  | nil => rfl
  | cons x rest ih =>
    obtain ⟨k, b⟩ := x
    obtain ⟨hk, hrest⟩ := List.nodupKeys_cons.mp hL
    by_cases hkey : k = key
    · subst hkey
      rw [List.filter_cons_of_pos (by simp), List.dlookup_cons_eq, ih hrest,
        List.dlookup_eq_none.mpr hk]
      rfl
    · have hlater := List.dlookup_cons_ne rest (⟨k, b⟩ : Sigma fun _ : String => β)
        (fun h : key = k => hkey h.symm)
      rw [List.filter_cons_of_neg (by simpa using hkey), hlater, ih hrest]

theorem sortedEntries_nodupKeys (m : HeaderMap) : (sortedEntries m).NodupKeys :=
  (List.perm_nodupKeys (List.perm_insertionSort _ m.entries)).mpr m.nodupKeys

theorem dlookup_sortedEntries (m : HeaderMap) (key : String) :
    (sortedEntries m).dlookup key = m.lookup key :=
  List.perm_dlookup key (sortedEntries_nodupKeys m) (List.perm_insertionSort _ m.entries)

/-- Of what is made from the entries, one header is made from its own entry. -/
theorem filter_made {γ : Type} (m : HeaderMap) (make : String → HeaderEntry → Option γ)
    (p : γ → Bool) (key : String)
    (hp : ∀ k e c, m.lookup k = some e → make k e = some c → (p c = true ↔ k = key)) :
    ((sortedEntries m).filterMap (fun x => make x.1 x.2)).filter p =
      ((m.lookup key).bind (make key)).toList := by
  have hfilter : ((sortedEntries m).filterMap (fun x => make x.1 x.2)).filter p =
      ((sortedEntries m).filter (·.1 = key)).filterMap (fun x => make x.1 x.2) := by
    rw [List.filter_filterMap, List.filterMap_filter]
    refine List.filterMap_congr (fun x hx => ?_)
    have hlookup : m.lookup x.1 = some x.2 := by
      rw [← dlookup_sortedEntries]
      exact (List.mem_dlookup_iff (sortedEntries_nodupKeys m)).mpr hx
    cases hmake : make x.1 x.2 with
    | none => simp
    | some c =>
      have hc := hp x.1 x.2 c hlookup hmake
      by_cases hkey : x.1 = key
      · simp [hkey, hc.mpr hkey]
      · have hother : p c = false := by simpa [hkey] using hc
        simp [hkey, hother]
  rw [hfilter, filter_key (sortedEntries_nodupKeys m), dlookup_sortedEntries]
  cases m.lookup key with
  | none => rfl
  | some e =>
    cases hmake : make key e with
    | none | some c => simp [hmake]

end Entries

section LastWriter

variable {m : HeaderMerge} {rules : List HeaderRule} {dir : HeaderDirection} {key : String}
  {e : HeaderEntry}

variable {γ : Type} {action : HeaderAction}

theorem HeaderMerge.Follows.rule_of_entry (h : m.Follows rules)
    (hentry : (m.target dir).lookup key = some e) :
    ∃ r, lastRule rules dir key = some r ∧ r.action = e.action ∧ r.value = e.value := by
  have hsame := h dir key
  rw [hentry, Option.map_some] at hsame
  obtain ⟨r, hr, hpair⟩ := Option.map_eq_some_iff.mp hsame.symm
  exact ⟨r, (Option.filter_eq_some_iff.mp hr).1, (Prod.mk.inj hpair).1, (Prod.mk.inj hpair).2⟩

/-- What is made from the entry of a header is made from its last rule. -/
theorem HeaderMerge.Follows.bind_entry (h : m.Follows rules) (dir : HeaderDirection) (key : String)
    (haction : action ≠ .remove) (make : String → γ) :
    ((m.target dir).lookup key).bind
        (fun e => if e.action = action then some (make e.value) else none) =
      ((lastRule rules dir key).filter (·.action = action)).map (fun r => make r.value) := by
  have hsame := h dir key
  cases hentry : (m.target dir).lookup key with
  | some e =>
    obtain ⟨r, hr, hact, hvalue⟩ := h.rule_of_entry hentry
    rw [hr, Option.bind_some, ← hact, ← hvalue]
    by_cases hr' : r.action = action <;> simp [hr', Option.filter]
  | none =>
    rw [hentry, Option.map_none] at hsame
    cases hr : lastRule rules dir key with
    | none => rfl
    | some r =>
      rw [hr] at hsame
      have hremove : r.action = .remove := by
        by_contra hnot
        simp [Option.filter, hnot] at hsame
      simp [Option.filter, hremove, haction.symm]

/-- The header a variable of a dial string is for. -/
def headerOfVar (v : String) : String :=
  String.ofList ((v.toList.drop 6).takeWhile (· ≠ '='))

theorem headerOfVar_egressVar (ctx : HeaderContext) {name value : String}
    (hname : '=' ∉ (canonicalHeader name).toList) :
    headerOfVar (egressVar ctx name value) = canonicalHeader name := by
  have hplain : ∀ c ∈ (canonicalHeader name).toList, decide (c ≠ '=') = true := by
    intro c hc
    exact decide_eq_true (fun heq => hname (heq ▸ hc))
  have htext : (egressVar ctx name value).toList.drop 6 =
      (canonicalHeader name).toList ++
        '=' :: (escapeDialValue (ctx.expand value)).toList := by
    simp [egressVar, String.toList_append]
  rw [headerOfVar, htext, List.takeWhile_append_of_pos hplain,
    List.takeWhile_cons_of_neg (by simp), List.append_nil, String.ofList_toList]

theorem toLower_toLower (s : String) : s.toLower.toLower = s.toLower := by
  have hlower (s : String) : s.toLower.toList = s.toList.map Char.toLower := String.toList_map
  have hchar (c : Char) : c.toLower.toLower = c.toLower := by
    rw [← Char.toNat_inj, toNat_toLower, toNat_toLower]
    split_ifs <;> omega
  rw [← String.toList_inj, hlower, hlower, List.map_map]
  exact List.map_congr_left (fun c _ => hchar c)

/-- The name a header is given in a plan is that of the header up to its case. -/
theorem HeaderRule.toLower_canonical (r : HeaderRule) :
    (canonicalHeader r.header.toLower).toLower = r.header.toLower := by
  rw [toLower_canonicalHeader, toLower_toLower]

theorem HeaderRule.notMem_canonical (r : HeaderRule) {c : Char} (hlower : c.toLower = c)
    (hupper : c.toUpper = c) (hc : (c.isAlphanum || c = '-') = false) :
    c ∉ (canonicalHeader r.header.toLower).toList := by
  intro hmem
  have hmem' := (mem_toLower hlower hupper).mpr hmem
  rw [r.toLower_canonical, mem_toLower hlower hupper] at hmem'
  rw [List.all_eq_true.mp r.header_ok.2 c hmem'] at hc
  cases hc

theorem HeaderRule.canonical (r : HeaderRule) :
    '=' ∉ (canonicalHeader r.header.toLower).toList ∧
      (canonicalHeader r.header.toLower).toLower = r.header.toLower :=
  ⟨r.notMem_canonical (by decide) (by decide) (by decide), r.toLower_canonical⟩

/-- The plan says of every header what the last rule for it says, and says it
once. -/
structure LastWriterWins (ctx : HeaderContext) (rules : List HeaderRule) (plan : HeaderPlan) :
    Prop where
  added : ∀ h, HeaderOK h →
    plan.egressVars.filter (fun v => (headerOfVar v).toLower = h.toLower) =
      (((lastRule rules .egress h.toLower).filter (·.action = .add)).map
        (fun r => egressVar ctx h.toLower r.value)).toList
  passed : ∀ h, HeaderOK h →
    plan.passthrough.filter (fun name => name.toLower = h.toLower) =
      (((lastRule rules .egress h.toLower).filter (·.action = .passthrough)).map
        (fun _ => canonicalHeader h.toLower)).toList
  responded : ∀ h, HeaderOK h →
    plan.responseVars.filter (fun v => v.1.toLower = ("sip_rh_" ++ h).toLower) =
      (((lastRule rules .response h.toLower).filter (·.action = .add)).map
        (fun r => responseVar ctx h.toLower r.value)).toList
  once : ∀ h, HeaderOK h →
    (plan.egressVars.filter (fun v => (headerOfVar v).toLower = h.toLower)).length +
      (plan.passthrough.filter (fun name => name.toLower = h.toLower)).length ≤ 1
  nothing_else :
    (∀ v ∈ plan.egressVars, ∃ h, HeaderOK h ∧ (headerOfVar v).toLower = h.toLower) ∧
    (∀ name ∈ plan.passthrough, ∃ h, HeaderOK h ∧ name.toLower = h.toLower) ∧
    ∀ v ∈ plan.responseVars, ∃ h, HeaderOK h ∧ v.1.toLower = ("sip_rh_" ++ h).toLower

/-- The key of an entry is a header in lower case, which the name made from it
is too. -/
theorem HeaderMerge.Follows.key_of_entry (h : m.Follows rules)
    (hentry : (m.target dir).lookup key = some e) :
    ∃ r : HeaderRule, r.header.toLower = key ∧ '=' ∉ (canonicalHeader key).toList ∧
      (canonicalHeader key).toLower = key := by
  obtain ⟨r, hr, -⟩ := h.rule_of_entry hentry
  obtain rfl := toLower_of_governs (governs_lastRule hr)
  exact ⟨r, rfl, r.canonical⟩

theorem toLower_append (s t : String) : (s ++ t).toLower = s.toLower ++ t.toLower := by
  have hlower (s : String) : s.toLower.toList = s.toList.map Char.toLower := String.toList_map
  rw [← String.toList_inj, hlower, String.toList_append, String.toList_append, hlower, hlower,
    List.map_append]

/-- What an entry is turned into tells the header it is for. -/
theorem HeaderMerge.Follows.filter_plan (h : m.Follows rules) (dir : HeaderDirection)
    (haction : action ≠ .remove) (make : String → String → γ) (p : γ → Bool) (key : String)
    (hp : ∀ k value, '=' ∉ (canonicalHeader k).toList → (canonicalHeader k).toLower = k →
      (p (make k value) = true ↔ k = key)) :
    ((sortedEntries (m.target dir)).filterMap (fun x =>
        if x.2.action = action then some (make x.1 x.2.value) else none)).filter p =
      (((lastRule rules dir key).filter (·.action = action)).map
        (fun r => make key r.value)).toList := by
  rw [← h.bind_entry dir key haction (make key)]
  refine filter_made (m.target dir)
    (fun k e => if e.action = action then some (make k e.value) else none) p key ?_
  intro k e c hentry hmake
  obtain ⟨-, -, hequals, hlower⟩ := h.key_of_entry hentry
  split_ifs at hmake
  rw [← Option.some.inj hmake]
  exact hp k e.value hequals hlower

theorem HeaderMerge.Follows.mem_plan (h : m.Follows rules) {dir : HeaderDirection}
    (make : String → String → γ) {c : γ}
    (hc : c ∈ (sortedEntries (m.target dir)).filterMap (fun x =>
      if x.2.action = action then some (make x.1 x.2.value) else none)) :
    ∃ (r : HeaderRule) (value : String), c = make r.header.toLower value := by
  obtain ⟨x, hx, hmake⟩ := List.mem_filterMap.mp hc
  have hentry : (m.target dir).lookup x.1 = some x.2 := by
    rw [← dlookup_sortedEntries]
    exact (List.mem_dlookup_iff (sortedEntries_nodupKeys _)).mpr hx
  obtain ⟨r, hr, -⟩ := h.key_of_entry hentry
  split_ifs at hmake
  exact ⟨r, x.2.value, by rw [hr]; exact (Option.some.inj hmake).symm⟩

theorem HeaderMerge.Follows.lastWriterWins (h : m.Follows rules) (ctx : HeaderContext) :
    LastWriterWins ctx rules (m.plan ctx) := by
  have hadded (header : String) : (m.plan ctx).egressVars.filter
      (fun v => (headerOfVar v).toLower = header.toLower) =
      (((lastRule rules .egress header.toLower).filter (·.action = .add)).map
        (fun r => egressVar ctx header.toLower r.value)).toList := by
    refine h.filter_plan .egress (by decide) (egressVar ctx) _ header.toLower ?_
    intro k value hequals hlower
    rw [headerOfVar_egressVar ctx hequals, hlower, decide_eq_true_eq]
  have hpassed (header : String) : (m.plan ctx).passthrough.filter
      (fun name => name.toLower = header.toLower) =
      (((lastRule rules .egress header.toLower).filter (·.action = .passthrough)).map
        (fun _ => canonicalHeader header.toLower)).toList := by
    refine h.filter_plan .egress (by decide) (fun k _ => canonicalHeader k) _ header.toLower ?_
    intro k value hequals hlower
    rw [hlower, decide_eq_true_eq]
  refine ⟨fun header _ => hadded header, fun header _ => hpassed header, fun header _ => ?_,
    fun header _ => ?_, fun v hv => ?_, fun name hname => ?_, fun v hv => ?_⟩
  · refine h.filter_plan .response (by decide) (responseVar ctx) _ header.toLower ?_
    intro k value hequals hlower
    rw [responseVar, toLower_append, toLower_append, hlower, decide_eq_true_eq]
    exact String.append_right_inj _
  · rw [hadded, hpassed]
    cases lastRule rules .egress header.toLower with
    | none => exact Nat.zero_le 1
    | some r => cases haction : r.action <;> simp [Option.filter, haction]
  · obtain ⟨r, value, rfl⟩ := h.mem_plan (egressVar ctx) hv
    refine ⟨r.header, r.header_ok, ?_⟩
    rw [headerOfVar_egressVar ctx r.canonical.1, r.canonical.2]
  · obtain ⟨r, value, rfl⟩ := h.mem_plan (fun k _ => canonicalHeader k) hname
    exact ⟨r.header, r.header_ok, r.canonical.2⟩
  · obtain ⟨r, value, rfl⟩ := h.mem_plan (responseVar ctx) hv
    refine ⟨r.header, r.header_ok, ?_⟩
    rw [responseVar, toLower_append, toLower_append, r.canonical.2]

/-- Header rules merge by last writer, the carrier's after the customer's. -/
theorem header_rules_merge (customerRules carrierRules : List HeaderRule) (ctx : HeaderContext) :
    LastWriterWins ctx (ruleSequence customerRules carrierRules)
      (applyHeaderRules ctx customerRules carrierRules) :=
  (follows_ruleSequence customerRules carrierRules).lastWriterWins ctx

end LastWriter

end SuperSbc.CallControl
