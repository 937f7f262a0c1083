import SuperSbc.FsConfig.Gateways
import SuperSbc.Interleaving.Trace

/-!
How gateway files reach FreeSWITCH: `RenderGateways` writes and removes files,
remembers by their hash what it wrote, and keeps a list of gateways to kill
until FreeSWITCH has confirmed each. FreeSWITCH itself is a map from names to
definitions: `killgw` removes a name, `rescan` loads the file of every name not
yet loaded.

Maps are walked in any order; a rendering says in which. Files may fail to be
written or removed, commands may fail with or without having been run.
-/

namespace SuperSbc.FsConfig

open Interleaving

/-- Whether an error of `killgw` says that the gateway was not loaded. -/
def gatewayAlreadyGone (error : String) : Bool :=
  error.toLower.toList.tails.any ("no such gateway".toList.isPrefixOf ·)

/-- An error of the connection, which does not talk about gateways. -/
def ConnectionError : Type := { error : String // gatewayAlreadyGone error = false }

/-- How a command fares: FreeSWITCH runs it and its answer arrives, runs it and
the answer is lost, or never gets it. -/
inductive Delivery where
  | answered
  | unanswered (error : ConnectionError)
  | lost (error : ConnectionError)

abbrev Loaded := String → Option Gateway

def killgw (name : String) (loaded : Loaded) : Delivery → Except String Unit × Loaded
  | .answered =>
    if (loaded name).isSome then (.ok (), Function.update loaded name none)
    else (.error "esl: -ERR no such gateway", loaded)
  | .unanswered e => (.error e.val, Function.update loaded name none)
  | .lost e => (.error e.val, loaded)

/-- The gateway is gone, whether or not it was there. -/
def confirmed : Except String Unit → Bool
  | .ok _ => true
  | .error e => gatewayAlreadyGone e

def rescan (files : Wanted) (loaded : Loaded) : Delivery → Except String Unit × Loaded
  | .answered => (.ok (), fun n => loaded n <|> (files.lookup n).map (·.gateway))
  | .unanswered e => (.error e.val, fun n => loaded n <|> (files.lookup n).map (·.gateway))
  | .lost e => (.error e.val, loaded)

/-- The directory, what the renderer remembers and what FreeSWITCH has. -/
structure RenderState (Hash : Type) where
  files : Wanted
  gateways : AList (fun _ : String => Hash)
  pendingKills : List String
  loaded : Loaded

/-- One run of `RenderGateways`: what it wants, which files resist, and how
FreeSWITCH answers. `kills` is the order in which the pending ones are walked. -/
structure Rendering where
  want : Wanted
  unremovable : List String := []
  unwritable : List String := []
  connected : Bool := true
  kills : List (String × Delivery) := []
  rescanned : Delivery := .answered

/-- The part of the state that is changed before FreeSWITCH is asked. -/
structure FileDraft (Hash : Type) where
  files : Wanted
  gateways : AList (fun _ : String => Hash)
  killed : List String

section Render

variable {Hash : Type} [DecidableEq Hash] (hash : GatewayFile → Hash) (l : Rendering)

def removeStale (d : FileDraft Hash) (name : String) : FileDraft Hash :=
  if name ∈ l.want then d
  else
    { files := if name ∈ l.unremovable then d.files else d.files.erase name
      gateways := d.gateways.erase name
      killed := d.killed ++ [name] }

/-- A file is written and its hash remembered; where another hash was, the
gateway is to be killed. -/
def writeGateway (d : FileDraft Hash) (name : String) (file : GatewayFile) : FileDraft Hash where
  files := d.files.insert name file
  gateways := d.gateways.insert name (hash file)
  killed := if (d.gateways.lookup name).any (· ≠ hash file) then d.killed ++ [name] else d.killed

/-- The loop over the wanted files; false when a file cannot be written. -/
def writeGateways :
    List (Sigma fun _ : String => GatewayFile) → FileDraft Hash → FileDraft Hash × Bool
  | [], d => (d, true)
  | ⟨name, file⟩ :: rest, d =>
    if d.gateways.lookup name = some (hash file) ∧ name ∈ d.files then writeGateways rest d
    else if name ∈ l.unwritable then (d, false)
    else writeGateways rest (writeGateway hash d name file)

/-- The loop over the pending kills, which stops at the first failure. -/
def killGateways : List (String × Delivery) → List String → Loaded → (List String × Loaded) × Bool
  | [], pending, loaded => ((pending, loaded), true)
  | (name, delivery) :: rest, pending, loaded =>
    let answer := killgw name loaded delivery
    if confirmed answer.1 then killGateways rest (pending.filter (· ≠ name)) answer.2
    else ((pending, answer.2), false)

/-- `none` when the rendering does not walk the pending kills. -/
def applyGatewayChanges (s : RenderState Hash) : Option (RenderState Hash × Bool) :=
  let pending := s.pendingKills.filter (· ∉ l.want)
  if l.connected = false then some ({ s with pendingKills := pending }, false)
  else if (l.kills.map Prod.fst).Perm pending then
    match killGateways l.kills pending s.loaded with
    | ((pending, loaded), false) => some ({ s with pendingKills := pending, loaded }, false)
    | ((pending, loaded), true) =>
      match rescan s.files loaded l.rescanned with
      | (.ok _, loaded) => some ({ s with pendingKills := pending, loaded }, true)
      | (.error _, loaded) => some ({ s with pendingKills := pending, loaded }, false)
  else none

def draft (s : RenderState Hash) : FileDraft Hash × Bool :=
  writeGateways hash l l.want.entries (s.files.keys.foldl (removeStale l) ⟨s.files, s.gateways, []⟩)

/-- `RenderGateways`; the second part is what `applyGatewayChanges` returned. A
file that cannot be written ends it before the kills are noted. -/
def renderGateways (s : RenderState Hash) : Option (RenderState Hash × Option Bool) :=
  match draft hash l s with
  | (d, false) => some ({ s with files := d.files, gateways := d.gateways }, none)
  | (d, true) =>
    (applyGatewayChanges l
      { s with
        files := d.files
        gateways := d.gateways
        pendingKills := d.killed ∪ s.pendingKills }).map (fun r => (r.1, some r.2))

def renderStep (s : RenderState Hash) : Option (RenderState Hash) :=
  (renderGateways hash l s).map Prod.fst

end Render

/-- A renderer that has just started: every gateway that is loaded has a file. -/
structure RenderState.Fresh {Hash : Type} (s : RenderState Hash) : Prop where
  gateways : s.gateways = ∅
  pendingKills : s.pendingKills = []
  loaded : ∀ n, s.loaded n ≠ none → n ∈ s.files

/-- No file resists. -/
def Rendering.FilesOK (l : Rendering) : Prop := l.unremovable = [] ∧ l.unwritable = []

/-- FreeSWITCH has exactly the wanted gateways. -/
def Converged {Hash : Type} (want : Wanted) (s : RenderState Hash) : Prop :=
  (∀ n file, want.lookup n = some file → s.loaded n = some file.gateway) ∧
    ∀ n, n ∉ want → s.loaded n = none

/-- Nothing wanted is loaded with another definition, and no file that is yet to
be loaded has the hash of a wanted one with another definition. -/
structure Current {Hash : Type} (hash : GatewayFile → Hash) (want : Wanted)
    (s : RenderState Hash) : Prop where
  loaded : ∀ n file g, want.lookup n = some file → s.loaded n = some g → g = file.gateway
  hashes : ∀ n file old, want.lookup n = some file → s.loaded n = none →
    s.gateways.lookup n = some (hash file) → s.files.lookup n = some old →
    old.gateway = file.gateway

/-- Every gateway that is loaded has a file or is to be killed. -/
def Tracked {Hash : Type} (s : RenderState Hash) : Prop :=
  ∀ n, s.loaded n ≠ none → n ∈ s.files ∨ n ∈ s.pendingKills

section Files

variable {Hash : Type} {l : Rendering}

theorem mem_iff_lookup {V : Type} {m : AList (fun _ : String => V)} {n : String} :
    n ∈ m ↔ ∃ v, m.lookup n = some v := by
  rw [← AList.lookup_isSome, Option.isSome_iff_exists]

/-- What the loop over some names of the directory leaves. -/
structure Stale (l : Rendering) (names : List String) (d d' : FileDraft Hash) : Prop where
  kept : ∀ n, n ∈ l.want ∨ n ∉ names →
    d'.files.lookup n = d.files.lookup n ∧ d'.gateways.lookup n = d.gateways.lookup n
  removed : ∀ n ∈ names, n ∉ l.want → d'.files.lookup n = none ∧ n ∈ d'.killed
  killed : ∀ n ∈ d.killed, n ∈ d'.killed

theorem stale_foldl (hok : l.FilesOK) (names : List String) (d : FileDraft Hash) :
    Stale l names d (names.foldl (removeStale l) d) := by
  induction names generalizing d with
  | nil =>
    exact ⟨fun _ _ => ⟨rfl, rfl⟩, fun _ hn => absurd hn List.not_mem_nil, fun _ hn => hn⟩
  | cons name rest ih =>
    have hrest := ih (removeStale l d name)
    rw [List.foldl_cons]
    by_cases hwant : name ∈ l.want
    · rw [removeStale, if_pos hwant] at hrest ⊢
      refine ⟨fun n hn => hrest.kept n (hn.imp_right ?_), fun n hn hunwanted => ?_, hrest.killed⟩
      · exact List.not_mem_of_not_mem_cons
      · rcases List.mem_cons.mp hn with rfl | hn
        · exact absurd hwant hunwanted
        · exact hrest.removed n hn hunwanted
    · have hstep : removeStale l d name =
          ⟨d.files.erase name, d.gateways.erase name, d.killed ++ [name]⟩ := by
        rw [removeStale, if_neg hwant, hok.1, if_neg List.not_mem_nil]
      rw [hstep] at hrest ⊢
      refine ⟨fun n hn => ?_, fun n hn hunwanted => ?_, fun n hn => ?_⟩
      · have hne : n ≠ name := by
          rintro rfl
          exact hn.elim hwant (fun hn => hn List.mem_cons_self)
        obtain ⟨hfiles, hgateways⟩ := hrest.kept n (hn.imp_right List.not_mem_of_not_mem_cons)
        exact ⟨hfiles.trans (AList.lookup_erase_ne hne),
          hgateways.trans (AList.lookup_erase_ne hne)⟩
      · by_cases hmem : n ∈ rest
        · exact hrest.removed n hmem hunwanted
        · obtain rfl : n = name := (List.mem_cons.mp hn).resolve_right hmem
          refine ⟨(hrest.kept n (.inr hmem)).1.trans (AList.lookup_erase _ _), hrest.killed n ?_⟩
          exact List.mem_append_right _ (List.mem_singleton_self _)
      · exact hrest.killed n (List.mem_append_left _ hn)

variable [DecidableEq Hash]

theorem killed_writeGateway (hash : GatewayFile → Hash) {d : FileDraft Hash} {n : String}
    (hn : n ∈ d.killed) (name : String) (file : GatewayFile) :
    n ∈ (writeGateway hash d name file).killed := by
  unfold writeGateway
  dsimp only
  split_ifs
  · exact List.mem_append_left _ hn
  · exact hn

/-- What the loop over some wanted files leaves. -/
structure Written (hash : GatewayFile → Hash) (entries : List (Sigma fun _ : String => GatewayFile))
    (d d' : FileDraft Hash) : Prop where
  other : ∀ n, n ∉ entries.keys →
    d'.files.lookup n = d.files.lookup n ∧ d'.gateways.lookup n = d.gateways.lookup n
  wanted : ∀ n file, ⟨n, file⟩ ∈ entries → d'.files.lookup n =
    if d.gateways.lookup n = some (hash file) ∧ n ∈ d.files then d.files.lookup n else some file
  killed : ∀ n ∈ d.killed, n ∈ d'.killed

theorem written_writeGateways (hash : GatewayFile → Hash) (hok : l.FilesOK)
    {entries : List (Sigma fun _ : String => GatewayFile)} (hnodup : entries.NodupKeys)
    (d : FileDraft Hash) :
    (writeGateways hash l entries d).2 = true ∧
      Written hash entries d (writeGateways hash l entries d).1 := by
  induction entries generalizing d with
  | nil =>
    exact ⟨rfl, fun _ _ => ⟨rfl, rfl⟩, fun _ _ hmem => absurd hmem List.not_mem_nil,
      fun _ hn => hn⟩
  | cons entry rest ih =>
    obtain ⟨name, file⟩ := entry
    obtain ⟨hfresh, hrestnodup⟩ := List.nodupKeys_cons.mp hnodup
    simp only [writeGateways]
    split_ifs with hsame hunwritable
    · obtain ⟨hdone, hrest⟩ := ih hrestnodup d
      refine ⟨hdone, fun n hn => ?_, fun n file' hmem => ?_, hrest.killed⟩
      · exact hrest.other n (fun hmem => hn (List.mem_cons_of_mem _ hmem))
      · rcases List.mem_cons.mp hmem with hhead | hmem
        · cases hhead
          rw [if_pos hsame]
          exact (hrest.other name hfresh).1
        · exact hrest.wanted n file' hmem
    · rw [hok.2] at hunwritable
      exact absurd hunwritable List.not_mem_nil
    · obtain ⟨hdone, hrest⟩ := ih hrestnodup (writeGateway hash d name file)
      refine ⟨hdone, fun n hn => ?_, fun n file' hmem => ?_, fun n hn => ?_⟩
      · obtain ⟨hfiles, hgateways⟩ := hrest.other n (fun hmem => hn (List.mem_cons_of_mem _ hmem))
        have hne : n ≠ name := fun hn' => hn (hn' ▸ List.mem_cons_self)
        exact ⟨hfiles.trans (AList.lookup_insert_ne hne),
          hgateways.trans (AList.lookup_insert_ne hne)⟩
      · rcases List.mem_cons.mp hmem with hhead | hlater
        · cases hhead
          rw [if_neg hsame, (hrest.other name hfresh).1]
          exact AList.lookup_insert _
        · have hne : n ≠ name := by
            have hkey : n ∈ rest.keys := List.mem_keys_of_mem hlater
            rintro rfl
            exact hfresh hkey
          rw [hrest.wanted n file' hlater]
          simp only [writeGateway, AList.lookup_insert_ne hne, AList.mem_insert, hne, false_or]
      · exact hrest.killed n (killed_writeGateway hash hn name file)

/-- The directory when no file resists: unwanted files are gone and noted, and
a wanted one is new unless the remembered hash is its own. -/
structure Drafted (hash : GatewayFile → Hash) (l : Rendering) (s : RenderState Hash)
    (d : FileDraft Hash) : Prop where
  unwanted : ∀ n, n ∉ l.want → n ∉ d.files
  killed : ∀ n ∈ s.files, n ∉ l.want → n ∈ d.killed
  wanted : ∀ n file, l.want.lookup n = some file → d.files.lookup n =
    if s.gateways.lookup n = some (hash file) ∧ n ∈ s.files then s.files.lookup n else some file

theorem drafted_draft (hash : GatewayFile → Hash) (hok : l.FilesOK) (s : RenderState Hash) :
    (draft hash l s).2 = true ∧ Drafted hash l s (draft hash l s).1 := by
  unfold draft
  have hstale : Stale l s.files.keys ⟨s.files, s.gateways, []⟩ _ := stale_foldl hok _ _
  generalize s.files.keys.foldl (removeStale l) ⟨s.files, s.gateways, []⟩ = d at hstale ⊢
  obtain ⟨hdone, hwritten⟩ := written_writeGateways hash hok l.want.nodupKeys d
  refine ⟨hdone, fun n hn => ?_, fun n hn hunwanted => ?_, fun n file hfile => ?_⟩
  · rw [← AList.lookup_eq_none, (hwritten.other n hn).1]
    by_cases hmem : n ∈ s.files
    · exact (hstale.removed n hmem hn).1
    · rw [(hstale.kept n (.inr hmem)).1]
      exact AList.lookup_eq_none.mpr hmem
  · exact hwritten.killed n (hstale.removed n hn hunwanted).2
  · obtain ⟨hfiles, hgateways⟩ := hstale.kept n (.inl (mem_iff_lookup.mpr ⟨file, hfile⟩))
    have hmem : n ∈ d.files ↔ n ∈ s.files := by rw [mem_iff_lookup, mem_iff_lookup, hfiles]
    rw [hwritten.wanted n file (AList.mem_lookup_iff.mp hfile)]
    simp only [hgateways, hmem, hfiles]

end Files

section Kills

variable {name n : String} {loaded : Loaded}

theorem killgw_other (hne : n ≠ name) (delivery : Delivery) :
    (killgw name loaded delivery).2 n = loaded n := by
  cases delivery with
  | answered =>
    unfold killgw
    split_ifs
    · exact Function.update_of_ne hne _ _
    · rfl
  | unanswered e => exact Function.update_of_ne hne _ _
  | lost e => rfl

theorem killgw_confirmed {delivery : Delivery}
    (h : confirmed (killgw name loaded delivery).1 = true) :
    (killgw name loaded delivery).2 name = none := by
  cases delivery with
  | answered =>
    unfold killgw
    split_ifs with hloaded
    · exact Function.update_self _ _ _
    · exact Option.not_isSome_iff_eq_none.mp hloaded
  | unanswered e => exact Function.update_self _ _ _
  | lost e => exact absurd (h.symm.trans e.property) (by decide)

theorem killgw_loaded {delivery : Delivery} (h : (killgw name loaded delivery).2 n ≠ none) :
    loaded n ≠ none := by
  by_cases hne : n = name
  · subst hne
    cases delivery with
    | answered =>
      unfold killgw at h
      split_ifs at h
      · exact absurd (Function.update_self _ _ _) h
      · exact h
    | unanswered e => exact absurd (Function.update_self _ _ _) h
    | lost e => exact h
  · rwa [killgw_other hne] at h

/-- What the loop over some kills leaves. -/
structure Killed (kills : List (String × Delivery)) (pending : List String) (loaded : Loaded)
    (pending' : List String) (loaded' : Loaded) (done : Bool) : Prop where
  other : ∀ n, n ∉ kills.map Prod.fst → loaded' n = loaded n
  fewer : ∀ n, loaded' n ≠ none → loaded n ≠ none
  gone : done = true → ∀ n ∈ kills.map Prod.fst, loaded' n = none
  pending : ∀ n ∈ pending, loaded' n ≠ none → n ∈ pending'

theorem killed_killGateways (kills : List (String × Delivery)) (pending : List String)
    (loaded : Loaded) :
    Killed kills pending loaded (killGateways kills pending loaded).1.1
      (killGateways kills pending loaded).1.2 (killGateways kills pending loaded).2 := by
  induction kills generalizing pending loaded with
  | nil =>
    exact ⟨fun _ _ => rfl, fun _ h => h, fun _ _ h => absurd h List.not_mem_nil, fun _ h _ => h⟩
  | cons kill rest ih =>
    obtain ⟨name, delivery⟩ := kill
    simp only [killGateways]
    split_ifs with hconfirmed
    · have hgone := killgw_confirmed hconfirmed
      have hrest := ih (pending.filter (· ≠ name)) (killgw name loaded delivery).2
      -- Nothing loads a gateway again.
      have hstays {n : String} (hnone : (killgw name loaded delivery).2 n = none) :
          (killGateways rest (pending.filter (· ≠ name)) (killgw name loaded delivery).2).1.2 n =
            none := by
        by_contra hloaded
        exact hrest.fewer n hloaded hnone
      refine ⟨fun n hn => ?_, fun n hn => killgw_loaded (hrest.fewer n hn), fun hdone n hn => ?_,
        fun n hn hloaded => hrest.pending n (List.mem_filter.mpr ⟨hn, ?_⟩) hloaded⟩
      · obtain ⟨hne, hn⟩ := not_or.mp (List.mem_cons.not.mp hn)
        exact (hrest.other n hn).trans (killgw_other hne delivery)
      · rcases List.mem_cons.mp hn with rfl | hn
        · exact hstays hgone
        · exact hrest.gone hdone n hn
      · rw [decide_eq_true_eq]
        rintro rfl
        exact hloaded (hstays hgone)
    · refine ⟨fun n hn => ?_, fun n hn => killgw_loaded hn, (nomatch ·), fun n hn _ => hn⟩
      exact killgw_other (not_or.mp (List.mem_cons.not.mp hn)).1 delivery

end Kills

section Apply

variable {Hash : Type} {l : Rendering} {s s' : RenderState Hash} {applied : Bool}

theorem rescan_loaded {files : Wanted} {loaded : Loaded} {delivery : Delivery} {n : String}
    (h : (rescan files loaded delivery).2 n ≠ none) : loaded n ≠ none ∨ n ∈ files := by
  have hfound (h : (loaded n <|> (files.lookup n).map (·.gateway)) ≠ none) :
      loaded n ≠ none ∨ n ∈ files := by
    rw [← AList.lookup_isSome]
    cases hloaded : loaded n with
    | some g => exact .inl (Option.some_ne_none g)
    | none =>
      cases hfile : files.lookup n with
      | some file => exact .inr rfl
      | none => exact absurd (by rw [hloaded, hfile]; rfl) h
  cases delivery with
  | answered | unanswered e => exact hfound h
  | lost e => exact .inl h

/-- FreeSWITCH after the kills and the rescan, however far they got. -/
theorem tracked_apply (hfiles : ∀ n ∈ l.want, n ∈ s.files) (hs : Tracked s)
    (h : applyGatewayChanges l s = some (s', applied)) : Tracked s' := by
  -- Cancelling the kill of a wanted gateway is harmless: it has a file.
  have hs' : ∀ n, s.loaded n ≠ none →
      n ∈ s.files ∨ n ∈ s.pendingKills.filter (· ∉ l.want) := by
    intro n hn
    rcases hs n hn with hfile | hpending
    · exact .inl hfile
    · by_cases hwant : n ∈ l.want
      · exact .inl (hfiles n hwant)
      · exact .inr (List.mem_filter.mpr ⟨hpending, by simpa using hwant⟩)
  unfold applyGatewayChanges at h
  dsimp only at h
  split at h
  · cases h
    exact hs'
  · split at h
    · have hkilled := killed_killGateways l.kills (s.pendingKills.filter (· ∉ l.want)) s.loaded
      generalize killGateways l.kills (s.pendingKills.filter (· ∉ l.want)) s.loaded = outcome
        at hkilled h
      obtain ⟨⟨pending, loaded⟩, done⟩ := outcome
      have hleft : ∀ n, loaded n ≠ none → n ∈ s.files ∨ n ∈ pending := by
        intro n hn
        rcases hs' n (hkilled.fewer n hn) with hfile | hpending
        · exact .inl hfile
        · exact .inr (hkilled.pending n hpending hn)
      cases done with
      | false =>
        cases h
        exact hleft
      | true =>
        dsimp only at h
        have hscanned : ∀ n, (rescan s.files loaded l.rescanned).2 n ≠ none →
            n ∈ s.files ∨ n ∈ pending := by
          intro n hn
          rcases rescan_loaded hn with hloaded | hfile
          · exact hleft n hloaded
          · exact .inl hfile
        split at h <;> rename_i loaded' hrescan <;> rw [hrescan] at hscanned <;> cases h <;>
          exact hscanned
    · cases h

/-- When the changes are reported as applied, all kills have been, and what has
a file is loaded. -/
theorem loaded_of_applied (h : applyGatewayChanges l s = some (s', true)) (n : String) :
    s'.loaded n =
      ((if n ∈ s.pendingKills ∧ n ∉ l.want then none else s.loaded n) <|>
        (s.files.lookup n).map (·.gateway)) := by
  unfold applyGatewayChanges at h
  dsimp only at h
  split at h
  · cases h
  · split at h
    · rename_i hperm
      have hkilled := killed_killGateways l.kills (s.pendingKills.filter (· ∉ l.want)) s.loaded
      generalize killGateways l.kills (s.pendingKills.filter (· ∉ l.want)) s.loaded = outcome
        at hkilled h
      obtain ⟨⟨pending, loaded⟩, done⟩ := outcome
      cases done with
      | false => cases h
      | true =>
        have hloaded : loaded n =
            if n ∈ s.pendingKills ∧ n ∉ l.want then none else s.loaded n := by
          have hmem : n ∈ l.kills.map Prod.fst ↔ n ∈ s.pendingKills ∧ n ∉ l.want := by
            rw [hperm.mem_iff, List.mem_filter, decide_eq_true_eq]
          split_ifs with hpending
          · exact hkilled.gone rfl n (hmem.mpr hpending)
          · exact hkilled.other n (hmem.not.mpr hpending)
        rw [← hloaded]
        dsimp only at h
        cases hdelivery : l.rescanned with
        | answered =>
          rw [hdelivery] at h
          cases h
          rfl
        | unanswered e | lost e =>
          rw [hdelivery] at h
          cases h
    · cases h

end Apply

section Runs

variable {Hash : Type} [DecidableEq Hash] {hash : GatewayFile → Hash} {l : Rendering}
  {s s' : RenderState Hash}

theorem renderGateways_eq (hok : l.FilesOK) :
    ∃ d, Drafted hash l s d ∧ renderGateways hash l s = (applyGatewayChanges l
      { s with
        files := d.files
        gateways := d.gateways
        pendingKills := d.killed ∪ s.pendingKills }).map (fun r => (r.1, some r.2)) := by
  obtain ⟨hdone, hdrafted⟩ := drafted_draft hash hok s
  unfold renderGateways
  generalize draft hash l s = outcome at hdone hdrafted ⊢
  obtain ⟨d, done⟩ := outcome
  obtain rfl : done = true := hdone
  exact ⟨d, hdrafted, rfl⟩

theorem Drafted.mem_files {d : FileDraft Hash} (hd : Drafted hash l s d) {n : String}
    (hn : n ∈ l.want) : n ∈ d.files := by
  obtain ⟨file, hfile⟩ := mem_iff_lookup.mp hn
  rw [← AList.lookup_isSome, hd.wanted n file hfile]
  split_ifs with hkept
  · exact AList.lookup_isSome.mpr hkept.2
  · rfl

theorem Drafted.tracked {d : FileDraft Hash} (hd : Drafted hash l s d) (hs : Tracked s) :
    Tracked
      { s with files := d.files, gateways := d.gateways,
               pendingKills := d.killed ∪ s.pendingKills } := by
  intro n hn
  rcases hs n hn with hfile | hpending
  · by_cases hwant : n ∈ l.want
    · exact .inl (hd.mem_files hwant)
    · exact .inr (List.mem_union_iff.mpr (.inl (hd.killed n hfile hwant)))
  · exact .inr (List.mem_union_iff.mpr (.inr hpending))

theorem tracked_step (l : Rendering) (s s' : RenderState Hash) (hs : Tracked s) (hok : l.FilesOK)
    (h : renderStep hash l s = some s') : Tracked s' := by
  obtain ⟨d, hd, hrender⟩ := renderGateways_eq (s := s) hok
  rw [renderStep, hrender, Option.map_map, Option.map_eq_some_iff] at h
  obtain ⟨⟨s'', applied⟩, happly, rfl⟩ := h
  exact tracked_apply (fun n hn => hd.mem_files hn) (hd.tracked hs) happly

theorem converged_iff_current (hok : l.FilesOK) (hs : Tracked s)
    (h : renderGateways hash l s = some (s', some true)) :
    Converged l.want s' ↔ Current hash l.want s := by
  obtain ⟨d, hd, hrender⟩ := renderGateways_eq (s := s) hok
  rw [hrender, Option.map_eq_some_iff] at h
  obtain ⟨⟨after, applied⟩, happly, heq⟩ := h
  cases heq
  have hloaded := loaded_of_applied happly
  have hunwanted : ∀ n, n ∉ l.want → after.loaded n = none := by
    intro n hn
    rw [hloaded n, AList.lookup_eq_none.mpr (hd.unwanted n hn)]
    split_ifs with hpending
    · rfl
    · have hnone : s.loaded n = none := by
        by_contra hsome
        rcases hd.tracked hs n hsome with hfile | htracked
        · exact hd.unwanted n hn hfile
        · exact hpending ⟨htracked, hn⟩
      rw [hnone]
      rfl
  have hwanted : ∀ n file, l.want.lookup n = some file → after.loaded n =
      (s.loaded n <|> (if s.gateways.lookup n = some (hash file) ∧ n ∈ s.files then
        s.files.lookup n else some file).map (·.gateway)) := by
    intro n file hfile
    have hn : n ∈ l.want := mem_iff_lookup.mpr ⟨file, hfile⟩
    rw [hloaded n, if_neg (fun hpending => hpending.2 hn), hd.wanted n file hfile]
  constructor
  · rintro ⟨hconverged, -⟩
    constructor
    · intro n file g hfile hg
      have hafter := (hconverged n file hfile).symm.trans (hwanted n file hfile)
      rw [hg] at hafter
      exact (Option.some.inj hafter).symm
    · intro n file old hfile hnone hcached hold
      have hafter := (hconverged n file hfile).symm.trans (hwanted n file hfile)
      rw [hnone, if_pos ⟨hcached, mem_iff_lookup.mpr ⟨old, hold⟩⟩, hold] at hafter
      exact (Option.some.inj hafter).symm
  · intro hcurrent
    refine ⟨fun n file hfile => ?_, hunwanted⟩
    rw [hwanted n file hfile]
    cases hbefore : s.loaded n with
    | some g => rw [hcurrent.loaded n file g hfile hbefore]; rfl
    | none =>
      split_ifs with hkept
      · obtain ⟨old, hold⟩ := mem_iff_lookup.mp hkept.2
        rw [hold, ← hcurrent.hashes n file old hfile hbefore hkept.1 hold]
        rfl
      · rfl

/-- After any history of renderings whose files do not resist, a rendering that
is reported as applied leaves FreeSWITCH with exactly the wanted gateways if
and only if none of them was loaded with another definition before. -/
theorem rendered_gateways_loaded_iff (hash : GatewayFile → Hash) (start s s' : RenderState Hash)
    (history : List Rendering) (l : Rendering) (hstart : start.Fresh)
    (hrun : trace (renderStep hash) history start = some s)
    (hfiles : ∀ m ∈ history ++ [l], m.FilesOK)
    (happlied : renderGateways hash l s = some (s', some true)) :
    Converged l.want s' ↔ Current hash l.want s := by
  have htracked : Tracked s := by
    refine invariant_of_along tracked_step (fun n hn => .inl (hstart.loaded n hn)) ?_ hrun
    exact along_of_forall (fun m hm => hfiles m (List.mem_append_left _ hm)) start
  exact converged_iff_current (hfiles l (by simp)) htracked happlied

end Runs

section Sample

def sampleFile (host : String) : GatewayFile :=
  endpointGatewayXML 0 "" ⟨1, "a", .active, none, host, 5060, .udp, none, none, none, false, [], 0,
    false⟩ ⟨11, 1, 1, host, 5060, .udp, 1, 100, true⟩ true

def sampleWant (host : String) : Wanted := AList.insert "a" (sampleFile host) ∅

def sampleEmpty : RenderState GatewayFile := ⟨∅, ∅, [], fun _ => none⟩

def sampleRendering (host : String) : Rendering where
  want := sampleWant host

theorem rendered_gateways_loaded_iff_first :
    ∃ s', renderGateways id (sampleRendering "192.0.2.1") sampleEmpty = some (s', some true) ∧
      Converged (sampleWant "192.0.2.1") s' := by
  have happlied : (renderGateways id (sampleRendering "192.0.2.1") sampleEmpty).map Prod.snd =
      some (some true) := by
    decide +kernel
  obtain ⟨⟨s', applied⟩, hrender, happly⟩ := Option.map_eq_some_iff.mp happlied
  obtain rfl : applied = some true := happly
  have hfresh : sampleEmpty.Fresh := ⟨rfl, rfl, fun _ hn => absurd rfl hn⟩
  have hcurrent : Current id (sampleWant "192.0.2.1") sampleEmpty := by
    constructor
    · intro n file g _ hg
      cases hg
    · intro n file old _ _ hcached
      cases hcached
  refine ⟨s', hrender, (rendered_gateways_loaded_iff id sampleEmpty sampleEmpty s' []
    (sampleRendering "192.0.2.1") hfresh rfl ?_ hrender).mpr hcurrent⟩
  intro m hm
  obtain rfl := List.mem_singleton.mp hm
  exact ⟨rfl, rfl⟩

/-- The carrier's address changes, the second rendering is reported as applied,
and FreeSWITCH keeps the old definition. -/
theorem changed_gateway_not_reloaded :
    ∃ s s', trace (renderStep id) [sampleRendering "192.0.2.1"] sampleEmpty = some s ∧
      renderGateways id (sampleRendering "192.0.2.2") s = some (s', some true) ∧
      s'.loaded "a" = some (sampleFile "192.0.2.1").gateway ∧
      ¬ Converged (sampleWant "192.0.2.2") s' := by
  have hruns : ((trace (renderStep id) [sampleRendering "192.0.2.1"] sampleEmpty).bind (fun s =>
      (renderGateways id (sampleRendering "192.0.2.2") s).map (fun r => (r.2, r.1.loaded "a")))) =
        some (some true, some (sampleFile "192.0.2.1").gateway) := by
    decide +kernel
  obtain ⟨s, hs, hrender⟩ := Option.bind_eq_some_iff.mp hruns
  obtain ⟨⟨s', applied⟩, hs', hafter⟩ := Option.map_eq_some_iff.mp hrender
  obtain ⟨rfl, hloaded⟩ := Prod.mk.inj hafter
  refine ⟨s, s', hs, hs', hloaded, ?_⟩
  rintro ⟨hconverged, -⟩
  have hwanted := hconverged "a" (sampleFile "192.0.2.2") (AList.lookup_insert _)
  rw [hloaded] at hwanted
  revert hwanted
  decide +kernel

end Sample

end SuperSbc.FsConfig
