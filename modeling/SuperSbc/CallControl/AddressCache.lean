import SuperSbc.CallControl.Addresses
import SuperSbc.CallControl.Exits
import SuperSbc.Interleaving.History
import SuperSbc.Interleaving.Trace

/-!
The cache of source addresses between calls that are authorised and operators
who change addresses. An `Authorize` reads the cache, asks Postgres when that
does not settle it, and writes the answer to the cache. An operator's request
changes the tables, then flushes the cache: it scans for the keys and deletes
the ones it saw. Redis promises of a scan that it returns the keys that are
there from its begin to its end.

Each change of the tables has a number, its version. Versions are not part of
the program: a cached answer remembers the version it was read from, a call
the last change whose flush was over when it started (`settled`).
-/

namespace SuperSbc.CallControl.AddressCache

open Interleaving

variable {ι κ : Type}

structure Seen where
  ipEntry : Option IPEntry
  byID : Option Customer
  byIP : Except LookupError Customer

def Seen.replies (seen : Seen) (r : AuthReplies) : AuthReplies :=
  { r with
    ipEntry := seen.ipEntry
    customerByID := fun _ => seen.byID
    customerByIP := seen.byIP }

/-- Before Postgres is asked. -/
def Seen.cached (entry : Option IPEntry) : Seen := ⟨entry, none, .error .failed⟩

structure Cached where
  entry : IPEntry
  version : ℕ

inductive Call where
  | idle
  | begun (q : Origin) (floor : ℕ)
  | got (q : Origin) (floor : ℕ) (cached : Option Cached)
  | asking (q : Origin) (floor : ℕ) (seen : Seen)
  | filling (q : Origin) (floor : ℕ) (seen : Seen) (version : ℕ)
  | resolved (q : Origin) (floor : ℕ) (seen : Seen)

/-- Where a request that changes addresses is, or a listener that was told of
such a change. -/
inductive Flush where
  | idle
  | due (change : ℕ)
  | scanning (change : ℕ) (present seen : List String)
  | deleting (change : ℕ) (keys : List String)
  | done

structure State (ι κ : Type) where
  history : History CustomerTables
  cache : List (String × Cached)
  calls : ι → Call
  flushes : κ → Flush
  scanned : ℕ
  settled : ℕ

def initial (db : CustomerTables) : State ι κ :=
  { history := .start db
    cache := []
    calls := fun _ => .idle
    flushes := fun _ => .idle
    scanned := 0
    settled := 0 }

/-- Steps; a flag says whether the store served the request of the step, a
reply what became of the query. -/
inductive Label (ι κ : Type) where
  | start (i : ι) (srcIP : String) (srcPort : ℤ) (transport : String)
  | get (i : ι) (served : Bool)
  | check (i : ι) (served : Bool)
  | lookup (i : ι) (reply : QueryReply)
  | set (i : ι) (served : Bool)
  | change (j : κ) (db : CustomerTables)
  | deleteIP (j : κ) (customerId ipId : UUID)
  | notice (j : κ)
  | scan (j : κ)
  | visit (j : κ) (key : String)
  | finish (j : κ)
  | del (j : κ)
  | fail (j : κ)
  | expire (key : String)

/-- The entry an answer is cached as. -/
def entryOf : Except LookupError Customer → Option IPEntry
  | .ok c => some (.found (some c.id))
  | .error .notFound => some .notFound
  | .error .failed => none

/-- Keys gone from the cache need not be returned by a scan under way. -/
def Flush.without (keys : List String) : Flush → Flush
  | .scanning change present seen => .scanning change (present.filter (· ∉ keys)) seen
  | phase => phase

section Step

instance : Phased (State ι κ) ι Call :=
  ⟨State.calls, fun s calls => { s with calls := calls }, fun _ _ => rfl⟩

def State.turn [DecidableEq κ] (s : State ι κ) (j : κ) (phase : Flush) : State ι κ :=
  { s with flushes := Function.update s.flushes j phase }

def State.read (s : State ι κ) (key : String) : Option Cached :=
  (s.cache.find? (·.1 = key)).map Prod.snd

def State.write (s : State ι κ) (key : String) (c : Cached) : State ι κ :=
  { s with cache := (key, c) :: s.cache.filter (·.1 ≠ key) }

def State.erase (s : State ι κ) (keys : List String) : State ι κ :=
  { s with
    cache := s.cache.filter (·.1 ∉ keys)
    flushes := fun j => (s.flushes j).without keys }

def State.commit [DecidableEq κ] (s : State ι κ) (j : κ) (db : CustomerTables) : State ι κ :=
  { s with history := s.history.commit db }.turn j (.due (s.history.version + 1))

/-- The flush for a change is over. -/
def State.settle [DecidableEq κ] (s : State ι κ) (j : κ) (change : ℕ) : State ι κ :=
  { s with settled := max s.settled change }.turn j .done

def step [DecidableEq ι] [DecidableEq κ] (inet : String → Option Inet) (l : Label ι κ)
    (s : State ι κ) : Option (State ι κ) :=
  match l with
  | .start i srcIP srcPort transport =>
    match s.calls i with
    | .idle => some (enter s i (.begun ⟨srcIP, srcPort, transportOf transport⟩ s.settled))
    | _ => none
  | .get i served =>
    match s.calls i with
    | .begun q floor => some (enter s i (.got q floor (if served then s.read (ipKey q) else none)))
    | _ => none
  | .check i served =>
    match s.calls i with
    | .got q floor none => some (enter s i (.asking q floor (.cached none)))
    | .got q floor (some ⟨.notFound, _⟩) =>
      some (enter s i (.resolved q floor (.cached (some .notFound))))
    | .got q floor (some ⟨.found none, _⟩) =>
      some (enter s i (.asking q floor (.cached (some (.found none)))))
    | .got q floor (some ⟨.found (some id), _⟩) =>
      match if served then s.history.now.customerByID id else none with
      | some c =>
        some (enter s i (.resolved q floor
          { Seen.cached (some (.found (some id))) with byID := some c }))
      | none => some (enter s i (.asking q floor (.cached (some (.found (some id))))))
    | _ => none
  | .lookup i reply =>
    match s.calls i with
    | .asking q floor seen =>
      match s.history.now.askByIP inet q reply with
      | .error .failed =>
        some (enter s i (.resolved q floor { seen with byIP := .error .failed }))
      | answer =>
        some (enter s i (.filling q floor { seen with byIP := answer } s.history.version))
    | _ => none
  | .set i served =>
    match s.calls i with
    | .filling q floor seen version =>
      match if served then entryOf seen.byIP else none with
      | some entry =>
        some ((enter s i (.resolved q floor seen)).write (ipKey q) ⟨entry, version⟩)
      | none => some (enter s i (.resolved q floor seen))
    | _ => none
  | .change j db =>
    match s.flushes j with
    | .idle => some (s.commit j db)
    | _ => none
  | .deleteIP j customerId ipId =>
    match s.flushes j with
    | .idle =>
      match s.history.now.deleteCustomerIP customerId ipId with
      | some db => some (s.commit j db)
      | none => some (s.turn j .done)
    | _ => none
  | .notice j =>
    match s.flushes j with
    | .idle => some (s.turn j (.due s.history.version))
    | _ => none
  | .scan j =>
    match s.flushes j with
    | .due change =>
      some ({ s with scanned := max s.scanned change }.turn j
        (.scanning change (s.cache.map Prod.fst) []))
    | _ => none
  | .visit j key =>
    match s.flushes j with
    | .scanning change present seen =>
      if key ∈ s.cache.map Prod.fst then
        some (s.turn j (.scanning change present (seen ++ [key])))
      else none
    | _ => none
  | .finish j =>
    match s.flushes j with
    | .scanning change present seen =>
      if present ⊆ seen then some (s.turn j (.deleting change seen)) else none
    | _ => none
  | .del j =>
    match s.flushes j with
    | .deleting change keys => some ((s.erase keys).settle j change)
    | _ => none
  | .fail j =>
    match s.flushes j with
    | .scanning change _ _ | .deleting change _ => some (s.settle j change)
    | _ => none
  | .expire key => some (s.erase [key])

/-- An answer about to be cached is no older than the changes whose flush has
begun to scan. -/
def Call.FillsCurrent (scanned : ℕ) : Call → Prop
  | .filling _ _ _ version => scanned ≤ version
  | _ => True

instance Call.FillsCurrent.decidable (scanned : ℕ) :
    ∀ call : Call, Decidable (call.FillsCurrent scanned)
  | .filling _ _ _ version => inferInstanceAs (Decidable (scanned ≤ version))
  | .idle | .begun _ _ | .got _ _ _ | .asking _ _ _ | .resolved _ _ _ =>
    inferInstanceAs (Decidable True)

/-- Callers have keys of their own, no query breaks off, no answer older than
a change is cached once its flush scans, and no flush fails. -/
def Undisturbed : Label ι κ → State ι κ → Prop
  | .start _ srcIP srcPort transport, _ => Origin.Plain ⟨srcIP, srcPort, transportOf transport⟩
  | .lookup _ reply, _ => reply ≠ .broken
  | .set i _, s => (s.calls i).FillsCurrent s.scanned
  | .fail _, _ => False
  | _, _ => True

instance Undisturbed.decidable : ∀ (l : Label ι κ) (s : State ι κ), Decidable (Undisturbed l s)
  | .start _ srcIP srcPort transport, _ =>
    inferInstanceAs (Decidable (Origin.Plain ⟨srcIP, srcPort, transportOf transport⟩))
  | .lookup _ reply, _ => inferInstanceAs (Decidable (reply ≠ .broken))
  | .set i _, s => inferInstanceAs (Decidable ((s.calls i).FillsCurrent s.scanned))
  | .fail _, _ => inferInstanceAs (Decidable False)
  | .get _ _, _ | .check _ _, _ | .change _ _, _ | .deleteIP _ _ _, _
  | .notice _, _ | .scan _, _ | .visit _ _, _ | .finish _, _ | .del _, _ | .expire _, _ =>
    inferInstanceAs (Decidable True)

end Step

section Invariant

variable (inet : String → Option Inet)

variable {q : Origin} {c : Cached} {floor scanned version : ℕ} {call : Call}
  {cache : List (String × Cached)} {phase : Flush} {i : ι} {s' : State ι κ} {served : Bool}
  {reply : QueryReply}

/-- A cached answer is what the tables of its version say about an origin. -/
structure ReadAt (h : History CustomerTables) (q : Origin) (c : Cached) : Prop where
  past : c.version ≤ h.version
  answer : entryOf ((h.at_ c.version).customerByIP inet q) = some c.entry

/-- An origin resolved as some version from `floor` on has it: to nobody, or to
the customer of that id as the table has them since. -/
def Resolves (h : History CustomerTables) (floor : ℕ) (q : Origin)
    (answer : Except LookupError Customer) : Prop :=
  answer = .error .failed ∨ ∃ v, floor ≤ v ∧ v ≤ h.version ∧
    match (h.at_ v).customerByIP inet q with
    | .error e => answer = .error e
    | .ok known => ∃ found w, answer = .ok found ∧ found.id = known.id ∧ floor ≤ w ∧
        w ≤ h.version ∧ found ∈ (h.at_ w).customers

def Call.Sound (h : History CustomerTables) (settled : ℕ) : Call → Prop
  | .idle => True
  | .begun q floor => q.Plain ∧ floor ≤ settled
  | .got q floor cached => q.Plain ∧ floor ≤ settled ∧
      ∀ c ∈ cached, floor ≤ c.version ∧ ReadAt inet h q c
  | .asking q floor seen => q.Plain ∧ floor ≤ settled ∧
      ∀ byIP r, findCustomer (Seen.replies { seen with byIP := byIP } r) = byIP
  | .filling q floor seen version => q.Plain ∧ floor ≤ version ∧ version ≤ h.version ∧
      seen.byIP = (h.at_ version).customerByIP inet q ∧
      ∀ r, findCustomer (seen.replies r) = seen.byIP
  | .resolved q floor seen => ∀ r, Resolves inet h floor q (findCustomer (seen.replies r))

/-- What a flush will have deleted: every answer older than its change. -/
def Flush.Covers (h : History CustomerTables) (scanned : ℕ) (cache : List (String × Cached)) :
    Flush → Prop
  | .idle | .done => True
  | .due change => change ≤ h.version
  | .scanning change keys _ | .deleting change keys => change ≤ scanned ∧
      ∀ p ∈ cache, p.2.version < change → p.1 ∈ keys

/-- What a run keeps: no cached answer is older than a change whose flush is
over. -/
structure Coherent (s : State ι κ) : Prop where
  cache : ∀ p ∈ s.cache, s.settled ≤ p.2.version ∧
    ∃ q, q.Plain ∧ ipKey q = p.1 ∧ ReadAt inet s.history q p.2
  calls : ∀ i, (s.calls i).Sound inet s.history s.settled
  flushes : ∀ j, (s.flushes j).Covers s.history s.scanned s.cache
  settled : s.settled ≤ s.scanned
  scanned : s.scanned ≤ s.history.version

variable {inet} {h : History CustomerTables}

theorem initial_coherent (db : CustomerTables) : Coherent inet (initial db : State ι κ) where
  cache := fun _ hp => by cases hp
  calls := fun _ => trivial
  flushes := fun _ => trivial
  settled := le_rfl
  scanned := le_rfl

theorem ReadAt.commit (hr : ReadAt inet h q c) (db : CustomerTables) :
    ReadAt inet (h.commit db) q c where
  past := hr.past.trans (Nat.le_succ _)
  answer := by rw [h.commit_at db hr.past]; exact hr.answer

theorem Resolves.commit {answer : Except LookupError Customer} (hr : Resolves inet h floor q answer)
    (db : CustomerTables) : Resolves inet (h.commit db) floor q answer := by
  rcases hr with hfailed | ⟨v, hfloor, hv, hanswer⟩
  · exact .inl hfailed
  · refine .inr ⟨v, hfloor, hv.trans (Nat.le_succ _), ?_⟩
    rw [h.commit_at db hv]
    cases hknown : (h.at_ v).customerByIP inet q with
    | error e =>
      rw [hknown] at hanswer
      exact hanswer
    | ok known =>
      rw [hknown] at hanswer
      obtain ⟨found, w, heq, hid, hw, hpast, hmem⟩ := hanswer
      exact ⟨found, w, heq, hid, hw, hpast.trans (Nat.le_succ _), by rwa [h.commit_at db hpast]⟩

theorem Call.Sound.commit {settled : ℕ} (hs : call.Sound inet h settled) (db : CustomerTables) :
    call.Sound inet (h.commit db) settled := by
  cases call with
  | idle => trivial
  | begun q floor => exact hs
  | got q floor cached =>
    obtain ⟨hplain, hfloor, hcached⟩ := hs
    exact ⟨hplain, hfloor, fun c hc => ⟨(hcached c hc).1, (hcached c hc).2.commit db⟩⟩
  | asking q floor seen => exact hs
  | filling q floor seen version =>
    obtain ⟨hplain, hfloor, hpast, hread, hfind⟩ := hs
    exact ⟨hplain, hfloor, hpast.trans (Nat.le_succ _), by rwa [h.commit_at db hpast], hfind⟩
  | resolved q floor seen => exact fun r => (hs r).commit db

theorem Call.Sound.settle {settled later : ℕ} (hs : call.Sound inet h settled)
    (hle : settled ≤ later) : call.Sound inet h later := by
  cases call with
  | idle => trivial
  | begun q floor => exact ⟨hs.1, hs.2.trans hle⟩
  | got q floor cached | asking q floor seen => exact ⟨hs.1, hs.2.1.trans hle, hs.2.2⟩
  | filling q floor seen version | resolved q floor seen => exact hs

theorem Flush.Covers.commit (hs : phase.Covers h scanned cache) (db : CustomerTables) :
    phase.Covers (h.commit db) scanned cache := by
  cases phase with
  | due change => exact le_trans hs (Nat.le_succ _)
  | idle | done | scanning change present seen | deleting change keys => exact hs

/-- More scans begun: what a flush covers is what it was. -/
theorem Flush.Covers.later {later : ℕ} (hs : phase.Covers h scanned cache) (hle : scanned ≤ later) :
    phase.Covers h later cache := by
  cases phase with
  | scanning change present seen | deleting change keys => exact ⟨hs.1.trans hle, hs.2⟩
  | idle | done | due change => exact hs

/-- An answer newer than all scans is covered by every flush. -/
theorem Flush.Covers.write (hs : phase.Covers h scanned cache) {key : String}
    (hc : scanned ≤ c.version) : phase.Covers h scanned ((key, c) :: cache.filter (·.1 ≠ key)) := by
  cases phase with
  | scanning change keys seen | deleting change keys =>
    obtain ⟨hchange, hold⟩ := hs
    refine ⟨hchange, fun p hp hlt => ?_⟩
    rcases List.mem_cons.mp hp with rfl | hp
    · exact absurd hlt (by simp only; omega)
    · exact hold p (List.mem_of_mem_filter hp) hlt
  | idle | done | due change => exact hs

theorem Flush.Covers.erase (hs : phase.Covers h scanned cache) (keys : List String) :
    (phase.without keys).Covers h scanned (cache.filter (·.1 ∉ keys)) := by
  cases phase with
  | scanning change present seen =>
    refine ⟨hs.1, fun p hp hlt => ?_⟩
    obtain ⟨hmem, hkept⟩ := List.mem_filter.mp hp
    exact List.mem_filter.mpr ⟨hs.2 p hmem hlt, hkept⟩
  | deleting change present =>
    exact ⟨hs.1, fun p hp hlt => hs.2 p (List.mem_of_mem_filter hp) hlt⟩
  | idle | done | due change => exact hs

variable {s : State ι κ}

theorem Coherent.move [DecidableEq ι] (hs : Coherent inet s)
    (hcall : call.Sound inet s.history s.settled) : Coherent inet (enter s i call) where
  cache := hs.cache
  calls := forall_enter s (P := fun _ call => call.Sound inet s.history s.settled) hcall
    (fun j _ => hs.calls j)
  flushes := hs.flushes
  settled := hs.settled
  scanned := hs.scanned

theorem Coherent.turn [DecidableEq κ] (hs : Coherent inet s) {j : κ}
    (hphase : phase.Covers s.history s.scanned s.cache) : Coherent inet (s.turn j phase) where
  cache := hs.cache
  calls := hs.calls
  flushes := by
    intro k
    by_cases hk : k = j
    · subst hk
      simpa [State.turn] using hphase
    · simpa [State.turn, hk] using hs.flushes k
  settled := hs.settled
  scanned := hs.scanned

theorem Coherent.write (hs : Coherent inet s) (hplain : q.Plain) (hread : ReadAt inet s.history q c)
    (hnew : s.scanned ≤ c.version) :
    Coherent inet (s.write (ipKey q) c) where
  cache := by
    intro p hp
    rcases List.mem_cons.mp hp with rfl | hp
    · exact ⟨hs.settled.trans hnew, q, hplain, rfl, hread⟩
    · exact hs.cache p (List.mem_of_mem_filter hp)
  calls := hs.calls
  flushes := fun j => (hs.flushes j).write hnew
  settled := hs.settled
  scanned := hs.scanned

theorem Coherent.erase (hs : Coherent inet s) (keys : List String) :
    Coherent inet (s.erase keys) where
  cache := fun p hp => hs.cache p (List.mem_of_mem_filter hp)
  calls := hs.calls
  flushes := fun j => (hs.flushes j).erase keys
  settled := hs.settled
  scanned := hs.scanned

theorem Coherent.commit [DecidableEq κ] (hs : Coherent inet s) (j : κ) (db : CustomerTables) :
    Coherent inet (s.commit j db) := by
  have hcommitted : Coherent inet { s with history := s.history.commit db } :=
    { cache := by
        intro p hp
        obtain ⟨hnew, q, hplain, hkey, hread⟩ := hs.cache p hp
        exact ⟨hnew, q, hplain, hkey, hread.commit db⟩
      calls := fun i => (hs.calls i).commit db
      flushes := fun k => (hs.flushes k).commit db
      settled := hs.settled
      scanned := hs.scanned.trans (Nat.le_succ _) }
  exact hcommitted.turn le_rfl

/-- The flush for a change is over when nothing older than it is cached. -/
theorem Coherent.settle [DecidableEq κ] (hs : Coherent inet s) (j : κ) {change : ℕ}
    (hscanned : change ≤ s.scanned) (hnone : ∀ p ∈ s.cache, change ≤ p.2.version) :
    Coherent inet (s.settle j change) := by
  have hsettled : Coherent inet { s with settled := max s.settled change } :=
    { cache := fun p hp => ⟨max_le (hs.cache p hp).1 (hnone p hp), (hs.cache p hp).2⟩
      calls := fun i => (hs.calls i).settle (le_max_left _ _)
      flushes := hs.flushes
      settled := max_le hs.settled hscanned
      scanned := hs.scanned }
  exact hsettled.turn trivial

theorem Coherent.scan [DecidableEq κ] (hs : Coherent inet s) (j : κ) {change : ℕ}
    (hpast : change ≤ s.history.version) :
    Coherent inet ({ s with scanned := max s.scanned change }.turn j
      (.scanning change (s.cache.map Prod.fst) [])) := by
  have hscanned : Coherent inet { s with scanned := max s.scanned change } :=
    { cache := hs.cache
      calls := hs.calls
      flushes := fun k => (hs.flushes k).later (le_max_left _ _)
      settled := hs.settled.trans (le_max_left _ _)
      scanned := max_le hs.scanned hpast }
  exact hscanned.turn ⟨le_max_right _ _, fun p hp _ => List.mem_map_of_mem hp⟩

/-- What a caller reads from the cache is an answer about it, since its
start. -/
theorem Coherent.read (hs : Coherent inet s) (hplain : q.Plain) (h : s.read (ipKey q) = some c) :
    s.settled ≤ c.version ∧ ReadAt inet s.history q c := by
  obtain ⟨p, hfind, rfl⟩ := Option.map_eq_some_iff.mp h
  have hkey : p.1 = ipKey q := by simpa using List.find?_some hfind
  obtain ⟨hnew, q', hplain', hsame, hread⟩ := hs.cache p (List.mem_of_find?_eq_some hfind)
  obtain rfl := ipKey_injective hplain' hplain (hsame.trans hkey)
  exact ⟨hnew, hread⟩

theorem resolves_notFound {q : Origin} {floor version : ℕ} (hfloor : floor ≤ version)
    (hread : ReadAt inet h q ⟨.notFound, version⟩) :
    Resolves inet h floor q (.error .notFound) := by
  refine .inr ⟨version, hfloor, hread.past, ?_⟩
  have hanswer := hread.answer
  cases hknown : (h.at_ version).customerByIP inet q with
  | ok known => simp [hknown, entryOf] at hanswer
  | error e =>
    cases e with
    | notFound => rfl
    | failed => simp [hknown, entryOf] at hanswer

theorem resolves_found {id : UUID} {c : Customer} (hfloor : floor ≤ version)
    (hnow : floor ≤ h.version) (hread : ReadAt inet h q ⟨.found (some id), version⟩)
    (hc : h.now.customerByID id = some c) : Resolves inet h floor q (.ok c) := by
  refine .inr ⟨version, hfloor, hread.past, ?_⟩
  have hanswer := hread.answer
  obtain ⟨hmem, hid⟩ := CustomerTables.mem_of_customerByID hc
  cases hknown : (h.at_ version).customerByIP inet q with
  | ok known =>
    have hsame : known.id = id := by simpa [hknown, entryOf] using hanswer
    exact ⟨c, h.version, rfl, hid.trans hsame.symm, hnow, le_rfl, hmem⟩
  | error e => cases e <;> simp [hknown, entryOf] at hanswer

theorem resolves_read (hfloor : floor ≤ version) (hpast : version ≤ h.version) :
    Resolves inet h floor q ((h.at_ version).customerByIP inet q) := by
  refine .inr ⟨version, hfloor, hpast, ?_⟩
  cases hknown : (h.at_ version).customerByIP inet q with
  | error e => rfl
  | ok known =>
    exact ⟨known, version, rfl, rfl, hfloor, hpast, CustomerTables.mem_of_customerByIP hknown⟩

theorem Coherent.check [DecidableEq ι] [DecidableEq κ] (hs : Coherent inet s)
    (hstep : step inet (.check i served) s = some s') : Coherent inet s' := by
  have hcall := hs.calls i
  simp only [step] at hstep
  split at hstep
  · rename_i q floor hphase
    rw [hphase] at hcall
    cases hstep
    exact hs.move ⟨hcall.1, hcall.2.1, fun _ _ => rfl⟩
  · rename_i q floor version hphase
    rw [hphase] at hcall
    cases hstep
    obtain ⟨hfloor, hread⟩ := hcall.2.2 _ rfl
    exact hs.move (fun _ => resolves_notFound hfloor hread)
  · rename_i q floor version hphase
    rw [hphase] at hcall
    cases hstep
    exact hs.move ⟨hcall.1, hcall.2.1, fun _ _ => rfl⟩
  · rename_i q floor id version hphase
    rw [hphase] at hcall
    obtain ⟨hplain, hsettled, hcached⟩ := hcall
    obtain ⟨hfloor, hread⟩ := hcached _ rfl
    have hnow := hsettled.trans (hs.settled.trans hs.scanned)
    split at hstep
    · rename_i c hc
      cases hstep
      cases served with
      | false => cases hc
      | true => exact hs.move (fun _ => resolves_found hfloor hnow hread hc)
    · cases hstep
      exact hs.move ⟨hplain, hsettled, fun _ _ => rfl⟩
  · cases hstep

theorem Coherent.lookup [DecidableEq ι] [DecidableEq κ] (hs : Coherent inet s)
    (hok : reply ≠ .broken) (hstep : step inet (.lookup i reply) s = some s') :
    Coherent inet s' := by
  have hcall := hs.calls i
  simp only [step] at hstep
  split at hstep
  · rename_i q floor seen hphase
    rw [hphase] at hcall
    obtain ⟨hplain, hsettled, hfind⟩ := hcall
    split at hstep
    · cases hstep
      exact hs.move (fun r => .inl (hfind _ r))
    · rename_i hanswered
      cases hstep
      cases reply with
      | ran =>
        exact hs.move ⟨hplain, hsettled.trans (hs.settled.trans hs.scanned), le_rfl, rfl,
          hfind _⟩
      | refused => exact absurd rfl hanswered
      | broken => exact absurd rfl hok
  · cases hstep

theorem Coherent.set [DecidableEq ι] [DecidableEq κ] (hs : Coherent inet s)
    (hok : (s.calls i).FillsCurrent s.scanned) (hstep : step inet (.set i served) s = some s') :
    Coherent inet s' := by
  have hcall := hs.calls i
  simp only [step] at hstep
  split at hstep
  · rename_i q floor seen version hphase
    rw [hphase] at hcall hok
    obtain ⟨hplain, hfloor, hpast, hread, hfind⟩ := hcall
    have hresolved : (Call.resolved q floor seen).Sound inet s.history s.settled := by
      intro r
      rw [hfind r, hread]
      exact resolves_read hfloor hpast
    split at hstep
    · rename_i entry hentry
      cases hstep
      cases served with
      | false => cases hentry
      | true => exact (hs.move hresolved).write hplain ⟨hpast, hread ▸ hentry⟩ hok
    · cases hstep
      exact hs.move hresolved
  · cases hstep

/-- One step of anybody keeps it, where nothing disturbs a flush. -/
theorem Coherent.step [DecidableEq ι] [DecidableEq κ] (l : Label ι κ) (s s' : State ι κ)
    (hs : Coherent inet s) (hok : Undisturbed l s) (hstep : step inet l s = some s') :
    Coherent inet s' := by
  cases l with
  | start i srcIP srcPort transport =>
    simp only [AddressCache.step] at hstep
    split at hstep <;> cases hstep
    exact hs.move ⟨hok, le_rfl⟩
  | get i served =>
    have hcall := hs.calls i
    simp only [AddressCache.step] at hstep
    split at hstep <;> cases hstep
    rename_i q floor hphase
    rw [hphase] at hcall
    refine hs.move ⟨hcall.1, hcall.2, fun c hc => ?_⟩
    cases served with
    | false => cases hc
    | true =>
      obtain ⟨hnew, hread⟩ := hs.read hcall.1 hc
      exact ⟨hcall.2.trans hnew, hread⟩
  | check i served => exact hs.check hstep
  | lookup i reply => exact hs.lookup hok hstep
  | set i served => exact hs.set hok hstep
  | change j db =>
    simp only [AddressCache.step] at hstep
    split at hstep <;> cases hstep
    exact hs.commit j db
  | deleteIP j customerId ipId =>
    simp only [AddressCache.step] at hstep
    split at hstep
    · split at hstep <;> cases hstep
      · exact hs.commit j _
      · exact hs.turn trivial
    · cases hstep
  | notice j =>
    simp only [AddressCache.step] at hstep
    split at hstep <;> cases hstep
    exact hs.turn le_rfl
  | scan j =>
    have hflush := hs.flushes j
    simp only [AddressCache.step] at hstep
    split at hstep <;> cases hstep
    rename_i change hphase
    rw [hphase] at hflush
    exact hs.scan j hflush
  | visit j key =>
    have hflush := hs.flushes j
    simp only [AddressCache.step] at hstep
    split at hstep
    · rename_i change present seen hphase
      rw [hphase] at hflush
      split at hstep <;> cases hstep
      exact hs.turn hflush
    · cases hstep
  | finish j =>
    have hflush := hs.flushes j
    simp only [AddressCache.step] at hstep
    split at hstep
    · rename_i change present seen hphase
      rw [hphase] at hflush
      split at hstep <;> cases hstep
      rename_i hall
      exact hs.turn ⟨hflush.1, fun p hp hlt => hall (hflush.2 p hp hlt)⟩
    · cases hstep
  | del j =>
    have hflush := hs.flushes j
    simp only [AddressCache.step] at hstep
    split at hstep <;> cases hstep
    rename_i change keys hphase
    rw [hphase] at hflush
    refine (hs.erase keys).settle j hflush.1 (fun p hp => ?_)
    obtain ⟨hmem, hkept⟩ := List.mem_filter.mp hp
    by_contra hlt
    exact of_decide_eq_true hkept (hflush.2 p hmem (by omega))
  | fail j => cases hok
  | expire key =>
    cases hstep
    exact hs.erase [key]

end Invariant

/-- Revoking an address takes effect, in every run where callers have keys of
their own, no lookup breaks off, no answer read before a change is cached once
the flush for that change scans, and no flush fails: who starts after a flush
for a change is over resolves its origin as the tables since that change have
it. If nothing else changed, that is the answer of the table itself. -/
theorem authorize_resolves_since_flush [DecidableEq ι] [DecidableEq κ]
    (inet : String → Option Inet) (db : CustomerTables) (labels : List (Label ι κ))
    {final : State ι κ} (hrun : trace (step inet) labels (initial db) = some final)
    (hok : Along (step inet) Undisturbed labels (initial db)) {i : ι} {q : Origin} {floor : ℕ}
    {seen : Seen} (hcall : final.calls i = .resolved q floor seen) (r : AuthReplies) :
    Resolves inet final.history floor q (findCustomer (seen.replies r)) ∧
      (final.history.version = floor → findCustomer (seen.replies r) = .error .failed ∨
        findCustomer (seen.replies r) = (final.history.at_ floor).customerByIP inet q) := by
  have hcoherent := invariant_of_along Coherent.step (initial_coherent db) hok hrun
  have hsound := hcoherent.calls i
  rw [hcall] at hsound
  refine ⟨hsound r, fun hversion => ?_⟩
  rcases hsound r with hfailed | ⟨v, hfloor, hpast, hanswer⟩
  · exact .inl hfailed
  · obtain rfl : v = floor := by omega
    right
    cases hknown : (final.history.at_ v).customerByIP inet q with
    | error e =>
      rw [hknown] at hanswer
      exact hanswer
    | ok known =>
      rw [hknown] at hanswer
      obtain ⟨found, w, heq, hid, hw, hwpast, hmem⟩ := hanswer
      obtain rfl : w = v := by omega
      rw [heq, CustomerTables.eq_of_id hmem (CustomerTables.mem_of_customerByIP hknown) hid]

section Sample

def sampleAddress : Inet :=
  ⟨.v4, [false, false, false, false, true, false, true, false] ++ List.replicate 23 false ++ [true]⟩

def sampleInet (ip : String) : Option Inet := if ip = "10.0.0.1" then some sampleAddress else none

def sampleTables : CustomerTables where
  customers := [sampleCustomer]
  ips := [⟨31, 7, sampleAddress, none, .any⟩]
  customers_unique := sampleCustomer_unique

def sampleOrigin : Origin := ⟨"10.0.0.1", 5060, "udp"⟩

def sampleStart (i : Bool) : List (Label Bool Unit) :=
  [.start i "10.0.0.1" 5060 "", .get i true, .check i true]

/-- A call is cached, the address is revoked, another call comes. -/
def sampleRevoke : List (Label Bool Unit) :=
  sampleStart false ++ [.lookup false .ran, .set false true, .deleteIP () 7 31, .scan (),
    .visit () (ipKey sampleOrigin), .finish (), .del ()] ++
  sampleStart true ++ [.lookup true .ran, .set true true]

theorem authorize_resolves_since_flush_sampleRevoke :
    ∃ final seen, trace (step sampleInet) sampleRevoke (initial sampleTables) = some final ∧
      Along (step sampleInet) Undisturbed sampleRevoke (initial sampleTables) ∧
      final.calls true = .resolved sampleOrigin 1 seen ∧
      ∀ r, Resolves sampleInet final.history 1 sampleOrigin (findCustomer (seen.replies r)) := by
  have hok : Along (step sampleInet) Undisturbed sampleRevoke (initial sampleTables) := by
    decide +kernel
  refine ⟨_, ⟨none, none, .error .notFound⟩, rfl, hok, rfl, fun r => ?_⟩
  exact (authorize_resolves_since_flush sampleInet sampleTables sampleRevoke (i := true) rfl hok
    rfl r).1

/-- The first call has read the table when the address is revoked, and caches
its answer after the flush. The second one starts later and is let in. -/
def sampleStraddle : List (Label Bool Unit) :=
  sampleStart false ++ [.lookup false .ran, .deleteIP () 7 31, .scan (), .finish (), .del (),
    .set false true] ++ sampleStart true

theorem revoked_address_let_in :
    ∃ final seen, trace (step sampleInet) sampleStraddle (initial sampleTables) = some final ∧
      final.calls true = .resolved sampleOrigin 1 seen ∧ final.history.version = 1 ∧
      (final.history.at_ 1).customerByIP sampleInet sampleOrigin = .error .notFound ∧
      ∀ r, findCustomer (seen.replies r) = .ok sampleCustomer :=
  ⟨_, ⟨some (.found (some 7)), some sampleCustomer, .error .failed⟩, rfl, rfl, rfl, rfl,
    fun _ => rfl⟩

end Sample

end SuperSbc.CallControl.AddressCache
