import SuperSbc.Interleaving.History
import SuperSbc.Interleaving.Trace
import SuperSbc.Store.Routes
import SuperSbc.Tables.Decks

/-!
The cache of tables while calls look numbers up, rows change and the
announcements of changes are processed. One cache holds the tables of one
kind, rates or routes; `Source` says how a table is read.

A lookup takes the cached table under the read lock, reads the rows from the
database if there is none or it is too old, and stores the new table under the
write lock. Rows are read outside of any lock.

Each change of rows has a number, its version. Versions are not part of the
program: an entry remembers which versions its rows were read from, a lookup
which change was the last to be invalidated when it started.
-/

namespace SuperSbc.Tables

open Interleaving Prefix Store

variable {ι Db Row : Type}

structure Source (Db Row : Type) where
  load : UUID → Time → Reading Db (List Row)
  dialPrefix : Row → String

def rateSource : Source RatesTable DeckRow :=
  ⟨fun id now => .read (fun t => .done (t.effectiveRates id now)), (·.dialPrefix)⟩

def routeSource : Source RoutesTables Route :=
  ⟨fun id _ => routesForGroup id, (·.dialPrefix)⟩

structure Entry (Row : Type) where
  trie : Trie Row
  loadedAt : Time
  reads : List ℕ

/-- A number looked up in a group; `floor` is the last change of the group's
rows whose invalidation was processed when the lookup started. -/
structure Lookup where
  group : UUID
  number : String
  floor : ℕ
deriving DecidableEq

/-- Where a `MatchRate` or `MatchRoute` is. -/
inductive Call (Db Row : Type) where
  | idle
  | begun (q : Lookup)
  | looked (q : Lookup) (entry : Option (Entry Row))
  | missed (q : Lookup)
  | loading (q : Lookup) (rest : Reading Db (List Row)) (reads : List ℕ)
  | returned (q : Lookup) (answer : Option Row) (reads : List ℕ)

structure State (ι Db Row : Type) where
  history : History Db
  now : Time
  entries : UUID → Option (Entry Row)
  announced : List (ℕ × UUID)
  settled : UUID → ℕ
  calls : ι → Call Db Row

def initial (db : Db) : State ι Db Row :=
  { history := .start db
    now := 0
    entries := fun _ => none
    announced := []
    settled := fun _ => 0
    calls := fun _ => .idle }

inductive Label (ι Db : Type) where
  | start (i : ι) (group : UUID) (number : String)
  | look (i : ι)
  | check (i : ι)
  | load (i : ι)
  | query (i : ι)
  | store (i : ι)
  | commit (db : Db) (id : UUID)
  | invalidate (k : ℕ) (id : UUID)
  | tick (d : ℕ)

/-- An announcement names a group, or all of them with the nil id. -/
def covers (id group : UUID) : Bool := id = 0 || id = group

/-- `tr.Match` without the prefix. -/
def found (trie : Trie Row) (number : String) : Option Row := (trie.match number).map Prod.fst

section Step

instance : Phased (State ι Db Row) ι (Call Db Row) :=
  ⟨State.calls, fun s calls => { s with calls := calls }, fun _ _ => rfl⟩

/-- `t.rates[id] = …` and `t.routes[id] = …`. -/
def State.put (s : State ι Db Row) (g : UUID) (e : Entry Row) : State ι Db Row :=
  { s with entries := Function.update s.entries g (some e) }

/-- A change of rows commits and is announced. -/
def State.change (s : State ι Db Row) (db : Db) (id : UUID) : State ι Db Row :=
  { s with
    history := s.history.commit db
    announced := s.announced ++ [(s.history.version + 1, id)] }

/-- `InvalidateRates` and `InvalidateRoutes`, for the change `k`. -/
def State.drop (s : State ι Db Row) (k : ℕ) (id : UUID) : State ι Db Row :=
  { s with
    entries := fun g => if covers id g then none else s.entries g
    announced := s.announced.erase (k, id)
    settled := fun g => if covers id g then max (s.settled g) k else s.settled g }

def step [DecidableEq ι] (source : Source Db Row) (maxAge : Time) (l : Label ι Db)
    (s : State ι Db Row) :
    Option (State ι Db Row) :=
  match l with
  | .start i group number =>
    match s.calls i with
    | .idle => some (enter s i (.begun ⟨group, number, s.settled group⟩))
    | _ => none
  | .look i =>
    match s.calls i with
    | .begun q => some (enter s i (.looked q (s.entries q.group)))
    | _ => none
  | .check i =>
    match s.calls i with
    | .looked q none => some (enter s i (.missed q))
    | .looked q (some e) =>
      if s.now - e.loadedAt < maxAge then
        some (enter s i (.returned q (found e.trie q.number) e.reads))
      else some (enter s i (.missed q))
    | _ => none
  | .load i =>
    match s.calls i with
    | .missed q => some (enter s i (.loading q (source.load q.group s.now) []))
    | _ => none
  | .query i =>
    match s.calls i with
    | .loading q (.read next) reads =>
      some (enter s i (.loading q (next s.history.now) (reads ++ [s.history.version])))
    | _ => none
  | .store i =>
    match s.calls i with
    | .loading q (.done rows) reads =>
      let trie := fill source.dialPrefix rows
      some ((enter s i (.returned q (found trie q.number) reads)).put q.group
        ⟨trie, s.now, reads⟩)
    | _ => none
  | .commit db id => some (s.change db id)
  | .invalidate k id => if (k, id) ∈ s.announced then some (s.drop k id) else none
  | .tick d => some { s with now := s.now + d }

/-- None of a load's rows was read before a change of the group whose
invalidation has been processed. -/
def Call.LoadsCurrent (settled : UUID → ℕ) : Call Db Row → Prop
  | .loading q _ reads => Since (settled q.group) reads
  | _ => True

instance Call.LoadsCurrent.decidable (settled : UUID → ℕ) :
    ∀ call : Call Db Row, Decidable (call.LoadsCurrent settled)
  | .loading q _ reads => inferInstanceAs (Decidable (Since (settled q.group) reads))
  | .idle | .begun _ | .looked _ _ | .missed _ | .returned _ _ _ =>
    inferInstanceAs (Decidable True)

/-- Only tables of such loads are stored. -/
def StoresCurrent : Label ι Db → State ι Db Row → Prop
  | .store i, s => (s.calls i).LoadsCurrent s.settled
  | _, _ => True

instance StoresCurrent.decidable :
    ∀ (l : Label ι Db) (s : State ι Db Row), Decidable (StoresCurrent l s)
  | .store i, s => inferInstanceAs (Decidable ((s.calls i).LoadsCurrent s.settled))
  | .start _ _ _, _ | .look _, _ | .check _, _ | .load _, _ | .query _, _ | .commit _ _, _
  | .invalidate _ _, _ | .tick _, _ => inferInstanceAs (Decidable True)

end Step

section Invariant

variable (source : Source Db Row)

variable {call : Call Db Row}

/-- A table filled from rows that were read from these versions. -/
def FilledFrom (h : History Db) (group : UUID) (trie : Trie Row) (reads : List ℕ) : Prop :=
  ∃ at_ rows, Reached h (source.load group at_) reads (.done rows) ∧
    trie = fill source.dialPrefix rows

def Call.Sound (h : History Db) (settled : UUID → ℕ) : Call Db Row → Prop
  | .idle => True
  | .begun q | .missed q => q.floor ≤ settled q.group
  | .looked q entry => q.floor ≤ settled q.group ∧
      ∀ e ∈ entry, Since q.floor e.reads ∧ FilledFrom source h q.group e.trie e.reads
  | .loading q rest reads => q.floor ≤ settled q.group ∧ Since q.floor reads ∧
      ∃ at_, Reached h (source.load q.group at_) reads rest
  | .returned q answer reads => Since q.floor reads ∧
      ∃ trie, FilledFrom source h q.group trie reads ∧ answer = found trie q.number

/-- What a run keeps: no cached table is older than the last change of its
group that was invalidated. -/
structure Current (s : State ι Db Row) : Prop where
  entries : ∀ g, ∀ e ∈ s.entries g,
    Since (s.settled g) e.reads ∧ FilledFrom source s.history g e.trie e.reads
  calls : ∀ i, (s.calls i).Sound source s.history s.settled
  settled : ∀ g, s.settled g ≤ s.history.version
  announced : ∀ a ∈ s.announced, a.1 ≤ s.history.version

variable {source} {h : History Db}

theorem FilledFrom.commit {group : UUID} {trie : Trie Row} {reads : List ℕ}
    (hf : FilledFrom source h group trie reads) (db : Db) :
    FilledFrom source (h.commit db) group trie reads := by
  obtain ⟨at_, rows, hreached, htrie⟩ := hf
  exact ⟨at_, rows, hreached.commit db, htrie⟩

theorem Call.Sound.commit {settled : UUID → ℕ} (hs : call.Sound source h settled) (db : Db) :
    call.Sound source (h.commit db) settled := by
  cases call with
  | idle => trivial
  | begun q | missed q => exact hs
  | looked q entry => exact ⟨hs.1, fun e he => ⟨(hs.2 e he).1, (hs.2 e he).2.commit db⟩⟩
  | loading q rest reads =>
    obtain ⟨hfloor, hsince, at_, hreached⟩ := hs
    exact ⟨hfloor, hsince, at_, hreached.commit db⟩
  | returned q answer reads =>
    obtain ⟨hsince, trie, hfilled, hanswer⟩ := hs
    exact ⟨hsince, trie, hfilled.commit db, hanswer⟩

theorem Call.Sound.settle {before after : UUID → ℕ} (hs : call.Sound source h before)
    (hle : ∀ g, before g ≤ after g) : call.Sound source h after := by
  cases call with
  | idle => trivial
  | begun q | missed q => exact le_trans hs (hle q.group)
  | looked q entry | loading q rest reads => exact ⟨hs.1.trans (hle q.group), hs.2⟩
  | returned q answer reads => exact hs

theorem initial_current (db : Db) : Current source (initial db : State ι Db Row) where
  entries := fun _ _ he => by cases he
  calls := fun _ => trivial
  settled := fun _ => le_rfl
  announced := fun _ ha => by cases ha

variable {s : State ι Db Row}

theorem Current.move [DecidableEq ι] (hs : Current source s) {i : ι}
    (hcall : call.Sound source s.history s.settled) : Current source (enter s i call) where
  entries := hs.entries
  calls := forall_enter s (P := fun _ call => call.Sound source s.history s.settled) hcall
    (fun j _ => hs.calls j)
  settled := hs.settled
  announced := hs.announced

theorem Current.put (hs : Current source s) {g : UUID} {e : Entry Row}
    (hsince : Since (s.settled g) e.reads)
    (hfilled : FilledFrom source s.history g e.trie e.reads) :
    Current source (s.put g e) where
  entries := by
    intro g' e' he'
    by_cases hg : g' = g
    · subst hg
      simp only [State.put, Function.update_self, Option.mem_some_iff] at he'
      subst he'
      exact ⟨hsince, hfilled⟩
    · simp only [State.put, Function.update_of_ne hg] at he'
      exact hs.entries g' e' he'
  calls := hs.calls
  settled := hs.settled
  announced := hs.announced

theorem Current.drop (hs : Current source s) {k : ℕ} {id : UUID}
    (hmem : (k, id) ∈ s.announced) : Current source (s.drop k id) where
  entries := by
    intro g e he
    by_cases hcovers : covers id g = true
    · simp [State.drop, hcovers] at he
    · simp only [State.drop, hcovers] at he ⊢
      exact hs.entries g e he
  calls := by
    intro i
    refine (hs.calls i).settle (fun g => ?_)
    simp only [State.drop]
    split
    · exact le_max_left _ _
    · exact le_rfl
  settled := by
    intro g
    simp only [State.drop]
    split
    · exact max_le (hs.settled g) (hs.announced _ hmem)
    · exact hs.settled g
  announced := fun a ha => hs.announced a (List.mem_of_mem_erase ha)

theorem Current.change (hs : Current source s) (db : Db) (id : UUID) :
    Current source (s.change db id) where
  entries := fun g e he => ⟨(hs.entries g e he).1, (hs.entries g e he).2.commit db⟩
  calls := fun i => (hs.calls i).commit db
  settled := fun g => (hs.settled g).trans (Nat.le_succ _)
  announced := by
    intro a ha
    rcases List.mem_append.mp ha with hold | hnew
    · exact (hs.announced a hold).trans (Nat.le_succ _)
    · rw [List.mem_singleton.mp hnew]
      exact le_rfl

/-- One step of anybody keeps it, storing only tables that are current. -/
theorem Current.step [DecidableEq ι] (maxAge : Time) (l : Label ι Db) (s s' : State ι Db Row)
    (hs : Current source s) (hok : StoresCurrent l s) (hstep : step source maxAge l s = some s') :
    Current source s' := by
  cases l with
  | start i group number =>
    simp only [Tables.step] at hstep
    split at hstep <;> cases hstep
    exact hs.move le_rfl
  | look i =>
    simp only [Tables.step] at hstep
    split at hstep <;> cases hstep
    rename_i q hcall
    have hfloor : q.floor ≤ s.settled q.group := by simpa [hcall, Call.Sound] using hs.calls i
    refine hs.move ⟨hfloor, fun e he => ?_⟩
    obtain ⟨hsince, hfilled⟩ := hs.entries q.group e he
    exact ⟨hsince.mono hfloor, hfilled⟩
  | check i =>
    have hcall := hs.calls i
    simp only [Tables.step] at hstep
    split at hstep
    · rename_i q hphase
      rw [hphase] at hcall
      cases hstep
      exact hs.move hcall.1
    · rename_i q e hphase
      rw [hphase] at hcall
      obtain ⟨hsince, hfilled⟩ := hcall.2 e rfl
      split at hstep <;> cases hstep
      · exact hs.move ⟨hsince, e.trie, hfilled, rfl⟩
      · exact hs.move hcall.1
    · cases hstep
  | load i =>
    have hcall := hs.calls i
    simp only [Tables.step] at hstep
    split at hstep <;> cases hstep
    rename_i q hphase
    rw [hphase] at hcall
    exact hs.move ⟨hcall, since_nil q.floor, s.now, reached_nil⟩
  | query i =>
    have hcall := hs.calls i
    simp only [Tables.step] at hstep
    split at hstep <;> cases hstep
    rename_i q next reads hphase
    rw [hphase] at hcall
    obtain ⟨hfloor, hsince, at_, hreached⟩ := hcall
    exact hs.move ⟨hfloor, hsince.snoc (hfloor.trans (hs.settled q.group)), at_, hreached.read⟩
  | store i =>
    have hcall := hs.calls i
    simp only [Tables.step] at hstep
    split at hstep <;> cases hstep
    rename_i q rows reads hphase
    simp only [StoresCurrent, Call.LoadsCurrent, hphase] at hok
    rw [hphase] at hcall
    obtain ⟨-, hsince, at_, hreached⟩ := hcall
    have hfilled : FilledFrom source s.history q.group (fill source.dialPrefix rows) reads :=
      ⟨at_, rows, hreached, rfl⟩
    have hreturned : (Call.returned q (found (fill source.dialPrefix rows) q.number)
        reads).Sound source s.history s.settled := ⟨hsince, _, hfilled, rfl⟩
    exact (hs.move hreturned).put hok hfilled
  | commit db id =>
    cases hstep
    exact hs.change db id
  | invalidate k id =>
    simp only [Tables.step] at hstep
    split at hstep <;> cases hstep
    exact hs.drop ‹_›
  | tick d =>
    cases hstep
    exact ⟨hs.entries, hs.calls, hs.settled, hs.announced⟩

end Invariant

/-- Lookups after an invalidation see the change, in every run that stores no
table whose rows were read before a change that is already invalidated: the
answer is the match in a table filled from rows that were all read after. -/
theorem lookup_reads_since_invalidation [DecidableEq ι] (source : Source Db Row) (maxAge : Time)
    (db : Db) (labels : List (Label ι Db)) {final : State ι Db Row}
    (hrun : trace (step source maxAge) labels (initial db) = some final)
    (hok : Along (step source maxAge) StoresCurrent labels (initial db)) {i : ι} {q : Lookup}
    {answer : Option Row} {reads : List ℕ} (hreturned : final.calls i = .returned q answer reads) :
    (∀ v ∈ reads, q.floor ≤ v) ∧
      ∃ at_ rows, (source.load q.group at_).feed (reads.map final.history.at_) =
          some (.done rows) ∧
        answer = ((fill source.dialPrefix rows).match q.number).map Prod.fst := by
  have hcurrent := invariant_of_along (Current.step maxAge) (initial_current db) hok hrun
  have hcall := hcurrent.calls i
  rw [hreturned] at hcall
  obtain ⟨hsince, trie, ⟨at_, rows, hreached, rfl⟩, hanswer⟩ := hcall
  exact ⟨hsince, at_, rows, hreached.fed, hanswer⟩

section Sample

/-- A deck row before its price is raised. -/
def sampleCheap : DeckRow where
  toRateRow := sampleRate
  effectiveFrom := 0
  effectiveTo := none
  enabled := true
  dialPrefix_nonempty := by decide
  dialPrefix_digits := List.all_eq_true.mp (by decide)

def sampleDear : DeckRow :=
  { sampleCheap with
    ratePerMin := 9 / 100
    ratePerMin_nonneg := by norm_num
    ratePerMin_scale := by decide +kernel }

def sampleDeck (row : DeckRow) : RatesTable := ⟨[row], List.nodup_singleton _⟩

/-- Five minutes. -/
def sampleMaxAge : Time := 300000000000

def sampleLoads (i : Bool) : List (Label Bool RatesTable) :=
  [.look i, .check i, .load i, .query i, .store i]

/-- The price is raised and announced between two lookups. -/
def sampleRaise : List (Label Bool RatesTable) :=
  [.start false 3 "4930"] ++ sampleLoads false ++
    [.commit (sampleDeck sampleDear) 3, .invalidate 1 3, .start true 3 "4930"] ++ sampleLoads true

theorem lookup_reads_since_invalidation_sampleRaise :
    ∃ final, trace (step rateSource sampleMaxAge) sampleRaise (initial (sampleDeck sampleCheap)) =
        some final ∧
      final.calls true = .returned ⟨3, "4930", 1⟩ (some sampleDear) [1] ∧
      (∀ v ∈ [1], 1 ≤ v) ∧
      ∃ at_ rows, (rateSource.load 3 at_).feed ([1].map final.history.at_) = some (.done rows) ∧
        some sampleDear = ((fill rateSource.dialPrefix rows).match "4930").map Prod.fst := by
  refine ⟨_, rfl, rfl, ?_⟩
  refine lookup_reads_since_invalidation rateSource sampleMaxAge (sampleDeck sampleCheap)
    sampleRaise (i := true) rfl ?_ rfl
  decide +kernel

/-- The first lookup has read the rows when the price is raised, and stores its
table after the invalidation. The second one starts later and gets the old
price from it. -/
def sampleStraddle : List (Label Bool RatesTable) :=
  [.start false 3 "4930", .look false, .check false, .load false, .query false,
    .commit (sampleDeck sampleDear) 3, .invalidate 1 3, .store false,
    .start true 3 "4930", .look true, .check true]

theorem stale_table_served :
    ∃ final, trace (step rateSource sampleMaxAge) sampleStraddle
        (initial (sampleDeck sampleCheap)) = some final ∧
      final.calls true = .returned ⟨3, "4930", 1⟩ (some sampleCheap) [0] ∧
      ¬ ∀ v ∈ [0], 1 ≤ v := by
  exact ⟨_, rfl, rfl, by decide⟩

end Sample

end SuperSbc.Tables
