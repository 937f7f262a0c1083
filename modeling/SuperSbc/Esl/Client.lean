import SuperSbc.Interleaving.Trace
import SuperSbc.Text.Reading

/-!
One Event Socket connection. Callers write commands under a mutex and then
wait for a packet from the reply channel, for the end of their context or for
the end of the connection. One loop reads packets off the connection and puts
those that are neither events nor a disconnect notice into the channel.

FreeSWITCH answers commands in the order they were written, one packet each,
with any events between. Commands are numbered as they are written; the number
of the command a packet answers is not part of the packet and only tells the
packets apart here.

Framing is left out: packets are read whole.
-/

namespace SuperSbc.Esl

open Interleaving

structure Packet where
  headers : List (String × String)
  body : String
deriving DecidableEq

def Packet.header (p : Packet) (name : String) : String :=
  ((p.headers.find? (·.1 = name)).map Prod.snd).getD ""

inductive Kind where
  | event
  | notice
  | reply
deriving DecidableEq

def Packet.kind (p : Packet) : Kind :=
  if p.header "Content-Type" = "text/event-plain" then .event
  else if p.header "Content-Type" = "text/disconnect-notice" then .notice
  else .reply

inductive Request where
  | api (cmd : String)
  | bgAPI (cmd : String)
  | subscribe (events : List String)
deriving DecidableEq

def Request.line : Request → String
  | .api cmd => "api " ++ cmd
  | .bgAPI cmd => "bgapi " ++ cmd
  | .subscribe events => "event plain " ++ " ".intercalate events

/-- What a call makes of its packet: a text and possibly an error. -/
def Request.result (p : Packet) : Request → String × Option String
  | .api _ =>
    let body := String.ofList (Text.trimSpace p.body.toList)
    (body, if Text.hasPrefix "-ERR" body then some ("esl: " ++ body) else none)
  | .bgAPI _ => (p.header "Job-UUID", none)
  | .subscribe _ =>
    let reply := p.header "Reply-Text"
    ("", if Text.hasPrefix "+OK" reply then none else some ("subscribe: " ++ reply))

/-- A packet from FreeSWITCH, with the number of the command it answers. -/
structure Arrival where
  packet : Packet
  answers : Option ℕ
  typed : answers.isSome = true ↔ packet.kind = .reply

/-- Where a call is. From its write on it knows the number of its command and
how many replies to earlier commands were still to come. -/
inductive Call where
  | idle
  | queued (req : Request)
  | locked (req : Request)
  | ready (req : Request)
  | sent (req : Request) (own ahead : ℕ)
  | returned (req : Request) (own ahead : ℕ) (reply : Arrival)
  | failed (req : Request)

/-- Where `readLoop` is. A loop that stops with a packet in hand drops it. -/
inductive Loop where
  | reading
  | pushing (a : Arrival)
  | stopped (dropped : Option Arrival)

def Loop.hand : Loop → List Arrival
  | .reading | .stopped none => []
  | .pushing a | .stopped (some a) => [a]

structure State (ι : Type) where
  calls : ι → Call
  mu : Option ι
  closed : Bool
  written : ℕ
  pending : List ℕ
  inbound : List Arrival
  loop : Loop
  replies : List Arrival

def initial {ι : Type} : State ι :=
  { calls := fun _ => .idle
    mu := none
    closed := false
    written := 0
    pending := []
    inbound := []
    loop := .reading
    replies := [] }

/-- The capacity of the reply channel. -/
def capacity : ℕ := 16

inductive Label (ι : Type) where
  | call (i : ι) (req : Request)
  | lock (i : ι)
  | check (i : ι)
  | write (i : ι)
  | writeFails (i : ι)
  | receive (i : ι)
  | cancel (i : ι)
  | giveUp (i : ι)
  | answer (p : Packet)
  | event (p : Packet)
  | read
  | push
  | stop
  | readFails
  | close

/-- The commands whose replies nobody has taken yet, the oldest first. -/
def State.outstanding {ι : Type} (s : State ι) : List ℕ :=
  (s.replies ++ s.loop.hand ++ s.inbound).filterMap Arrival.answers ++ s.pending

section Step

variable {ι : Type} [DecidableEq ι]

instance : Phased (State ι) ι Call :=
  ⟨State.calls, fun s calls => { s with calls := calls }, fun _ _ => rfl⟩

/-- A call is over and gives up the mutex. -/
def State.leave (s : State ι) (i : ι) (call : Call) : State ι := { enter s i call with mu := none }

def step (l : Label ι) (s : State ι) : Option (State ι) :=
  match l with
  | .call i req =>
    match s.calls i with
    | .idle => some (enter s i (.queued req))
    | _ => none
  | .lock i =>
    match s.calls i, s.mu with
    | .queued req, none => some { enter s i (.locked req) with mu := some i }
    | _, _ => none
  | .check i =>
    match s.calls i with
    | .locked req =>
      if s.closed then some (s.leave i (.failed req)) else some (enter s i (.ready req))
    | _ => none
  | .write i =>
    match s.calls i with
    | .ready req =>
      some { enter s i (.sent req s.written s.outstanding.length) with
        written := s.written + 1
        pending := s.pending ++ [s.written] }
    | _ => none
  | .writeFails i =>
    match s.calls i with
    | .ready req => some { s.leave i (.failed req) with closed := true }
    | _ => none
  | .receive i =>
    match s.calls i, s.replies with
    | .sent req own ahead, a :: rest =>
      some { s.leave i (.returned req own ahead a) with replies := rest }
    | _, _ => none
  | .cancel i =>
    match s.calls i with
    | .sent req _ _ => some (s.leave i (.failed req))
    | _ => none
  | .giveUp i =>
    match s.calls i with
    | .sent req _ _ => if s.closed then some (s.leave i (.failed req)) else none
    | _ => none
  | .answer p =>
    match s.pending with
    | k :: rest =>
      if h : p.kind = .reply then
        some { s with
          pending := rest
          inbound := s.inbound ++ [⟨p, some k, iff_of_true rfl h⟩] }
      else none
    | [] => none
  | .event p =>
    if h : p.kind = .reply then none
    else some { s with inbound := s.inbound ++ [⟨p, none, iff_of_false Bool.noConfusion h⟩] }
  | .read =>
    match s.loop, s.inbound with
    | .reading, a :: rest =>
      match a.packet.kind with
      | .event => some { s with inbound := rest }
      | .notice => some { s with inbound := rest, loop := .stopped none, closed := true }
      | .reply => some { s with inbound := rest, loop := .pushing a }
    | _, _ => none
  | .push =>
    match s.loop with
    | .pushing a =>
      if s.replies.length < capacity then
        some { s with replies := s.replies ++ [a], loop := .reading }
      else none
    | _ => none
  | .stop =>
    match s.loop with
    | .pushing a => if s.closed then some { s with loop := .stopped (some a) } else none
    | _ => none
  | .readFails =>
    match s.loop with
    | .reading => some { s with loop := .stopped none, closed := true }
    | _ => none
  | .close => some { s with closed := true }

end Step

section Invariant

variable {ι : Type}

variable {call : Call} {a : Arrival} {s' : State ι} {i : ι} {req : Request}

def Call.holds : Call → Bool
  | .locked _ | .ready _ | .sent _ _ _ => true
  | _ => false

/-- What a call knows about the replies that are to come. -/
def Call.InOrder (written : ℕ) (outstanding : List ℕ) : Call → Prop
  | .sent _ own ahead => own + 1 = written ∧ ahead + 1 = outstanding.length
  | .returned _ own ahead reply => reply.answers.map (· + ahead) = some own
  | _ => True

/-- What a run keeps: replies are outstanding in the order of the commands, up
to the last one written, and who waits for one wrote that last command. -/
structure InOrder (s : State ι) : Prop where
  numbers : ∃ first, s.outstanding = List.range' first s.outstanding.length ∧
    first + s.outstanding.length = s.written
  replies : ∀ a ∈ s.replies ++ s.loop.hand, a.answers.isSome = true
  calls : ∀ i, (s.calls i).InOrder s.written s.outstanding
  mutex : ∀ i, (s.calls i).holds = true ↔ s.mu = some i

theorem initial_inOrder : InOrder (initial : State ι) where
  numbers := ⟨0, rfl, rfl⟩
  replies := fun _ ha => by cases ha
  calls := fun _ => trivial
  mutex := fun i => by simp [initial, Call.holds]

theorem Call.InOrder.of_not_holds {written written' : ℕ} {outstanding outstanding' : List ℕ}
    (h : call.InOrder written outstanding) (hnot : call.holds = false) :
    call.InOrder written' outstanding' := by
  cases call with
  | sent req own ahead => cases hnot
  | idle | queued _ | locked _ | ready _ | returned _ _ _ _ | failed _ => exact h

theorem Arrival.answers_eq_none (h : a.packet.kind ≠ .reply) : a.answers = none := by
  cases hanswers : a.answers with
  | none => rfl
  | some k => exact absurd (a.typed.mp (by rw [hanswers]; rfl)) h

variable {s : State ι}

/-- Packets move from one queue to the next, or the connection closes. -/
structure Transported (s s' : State ι) : Prop where
  calls : s'.calls = s.calls
  mu : s'.mu = s.mu
  written : s'.written = s.written
  outstanding : s'.outstanding = s.outstanding
  replies : (∀ a ∈ s.replies ++ s.loop.hand, a.answers.isSome = true) →
    ∀ a ∈ s'.replies ++ s'.loop.hand, a.answers.isSome = true
  closed : s'.closed = false → s.closed = false

/-- The steps of FreeSWITCH and of `readLoop`. -/
def Label.onWire : Label ι → Bool
  | .answer _ | .event _ | .read | .push | .stop | .readFails | .close => true
  | _ => false

theorem InOrder.transport (hs : InOrder s) (ht : Transported s s') : InOrder s' where
  numbers := by rw [ht.outstanding, ht.written]; exact hs.numbers
  replies := ht.replies hs.replies
  calls := fun i => by rw [ht.calls, ht.outstanding, ht.written]; exact hs.calls i
  mutex := fun i => by rw [ht.calls, ht.mu]; exact hs.mutex i

theorem InOrder.others (hs : InOrder s) (hi : (s.calls i).holds = true) (j : ι) (hj : j ≠ i) :
    (s.calls j).holds = false := by
  rw [Bool.eq_false_iff]
  intro hholds
  have hmu := (hs.mutex i).mp hi
  rw [(hs.mutex j).mp hholds] at hmu
  exact hj (Option.some.inj hmu)

theorem transported_close (s : State ι) : Transported s { s with closed := true } :=
  ⟨rfl, rfl, rfl, rfl, id, Bool.noConfusion⟩

variable [DecidableEq ι]

theorem transported_of_onWire {l : Label ι} (hwire : l.onWire = true) (hstep : step l s = some s') :
    Transported s s' := by
  cases l with
  | call _ _ | lock _ | check _ | write _ | writeFails _ | receive _ | cancel _ | giveUp _ =>
    cases hwire
  | answer p =>
    simp only [step] at hstep
    split at hstep
    · rename_i k rest hpending
      split at hstep <;> cases hstep
      exact ⟨rfl, rfl, rfl, by simp [State.outstanding, hpending], id, id⟩
    · cases hstep
  | event p =>
    simp only [step] at hstep
    split at hstep <;> cases hstep
    exact ⟨rfl, rfl, rfl, by simp [State.outstanding], id, id⟩
  | read =>
    simp only [step] at hstep
    split at hstep
    · rename_i a rest hloop hinbound
      split at hstep <;> cases hstep <;> rename_i hkind
      · have hnone := Arrival.answers_eq_none (a := a) (by rw [hkind]; decide)
        exact ⟨rfl, rfl, rfl, by simp [State.outstanding, hinbound, hnone], id, id⟩
      · have hnone := Arrival.answers_eq_none (a := a) (by rw [hkind]; decide)
        exact ⟨rfl, rfl, rfl, by simp [State.outstanding, hinbound, hloop, hnone, Loop.hand],
          by simp [hloop, Loop.hand], Bool.noConfusion⟩
      · -- a reply goes into the loop's hand
        have hsome := a.typed.mpr hkind
        refine ⟨rfl, rfl, rfl, by simp [State.outstanding, hinbound, hloop, Loop.hand], ?_, id⟩
        intro hold b hb
        rcases List.mem_append.mp hb with hqueued | hnew
        · exact hold b (List.mem_append_left _ hqueued)
        · rwa [List.mem_singleton.mp hnew]
    · cases hstep
  | push | stop =>
    simp only [step] at hstep
    split at hstep
    · rename_i a hloop
      split at hstep <;> cases hstep
      exact ⟨rfl, rfl, rfl, by simp [State.outstanding, hloop, Loop.hand],
        by simp [hloop, Loop.hand], id⟩
    · cases hstep
  | readFails =>
    simp only [step] at hstep
    split at hstep <;> cases hstep
    rename_i hloop
    exact ⟨rfl, rfl, rfl, by simp [State.outstanding, hloop, Loop.hand],
      by simp [hloop, Loop.hand], Bool.noConfusion⟩
  | close =>
    cases hstep
    exact transported_close s

theorem InOrder.call_step (hs : InOrder s) (hcalls : s'.calls = Function.update s.calls i call)
    (hothers : ∀ j, j ≠ i → (s.calls j).holds = false)
    (hcall : call.InOrder s'.written s'.outstanding)
    (hnumbers : ∃ first, s'.outstanding = List.range' first s'.outstanding.length ∧
      first + s'.outstanding.length = s'.written)
    (hreplies : ∀ a ∈ s'.replies ++ s'.loop.hand, a.answers.isSome = true)
    (hmu : s'.mu = if call.holds then some i else none) : InOrder s' where
  numbers := hnumbers
  replies := hreplies
  calls := by
    intro j
    rw [hcalls]
    by_cases hj : j = i
    · subst hj
      rwa [Function.update_self]
    · rw [Function.update_of_ne hj]
      exact (hs.calls j).of_not_holds (hothers j hj)
  mutex := by
    intro j
    rw [hcalls, hmu]
    by_cases hj : j = i
    · subst hj
      rw [Function.update_self]
      cases call.holds <;> simp
    · rw [Function.update_of_ne hj, hothers j hj]
      cases call.holds <;> simp [Ne.symm hj]

theorem InOrder.move (hs : InOrder s) (hi : (s.calls i).holds = true)
    (hcall : call.InOrder s.written s.outstanding) (hholds : call.holds = true) :
    InOrder (enter s i call) :=
  hs.call_step rfl (hs.others hi) hcall hs.numbers hs.replies
    (by rw [hholds]; exact (hs.mutex i).mp hi)

theorem InOrder.leave (hs : InOrder s) (hi : (s.calls i).holds = true) :
    InOrder (s.leave i (.failed req)) :=
  hs.call_step rfl (hs.others hi) trivial hs.numbers hs.replies rfl

theorem InOrder.enqueue (hs : InOrder s) (hi : (s.calls i).holds = false) :
    InOrder (enter s i (.queued req)) where
  numbers := hs.numbers
  replies := hs.replies
  calls := forall_enter s (P := fun _ call => call.InOrder s.written s.outstanding) trivial
    (fun j _ => hs.calls j)
  mutex := by
    refine forall_enter s (P := fun j call => call.holds = true ↔ s.mu = some j) ?_
      (fun j _ => hs.mutex j)
    rw [← hs.mutex i, hi]
    rfl

theorem InOrder.write (hs : InOrder s) (hi : s.calls i = .ready req) :
    InOrder { enter s i (.sent req s.written s.outstanding.length) with
      written := s.written + 1
      pending := s.pending ++ [s.written] } := by
  obtain ⟨first, hrange, hend⟩ := hs.numbers
  have hholds : (s.calls i).holds = true := by rw [hi]; rfl
  have hout : State.outstanding { enter s i (.sent req s.written s.outstanding.length) with
      written := s.written + 1
      pending := s.pending ++ [s.written] } = s.outstanding ++ [s.written] := by
    simp [State.outstanding, enter, Phased.withPhases]
  refine hs.call_step rfl (hs.others hholds) ?_ ⟨first, ?_, ?_⟩ hs.replies
    ((hs.mutex i).mp hholds)
  · rw [hout]
    exact ⟨rfl, by simp⟩
  · rw [hout, List.length_append, List.length_singleton, List.range'_1_concat, ← hrange, hend]
  · rw [hout, List.length_append, List.length_singleton]
    simp only
    omega

theorem outstanding_receive {rest : List Arrival} {k : ℕ} (hreplies : s.replies = a :: rest)
    (hk : a.answers = some k) (i : ι) (call : Call) :
    s.outstanding = k :: State.outstanding { s.leave i call with replies := rest } := by
  simp [State.outstanding, State.leave, enter, Phased.withPhases, hreplies, hk]

/-- The oldest reply goes to the call that wrote last. -/
theorem InOrder.receive (hs : InOrder s) {own ahead : ℕ} {rest : List Arrival}
    (hi : s.calls i = .sent req own ahead) (hreplies : s.replies = a :: rest) :
    InOrder { s.leave i (.returned req own ahead a) with replies := rest } := by
  obtain ⟨first, hrange, hend⟩ := hs.numbers
  have hholds : (s.calls i).holds = true := by rw [hi]; rfl
  have hsent := hs.calls i
  rw [hi] at hsent
  obtain ⟨hown, hahead⟩ := hsent
  have htyped := hs.replies a (by simp [hreplies])
  obtain ⟨k, hk⟩ := Option.isSome_iff_exists.mp htyped
  rw [outstanding_receive hreplies hk i (.returned req own ahead a), List.length_cons]
    at hrange hend hahead
  rw [List.range'_succ] at hrange
  obtain ⟨rfl, htail⟩ := List.cons.inj hrange
  refine hs.call_step rfl (hs.others hholds) ?_ ⟨k + 1, htail, ?_⟩ ?_ rfl
  · have hsum : k + ahead = own := by omega
    simp [Call.InOrder, hk, hsum]
  · simp only [State.leave, enter, Phased.withPhases] at hend ⊢
    omega
  · intro b hb
    refine hs.replies b ?_
    rw [hreplies]
    exact List.mem_cons_of_mem _ hb

theorem InOrder.step (l : Label ι) (s s' : State ι) (hs : InOrder s)
    (hstep : step l s = some s') : InOrder s' := by
  cases l with
  | call i req =>
    simp only [Esl.step] at hstep
    split at hstep <;> cases hstep
    rename_i hi
    exact hs.enqueue (by rw [hi]; rfl)
  | lock i =>
    simp only [Esl.step] at hstep
    split at hstep <;> cases hstep
    rename_i req hi hmu
    refine hs.call_step rfl (fun j _ => ?_) trivial hs.numbers hs.replies rfl
    rw [Bool.eq_false_iff, ne_eq, hs.mutex j, hmu]
    exact (Option.some_ne_none j).symm
  | check i =>
    simp only [Esl.step] at hstep
    split at hstep
    · rename_i req hi
      have hholds : (s.calls i).holds = true := by rw [hi]; rfl
      split at hstep <;> cases hstep
      · exact hs.leave hholds
      · exact hs.move hholds trivial rfl
    · cases hstep
  | write i =>
    simp only [Esl.step] at hstep
    split at hstep <;> cases hstep
    exact hs.write ‹_›
  | writeFails i =>
    simp only [Esl.step] at hstep
    split at hstep <;> cases hstep
    rename_i req hi
    exact (hs.leave (by rw [hi]; rfl)).transport (transported_close _)
  | receive i =>
    simp only [Esl.step] at hstep
    split at hstep <;> cases hstep
    rename_i req own ahead a rest hi hreplies
    exact hs.receive hi hreplies
  | cancel i =>
    simp only [Esl.step] at hstep
    split at hstep <;> cases hstep
    rename_i req own ahead hi
    exact hs.leave (by rw [hi]; rfl)
  | giveUp i =>
    simp only [Esl.step] at hstep
    split at hstep
    · rename_i req own ahead hi
      split at hstep <;> cases hstep
      exact hs.leave (by rw [hi]; rfl)
    · cases hstep
  | answer _ | event _ | read | push | stop | readFails | close =>
    exact hs.transport (transported_of_onWire rfl hstep)

end Invariant

section Results

variable {ι : Type} [DecidableEq ι]

/-- A call gets the reply to its own command exactly if no reply to an earlier
command was outstanding when it wrote, in every run. -/
theorem reply_is_own_iff (labels : List (Label ι)) {final : State ι}
    (hrun : trace step labels initial = some final) {i : ι} {req : Request} {own ahead : ℕ}
    {reply : Arrival} (hcall : final.calls i = .returned req own ahead reply) :
    reply.answers = some own ↔ ahead = 0 := by
  have hordered := (invariant_of_trace InOrder.step initial_inOrder hrun).calls i
  rw [hcall] at hordered
  obtain ⟨k, hk, hsum⟩ := Option.map_eq_some_iff.mp hordered
  rw [hk, Option.some.injEq]
  omega

end Results

section Sample

def sampleRequest (i : Bool) : Request :=
  if i then .api "show channels as delim |" else .api "status"

def sampleSend (i : Bool) : List (Label Bool) :=
  [.call i (sampleRequest i), .lock i, .check i, .write i]

def sampleReply (body : String) : Packet := ⟨[("Content-Type", "api/response")], body⟩

def sampleArrival (body : String) (k : ℕ) : Arrival :=
  ⟨sampleReply body, some k, iff_of_true rfl rfl⟩

def sampleExchange (i : Bool) (body : String) : List (Label Bool) :=
  sampleSend i ++ [.answer (sampleReply body), .read, .push, .receive i]

theorem reply_is_own_iff_sampleExchange :
    ∃ final, trace step (sampleExchange false "UP") initial = some final ∧
      final.calls false = .returned (.api "status") 0 0 (sampleArrival "UP" 0) ∧
      ((sampleArrival "UP" 0).answers = some 0 ↔ 0 = 0) :=
  ⟨_, rfl, rfl, reply_is_own_iff (sampleExchange false "UP") rfl (i := false) rfl⟩

/-- A caller gives up waiting for `status`; the next command is the
reconciler's question for live channels, and it gets the reply to `status`. -/
def sampleAbandoned : List (Label Bool) :=
  sampleSend false ++ [.cancel false, .answer (sampleReply "UP"), .read, .push] ++
    sampleSend true ++ [.receive true]

theorem reply_to_abandoned_command :
    ∃ final, trace step sampleAbandoned initial = some final ∧
      final.calls true =
        .returned (.api "show channels as delim |") 1 1 (sampleArrival "UP" 0) ∧
      (sampleRequest true).result (sampleArrival "UP" 0).packet = ("UP", none) ∧
      (sampleArrival "UP" 0).answers ≠ some 1 :=
  ⟨_, rfl, rfl, by decide +kernel, by decide⟩

end Sample

end SuperSbc.Esl
