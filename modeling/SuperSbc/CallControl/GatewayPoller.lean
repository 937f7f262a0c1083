import SuperSbc.Model
import SuperSbc.Text.Split

/-!
The state of the gateways, polled from FreeSWITCH. A poll asks for the gateways
that are up and then for those that are down; only when both lists arrive it
changes the map. The map is a function of the polls that were completed.
-/

namespace SuperSbc.CallControl.GatewayPoller

open Text

def emptyGatewayList (s : String) : Bool := "no reply".toList <:+: s.toList.map Char.toLower

/-- `gwlist`, from the reply or the text of the error. -/
def gwlist : Except String String → Option (List String)
  | .error e => if emptyGatewayList e then some [] else none
  | .ok out => some (if emptyGatewayList out then [] else (fields out.toList).map String.ofList)

inductive GatewayStatus where
  | up
  | down
deriving DecidableEq

structure GatewayState where
  status : GatewayStatus
  since : Time
  checkedAt : Time
deriving DecidableEq

/-- What one call of `Once` meets. -/
structure Poll where
  connected : Bool
  up : Except String String
  down : Except String String
  now : Time

/-- The lists of a poll that was completed. -/
structure Listing where
  up : List String
  down : List String
  now : Time

def Poll.listing (p : Poll) : Option Listing :=
  if p.connected then do
    let up ← gwlist p.up
    let down ← gwlist p.down
    return ⟨up, down, p.now⟩
  else none

/-- `seen`: a gateway on both lists is down. -/
def Listing.seen (l : Listing) (name : String) : Option GatewayStatus :=
  if name ∈ l.down then some .down else if name ∈ l.up then some .up else none

def update (l : Listing) (states : String → Option GatewayState) (name : String) :
    Option GatewayState :=
  (l.seen name).map (fun status =>
    { status, checkedAt := l.now
      since :=
        match states name with
        | some prev => if prev.status ≠ status then l.now else prev.since
        | none => l.now })

def once (states : String → Option GatewayState) (p : Poll) : String → Option GatewayState :=
  match p.listing with
  | some l => update l states
  | none => states

/-- The map of a poller that has made some polls, the newest last. -/
def polled (polls : List Poll) : String → Option GatewayState := polls.foldl once (fun _ => none)

def gatewayDown (states : String → Option GatewayState) (gateway : String) : Bool :=
  (states gateway).any (·.status = .down)

/-- What the completed polls say of a gateway, the newest first: its status is
that of the last one, since the first of those that have said so without a
break. -/
def report (name : String) : List Listing → Option GatewayState
  | [] => none
  | l :: earlier => (l.seen name).map (fun status =>
    { status, checkedAt := l.now
      since := ((earlier.takeWhile (·.seen name = some status)).getLast?.getD l).now })

theorem update_report (l : Listing) (earlier : List Listing)
    (states : String → Option GatewayState) (name : String)
    (h : states name = report name earlier) :
    update l states name = report name (l :: earlier) := by
  unfold update
  rw [report, h]
  cases earlier with
  | nil => rfl
  | cons prev rest =>
    congr 1
    funext status
    congr 1
    rw [report, List.takeWhile_cons]
    cases hseen : prev.seen name with
    | none => rfl
    | some before =>
      by_cases hsame : before = status
      · subst hsame
        simp [List.getLast?_cons]
      · simp [hsame]

/-- Whatever the polls met, the map holds what the completed ones among them
say, and nothing else. -/
theorem polled_eq_report (polls : List Poll) (name : String) :
    polled polls name = report name (polls.filterMap Poll.listing).reverse := by
  induction polls using List.reverseRecOn with
  | nil => rfl
  | append_singleton polls p ih =>
    have hlast : polled (polls ++ [p]) = once (polled polls) p := List.foldl_concat ..
    rw [hlast, once, List.filterMap_append, List.reverse_append]
    cases hlisting : p.listing with
    | none => simpa [hlisting] using ih
    | some l => simpa [hlisting] using update_report l _ _ name ih

/-- A gateway counts as down exactly while the last completed poll lists it as
down, and its state says since when the polls have agreed. -/
theorem states_accurate (polls : List Poll) (name : String) :
    (gatewayDown (polled polls) name = true ↔
      ∃ l ∈ (polls.filterMap Poll.listing).getLast?, name ∈ l.down) ∧
    polled polls name = report name (polls.filterMap Poll.listing).reverse := by
  refine ⟨?_, polled_eq_report polls name⟩
  rw [gatewayDown, polled_eq_report, ← List.head?_reverse]
  cases (polls.filterMap Poll.listing).reverse with
  | nil => simp [report]
  | cons l earlier =>
    by_cases hdown : name ∈ l.down
    · simp [report, Listing.seen, hdown]
    · by_cases hup : name ∈ l.up <;> simp [report, Listing.seen, hdown, hup]

/-- Of the four polls the two in the middle are not completed. -/
example : polled
    [⟨true, .ok "gw1 gw2", .error "-ERR no reply", 10⟩, ⟨true, .ok "", .error "timeout", 20⟩,
      ⟨false, .error "", .error "", 30⟩, ⟨true, .ok "gw2", .ok "gw1", 40⟩] "gw2" =
    some ⟨.up, 10, 40⟩ := by decide +kernel

end SuperSbc.CallControl.GatewayPoller
