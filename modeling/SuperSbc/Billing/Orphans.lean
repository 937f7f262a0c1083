import SuperSbc.Billing.Bill

/-!
The reconciliation pass over reservations whose hangup was never billed. It
lists candidates, asks FreeSWITCH which channels are alive when it can, and
bills the rest as orphaned. Each bill is a transaction of its own.
-/

namespace SuperSbc.Billing

/-- The hangup the reconciler makes up for an orphaned reservation. -/
def orphanHangup (now : Time) (callUUID : UUID) : HangupInfo where
  callUUID := callUUID
  endTime := now
  hangupCause := "ORPHANED"
  source := .reconcile
  rejectReason := "orphaned reservation"

/-- `WHERE expires_at + grace < now()`. -/
def isExpired (grace : ℤ) (now : Time) (a : ActiveCall) : Bool := a.expiresAt + grace < now

/-- `WHERE (node = $3 OR node = '') AND started_at + age < now()`. -/
def isStale (node : String) (age : ℤ) (now : Time) (a : ActiveCall) : Bool :=
  (a.node == node || a.node == "") && a.startedAt + age < now

/-- One pass over the listed reservations: with FreeSWITCH reachable (`live`)
the calls it still knows are left alone. -/
def once (now : Time) (candidates : List (UUID × ActiveCall)) (live : Option (List UUID)) :
    List HangupInfo :=
  (candidates.filter (fun c => !(live.getD []).contains c.1)).map
    (fun c => orphanHangup now c.1)

end SuperSbc.Billing
