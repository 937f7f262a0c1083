import Mathlib.Data.String.Basic
import SuperSbc.Interleaving.History
import SuperSbc.Query.Selection
import SuperSbc.Model

/-!
The routes of a group with their carriers, which the store reads with two
queries: the routes first, the carriers of the group's routes after that.
-/

namespace SuperSbc.Store

open Query Interleaving

structure RouteGroupRow where
  id : UUID
  lcrMode : Bool
  losslessMode : Bool
  qualityMode : Bool
  percentMode : Bool
deriving DecidableEq

structure RouteRow where
  id : UUID
  routeGroupId : UUID
  dialPrefix : String
  destination : String
  enabled : Bool
  dialPrefix_digits : ∀ c ∈ dialPrefix.toList, c.isDigit
deriving DecidableEq

structure RouteCarrierRow where
  id : UUID
  routeId : UUID
  carrierId : UUID
  priority : ℤ
  weight : ℤ
  enabled : Bool
  window : String
deriving DecidableEq

/-- `model.Route`: a row with its group's modes and its carriers. -/
structure Route extends RouteRow where
  lcrMode : Bool
  losslessMode : Bool
  qualityMode : Bool
  percentMode : Bool
  carriers : List RouteCarrierRow
deriving DecidableEq

/-- The tables the two queries join. A carrier counts while it is active and
not deleted. -/
structure RoutesTables where
  groups : List RouteGroupRow
  routes : List RouteRow
  routeCarriers : List RouteCarrierRow
  activeCarriers : List UUID

/-- The first query. -/
def RoutesTables.enabledRoutes (t : RoutesTables) (group : UUID) : List Route :=
  orderBy (·.dialPrefix) ((t.routes.filter (fun r => r.routeGroupId = group && r.enabled)).flatMap
    (fun r => (t.groups.filter (·.id = r.routeGroupId)).map (fun g =>
      { r with
        lcrMode := g.lcrMode
        losslessMode := g.losslessMode
        qualityMode := g.qualityMode
        percentMode := g.percentMode
        carriers := [] })))

/-- The second query: `ORDER BY rc.route_id, rc.priority, rc.weight DESC`. -/
def RoutesTables.carriersOf (t : RoutesTables) (group : UUID) : List RouteCarrierRow :=
  orderBy (fun rc => (toLex (rc.routeId.toNat, toLex (rc.priority, OrderDual.toDual rc.weight)) :
      ℕ ×ₗ ℤ ×ₗ ℤᵒᵈ))
    (t.routeCarriers.filter (fun rc => rc.enabled && rc.carrierId ∈ t.activeCarriers &&
      t.routes.any (fun r => r.id = rc.routeId && r.routeGroupId = group)))

def routesForGroup (group : UUID) : Reading RoutesTables (List Route) :=
  .read (fun t =>
    match t.enabledRoutes group with
    | [] => .done []
    | route :: rest => .read (fun t' => .done ((route :: rest).map (fun r =>
      { r with carriers := (t'.carriersOf group).filter (·.routeId = r.id) }))))

end SuperSbc.Store
