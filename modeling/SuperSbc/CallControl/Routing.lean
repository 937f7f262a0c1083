import SuperSbc.CallControl.Setup
import SuperSbc.FsConfig.Gateways
import SuperSbc.Jobs
import SuperSbc.Query.Tables

/-!
The routes of the call control: the carriers of a route and the modes of its
group.
-/

namespace SuperSbc.CallControl

open FsConfig Text

structure RouteCarrier where
  carrierId : UUID
  priority : ℤ
  weight : ℤ
  window : String
deriving DecidableEq

structure RouteModes where
  lcr : Bool
  lossless : Bool
  quality : Bool
  percent : Bool
deriving DecidableEq

structure MatchedRoute where
  modes : RouteModes
  carriers : List RouteCarrier

def sampleGateway (id : UUID) (name password : String) : GatewayCarrier :=
  ⟨id, name, .active, some 3, "192.0.2.1", 5060, .udp, none, some password, none, false, [], 0,
    false⟩

def sampleEndpoint (id carrierId : UUID) (seq : ℤ) (host : String) : CarrierEndpoint :=
  ⟨id, carrierId, seq, host, 5060, .udp, 1, 100, true⟩

/-- Carrier `a` has two endpoints; `a-ep1` is another carrier. -/
def sampleClash : CarrierTables where
  carriers := [sampleGateway 1 "a" "secret of a", sampleGateway 2 "a-ep1" "secret of a-ep1"]
  endpoints := [sampleEndpoint 11 1 1 "192.0.2.1", sampleEndpoint 12 1 2 "192.0.2.2",
    sampleEndpoint 21 2 1 "203.0.113.1"]
  names_ok := by decide +kernel
  names_unique := by decide
  ids_unique := by decide
  seqs_unique := by decide

end SuperSbc.CallControl
