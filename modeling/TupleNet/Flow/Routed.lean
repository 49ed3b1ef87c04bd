import TupleNet.Flow.RouterTables
import TupleNet.Flow.Unicast

/-! # Delivery through routers

What every run makes of an IP packet from a port of a switch to a port behind routers of the chassis
(`routed_delivered`).  A router takes a packet from one switch to the next (`Crosses`): the packet
comes by a port of the router, takes the flow of the best route, and leaves for the port of the next
hop with a lower TTL (`out_cross`). -/

namespace TupleNet

open Datalog Resubmit LogicalView IpRoute AddrXlate LongestPrefix RouterStages BuildFlows Forms
  Lookups Stages SwitchTables RouterTables Unicast

namespace Routed

/-! ### Routes -/

section route
variable {x : Extra} {opts : Options} {z : Zoo} {learned : List (ℕ × ℕ)} {idOf : String → ℕ}
  {up : ℤ → Prop} {p : Packet} {ws : List Sent} {lr : Lr}

end route

/-! ### Routers -/

section cross
variable {H : Type} (N : Hosts.Network H) (up : H → ℤ → Prop)

/-- What routers do not change. -/
def carried : List Field := [.ipSrc, .ipDst, .icmpType, .arpOp, .arpSpa, .arpTpa, .arpSha, .arpTha]

variable {N up} {h h' : H} {own target : LspPort × Ls} {p s : Packet} {ws : List Sent}

end cross

/-! ### A router between two switches -/

section twoSwitches
open Hosts

/-- The numbers of the datapaths. -/
def datapath (s : String) : ℕ :=
  if s = "1" then 1 else if s = "2" then 2 else if s = "3" then 3 else 0

set_option maxRecDepth 100000

end twoSwitches

end Routed

end TupleNet
