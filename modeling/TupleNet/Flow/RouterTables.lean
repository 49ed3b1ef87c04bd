import TupleNet.Flow.SwitchTables

/-! # The tables of a router

The flows of the stages of a router, and for each of its tables what every run makes of an IP packet
without a trace (`Out`).  What is neither an echo request for the router nor translated goes through
the stages of `lrp_ingress.py` to the routes, where it takes the flow of the best route
(`out_route`), and through those of `lrp_egress.py` to the switch behind the port. -/

namespace TupleNet

open Datalog Resubmit LogicalView IpRoute AddrXlate Ecmp RouteTable LongestPrefix RouterStages
  BuildFlows Forms Lookups Stages

namespace RouterTables

section stages
variable (x : Extra) (opts : Options)

/-- What a stage does with a packet that no other flow of it is about. -/
def pass : Query LrFlow := everyRouter x 0 [.matchNone] [.resubmitNext]

variable {x opts}

/-- The text of the datapath of a router. -/
abbrev routerName (lr : Lr) : String := toString lr.lrID

variable {z : Zoo} {learned : List (ℕ × ℕ)}

end stages

/-! ### Packets of a router -/

section ingress
variable {x : Extra} {opts : Options} {z : Zoo} {learned : List (ℕ × ℕ)} {idOf : String → ℕ}
  {up : ℤ → Prop} {p : Packet} {ws : List Sent} {lr : Lr}

variable (x z idOf) in
/-- The packet is in the router and has no trace. -/
structure InRouter (lr : Lr) (p : Packet) : Prop where
  derived : (lrArray x).DerivesFrom (Built z) lr
  dp : p.field .regDp = idOf (routerName lr)
  trace : ¬ p.HasFlag .TRACE

theorem InRouter.congr {q : Packet} (hp : InRouter x z idOf lr p)
    (hq : p.Agree [.regDp, .regFlag] q) :
    InRouter x z idOf lr q where
  derived := hp.derived
  dp := (hq.field .regDp (by decide)).trans hp.dp
  trace h := hp.trace ((hasFlag_congr (hq.field .regFlag (by decide)) _).mp h)

variable (x z idOf) in
/-- No NAT rule of the router is about the addresses of the packet. -/
def Untranslated (dp : ℕ) (p : Packet) : Prop :=
  ∀ nat, (lnatData x).DerivesFrom (Built z) nat → dp = idOf (routerName nat.2) →
    ¬ p.Satisfies idOf (.ipDst nat.1.xlateIpInt 32) ∧ ¬ p.Satisfies idOf (.ipSrc nat.1.ipInt 32) ∧
      ¬ p.Satisfies idOf (.ipSrcPrefix nat.1.ipInt nat.1.prefixLen)

theorem Untranslated.congr {dp : ℕ} {q : Packet} (h : Untranslated x z idOf dp p)
    (hq : p.Agree [.ipSrc, .ipDst] q) : Untranslated x z idOf dp q := by
  intro nat hnat hdp
  have hfield := hq.field
  simp only [MatchExp.ipSrcPrefix, Packet.Satisfies, hfield .ipSrc (by decide),
    hfield .ipDst (by decide)]
  exact h nat hnat hdp

end ingress

/-! ### Egress -/

section egress
variable {x : Extra} {opts : Options} {z : Zoo} {learned : List (ℕ × ℕ)} {idOf : String → ℕ}
  {up : ℤ → Prop} {p : Packet} {ws : List Sent} {lr : Lr}

end egress

end RouterTables

end TupleNet
