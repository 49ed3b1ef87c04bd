import TupleNet.Flow.LogicalView
import TupleNet.Flow.Rounds

/-! # The routing table

The flows of `lrp_ip_route` that single derivations give: connected networks, static routes and the
drop flow (`ecmp.py` adds flows from aggregates).  A static route has a flow when a router that can
be reached from its outport stands behind it, so on a shared segment one flow has as many
derivations as there are such routers.

The key of a flow names the route and the action the outport; the next router is in neither.  When
one of these routers is deleted, its derivation deletes the flow, and no row writes it again for the
others.  `static_routes_maintained_iff` is the exact condition under which the table stays that of a
build from scratch, `static_routes_not_maintained` the deletion of one of two routers. -/

namespace TupleNet

open Datalog KeyedTable StepMachine LogicalView

namespace IpRoute

/-! ### The rules -/

/-- `_cal_priority`. -/
def calPriority (prefixLen level idx : ℕ) : ℕ := (prefixLen <<< 10) + (level <<< 6) + idx

/-- What a rule of a router pipeline derives: the router, priority, match and action. -/
abbrev LrFlow := Lr × ℕ × Match × Action

/-- `build_flows_lrp` for one table. -/
def buildFlowsLrp (table : ℕ) (note : String) (r : Query LrFlow) :
    Rule Row State (FlowKey Match × Action) := do
  let flow ← r
  pure (⟨table, flow.2.1, .datapath (toString flow.1.lrID) :: flow.2.2.1⟩,
    flow.2.2.2 ++ [.note note])

section rules
variable (x : Extra)

/-- The action of a routing flow towards a router port; `dst` writes the address to be looked up. -/
def towards (lrp : LrpFact) (dst : ActionExp) : Action :=
  [.loadNum lrp.portID .regDst, .loadNum lrp.macInt .ethSrc, dst, .loadNum lrp.ipInt .reg3,
    .resubmitNext]

/-- The automatic route to the network of a router port. -/
def connectedRoute : Query LrFlow := do
  let link ← lspLinkLrp x
  pure (link.lr, calPriority link.lrp.prefixLen 0 link.lrp.ilkIdx,
    [.ipProto, .ipDstPrefix link.lrp.ipInt link.lrp.prefixLen],
    towards link.lrp (.move (.all .ipDst) (.all .reg2)))

/-- `_next_live_hop_lr`. -/
def nextLiveHopLr : Query NextHopLr := Rule.oneOf [
  (do
    let hop ← nextHopLr x
    Rule.guard (hop.lrNext.chassis = none)
    pure hop),
  (do
    let hop ← nextHopLr x
    Rule.guard (hop.lrNext.chassis ≠ none)
    let phyChassis ← remoteChassis
    Rule.guard (hop.lrNext.chassis = some phyChassis.uuid)
    pure hop),
  (do
    let hop ← nextHopLr x
    Rule.guard (hop.lrNext.chassis = some x.systemId)
    pure hop)]

/-- `_static_route_changed` of every node. -/
def nextHopRoute : Query (LsrFact × Lr × LrpFact) := do
  let route ← lrouteArray
  let hop ← nextLiveHopLr x
  Rule.guard (route.outport = some hop.lrp.uuid)
  pure (route, hop.lr, hop.lrp)

/-- `_static_route_changed` of a gateway: the switch behind the outport leads out by a patch
port. -/
def patchportRoute : Query (LsrFact × Lr × LrpFact) := do
  let route ← lrouteArray
  let link ← lspLinkLrp x
  Rule.guard (link.lr.chassis = some x.systemId)
  Rule.guard (route.lrUuid = link.lr.uuid)
  Rule.guard (route.outport = some link.lrp.uuid)
  let port ← localPatchport x
  Rule.guard (port.2 = link.ls)
  pure (route, link.lr, link.lrp)

/-- `_static_route_changed`. -/
def staticRouteChanged (opts : Options) : Query (LsrFact × Lr × LrpFact) :=
  if opts.gateway then Rule.oneOf [patchportRoute x, nextHopRoute x] else nextHopRoute x

/-- The flow of a static route. -/
def staticRoute (opts : Options) : Query LrFlow := do
  let route ← staticRouteChanged x opts
  pure (route.2.1, calPriority route.1.prefixLen 1 route.1.ilkIdx,
    [.ipProto, .ipDstPrefix route.1.ipInt route.1.prefixLen],
    towards route.2.2 (.loadNum route.1.nextHopInt .reg2))

/-- The flow that drops what no route matches. -/
def dropRoute : Query LrFlow := do
  let lr ← lrArray x
  pure (lr, 0, [.matchNone], [.resubmitTable TABLE_DROP_PACKET])

/-- The rows of static routes in `build_flows`. -/
def staticRouteFlows (opts : Options) : Rule Row State (FlowKey Match × Action) :=
  buildFlowsLrp TABLE_LRP_INGRESS_IP_ROUTE "lrp_ip_route" (staticRoute x opts)

/-! ### Premises -/

theorem atMost_buildFlowsLrp {n table : ℕ} {note : String} {r : Query LrFlow}
    (h : r.AtMost n) : (buildFlowsLrp table note r).AtMost n :=
  Rule.atMost_bind (n := 0) h fun _ => Rule.atMost_pure_le _

theorem atMost_nextLiveHopLr : (nextLiveHopLr x).AtMost 10 := by
  refine Rule.atMost_oneOf fun r hr => ?_
  simp only [List.mem_cons, List.not_mem_nil, or_false] at hr
  rcases hr with rfl | rfl | rfl
  · exact Rule.atMost_bind (n := 2) (atMost_nextHopLr x) fun _ => Rule.atMost_guard_bind fun _ =>
      Rule.atMost_pure_le _
  · exact Rule.atMost_bind (n := 2) (atMost_nextHopLr x) fun _ => Rule.atMost_guard_bind fun _ =>
      Rule.atMost_bind (n := 0) atMost_remoteChassis fun _ => Rule.atMost_guard_bind fun _ =>
        Rule.atMost_pure_le _
  · exact Rule.atMost_bind (n := 2) (atMost_nextHopLr x) fun _ => Rule.atMost_guard_bind fun _ =>
      Rule.atMost_pure_le _

theorem atMost_nextHopRoute : (nextHopRoute x).AtMost 11 :=
  Rule.atMost_fact_bind fun _ => Rule.atMost_bind (n := 0) (atMost_nextLiveHopLr x) fun _ =>
    Rule.atMost_guard_bind fun _ => Rule.atMost_pure_le _

theorem atMost_patchportRoute : (patchportRoute x).AtMost 11 :=
  Rule.atMost_fact_bind fun _ => Rule.atMost_bind (n := 5) (atMost_lspLinkLrp x) fun _ =>
    Rule.atMost_guard_bind fun _ => Rule.atMost_guard_bind fun _ => Rule.atMost_guard_bind fun _ =>
      Rule.AtMost.mono (Rule.atMost_bind (n := 0) (atMost_localPatchport x) fun _ =>
        Rule.atMost_guard_bind fun _ => Rule.atMost_pure_le _) (by omega)

theorem atMost_staticRouteChanged (opts : Options) : (staticRouteChanged x opts).AtMost 11 := by
  unfold staticRouteChanged
  split_ifs
  · refine Rule.atMost_oneOf fun r hr => ?_
    simp only [List.mem_cons, List.not_mem_nil, or_false] at hr
    rcases hr with rfl | rfl
    · exact atMost_patchportRoute x
    · exact atMost_nextHopRoute x
  · exact atMost_nextHopRoute x

theorem atMost_staticRouteFlows (opts : Options) : (staticRouteFlows x opts).AtMost 11 :=
  atMost_buildFlowsLrp (Rule.atMost_bind (n := 0) (atMost_staticRouteChanged x opts) fun _ =>
    Rule.atMost_pure_le _)

/-- A static route flow needs a route. -/
theorem lsr_of_staticRouteFlows {opts : Options} {S : Row → Prop} {f : FlowKey Match × Action}
    (h : (staticRouteFlows x opts).DerivesFrom S f) : ∃ r route, S r ∧ r.lsr? = some route := by
  simp only [staticRouteFlows, buildFlowsLrp, staticRoute, Rule.derivesFrom_bind] at h
  obtain ⟨_, ⟨route, h, _⟩, _⟩ := h
  unfold staticRouteChanged at h
  split_ifs at h
  · simp only [Rule.derivesFrom_oneOf_cons, patchportRoute, nextHopRoute, lrouteArray,
      Rule.derivesFrom_bind, Rule.derivesFrom_fact] at h
    rcases h with ⟨route, ⟨r, hr, hroute⟩, _⟩ | ⟨route, ⟨r, hr, hroute⟩, _⟩ | h
    · exact ⟨r, route, hr, hroute⟩
    · exact ⟨r, route, hr, hroute⟩
    · exact absurd h Rule.derivesFrom_oneOf_nil
  · simp only [nextHopRoute, lrouteArray, Rule.derivesFrom_bind, Rule.derivesFrom_fact] at h
    obtain ⟨route, ⟨r, hr, hroute⟩, _⟩ := h
    exact ⟨r, route, hr, hroute⟩

end rules

/-! ### Maintenance -/

/-- One round of a node that maintains the flows of static routes. -/
abbrev staticRound (x : Extra) (opts : Options) :
    FlowNode Match Action → Round Match Action → Option (FlowNode Match Action) :=
  FlowNode.round x (buildFlows (staticRouteFlows x opts))

/-- **Static routes over runs**: after every round the table holds exactly the flows of a build from
scratch iff in no round a static route loses a next hop, keeps another one and gains none. -/
theorem static_routes_maintained_iff (x : Extra) (opts : Options)
    (rounds : List (Round Match Action)) :
    (∀ bs, bs <+: rounds → ∀ s,
        run (staticRound x opts) (FlowNode.start fun _ => none) bs = some s →
        Exact s.table (FlowNode.Fresh (staticRouteFlows x opts) s.zoo)) ↔
      Meets (staticRound x opts)
        (fun s rd => NoOrphan (staticRouteFlows x opts) (s.changed x rd).clauses)
        (FlowNode.start fun _ => none) rounds := by
  refine FlowNode.maintained_iff (atMost_staticRouteFlows x opts) (by omega) ?_ rounds
  intro f h
  obtain ⟨r, route, rfl, hroute⟩ := lsr_of_staticRouteFlows x h
  cases hroute

/-- Router `n` with a port at `10.0.0.n` that is attached to switch `LS-1`. -/
def attachRouter (n : String) : List Zoo.Change :=
  [.addEntity (.LR ("LR-" ++ n) (some n) none),
    .addEntity (.lrp ("lrp-" ++ n) (some ("10.0.0." ++ n)) (some "24")
      (some ("f2:01:0a:00:00:0" ++ n))
      ("LR-" ++ n) (some ("lsp-" ++ n))),
    .addEntity (.lsp ("lsp-" ++ n) (some ("10.0.0." ++ n)) (some ("f2:01:0a:00:00:0" ++ n)) "LS-1"
      none (some ("lrp-" ++ n)))]

/-- Routers `2` and `3` stand behind the outport of a route of router `1`; then `3` is deleted. -/
def twoNextHops : List (Round Match Action) :=
  [.ofChanges (attachRouter "1" ++ attachRouter "2" ++ attachRouter "3" ++
      [.addEntity (.lsr "route" (some "20.0.0.0") (some "24") (some "10.0.0.2") (some "lrp-1")
        "LR-1")]),
    .ofChanges [.moveEntity2sink .LR "LR-3"]]

/-- The key of the flow of the route. -/
def routeKey : FlowKey Match :=
  ⟨TABLE_LRP_INGRESS_IP_ROUTE, calPriority 24 1 0,
    [.datapath "1", .ipProto, .ipDstPrefix 0x14000000 24]⟩

set_option maxRecDepth 100000 in
/-- The flow is gone although router `2` still makes it derivable. -/
theorem static_routes_not_maintained : ¬ ∀ (x : Extra) (opts : Options)
    (rounds : List (Round Match Action)) (s : FlowNode Match Action),
    run (staticRound x opts) (FlowNode.start fun _ => none) rounds = some s →
    Exact s.table (FlowNode.Fresh (staticRouteFlows x opts) s.zoo) := by
  intro h
  have hfinal : ∀ s ∈ run (staticRound (.node false "hyper1") ⟨false, false, false, none⟩)
      (FlowNode.start fun _ => none) twoNextHops, s.table routeKey = none ∧
        ∃ d ∈ (staticRouteFlows (.node false "hyper1") ⟨false, false, false, none⟩).eval
          s.zoo.clauses, d.1.1 = routeKey := by
    decide +kernel
  obtain ⟨s, hs⟩ := Option.isSome_iff_exists.mp (FlowNode.run_isSome _ _ _ twoNextHops)
  obtain ⟨hnone, ⟨⟨k, a⟩, sup⟩, hd, rfl⟩ := hfinal s hs
  exact ((h _ _ _ s hs) routeKey).2 hnone a (FlowNode.fresh_of_mem_eval hd)

end IpRoute

end TupleNet
