import TupleNet.Flow.RouteTable
import TupleNet.Flow.SwitchStages

/-! # The stages of a router

The rules of `lrp_ingress.py` and `lrp_egress.py` and of `ecmp.py` besides the routes.  A router
answers echo requests, drops what has no hops left, translates addresses, looks up the route and the
Ethernet address of the next hop, and gives the packet to the switch behind the port.  What it does
when it does not know the Ethernet address depends on the options. -/

namespace TupleNet

open Datalog LogicalView IpRoute AddrXlate RouteTable

namespace RouterStages

section stages
variable (x : Extra) (opts : Options)

/-- A flow that every router has. -/
def everyRouter (priority : ℕ) (m : Match) (a : Action) : Query LrFlow := do
  let lr ← lrArray x
  pure (lr, priority, m, a)

/-! ### Ingress -/

/-- `_live_lsp_link_lrp`. -/
def liveLspLinkLrp : Query LspLinkLrp :=
  if opts.gateway then Rule.oneOf [
    (do
      let link ← lspLinkLrp x
      Rule.guard (link.lr.chassis = none)
      pure link),
    (do
      let link ← lspLinkLrp x
      let phyChassis ← chassisArray
      Rule.guard (link.lr.chassis = some phyChassis.uuid)
      pure link)]
  else lspLinkLrp x

/-- `lrp_pkt_response` to an echo request. -/
def echoReply : Query LrFlow := do
  let link ← liveLspLinkLrp x opts
  pure (link.lr, 3, [.icmpProto, .icmpType 8, .icmpCode 0, .ipDst link.lrp.ipInt 32],
    [.exchange .ipSrc .ipDst, .loadNum 0xff .ipTtl, .loadNum 0 .icmpType,
      .move (.all .regSrc) (.all .regDst), .loadFlag .LOOPBACK, .resubmitNext])

/-- `lrp_pkt_response`. -/
def lrpPktResponse : Query LrFlow :=
  Rule.oneOf [echoReply x opts, everyRouter x 0 [.ipProto] [.resubmitNext]]

/-- `lrp_drop_unexpect`. -/
def lrpDropUnexpect : Query LrFlow := Rule.oneOf [
  everyRouter x 2 [.ipProto, .ipTtl 1] [.resubmitTable TABLE_DROP_PACKET],
  everyRouter x 0 [.ipProto] [.decTtl, .resubmitNext]]

/-- `ecmp_static_route_judge` for a slave of a bundle. -/
def ecmpJudgeSlave : Query LrFlow := do
  let route ← lrouteArray
  let port ← nextHopOvsport x
  Rule.guard (route.outport = some port.1.uuid)
  let lr ← lrArray x
  Rule.guard (route.lrUuid = lr.uuid)
  let lrp ← lrpArray
  Rule.guard (route.outport = some lrp.uuid ∧ lrp.lrUuid = lr.uuid)
  pure (lr, calPriority route.prefixLen 2 0,
    [.regOutport port.2, .ipProto, .ipDstPrefix route.ipInt route.prefixLen],
    towards lrp (.loadNum route.nextHopInt .reg2))

/-- `ecmp_static_route_judge`. -/
def ecmpStaticRouteJudge : Query LrFlow := Rule.oneOf (
  (if opts.gateway then [] else [ecmpJudgeSlave x,
    everyRouter x 1 [.regOutport TP_OFPORT_NONE] [.resubmitTable TABLE_DROP_PACKET]]) ++
  [everyRouter x 0 [.matchNone] [.resubmitNext]])

/-! ### Egress -/

/-- `opposite_side_changed_lsp`. -/
def oppositeSideChangedLsp : Query (Lr × LrpFact × Lsp) := Rule.oneOf [
  (do
    let link ← lspLinkLrp x
    let lsp ← exchangeLspArray
    Rule.guard (lsp.lsUuid = link.ls.uuid)
    pure (link.lr, link.lrp, lsp)),
  (do
    let lrp ← lrpArray
    let lsp₁ ← exchangeLspArray
    Rule.guard (lrp.peer = some lsp₁.uuid ∧ lsp₁.peer = some lrp.uuid)
    let ls ← lsArray
    Rule.guard (lsp₁.lsUuid = ls.uuid)
    let lr ← lrArray x
    Rule.guard (lrp.lrUuid = lr.uuid)
    let lsp ← lspArray
    Rule.guard (lsp.lsUuid = ls.uuid)
    Rule.guard (lsp.chassis ≠ none)
    pure (lr, lrp, lsp))]

/-- `opposite_side_has_patch_port`. -/
def oppositeSideHasPatchPort : Query (Lr × LrpFact) := do
  let port ← localPatchport x
  let link ← lspLinkLrp x
  Rule.guard (link.ls = port.2)
  pure (link.lr, link.lrp)

/-- `lrp_update_eth_dst` for a port behind the router port. -/
def updateKnown : Query LrFlow := do
  let lsp ← oppositeSideChangedLsp x
  pure (lsp.1, 3, [.ipProto, .regDst lsp.2.1.portID, .reg2 lsp.2.2.ipInt],
    [.loadNum lsp.2.2.macInt .ethDst, .resubmitNext])

/-- `lrp_update_eth_dst`. -/
def lrpUpdateEthDst : Query LrFlow := Rule.oneOf [updateKnown x,
  everyRouter x 2 [.matchNone]
    [.modDlDst 0, .resubmitTable TABLE_SEARCH_IP_MAC, .resubmitNext]]

/-- `lrp_handle_unknow_dst_pkt` with a patch port behind the router port. -/
def askForMac : Query LrFlow := do
  let port ← oppositeSideHasPatchPort x
  pure (port.1, 3, [.ipProto, .ethDst 0, .regDst port.2.portID],
    [.generateArp TABLE_LRP_EGRESS_FORWARD_PACKET, .resubmitTable TABLE_DROP_PACKET])

/-- What `lrp_handle_unknow_dst_pkt` of priority `2` does, by the options. -/
def unknownActions : List Action :=
  if opts.enableRedirect then
    [.loadFlag .REDIRECT :: (if x.onDemand then [.uploadUnknowDst] else []) ++
      [.resubmitTable TABLE_EMBED2_METADATA, .resubmitTable TABLE_REDIRECT_CHASSIS]]
  else if x.onDemand then [[.uploadUnknowDst]]
  else []

/-- `lrp_handle_unknow_dst_pkt`. -/
def lrpHandleUnknowDstPkt : Query LrFlow := Rule.oneOf (
  [everyRouter x 4 [.regFlag .REDIRECT, .ethDst 0] [.resubmitTable TABLE_DROP_PACKET],
    askForMac x] ++
  (unknownActions x opts).map (fun a => everyRouter x 2 [.ipProto, .ethDst 0] a) ++
  [everyRouter x 1 [.ethDst 0] [.resubmitTable TABLE_DROP_PACKET],
    everyRouter x 0 [.matchNone] [.resubmitNext]])

/-- `lrp_forward_packet`. -/
def lrpForwardPacket : Query LrFlow := do
  let link ← lspLinkLrp x
  pure (link.lr, 3, [.regDst link.lrp.portID], [.loadId (Props.strOf link.ls.lsID) .regDp,
    .loadNum link.lsp.portID .regSrc, .resubmitNext])

/-! ### Flows -/

/-- The stages of `nat.py` for packets that no rule is about. -/
def natDefaults : List (Rule Row State (FlowKey Match × Action)) := [
  buildFlowsLrp TABLE_LRP_INGRESS_UNSNAT_STAGE1 "lrp_ip_unsnat_stage1"
    (everyRouter x 0 [.matchNone] [.resubmitNext]),
  buildFlowsLrp TABLE_LRP_INGRESS_UNSNAT_STAGE2 "lrp_ip_unsnat_stage2"
    (everyRouter x 0 [.matchNone] [.resubmitNext]),
  buildFlowsLrp TABLE_LRP_INGRESS_DNAT_STAGE1 "lrp_ip_dnat_stage1"
    (everyRouter x 0 [.matchNone] [.resubmitNext]),
  buildFlowsLrp TABLE_LRP_INGRESS_DNAT_STAGE2 "lrp_ip_dnat_stage2"
    (everyRouter x 0 [.matchNone] [.resubmitNext]),
  buildFlowsLrp TABLE_LRP_EGRESS_UNDNAT_STAGE1 "lrp_ip_undnat_stage1"
    (everyRouter x 0 [.matchNone] [.resubmitNext]),
  buildFlowsLrp TABLE_LRP_EGRESS_UNDNAT_STAGE2 "lrp_ip_undnat_stage2"
    (everyRouter x 0 [.matchNone] [.resubmitNext]),
  buildFlowsLrp TABLE_LRP_EGRESS_SNAT_STAGE1 "lrp_ip_snat_stage1"
    (everyRouter x 0 [.matchNone] [.resubmitNext]),
  buildFlowsLrp TABLE_LRP_EGRESS_SNAT_STAGE2 "lrp_ip_snat_stage2"
    (everyRouter x 0 [.matchNone] [.resubmitNext])]

/-- The rules of `build_flows_lrp` with a state, without the routes. -/
def routerRules : List (Rule Row State (FlowKey Match × Action)) :=
  stageFlows x ++ natDefaults x ++ [
  buildFlowsLrp TABLE_LRP_INGRESS_PKT_RESPONSE "lrp_pkt_response" (lrpPktResponse x opts),
  buildFlowsLrp TABLE_LRP_INGRESS_DROP_UNEXPECT "lrp_drop_unexpect" (lrpDropUnexpect x),
  buildFlowsLrp TABLE_LRP_INGRESS_ECMP "lrp_ecmp_judge" (ecmpStaticRouteJudge x opts),
  buildFlowsLrp TABLE_LRP_EGRESS_UPDATE_ETH_DST "lrp_update_eth_dst" (lrpUpdateEthDst x),
  buildFlowsLrp TABLE_LRP_EGRESS_HANDLE_UNK_PKT "lrp_handle_unknow_dst_pkt"
    (lrpHandleUnknowDstPkt x opts),
  buildFlowsLrp TABLE_LRP_EGRESS_FORWARD_PACKET "lrp_forward_packet" (lrpForwardPacket x)]

end stages

end RouterStages

end TupleNet
