import TupleNet.Flow.Nat

/-! # The stages of a switch

The rules of `lsp_ingress.py` and `lsp_egress.py`.  A packet of a switch looks up its destination
port by its Ethernet address.  If a tunnel leads to the port, the packet is put out; otherwise it
goes to the egress stages, where the port is one of this node or the peer of a router port.  A
packet that comes to the egress stages for another port goes back to the lookup. -/

namespace TupleNet

open Datalog LogicalView IpRoute AddrXlate

namespace SwitchStages

/-- A flow that every switch has. -/
def everySwitch (priority : ℕ) (m : Match) (a : Action) : Query LsFlow := do
  let ls ← lsArray
  pure (ls, priority, m, a)

section ingress
variable (x : Extra) (opts : Options)

/-! ### Ingress -/

/-- `lsp_arp_controller`. -/
def lspArpController : Query LsFlow := Rule.oneOf (
  (if opts.gateway then [everySwitch 2 [.arpProto, .arpOp 2] [.uploadArp]] else []) ++
  (if x.onDemand then []
    else [everySwitch 1 [.arpProto, .arpOp 1] [.uploadArp, .resubmitNext]]) ++
  [everySwitch 0 [.matchNone] [.resubmitNext]])

/-- `lsp_arp_response`. -/
def lspArpResponse : Query LsFlow := Rule.oneOf [
  everySwitch 2 [.arpProto, .arpOp 1] [.resubmitTable TABLE_ARP_FEEDBACK_CONSTRUCT, .resubmitNext],
  everySwitch 0 [.matchNone] [.resubmitNext]]

/-- `lsp_untunnel_deliver` to the network of a router port. -/
def untunnelLrp : Query LsFlow := do
  let ls ← lsArray
  let link ← lspLinkLrp x
  pure (ls, calPriority link.lrp.prefixLen 2 link.lrp.ilkIdx,
    [.ipProto, .ipDstPrefix link.lrp.ipInt link.lrp.prefixLen], [.resubmitNext])

/-- `lsp_untunnel_deliver`. -/
def lspUntunnelDeliver : Query LsFlow := Rule.oneOf (
  (if opts.enableUntunnel then opts.dsrport.toList.flatMap (fun dsrport =>
    [untunnelLrp x, everySwitch 1 [.ipProto] [.modDlDst dsrport.1, .output dsrport.2]]) else []) ++
  [everySwitch 0 [.matchNone] [.resubmitNext]])

/-- `lsp_lookup_dst_port` for a port of this node. -/
def lookupLocal : Query LsFlow := do
  let lsp ← localLsp x
  pure (lsp.2, 4, [.ethDst lsp.1.macInt], [.loadNum lsp.1.portID .regDst, .resubmitNext])

/-- How the number of a tunnel port gets into `reg4`: with `ENABLE_REDIRECT` it is `0xffff` when the
port is down. -/
def loadOutport (ofport : ℤ) : ActionExp :=
  if opts.enableRedirect then .bundleLoad .regOutport [ofport] else .loadNum ofport .regOutport

/-- `lsp_lookup_dst_port` for a port of another chassis. -/
def lookupRemote : Query LsFlow := do
  let lsp ← remoteLsp x
  pure (lsp.2.1, 3, [.ethDst lsp.1.macInt], [.loadNum lsp.1.portID .regDst,
    loadOutport opts lsp.2.2.ofport, .loadNum 1 .reg5, .resubmitNext])

/-- `lsp_lookup_dst_port` for what no port of the switch is known for: a patch port. -/
def lookupPatchport : Query LsFlow := do
  let lsp ← localPatchport x
  pure (lsp.2, 2, [.matchNone],
    [.loadNum lsp.1.portID .regDst, .resubmitTable TABLE_LSP_EGRESS_FIRST])

/-- `lsp_lookup_dst_port` for an unknown destination. -/
def lookupUnknown : Query LsFlow :=
  if x.onDemand then everySwitch 0 [.matchNone] [.uploadUnknowDst,
    .loadNum TP_OFPORT_NONE .regOutport, .loadNum 1 .reg5, .resubmitNext]
  else everySwitch 0 [.matchNone] [.resubmitTable TABLE_DROP_PACKET]

/-- `lsp_lookup_dst_port`. -/
def lspLookupDstPort : Query LsFlow := Rule.oneOf [lspLookupNat x, lookupLocal x,
  lookupRemote x opts, lookupPatchport x, lookupUnknown x]

/-- `lsp_output_dst_port`. -/
def lspOutputDstPort : Query LsFlow := Rule.oneOf (
  (if opts.enableRedirect then
    [everySwitch 4 [.reg5 1, .regFlag .REDIRECT, .regOutport TP_OFPORT_NONE]
        [.resubmitTable TABLE_DROP_PACKET],
      everySwitch 3 [.reg5 1, .regOutport TP_OFPORT_NONE] [.resubmitTable TABLE_REDIRECT_CHASSIS]]
    else []) ++
  [everySwitch 2 [.reg5 1] [.resubmitTable TABLE_EMBED2_METADATA, .resubmitTable TABLE_OUTPUT_PKT],
    everySwitch 1 [.matchNone] [.resubmitTable TABLE_LSP_EGRESS_FIRST]])

/-! ### Egress -/

/-- `lsp_judge_loopback`. -/
def lspJudgeLoopback : Query LsFlow := Rule.oneOf [
  everySwitch 2 [.regFlag .LOOPBACK] [.loadNum TP_OFPORT_NONE .inPort, .resubmitNext],
  everySwitch 0 [.matchNone] [.resubmitNext]]

/-- `lsp_forward_packet` to a port of this node. -/
def forwardLocal : Query LsFlow := do
  let lsp ← localBondLsp x
  pure (lsp.2, 3, [.regDst lsp.1.portID],
    [.loadNum 1 .reg5, .loadNum lsp.1.ofport .regOutport, .resubmitNext])

/-- `lsp_forward_packet` to a router. -/
def forwardLrp : Query LsFlow := do
  let link ← lspLinkLrp x
  pure (link.ls, 2, [.regDst link.lsp.portID],
    [.loadNum link.lr.lrID .reg6, .loadNum link.lrp.portID .reg7, .resubmitNext])

/-- `lsp_forward_packet`.  The last two send back what is for a port of another chassis. -/
def lspForwardPacket : Query LsFlow := Rule.oneOf [forwardLocal x, forwardLrp x,
  everySwitch 0 [.ipProto] [.loadFlag .REDIRECT, .resubmitTable TABLE_LSP_INGRESS_LOOKUP_DST_PORT],
  everySwitch 0 [.arpProto, .arpOp 1] [.loadFlag .REDIRECT,
    .resubmitTable TABLE_ARP_FEEDBACK_CONSTRUCT, .resubmitTable TABLE_LSP_INGRESS_LOOKUP_DST_PORT]]

/-- `lsp_pushout_packet`. -/
def lspPushoutPacket : Query LsFlow := Rule.oneOf [
  everySwitch 2 [.reg5 1] [.resubmitTable TABLE_OUTPUT_PKT],
  everySwitch 1 [.matchNone] [.move (.range .reg6 0 23) (.range .regDp 0 23),
    .move (.all .reg7) (.all .regSrc), .loadNum 0 .reg6, .loadNum 0 .reg7,
    .resubmitTable TABLE_LRP_TRACE_INGRESS_IN]]

/-! ### Flows -/

/-- `build_flows_lsp` for the flows that also trace the packet. -/
def buildTraceLsp (table : ℕ) (note : String) (r : Query LsFlow) :
    Rule Row State (FlowKey Match × Action) := do
  let flow ← r
  pure (⟨table, flow.2.1 + 10,
    .regFlag .TRACE :: flow.2.2.1 ++ [.datapath (Props.strOf flow.1.lsID)]⟩,
    .uploadTrace :: flow.2.2.2 ++ [.note note])

/-- The rules of `build_flows_lsp` with a state. -/
def switchRules : List (Rule Row State (FlowKey Match × Action)) := [
  buildFlowsLsp TABLE_LSP_INGRESS_UNTUNNEL "lsp_untunnel_deliver" (lspUntunnelDeliver x opts),
  buildFlowsLsp TABLE_LSP_INGRESS_OUTPUT_DST_PORT "lsp_output_dst_port" (lspOutputDstPort opts),
  buildFlowsLsp TABLE_LSP_INGRESS_LOOKUP_DST_PORT "lsp_lookup_dst_port" (lspLookupDstPort x opts),
  buildFlowsLsp TABLE_LSP_INGRESS_ARP_CONTROLLER "lsp_arp_controller" (lspArpController x opts),
  buildFlowsLsp TABLE_LSP_INGRESS_ARP_RESPONSE "lsp_arp_response" lspArpResponse,
  buildFlowsLsp TABLE_LSP_EGRESS_JUDGE_LOOPBACK "lsp_judge_loopback" lspJudgeLoopback,
  buildFlowsLsp TABLE_LSP_EGRESS_FORWARD_PACKET "lsp_forward_packet" (lspForwardPacket x),
  buildFlowsLsp TABLE_LSP_EGRESS_PUSHOUT "lsp_pushout_packet" lspPushoutPacket,
  buildTraceLsp TABLE_LSP_TRACE_INGRESS_OUT "pkt_trace_lsp_output_dst_port" (lspOutputDstPort opts),
  buildTraceLsp TABLE_LSP_TRACE_EGRESS_OUT "pkt_trace_lsp_pushout_packet" lspPushoutPacket]

end ingress

end SwitchStages

end TupleNet
