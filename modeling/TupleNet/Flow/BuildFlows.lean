import TupleNet.Flow.LongestPrefix
import TupleNet.Flow.RouterStages

/-! # All flows

The remaining rules and the flows that are installed once: `physical_flow.py`, `middle_table.py`,
`pkt_trace.py`, and `build_flows` and `build_const_flows` of `lflow.py`, which join all of them. -/

namespace TupleNet

open Datalog KeyedTable LogicalView IpRoute AddrXlate RouteTable LongestPrefix Redirect SwitchStages
  RouterStages

namespace BuildFlows

/-! ### Ports -/

section physical
variable (x : Extra)

/-- `convert_phy_logical` for a tunnel port. -/
def convertTunnel : Query (ℕ × Match × Action) := do
  let phyChassis ← remoteChassis
  pure (2, [.inPort phyChassis.ofport], [.resubmitTable TABLE_EXTRACT_METADATA,
    .loadFlag .LOOPBACK, .resubmitTable TABLE_PIPELINE_FORWARD])

/-- `convert_phy_logical` for a port of a switch. -/
def convertLocal : Query (ℕ × Match × Action) := do
  let lsp ← localBondLsp x
  pure (2, [.inPort lsp.1.ofport], [.loadNum lsp.1.portID .regSrc,
    .loadId (Props.strOf lsp.2.lsID) .regDp, .resubmitNext])

/-- `build_flows_phy` for the first table. -/
def convertPhyLogical : Rule Row State (FlowKey Match × Action) := do
  let flow ← Rule.oneOf [convertTunnel, convertLocal x]
  pure (⟨TABLE_CONVERT_PHY_LOGICAL, flow.1, flow.2.1⟩,
    flow.2.2 ++ [.note "convert_phy_logical"])

end physical

/-! ### Flows that are installed once -/

/-- `output_pkt_by_reg`. -/
def outputPktByReg : List (ℕ × Match × Action) := [
  (1, [.regOutport TP_OFPORT_NONE], [.resubmitTable TABLE_DROP_PACKET]),
  (0, [.matchNone], [.outputReg .regOutport])]

/-- `build_flows_phy` without a state. -/
def constFlowsPhy : List (FlowKey Match × Action) :=
  outputPktByReg.map (fun f => (⟨TABLE_OUTPUT_PKT, f.1, f.2.1⟩, f.2.2 ++ [.note "output_pkt"])) ++
  outputPktByReg.map (fun f => (⟨TABLE_OUTPUT_PKT, f.1 + 10, .regFlag .TRACE :: f.2.1⟩,
    [.uploadTrace, .move (.range .regFlag 0 31) (.range .tunMetadata0 32 63)] ++ f.2.2 ++
      [.note "pkt_trace_output_pkt"]))

/-- `embed_metadata`. -/
def embedMetadata : Action := [
  .move (.range .regDp 0 23) (.range .tunId 0 23),
  .move (.range .regSrc 0 15) (.range .tunMetadata0 0 15),
  .move (.range .regDst 0 15) (.range .tunMetadata0 16 31),
  .move (.range .regFlag 0 31) (.range .tunMetadata0 32 63)]

/-- `extract_metadata`. -/
def extractMetadata : Action := [
  .move (.range .tunId 0 23) (.range .regDp 0 23),
  .move (.range .tunMetadata0 0 15) (.range .regSrc 0 15),
  .move (.range .tunMetadata0 16 31) (.range .regDst 0 15),
  .move (.range .tunMetadata0 32 63) (.range .regFlag 0 31)]

/-- `pipeline_forward`. -/
def pipelineForward : List (ℕ × Match × Action) := [
  (1, [.ipProto, .ethDst 0, .regFlag .REDIRECT], [.resubmitTable TABLE_LRP_INGRESS_IP_ROUTE]),
  (0, [.matchNone], [.resubmitTable TABLE_LSP_EGRESS_FIRST])]

/-- `build_flows_mid` without a state. -/
def constFlowsMid : List (FlowKey Match × Action) := [
  (⟨TABLE_EMBED2_METADATA, 0, [.matchNone]⟩, embedMetadata ++ [.note "embed_metadata"]),
  (⟨TABLE_EXTRACT_METADATA, 0, [.matchNone]⟩, extractMetadata ++ [.note "extract_metadata"])] ++
  pipelineForward.map (fun f =>
    (⟨TABLE_PIPELINE_FORWARD, f.1, f.2.1⟩, f.2.2 ++ [.note "pipeline_forward"])) ++
  [(⟨TABLE_REDIRECT_CHASSIS, 0, [.matchNone]⟩,
    [.resubmitTable TABLE_DROP_PACKET, .note "redirect_other_chassis"])]

/-- `trace_pipeline_start` in a table: what is done before, and the note. -/
def tracePipelineStart (table : ℕ) (before : Action) (note : String) :
    List (FlowKey Match × Action) := [
  (⟨table, 100, [.regFlag .TRACE]⟩, before ++ [.uploadTrace, .resubmitNext, .note note]),
  (⟨table, 0, [.matchNone]⟩, before ++ [.resubmitNext, .note note])]

/-- `trace_pipeline_end` in a table, with the table that follows; `push` does nothing here. -/
def tracePipelineEnd (table next : ℕ) (note : String) : List (FlowKey Match × Action) := [
  (⟨table, 100, [.regFlag .TRACE]⟩, [.uploadTrace, .resubmitTable next, .note note]),
  (⟨table, 0, [.matchNone]⟩, [.push .regDst, .resubmitTable next, .note note])]

/-- `build_flows_lsp` without a state. -/
def constFlowsLsp : List (FlowKey Match × Action) :=
  tracePipelineStart TABLE_LSP_TRACE_INGRESS_IN [.loadNum 0 .regDst] "pkt_trace_lsp_ingress_in" ++
  tracePipelineStart TABLE_LSP_TRACE_EGRESS_IN [] "pkt_trace_lsp_egress_in" ++ [
  (⟨TABLE_LSP_INGRESS_PROCESS_EXT_LOGIC, 0, [.matchNone]⟩,
    [.resubmitTable TABLE_THIRD_PARTY, .note "process_third_logic"]),
  (⟨TABLE_THIRD_PARTY, 0, [.matchNone]⟩,
    [.resubmitTable (TABLE_LSP_INGRESS_PROCESS_EXT_LOGIC + 1), .note "process_third_logic"])]

/-- `build_flows_lrp` without a state. -/
def constFlowsLrp : List (FlowKey Match × Action) :=
  tracePipelineStart TABLE_LRP_TRACE_INGRESS_IN [.loadNum 0 .regDst] "pkt_trace_lrp_ingress_in" ++
  tracePipelineEnd TABLE_LRP_TRACE_INGRESS_OUT TABLE_LRP_EGRESS_FIRST "pkt_trace_lrp_ingress_out" ++
  tracePipelineStart TABLE_LRP_TRACE_EGRESS_IN [] "pkt_trace_lrp_egress_in" ++
  tracePipelineEnd TABLE_LRP_TRACE_EGRESS_OUT TABLE_LSP_INGRESS_FIRST "pkt_trace_lrp_egress_out"

/-- `build_flows_drop`. -/
def constFlowsDrop : List (FlowKey Match × Action) := [
  (⟨TABLE_DROP_PACKET, 0, [.matchNone]⟩, [.drop]),
  (⟨TABLE_DROP_PACKET, 1, [.regFlag .TRACE]⟩, [.uploadTrace, .note "pkt_trace_drop_packet"])]

/-- `build_const_flows`. -/
def buildConstFlows : List (FlowKey Match × Action) :=
  constFlowsDrop ++ constFlowsPhy ++ constFlowsLsp ++ constFlowsLrp ++ constFlowsMid

/-! ### The table of a bridge -/

section flows
variable (x : Extra) (opts : Options)

/-- The rules of `build_flows` that single derivations give, without the routes. -/
def stateRules : List (Rule Row State (FlowKey Match × Action)) :=
  routerRules x opts ++ switchRules x opts ++ [convertPhyLogical x, arpFlows x]

/-- `build_flows`. -/
def stateFlows (B : List (Row × State)) : List (LFlow Match Action) :=
  (stateRules x opts).flatMap (fun r => buildFlows r B) ++ lrpIpRoute x opts B ++
    redirectOtherChassis x B

/-- The flows of a bridge after a build from scratch: those that the entities give and those that
are installed once. -/
def bridgeFlows (z : Zoo) : List (FlowKey Match × Action) :=
  (stateFlows x opts z.scratch).map (fun l => (l.key, l.action)) ++ buildConstFlows

end flows

/-- `_gen_arp_ip_flow` for an IP and its MAC. -/
def learnedFlow (b : ℕ × ℕ) : FlowKey Match × Action :=
  (⟨TABLE_SEARCH_IP_MAC, 1, [.ipProto, .reg2 b.1]⟩, [.modDlDst b.2])

/-- The flows of a bridge that has learned addresses. -/
def allFlows (x : Extra) (opts : Options) (z : Zoo) (learned : List (ℕ × ℕ)) :
    List (FlowKey Match × Action) :=
  bridgeFlows x opts z ++ learned.map learnedFlow

/-! ### The flows of a build from scratch -/

section scratch
variable {x : Extra} {opts : Options} {z : Zoo} {learned : List (ℕ × ℕ)}
  {f : FlowKey Match × Action}

theorem mem_allFlows : f ∈ allFlows x opts z learned ↔
    (∃ r ∈ stateRules x opts, ∃ s, ⟨f.1, f.2, s⟩ ∈ buildFlows r z.scratch) ∨
      (∃ s, ⟨f.1, f.2, s⟩ ∈ lrpIpRoute x opts z.scratch) ∨
      (∃ s, ⟨f.1, f.2, s⟩ ∈ redirectOtherChassis x z.scratch) ∨
      f ∈ buildConstFlows ∨ ∃ b ∈ learned, learnedFlow b = f := by
  have hrow : ∀ ls : List (LFlow Match Action),
      (∃ l ∈ ls, (l.key, l.action) = f) ↔ ∃ s, ⟨f.1, f.2, s⟩ ∈ ls := by
    intro ls
    constructor
    · rintro ⟨l, hl, rfl⟩
      exact ⟨l.state, hl⟩
    · rintro ⟨s, hs⟩
      exact ⟨_, hs, rfl⟩
  simp only [allFlows, bridgeFlows, stateFlows, List.mem_append, List.mem_map, or_assoc,
    List.map_append, hrow, List.mem_flatMap]
  refine or_congr_left ?_
  constructor
  · rintro ⟨l, ⟨r, hr, hl⟩, rfl⟩
    exact ⟨r, hr, l.state, hl⟩
  · rintro ⟨r, hr, s, hs⟩
    exact ⟨_, ⟨r, hr, hs⟩, rfl⟩

/-- A row of a build from scratch is derived from its rows. -/
theorem derives_of_mem_buildFlows {r : Rule Row State (FlowKey Match × Action)} {s : ℤ}
    (h : ⟨f.1, f.2, s⟩ ∈ buildFlows r z.scratch) : r.DerivesFrom (Built z) f := by
  obtain ⟨sup, hsup, _⟩ := mem_buildFlows.mp h
  exact derivesFrom_built_iff.mpr ⟨sup, hsup⟩

/-- What a rule of few premises derives from the rows of a build is a flow. -/
theorem mem_allFlows_of_derives {r : Rule Row State (FlowKey Match × Action)} {n : ℕ}
    (hmem : r ∈ stateRules x opts) (hr : r.AtMost n) (hn : n < 100)
    (hneed : ∀ f, ¬ r.DerivesFrom (· = tunnelRow) f) (h : r.DerivesFrom (Built z) f) :
    f ∈ allFlows x opts z learned :=
  mem_allFlows.mpr (Or.inl ⟨r, hmem, (mem_buildFlows_scratch hr hn hneed).mpr h⟩)

end scratch

end BuildFlows

end TupleNet
