import TupleNet.Flow.BuildFlows
import TupleNet.Flow.Packet

/-! # The forms of flows

What the flows of a bridge look like.  Most of them are `plain`: they write none of a few fields,
put nothing out and look up a later table of their own pipeline.  `Form` lists the others, with the
facts that they are made of and, where it matters, the flow that takes some of their packets
(`Beaten`).  Every flow of a build from scratch has one of these forms (`form_of_mem`), so a
property of all flows is a case for each form. -/

namespace TupleNet

open Datalog LogicalView IpRoute AddrXlate Ecmp RouteTable LongestPrefix Redirect SwitchStages
  RouterStages BuildFlows

namespace Forms

/-! ### Stages -/

/-- The tables from the last stage to the first. -/
def stages : List ℕ := [TABLE_DROP_PACKET, TABLE_ARP_FEEDBACK_CONSTRUCT, TABLE_EMBED2_METADATA,
  TABLE_EXTRACT_METADATA, TABLE_SEARCH_IP_MAC, TABLE_OUTPUT_PKT, TABLE_REDIRECT_CHASSIS,
  TABLE_LRP_INGRESS_DROP_UNEXPECT, TABLE_LRP_INGRESS_PKT_RESPONSE, TABLE_LRP_TRACE_INGRESS_IN,
  TABLE_LSP_EGRESS_PUSHOUT, TABLE_LSP_EGRESS_FORWARD_PACKET, TABLE_LSP_EGRESS_JUDGE_LOOPBACK,
  TABLE_LSP_TRACE_EGRESS_IN, TABLE_LSP_INGRESS_OUTPUT_DST_PORT, TABLE_LSP_INGRESS_LOOKUP_DST_PORT,
  TABLE_LSP_INGRESS_UNTUNNEL, TABLE_LSP_INGRESS_ARP_RESPONSE, TABLE_LSP_INGRESS_ARP_CONTROLLER,
  TABLE_THIRD_PARTY, TABLE_LSP_INGRESS_PROCESS_EXT_LOGIC, TABLE_LSP_TRACE_INGRESS_IN,
  TABLE_LRP_TRACE_EGRESS_OUT, TABLE_LRP_EGRESS_FORWARD_PACKET, TABLE_LRP_EGRESS_HANDLE_UNK_PKT,
  TABLE_LRP_EGRESS_UPDATE_ETH_DST, TABLE_LRP_EGRESS_SNAT_STAGE2, TABLE_LRP_EGRESS_SNAT_STAGE1,
  TABLE_LRP_EGRESS_UNDNAT_STAGE2, TABLE_LRP_EGRESS_UNDNAT_STAGE1, TABLE_LRP_TRACE_EGRESS_IN,
  TABLE_LRP_TRACE_INGRESS_OUT, TABLE_LRP_INGRESS_ECMP, TABLE_LRP_INGRESS_IP_ROUTE,
  TABLE_LRP_INGRESS_DNAT_STAGE2, TABLE_LRP_INGRESS_DNAT_STAGE1, TABLE_LRP_INGRESS_UNSNAT_STAGE2,
  TABLE_LRP_INGRESS_UNSNAT_STAGE1, TABLE_PIPELINE_FORWARD, TABLE_CONVERT_PHY_LOGICAL]

/-- How many stages follow. -/
def level (t : ℕ) : ℕ := stages.idxOf t

/-- The tables that come back to the flow that looked them up. -/
def helpers : List ℕ := [TABLE_DROP_PACKET, TABLE_ARP_FEEDBACK_CONSTRUCT, TABLE_EMBED2_METADATA,
  TABLE_EXTRACT_METADATA, TABLE_SEARCH_IP_MAC, TABLE_OUTPUT_PKT]

/-- The tables after which a packet that has not found its port is looked up at a router or not at
all. -/
def late : List ℕ := helpers ++ [TABLE_REDIRECT_CHASSIS, TABLE_LRP_INGRESS_DROP_UNEXPECT,
  TABLE_LRP_INGRESS_PKT_RESPONSE, TABLE_LRP_TRACE_INGRESS_IN, TABLE_LSP_EGRESS_PUSHOUT,
  TABLE_LSP_INGRESS_LOOKUP_DST_PORT]

/-- The tables between the lookup of the port and its use. -/
def between : List ℕ := [TABLE_LSP_EGRESS_FORWARD_PACKET, TABLE_LSP_EGRESS_JUDGE_LOOPBACK,
  TABLE_LSP_TRACE_EGRESS_IN, TABLE_LSP_INGRESS_OUTPUT_DST_PORT]

/-- The ingress stages of a switch. -/
def ingress : List ℕ := [TABLE_LSP_TRACE_INGRESS_IN, TABLE_LSP_INGRESS_PROCESS_EXT_LOGIC,
  TABLE_THIRD_PARTY, TABLE_LSP_INGRESS_ARP_CONTROLLER, TABLE_LSP_INGRESS_ARP_RESPONSE,
  TABLE_LSP_INGRESS_UNTUNNEL, TABLE_LSP_INGRESS_LOOKUP_DST_PORT, TABLE_LSP_INGRESS_OUTPUT_DST_PORT]

/-- The egress stages of a switch. -/
def egress : List ℕ := [TABLE_LSP_TRACE_EGRESS_IN, TABLE_LSP_EGRESS_JUDGE_LOOPBACK,
  TABLE_LSP_EGRESS_FORWARD_PACKET, TABLE_LSP_EGRESS_PUSHOUT]

/-- The stages of a router up to the hop. -/
def entrance : List ℕ := [TABLE_LRP_TRACE_INGRESS_IN, TABLE_LRP_INGRESS_PKT_RESPONSE,
  TABLE_LRP_INGRESS_DROP_UNEXPECT]

/-- The stages of a router that know the Ethernet address of the next hop. -/
def exits : List ℕ := [TABLE_LRP_EGRESS_FORWARD_PACKET, TABLE_LRP_TRACE_EGRESS_OUT]

/-- The parts of a bridge. -/
inductive Side where
  | helper
  | redirect
  | port
  | ingress
  | egress
  | entrance
  | exit
  | inner
deriving DecidableEq, Repr

/-- The part that a table belongs to. -/
def side (t : ℕ) : Side :=
  if t ∈ helpers then .helper
  else if t = TABLE_REDIRECT_CHASSIS then .redirect
  else if t = TABLE_CONVERT_PHY_LOGICAL ∨ t = TABLE_PIPELINE_FORWARD then .port
  else if t ∈ ingress then .ingress
  else if t ∈ egress then .egress
  else if t ∈ entrance then .entrance
  else if t ∈ exits then .exit
  else .inner

/-! ### Plain flows -/

/-- The tables that the actions of a table look up, in their order. -/
def jumps (t : ℕ) (as : Action) : List ℕ := as.filterMap (ActionExp.target? t)

/-- The actions write none of these fields. -/
def free (F : List Field) (as : Action) : Bool := as.all (fun a => a.writes.all (fun f => f ∉ F))

/-- The fields that few flows write. -/
def coreFields : List Field :=
  [.icmpType, .ipTtl, .regDp, .reg5, .ethDst, .arpOp, .tunId, .tunMetadata0]

/-- An action that puts nothing out and clears no flag. -/
def quiet : ActionExp → Bool
  | .output _ | .outputReg _ => false
  | .move _ dest | .load _ dest => dest.field ≠ .regFlag
  | .exchange f g => f ≠ .regFlag ∧ g ≠ .regFlag
  | .bundleLoad dest _ => dest ≠ .regFlag
  | _ => true

/-- Actions that write no core field, put nothing out and clear no flag. -/
def steady (as : Action) : Bool := free coreFields as && as.all quiet

/-- A table that plain flows of another table look up.  To where packets are put out only those
flows lead that have looked up the port. -/
def follows (t t' : ℕ) : Bool :=
  level t' < level t ∧ (t' ∈ late ∨ t ∉ late ∧ t ∉ between) ∧
    (t ∉ helpers ∧ t' ≠ TABLE_LSP_INGRESS_OUTPUT_DST_PORT) ∧
    (t' = TABLE_DROP_PACKET ∨ side t' = side t ∧ side t ≠ .port ∨
      side t = .exit ∧ side t' = .ingress)

/-- The helpers whose callers go on. -/
def givers : List ℕ := [TABLE_ARP_FEEDBACK_CONSTRUCT, TABLE_EMBED2_METADATA, TABLE_EXTRACT_METADATA,
  TABLE_SEARCH_IP_MAC]

/-- A flow that looks up at most one table, one that follows. -/
def plain (t : ℕ) (as : Action) : Bool :=
  steady as && (jumps t as).all (follows t) && decide ((jumps t as).length ≤ 1) &&
    decide (t ∉ givers)

/-! ### Forms -/

/-- The match of a stage of a datapath: at least these expressions. -/
def At (id : String) (m : Match) (k : FlowKey Match) : Prop := ∀ e ∈ .datapath id :: m, e ∈ k.mtch

/-- A flow of the table with a higher priority takes the packets that satisfy these expressions,
too. -/
def Beaten (fl : Flows) (k : FlowKey Match) (m : Match) : Prop := ∃ g ∈ fl, g.1.table = k.table ∧
  k.priority < g.1.priority ∧ ∀ e ∈ g.1.mtch, e ∈ k.mtch ∨ e ∈ m

section forms
variable (fl : Flows) (idOf : String → ℕ)

/-- A flow of the table with a higher priority takes all packets of a switch that satisfy this. -/
def Outdone (k : FlowKey Match) (ls : Ls) (e : MatchExp) : Prop := ∃ g ∈ fl, g.1.table = k.table ∧
  k.priority < g.1.priority ∧ g.1.mtch = [.datapath (Props.strOf ls.lsID), e]

/-- The switch has a flow that forwards packets for the port. -/
def Forwards (dp port : ℕ) : Prop := ∃ f ∈ fl, f.1.table = TABLE_LSP_EGRESS_FORWARD_PACKET ∧
  0 < f.1.priority ∧ ∃ id, f.1.mtch = [.datapath id, .regDst port] ∧ idOf id = dp

variable (x : Extra) (opts : Options) (z : Zoo)

/-- What the flows of a bridge look like. -/
inductive Form : FlowKey Match × Action → Prop where
  | plain {k : FlowKey Match} {as : Action} (h : plain k.table as = true) : Form (k, as)
  /-- A packet comes in by a tunnel. -/
  | tunnel (c : ChassisPort) (hc : remoteChassis.DerivesFrom (Built z) c) (note : String) : Form
      (⟨TABLE_CONVERT_PHY_LOGICAL, 2, [.inPort c.ofport]⟩,
        [.resubmitTable TABLE_EXTRACT_METADATA, .loadFlag .LOOPBACK,
          .resubmitTable TABLE_PIPELINE_FORWARD, .note note])
  /-- A packet comes in by a port of this node. -/
  | enter (lsp : LspPort × Ls) (hlsp : (localBondLsp x).DerivesFrom (Built z) lsp) (note : String) :
      Form (⟨TABLE_CONVERT_PHY_LOGICAL, 2, [.inPort lsp.1.ofport]⟩,
        [.loadNum lsp.1.portID .regSrc, .loadId (Props.strOf lsp.2.lsID) .regDp, .resubmitNext,
          .note note])
  /-- The first egress stages of a switch. -/
  | egress {k : FlowKey Match} {as : Action}
      (htable : k.table = TABLE_LSP_TRACE_EGRESS_IN ∨ k.table = TABLE_LSP_EGRESS_JUDGE_LOOPBACK)
      (hsteady : steady as = true) (hdst : free [.regDst] as = true)
      (hjumps : jumps k.table as = [k.table + 1]) : Form (k, as)
  /-- An ARP request that this node may know the answer to. -/
  | respond {k : FlowKey Match} (htable : k.table = TABLE_LSP_INGRESS_ARP_RESPONSE)
      (note : String) : Form (k, [.resubmitTable TABLE_ARP_FEEDBACK_CONSTRUCT, .resubmitNext,
        .note note])
  /-- To the port of the host. -/
  | untunnel {k : FlowKey Match} (dsrport : ℕ × ℤ) (hopts : opts.dsrport = some dsrport)
      (htable : k.table = TABLE_LSP_INGRESS_UNTUNNEL) (note : String) :
      Form (k, [.modDlDst dsrport.1, .output dsrport.2, .note note])
  /-- The lookup finds a port that the switch has a forwarding flow for. -/
  | found {k : FlowKey Match} {ls : Ls} {lsp : Lsp} {as : Action}
      (htable : k.table = TABLE_LSP_INGRESS_LOOKUP_DST_PORT) (hm : At (Props.strOf ls.lsID) [] k)
      (hforwards : Forwards fl idOf (idOf (Props.strOf ls.lsID)) lsp.portID)
      (hsteady : steady as = true) (hdst : free [.regDst] as = true) (hjumps : jumps k.table as =
        [TABLE_LSP_INGRESS_OUTPUT_DST_PORT] ∨ jumps k.table as = [TABLE_LSP_TRACE_EGRESS_IN]) :
      Form (k, .loadNum lsp.portID .regDst :: as)
  /-- The lookup finds a port of another chassis. -/
  | away {k : FlowKey Match} (lsp : Lsp × Ls × ChassisPort)
      (hlsp : (remoteLsp x).DerivesFrom (Built z) lsp)
      (htable : k.table = TABLE_LSP_INGRESS_LOOKUP_DST_PORT)
      (hm : At (Props.strOf lsp.2.1.lsID) [.ethDst lsp.1.macInt] k)
      (houtdone : ∀ own : Lsp × Ls, (localLsp x).DerivesFrom (Built z) own →
        Outdone fl k own.2 (.ethDst own.1.macInt)) (note : String) :
      Form (k, [.loadNum lsp.1.portID .regDst, loadOutport opts lsp.2.2.ofport, .loadNum 1 .reg5,
        .resubmitNext, .note note])
  /-- The lookup finds nothing. -/
  | unknown {k : FlowKey Match} (htable : k.table = TABLE_LSP_INGRESS_LOOKUP_DST_PORT)
      (note : String) : Form (k, [.uploadUnknowDst, .loadNum TP_OFPORT_NONE .regOutport,
        .loadNum 1 .reg5, .resubmitNext, .note note])
  /-- To be put out, but the tunnel is down. -/
  | redirect {k : FlowKey Match} {b : Action} (hb : b = [] ∨ b = [.uploadTrace])
      (htable : k.table = TABLE_LSP_INGRESS_OUTPUT_DST_PORT)
      (hbeaten : Beaten fl k [.regFlag .REDIRECT]) (note : String) :
      Form (k, b ++ [.resubmitTable TABLE_REDIRECT_CHASSIS, .note note])
  /-- To be put out. -/
  | putOut {k : FlowKey Match} {b : Action} (hb : b = [] ∨ b = [.uploadTrace])
      (htable : k.table = TABLE_LSP_INGRESS_OUTPUT_DST_PORT) (hreg5 : .reg5 1 ∈ k.mtch)
      (note : String) : Form (k, b ++ [.resubmitTable TABLE_EMBED2_METADATA,
        .resubmitTable TABLE_OUTPUT_PKT, .note note])
  /-- Not to be put out. -/
  | deliver {k : FlowKey Match} {b : Action} (hb : b = [] ∨ b = [.uploadTrace])
      (htable : k.table = TABLE_LSP_INGRESS_OUTPUT_DST_PORT) (hbeaten : Beaten fl k [.reg5 1])
      (note : String) : Form (k, b ++ [.resubmitTable TABLE_LSP_EGRESS_FIRST, .note note])
  /-- For a port of this node. -/
  | forwardLocal {k : FlowKey Match} (lsp : LspPort × Ls)
      (hlsp : (localBondLsp x).DerivesFrom (Built z) lsp)
      (htable : k.table = TABLE_LSP_EGRESS_FORWARD_PACKET)
      (hm : At (Props.strOf lsp.2.lsID) [.regDst lsp.1.portID] k) (note : String) :
      Form (k, [.loadNum 1 .reg5, .loadNum lsp.1.ofport .regOutport, .resubmitNext, .note note])
  /-- For the peer of a router port. -/
  | forwardLrp {k : FlowKey Match} (lrID : ℤ) (lrpID : ℕ)
      (htable : k.table = TABLE_LSP_EGRESS_FORWARD_PACKET)
      (houtdone : ∀ own : LspPort × Ls, (localBondLsp x).DerivesFrom (Built z) own →
        Outdone fl k own.2 (.regDst own.1.portID)) (note : String) :
      Form (k, [.loadNum lrID .reg6, .loadNum lrpID .reg7, .resubmitNext, .note note])
  /-- From the egress stages back to the lookup. -/
  | fallback {k : FlowKey Match} (htable : k.table = TABLE_LSP_EGRESS_FORWARD_PACKET)
      (hpriority : k.priority = 0) (hip : .ipProto ∈ k.mtch) (note : String) :
      Form (k, [.loadFlag .REDIRECT, .resubmitTable TABLE_LSP_INGRESS_LOOKUP_DST_PORT, .note note])
  | fallbackArp {k : FlowKey Match} (htable : k.table = TABLE_LSP_EGRESS_FORWARD_PACKET)
      (hpriority : k.priority = 0) (harp : .arpProto ∈ k.mtch) (hop : .arpOp 1 ∈ k.mtch)
      (note : String) : Form (k, [.loadFlag .REDIRECT, .resubmitTable TABLE_ARP_FEEDBACK_CONSTRUCT,
        .resubmitTable TABLE_LSP_INGRESS_LOOKUP_DST_PORT, .note note])
  /-- To a port of this node. -/
  | pushOut {k : FlowKey Match} {b : Action} (hb : b = [] ∨ b = [.uploadTrace])
      (htable : k.table = TABLE_LSP_EGRESS_PUSHOUT) (hreg5 : .reg5 1 ∈ k.mtch) (note : String) :
      Form (k, b ++ [.resubmitTable TABLE_OUTPUT_PKT, .note note])
  /-- To a router. -/
  | toRouter {k : FlowKey Match} {b : Action} (hb : b = [] ∨ b = [.uploadTrace])
      (htable : k.table = TABLE_LSP_EGRESS_PUSHOUT) (hbeaten : Beaten fl k [.reg5 1])
      (note : String) : Form (k, b ++ [.move (.range .reg6 0 23) (.range .regDp 0 23),
        .move (.all .reg7) (.all .regSrc), .loadNum 0 .reg6, .loadNum 0 .reg7,
        .resubmitTable TABLE_LRP_TRACE_INGRESS_IN, .note note])
  /-- The answer to an echo request. -/
  | echo {k : FlowKey Match} (htable : k.table = TABLE_LRP_INGRESS_PKT_RESPONSE)
      (hrequest : .icmpType 8 ∈ k.mtch) (note : String) :
      Form (k, [.exchange .ipSrc .ipDst, .loadNum 0xff .ipTtl, .loadNum 0 .icmpType,
        .move (.all .regSrc) (.all .regDst), .loadFlag .LOOPBACK, .resubmitNext, .note note])
  /-- The hop of a router. -/
  | hop {k : FlowKey Match} (htable : k.table = TABLE_LRP_INGRESS_DROP_UNEXPECT)
      (hip : .ipProto ∈ k.mtch) (note : String) : Form (k, [.decTtl, .resubmitNext, .note note])
  /-- The Ethernet address of the next hop is known. -/
  | known {k : FlowKey Match} (mac : ℕ) (htable : k.table = TABLE_LRP_EGRESS_UPDATE_ETH_DST)
      (note : String) : Form (k, [.loadNum mac .ethDst, .resubmitNext, .note note])
  /-- The Ethernet address of the next hop may have been learned. -/
  | search {k : FlowKey Match} (htable : k.table = TABLE_LRP_EGRESS_UPDATE_ETH_DST)
      (note : String) :
      Form (k, [.modDlDst 0, .resubmitTable TABLE_SEARCH_IP_MAC, .resubmitNext, .note note])
  /-- The Ethernet address of the next hop is not known. -/
  | unknownDst {k : FlowKey Match} {b : Action}
      (hb : b = [] ∨ b = [.uploadUnknowDst])
      (htable : k.table = TABLE_LRP_EGRESS_HANDLE_UNK_PKT)
      (hbeaten : Beaten fl k [.regFlag .REDIRECT]) (note : String) :
      Form (k, .loadFlag .REDIRECT :: b ++ [.resubmitTable TABLE_EMBED2_METADATA,
        .resubmitTable TABLE_REDIRECT_CHASSIS, .note note])
  /-- It is known. -/
  | pass {k : FlowKey Match} (htable : k.table = TABLE_LRP_EGRESS_HANDLE_UNK_PKT)
      (hbeaten : Beaten fl k [.ethDst 0]) (note : String) : Form (k, [.resubmitNext, .note note])
  /-- From a router to a switch. -/
  | leave {k : FlowKey Match} (link : LspLinkLrp)
      (htable : k.table = TABLE_LRP_EGRESS_FORWARD_PACKET) (note : String) :
      Form (k, [.loadId (Props.strOf link.ls.lsID) .regDp, .loadNum link.lsp.portID .regSrc,
        .resubmitNext, .note note])
  /-- Out. -/
  | output {k : FlowKey Match} {b : Action} (hb : b = [] ∨ b = [.uploadTrace,
        .move (.range .regFlag 0 31) (.range .tunMetadata0 32 63)])
      (htable : k.table = TABLE_OUTPUT_PKT) (hbeaten : Beaten fl k [.regOutport TP_OFPORT_NONE])
      (note : String) : Form (k, b ++ [.outputReg .regOutport, .note note])
  | outputNone {k : FlowKey Match} {b : Action} (hb : b = [] ∨ b = [.uploadTrace,
        .move (.range .regFlag 0 31) (.range .tunMetadata0 32 63)])
      (htable : k.table = TABLE_OUTPUT_PKT) (note : String) :
      Form (k, b ++ [.resubmitTable TABLE_DROP_PACKET, .note note])
  /-- To a gateway. -/
  | gateways (ofports : List ℤ)
      (hports : ∀ ofport ∈ ofports, ∃ c, (gateway x).DerivesFrom (Built z) c ∧ c.ofport = ofport) :
      Form (redirectKey, redirectAction ofports)
  /-- The answer to an ARP request. -/
  | answer {k : FlowKey Match} (ip mac : ℕ) (htable : k.table = TABLE_ARP_FEEDBACK_CONSTRUCT)
      (harp : .arpProto ∈ k.mtch) (hop : .arpOp 1 ∈ k.mtch) :
      Form (k, [.loadFlag .LOOPBACK, .move (.all .ethSrc) (.all .ethDst), .modDlSrc mac,
        .loadNum 2 .arpOp, .move (.all .arpSha) (.all .arpTha), .loadNum mac .arpSha,
        .move (.all .arpSpa) (.all .arpTpa), .loadNum ip .arpSpa, .move (.all .regSrc)
        (.all .regDst)])
  | embed {k : FlowKey Match} (htable : k.table = TABLE_EMBED2_METADATA) (note : String) :
      Form (k, embedMetadata ++ [.note note])
  | extract {k : FlowKey Match} (htable : k.table = TABLE_EXTRACT_METADATA) (note : String) :
      Form (k, extractMetadata ++ [.note note])
  /-- A packet that another chassis has redirected. -/
  | redirected {k : FlowKey Match} (htable : k.table = TABLE_PIPELINE_FORWARD)
      (hm : ∀ e ∈ [.ipProto, .ethDst 0, .regFlag .REDIRECT], e ∈ k.mtch) (note : String) :
      Form (k, [.resubmitTable TABLE_LRP_INGRESS_IP_ROUTE, .note note])
  /-- A packet for a port of this node. -/
  | arrived {k : FlowKey Match} (htable : k.table = TABLE_PIPELINE_FORWARD)
      (hbeaten : Beaten fl k [.ipProto, .ethDst 0, .regFlag .REDIRECT]) (note : String) :
      Form (k, [.resubmitTable TABLE_LSP_EGRESS_FIRST, .note note])
  | learned {k : FlowKey Match} (mac : ℕ) (htable : k.table = TABLE_SEARCH_IP_MAC) :
      Form (k, [.modDlDst mac])

end forms

/-! ### Flows with one form -/

section flows
variable (fl : Flows) (idOf : String → ℕ) (x : Extra) (opts : Options) (z : Zoo)

/-- All flows of a rule have a form. -/
def Formed (r : Rule Row State (FlowKey Match × Action)) : Prop := r.Only (Form fl idOf x opts z)

variable {fl idOf x opts z}

theorem formed_lrp {table : ℕ} {note : String} {q : Query LrFlow}
    (h : q.Only fun flow => Form fl idOf x opts z (⟨table, flow.2.1,
      .datapath (toString flow.1.lrID) :: flow.2.2.1⟩, flow.2.2.2 ++ [.note note])) :
    Formed fl idOf x opts z (buildFlowsLrp table note q) :=
  h.map fun _ hflow => hflow

theorem formed_lsp {table : ℕ} {note : String} {q : Query LsFlow}
    (h : q.Only fun flow => Form fl idOf x opts z (⟨table, flow.2.1,
      .datapath (Props.strOf flow.1.lsID) :: flow.2.2.1⟩, flow.2.2.2 ++ [.note note])) :
    Formed fl idOf x opts z (buildFlowsLsp table note q) :=
  h.map fun _ hflow => hflow

theorem plain_lrp {table : ℕ} {note : String} {q : Query LrFlow}
    (h : q.Only fun flow => plain table (flow.2.2.2 ++ [.note note]) = true) :
    Formed fl idOf x opts z (buildFlowsLrp table note q) :=
  h.map fun _ hflow => .plain hflow

theorem plain_lsp {table : ℕ} {note : String} {q : Query LsFlow}
    (h : q.Only fun flow => plain table (flow.2.2.2 ++ [.note note]) = true) :
    Formed fl idOf x opts z (buildFlowsLsp table note q) :=
  h.map fun _ hflow => .plain hflow

theorem only_everyRouter {P : LrFlow → Prop} {priority : ℕ} {m : Match} {a : Action}
    (h : ∀ lr, P (lr, priority, m, a)) : (everyRouter x priority m a).Only P :=
  Rule.only_bind fun lr => Rule.only_pure (h lr)

theorem only_everySwitch {P : LsFlow → Prop} {priority : ℕ} {m : Match} {a : Action}
    (h : ∀ ls, P (ls, priority, m, a)) : (everySwitch priority m a).Only P :=
  Rule.only_bind fun ls => Rule.only_pure (h ls)

/-! ### Routers -/

theorem formed_stageFlows : ∀ r ∈ stageFlows x, Formed fl idOf x opts z r := by
  intro r hr
  simp only [stageFlows, List.mem_cons, List.not_mem_nil, or_false] at hr
  rcases hr with rfl | rfl | rfl | rfl | rfl | rfl | rfl | rfl
  · exact plain_lrp (Rule.only_bind fun _ => Rule.only_pure rfl)
  · exact plain_lrp (Rule.only_bind fun _ => Rule.only_pure rfl)
  · exact plain_lrp (Rule.only_bind fun _ => Rule.only_pure rfl)
  · exact plain_lrp (Rule.only_bind fun _ => Rule.only_pure rfl)
  · exact plain_lrp (Rule.only_bind fun _ => Rule.only_bind fun _ => Rule.only_pure rfl)
  · exact plain_lrp (Rule.only_bind fun _ => Rule.only_pure rfl)
  · exact plain_lrp (Rule.only_bind fun _ => Rule.only_pure rfl)
  · exact plain_lrp (Rule.only_bind fun _ => Rule.only_pure rfl)

theorem formed_natDefaults : ∀ r ∈ natDefaults x, Formed fl idOf x opts z r := by
  intro r hr
  simp only [natDefaults, List.mem_cons, List.not_mem_nil, or_false] at hr
  rcases hr with rfl | rfl | rfl | rfl | rfl | rfl | rfl | rfl
  all_goals exact plain_lrp (only_everyRouter fun _ => rfl)

theorem formed_lrpPktResponse : Formed fl idOf x opts z
    (buildFlowsLrp TABLE_LRP_INGRESS_PKT_RESPONSE "lrp_pkt_response" (lrpPktResponse x opts)) := by
  refine formed_lrp (Rule.only_oneOf fun r hr => ?_)
  simp only [List.mem_cons, List.not_mem_nil, or_false] at hr
  rcases hr with rfl | rfl
  · exact Rule.only_bind fun _ => Rule.only_pure (.echo rfl (by simp) _)
  · exact only_everyRouter fun _ => .plain rfl

theorem formed_lrpDropUnexpect : Formed fl idOf x opts z
    (buildFlowsLrp TABLE_LRP_INGRESS_DROP_UNEXPECT "lrp_drop_unexpect" (lrpDropUnexpect x)) := by
  refine formed_lrp (Rule.only_oneOf fun r hr => ?_)
  simp only [List.mem_cons, List.not_mem_nil, or_false] at hr
  rcases hr with rfl | rfl
  · exact only_everyRouter fun _ => .plain rfl
  · exact only_everyRouter fun _ => .hop rfl (by simp) _

theorem formed_ecmpStaticRouteJudge : Formed fl idOf x opts z
    (buildFlowsLrp TABLE_LRP_INGRESS_ECMP "lrp_ecmp_judge" (ecmpStaticRouteJudge x opts)) := by
  refine plain_lrp (Rule.only_oneOf fun r hr => ?_)
  have hslave : (ecmpJudgeSlave x).Only fun flow =>
      plain TABLE_LRP_INGRESS_ECMP (flow.2.2.2 ++ [.note "lrp_ecmp_judge"]) = true :=
    Rule.only_bind fun _ => Rule.only_bind fun _ => Rule.only_bind fun _ => Rule.only_bind fun _ =>
      Rule.only_bind fun _ => Rule.only_bind fun _ => Rule.only_bind fun _ => Rule.only_pure rfl
  rw [List.mem_append] at hr
  split_ifs at hr
  all_goals simp only [List.mem_cons, List.not_mem_nil, or_false, false_or] at hr
  · rw [hr]
    exact only_everyRouter fun _ => rfl
  · rcases hr with (rfl | rfl) | rfl
    · exact hslave
    · exact only_everyRouter fun _ => rfl
    · exact only_everyRouter fun _ => rfl

theorem formed_lrpUpdateEthDst : Formed fl idOf x opts z
    (buildFlowsLrp TABLE_LRP_EGRESS_UPDATE_ETH_DST "lrp_update_eth_dst" (lrpUpdateEthDst x)) := by
  refine formed_lrp (Rule.only_oneOf fun r hr => ?_)
  simp only [List.mem_cons, List.not_mem_nil, or_false] at hr
  rcases hr with rfl | rfl
  · exact Rule.only_bind fun lsp => Rule.only_pure (.known lsp.2.2.macInt rfl _)
  · exact only_everyRouter fun _ => .search rfl _

theorem formed_lrpForwardPacket : Formed fl idOf x opts z
    (buildFlowsLrp TABLE_LRP_EGRESS_FORWARD_PACKET "lrp_forward_packet" (lrpForwardPacket x)) :=
  formed_lrp (Rule.only_bind fun link => Rule.only_pure (.leave link rfl _))

theorem formed_routerRest : ∀ r ∈ stageFlows x ++ natDefaults x ++ [
    buildFlowsLrp TABLE_LRP_INGRESS_PKT_RESPONSE "lrp_pkt_response" (lrpPktResponse x opts),
    buildFlowsLrp TABLE_LRP_INGRESS_DROP_UNEXPECT "lrp_drop_unexpect" (lrpDropUnexpect x),
    buildFlowsLrp TABLE_LRP_INGRESS_ECMP "lrp_ecmp_judge" (ecmpStaticRouteJudge x opts),
    buildFlowsLrp TABLE_LRP_EGRESS_UPDATE_ETH_DST "lrp_update_eth_dst" (lrpUpdateEthDst x),
    buildFlowsLrp TABLE_LRP_EGRESS_FORWARD_PACKET "lrp_forward_packet" (lrpForwardPacket x)],
    Formed fl idOf x opts z r := by
  intro r hr
  simp only [List.mem_append, List.mem_cons, List.not_mem_nil, or_false] at hr
  rcases hr with (hr | hr) | rfl | rfl | rfl | rfl | rfl
  · exact formed_stageFlows r hr
  · exact formed_natDefaults r hr
  · exact formed_lrpPktResponse
  · exact formed_lrpDropUnexpect
  · exact formed_ecmpStaticRouteJudge
  · exact formed_lrpUpdateEthDst
  · exact formed_lrpForwardPacket

end flows

/-! ### Flows that are there -/

section rivals
variable {x : Extra} {opts : Options} {z : Zoo} {learned : List (ℕ × ℕ)}

theorem derivesFrom_everySwitch {S : Row → Prop} {priority : ℕ} {m : Match} {a : Action}
    {flow : LsFlow} : (everySwitch priority m a).DerivesFrom S flow ↔
      ∃ ls, lsArray.DerivesFrom S ls ∧ flow = (ls, priority, m, a) := by
  simp only [everySwitch, Rule.derivesFrom_bind, Rule.derivesFrom_pure]

theorem derivesFrom_everyRouter {S : Row → Prop} {priority : ℕ} {m : Match} {a : Action}
    {flow : LrFlow} : (everyRouter x priority m a).DerivesFrom S flow ↔
      ∃ lr, (lrArray x).DerivesFrom S lr ∧ flow = (lr, priority, m, a) := by
  simp only [everyRouter, Rule.derivesFrom_bind, Rule.derivesFrom_pure]

theorem not_lsArray_of_tunnel (ls : Ls) : ¬ lsArray.DerivesFrom (· = tunnelRow) ls := by
  simp only [lsArray, Rule.derivesFrom_fact, Props.ls?_eq_some]
  rintro ⟨_, rfl, h⟩
  cases h

theorem not_lrArray_of_tunnel (lr : Lr) : ¬ (lrArray x).DerivesFrom (· = tunnelRow) lr := by
  rw [derivesFrom_lrArray]
  rintro ⟨⟨_, rfl, h⟩, _⟩
  cases h

/-- What a query of few premises gives is among the flows of a bridge. -/
theorem mem_of_query {α : Type} {q : Query α} {g : α → FlowKey Match × Action} {n : ℕ} {a : α}
    (hmem : (q >>= fun a => pure (g a)) ∈ stateRules x opts) (hq : q.AtMost n) (hn : n < 100)
    (hneed : ∀ a, ¬ q.DerivesFrom (· = tunnelRow) a) (h : q.DerivesFrom (Built z) a) :
    g a ∈ allFlows x opts z learned := by
  refine mem_allFlows_of_derives hmem (Rule.atMost_bind (n := 0) hq fun _ => Rule.atMost_pure_le _)
    hn (fun f hf => ?_) ?_
  · obtain ⟨a', ha', _⟩ := Rule.derivesFrom_bind.mp hf
    exact hneed a' ha'
  · exact Rule.derivesFrom_bind.mpr ⟨a, h, Rule.derivesFrom_pure.mpr rfl⟩

/-! ### Routers that do not know the Ethernet address -/

theorem atMost_everyRouter (priority : ℕ) (m : Match) (a : Action) :
    (everyRouter x priority m a).AtMost 2 :=
  Rule.atMost_bind (n := 0) (atMost_lrArray x) fun _ => Rule.atMost_pure_le _

theorem atMost_lrpHandleUnknowDstPkt : (lrpHandleUnknowDstPkt x opts).AtMost 8 := by
  refine Rule.atMost_oneOf fun r hr => ?_
  simp only [List.mem_append, List.mem_cons, List.mem_map, List.not_mem_nil, or_false] at hr
  rcases hr with ((rfl | rfl) | ⟨a, _, rfl⟩) | rfl | rfl
  · exact (atMost_everyRouter _ _ _).mono (by omega)
  · exact Rule.atMost_bind (n := 0) (Rule.atMost_bind (m := 3) (n := 5) (atMost_localPatchport x)
      fun _ => Rule.atMost_bind (n := 0) (atMost_lspLinkLrp x) fun _ =>
        Rule.atMost_guard_bind fun _ => Rule.atMost_pure_le _) fun _ => Rule.atMost_pure_le _
  · exact (atMost_everyRouter _ _ _).mono (by omega)
  · exact (atMost_everyRouter _ _ _).mono (by omega)
  · exact (atMost_everyRouter _ _ _).mono (by omega)

/-- What `lrp_handle_unknow_dst_pkt` derives. -/
theorem derivesFrom_lrpHandleUnknowDstPkt {S : Row → Prop} {flow : LrFlow} :
    (lrpHandleUnknowDstPkt x opts).DerivesFrom S flow ↔
      (everyRouter x 4 [.regFlag .REDIRECT, .ethDst 0]
        [.resubmitTable TABLE_DROP_PACKET]).DerivesFrom S flow ∨
      (askForMac x).DerivesFrom S flow ∨
      (∃ a ∈ unknownActions x opts, (everyRouter x 2 [.ipProto, .ethDst 0] a).DerivesFrom S flow) ∨
      (everyRouter x 1 [.ethDst 0] [.resubmitTable TABLE_DROP_PACKET]).DerivesFrom S flow ∨
      (everyRouter x 0 [.matchNone] [.resubmitNext]).DerivesFrom S flow := by
  have happend : ∀ as : List Action, (Rule.oneOf (as.map (fun a => everyRouter x 2
      [.ipProto, .ethDst 0] a) ++ [everyRouter x 1 [.ethDst 0] [.resubmitTable TABLE_DROP_PACKET],
        everyRouter x 0 [.matchNone] [.resubmitNext]])).DerivesFrom S flow ↔
      (∃ a ∈ as, (everyRouter x 2 [.ipProto, .ethDst 0] a).DerivesFrom S flow) ∨
        (everyRouter x 1 [.ethDst 0] [.resubmitTable TABLE_DROP_PACKET]).DerivesFrom S flow ∨
        (everyRouter x 0 [.matchNone] [.resubmitNext]).DerivesFrom S flow := by
    intro as
    induction as with
    | nil => simp
    | cons a as ih => simp [ih, or_assoc]
  unfold lrpHandleUnknowDstPkt
  rw [List.append_assoc, List.cons_append, List.cons_append, List.nil_append,
    Rule.derivesFrom_oneOf_cons, Rule.derivesFrom_oneOf_cons, happend]

theorem not_lrpHandleUnknowDstPkt_of_tunnel (flow : LrFlow) :
    ¬ (lrpHandleUnknowDstPkt x opts).DerivesFrom (· = tunnelRow) flow := by
  simp only [derivesFrom_lrpHandleUnknowDstPkt, derivesFrom_everyRouter, not_lrArray_of_tunnel,
    askForMac, oppositeSideHasPatchPort, localPatchport, Rule.derivesFrom_bind,
    not_lsArray_of_tunnel, false_and, and_false, exists_false, or_self, not_false_eq_true]

theorem mem_of_unknow {flow : LrFlow}
    (h : (lrpHandleUnknowDstPkt x opts).DerivesFrom (Built z) flow) :
    (⟨TABLE_LRP_EGRESS_HANDLE_UNK_PKT, flow.2.1, .datapath (toString flow.1.lrID) :: flow.2.2.1⟩,
      flow.2.2.2 ++ [.note "lrp_handle_unknow_dst_pkt"]) ∈ allFlows x opts z learned := by
  have hmem : buildFlowsLrp TABLE_LRP_EGRESS_HANDLE_UNK_PKT "lrp_handle_unknow_dst_pkt"
      (lrpHandleUnknowDstPkt x opts) ∈ stateRules x opts := by
    simp [stateRules, routerRules]
  exact mem_of_query (g := fun flow : LrFlow => (⟨TABLE_LRP_EGRESS_HANDLE_UNK_PKT, flow.2.1,
      .datapath (toString flow.1.lrID) :: flow.2.2.1⟩,
    flow.2.2.2 ++ [.note "lrp_handle_unknow_dst_pkt"])) hmem atMost_lrpHandleUnknowDstPkt
    (by omega) not_lrpHandleUnknowDstPkt_of_tunnel h

theorem form_lrpHandleUnknowDstPkt {idOf : String → ℕ} {f : FlowKey Match × Action}
    (h : (buildFlowsLrp TABLE_LRP_EGRESS_HANDLE_UNK_PKT "lrp_handle_unknow_dst_pkt"
      (lrpHandleUnknowDstPkt x opts)).DerivesFrom (Built z) f) :
    Form (allFlows x opts z learned) idOf x opts z f := by
  obtain ⟨flow, hflow, hf⟩ := Rule.derivesFrom_bind.mp h
  obtain rfl := Rule.derivesFrom_pure.mp hf
  rcases derivesFrom_lrpHandleUnknowDstPkt.mp hflow with hflow | hflow | ⟨a, ha, hflow⟩ | hflow |
    hflow
  · obtain ⟨lr, _, rfl⟩ := derivesFrom_everyRouter.mp hflow
    exact .plain rfl
  · simp only [askForMac, Rule.derivesFrom_bind, Rule.derivesFrom_pure] at hflow
    obtain ⟨port, _, rfl⟩ := hflow
    exact .plain rfl
  · obtain ⟨lr, hlr, rfl⟩ := derivesFrom_everyRouter.mp hflow
    have hrival : (lrpHandleUnknowDstPkt x opts).DerivesFrom (Built z) (lr, 4,
        [.regFlag .REDIRECT, .ethDst 0], [.resubmitTable TABLE_DROP_PACKET]) :=
      derivesFrom_lrpHandleUnknowDstPkt.mpr (Or.inl (derivesFrom_everyRouter.mpr ⟨lr, hlr, rfl⟩))
    have hbeaten : Beaten (allFlows x opts z learned) ⟨TABLE_LRP_EGRESS_HANDLE_UNK_PKT, 2,
        .datapath (toString lr.lrID) :: [.ipProto, .ethDst 0]⟩ [.regFlag .REDIRECT] :=
      ⟨_, mem_of_unknow hrival, rfl, by simp, by simp⟩
    unfold unknownActions at ha
    split_ifs at ha
    · obtain rfl := List.mem_singleton.mp ha
      exact .unknownDst (b := [.uploadUnknowDst]) (Or.inr rfl) rfl hbeaten _
    · obtain rfl := List.mem_singleton.mp ha
      exact .unknownDst (b := []) (Or.inl rfl) rfl hbeaten _
    · obtain rfl := List.mem_singleton.mp ha
      exact .plain rfl
    · cases ha
  · obtain ⟨lr, _, rfl⟩ := derivesFrom_everyRouter.mp hflow
    exact .plain rfl
  · obtain ⟨lr, hlr, rfl⟩ := derivesFrom_everyRouter.mp hflow
    have hrival : (lrpHandleUnknowDstPkt x opts).DerivesFrom (Built z) (lr, 1,
        [.ethDst 0], [.resubmitTable TABLE_DROP_PACKET]) :=
      derivesFrom_lrpHandleUnknowDstPkt.mpr (Or.inr (Or.inr (Or.inr (Or.inl
        (derivesFrom_everyRouter.mpr ⟨lr, hlr, rfl⟩)))))
    have hbeaten : Beaten (allFlows x opts z learned) ⟨TABLE_LRP_EGRESS_HANDLE_UNK_PKT, 0,
        .datapath (toString lr.lrID) :: [.matchNone]⟩ [.ethDst 0] :=
      ⟨_, mem_of_unknow hrival, rfl, by simp, by simp⟩
    exact .pass rfl hbeaten _

/-! ### Ports that a switch forwards for -/

theorem atMost_everySwitch (priority : ℕ) (m : Match) (a : Action) :
    (everySwitch priority m a).AtMost 1 :=
  Rule.atMost_fact_bind fun _ => Rule.atMost_pure_le _

theorem atMost_localBondLsp : (localBondLsp x).AtMost 3 := by
  refine Rule.atMost_oneOf fun r hr => ?_
  simp only [List.mem_cons, List.not_mem_nil, or_false] at hr
  rcases hr with rfl | rfl
  · exact Rule.atMost_fact_bind fun _ => Rule.atMost_guard_bind fun _ =>
      Rule.atMost_fact_bind fun _ => Rule.atMost_fact_bind fun _ => Rule.atMost_guard_bind fun _ =>
        Rule.atMost_pure_le _
  · exact atMost_localPatchport x

theorem atMost_lspForwardPacket : (lspForwardPacket x).AtMost 5 := by
  refine Rule.atMost_oneOf fun r hr => ?_
  simp only [List.mem_cons, List.not_mem_nil, or_false] at hr
  rcases hr with rfl | rfl | rfl | rfl
  · exact (Rule.atMost_bind (n := 0) atMost_localBondLsp fun _ => Rule.atMost_pure_le _).mono
      (by omega)
  · exact Rule.atMost_bind (n := 0) (atMost_lspLinkLrp x) fun _ => Rule.atMost_pure_le _
  · exact (atMost_everySwitch _ _ _).mono (by omega)
  · exact (atMost_everySwitch _ _ _).mono (by omega)

theorem not_lspForwardPacket_of_tunnel (flow : LsFlow) :
    ¬ (lspForwardPacket x).DerivesFrom (· = tunnelRow) flow := by
  simp only [lspForwardPacket, forwardLocal, forwardLrp, localBondLsp, localPatchport, lspLinkLrp,
    Rule.derivesFrom_oneOf_cons, Rule.derivesFrom_oneOf_nil, Rule.derivesFrom_bind,
    derivesFrom_everySwitch, not_lsArray_of_tunnel, false_and, and_false, exists_false, or_self,
    not_false_eq_true]

theorem mem_of_forward {flow : LsFlow} (h : (lspForwardPacket x).DerivesFrom (Built z) flow) :
    (⟨TABLE_LSP_EGRESS_FORWARD_PACKET, flow.2.1, .datapath (Props.strOf flow.1.lsID) :: flow.2.2.1⟩,
      flow.2.2.2 ++ [.note "lsp_forward_packet"]) ∈ allFlows x opts z learned := by
  have hmem : buildFlowsLsp TABLE_LSP_EGRESS_FORWARD_PACKET "lsp_forward_packet"
      (lspForwardPacket x) ∈ stateRules x opts := by
    simp [stateRules, switchRules]
  exact mem_of_query (g := fun flow : LsFlow => (⟨TABLE_LSP_EGRESS_FORWARD_PACKET, flow.2.1,
      .datapath (Props.strOf flow.1.lsID) :: flow.2.2.1⟩,
      flow.2.2.2 ++ [.note "lsp_forward_packet"]))
    hmem atMost_lspForwardPacket (by omega) not_lspForwardPacket_of_tunnel h

theorem forwards_of_derives {idOf : String → ℕ} {flow : LsFlow} {port : ℕ}
    (h : (lspForwardPacket x).DerivesFrom (Built z) flow) (hpos : 0 < flow.2.1)
    (hm : flow.2.2.1 = [.regDst port]) :
    Forwards (allFlows x opts z learned) idOf (idOf (Props.strOf flow.1.lsID)) port := by
  refine ⟨_, mem_of_forward h, rfl, hpos, _, ?_, rfl⟩
  rw [hm]

/-- A switch forwards what is for the peer of a router port. -/
theorem forwards_of_link {idOf : String → ℕ} {link : LspLinkLrp}
    (h : (lspLinkLrp x).DerivesFrom (Built z) link) :
    Forwards (allFlows x opts z learned) idOf (idOf (Props.strOf link.ls.lsID))
    link.lsp.portID := by
  have hflow : (lspForwardPacket x).DerivesFrom (Built z) (link.ls, 2, [.regDst link.lsp.portID],
      [.loadNum link.lr.lrID .reg6, .loadNum link.lrp.portID .reg7, .resubmitNext]) := by
    simp only [lspForwardPacket, Rule.derivesFrom_oneOf_cons]
    refine Or.inr (Or.inl ?_)
    simp only [forwardLrp, Rule.derivesFrom_bind, Rule.derivesFrom_pure]
    exact ⟨link, h, rfl⟩
  exact forwards_of_derives hflow Nat.two_pos rfl

theorem derivesFrom_bond {S : Row → Prop} {lsp : LspPort × Ls}
    (h : (localBondLsp x).DerivesFrom S lsp) : (lspForwardPacket x).DerivesFrom S
      (lsp.2, 3, [.regDst lsp.1.portID],
        [.loadNum 1 .reg5, .loadNum lsp.1.ofport .regOutport, .resubmitNext]) := by
  simp only [lspForwardPacket, Rule.derivesFrom_oneOf_cons]
  refine Or.inl ?_
  simp only [SwitchStages.forwardLocal, Rule.derivesFrom_bind, Rule.derivesFrom_pure]
  exact ⟨lsp, h, rfl⟩

/-- A switch forwards what is for a port of this node. -/
theorem forwards_of_bond {idOf : String → ℕ} {lsp : LspPort × Ls}
    (h : (localBondLsp x).DerivesFrom (Built z) lsp) :
    Forwards (allFlows x opts z learned) idOf (idOf (Props.strOf lsp.2.lsID)) lsp.1.portID :=
  forwards_of_derives (derivesFrom_bond h) (Nat.succ_pos 2) rfl

theorem forwards_of_local {idOf : String → ℕ} {lsp : Lsp × Ls}
    (h : (localLsp x).DerivesFrom (Built z) lsp) :
    Forwards (allFlows x opts z learned) idOf (idOf (Props.strOf lsp.2.lsID)) lsp.1.portID := by
  simp only [localLsp, Rule.derivesFrom_oneOf_cons, Rule.derivesFrom_oneOf_nil,
    Rule.derivesFrom_bind, Rule.derivesFrom_guard, Rule.derivesFrom_pure, or_false] at h
  rcases h with ⟨link, hlink, _, _, rfl⟩ | ⟨link, hlink, _, _, rfl⟩ | ⟨port, hport, rfl⟩
  · exact forwards_of_link hlink
  · exact forwards_of_link hlink
  · exact forwards_of_bond hport

/-! ### The lookup of the port -/

theorem atMost_lspLookupDstPort : (lspLookupDstPort x opts).AtMost 8 := by
  have hlocal : (localLsp x).AtMost 5 := by
    refine Rule.atMost_oneOf fun r hr => ?_
    simp only [List.mem_cons, List.not_mem_nil, or_false] at hr
    rcases hr with rfl | rfl | rfl
    · exact Rule.atMost_bind (n := 0) (atMost_lspLinkLrp x) fun _ =>
        Rule.atMost_guard_bind fun _ => Rule.atMost_pure_le _
    · exact Rule.atMost_bind (n := 0) (atMost_lspLinkLrp x) fun _ =>
        Rule.atMost_guard_bind fun _ => Rule.atMost_pure_le _
    · exact (Rule.atMost_bind (n := 0) atMost_localBondLsp fun _ => Rule.atMost_pure_le _).mono
        (by omega)
  have hremote : (remoteLsp x).AtMost 7 := by
    refine Rule.atMost_oneOf fun r hr => ?_
    simp only [List.mem_cons, List.not_mem_nil, or_false] at hr
    rcases hr with rfl | rfl
    · exact (Rule.atMost_bind (n := 2) atMost_remoteChassis fun _ => Rule.atMost_fact_bind fun _ =>
        Rule.atMost_guard_bind fun _ => Rule.atMost_fact_bind fun _ =>
          Rule.atMost_guard_bind fun _ => Rule.atMost_pure_le _).mono (by omega)
    · exact Rule.atMost_bind (n := 2) (atMost_lspLinkLrp x) fun _ =>
        Rule.atMost_bind (n := 0) atMost_remoteChassis fun _ =>
          Rule.atMost_guard_bind fun _ => Rule.atMost_pure_le _
  refine Rule.atMost_oneOf fun r hr => ?_
  simp only [List.mem_cons, List.not_mem_nil, or_false] at hr
  rcases hr with rfl | rfl | rfl | rfl | rfl
  · exact Rule.atMost_bind (n := 0) (atMost_lnatLink x) fun _ => Rule.atMost_pure_le _
  · exact (Rule.atMost_bind (n := 0) hlocal fun _ => Rule.atMost_pure_le _).mono (by omega)
  · exact (Rule.atMost_bind (n := 0) hremote fun _ => Rule.atMost_pure_le _).mono (by omega)
  · exact (Rule.atMost_bind (n := 0) (atMost_localPatchport x) fun _ =>
      Rule.atMost_pure_le _).mono (by omega)
  · unfold lookupUnknown
    split_ifs
    all_goals exact (atMost_everySwitch _ _ _).mono (by omega)

theorem not_lspLookupDstPort_of_tunnel (flow : LsFlow) :
    ¬ (lspLookupDstPort x opts).DerivesFrom (· = tunnelRow) flow := by
  have hunknown : ¬ (lookupUnknown x).DerivesFrom (· = tunnelRow) flow := by
    unfold lookupUnknown
    split_ifs
    all_goals simp only [derivesFrom_everySwitch, not_lsArray_of_tunnel, false_and, exists_false,
      not_false_eq_true]
  simp only [lspLookupDstPort, lspLookupNat, lnatLink, lookupLocal, lookupRemote, lookupPatchport,
    localLsp, localBondLsp, localPatchport, remoteLsp, lspLinkLrp, Rule.derivesFrom_oneOf_cons,
    Rule.derivesFrom_oneOf_nil, Rule.derivesFrom_bind, not_lsArray_of_tunnel,
    not_lnatData_of_tunnel, hunknown, false_and, and_false, exists_false, or_self,
    not_false_eq_true]

/-- A port of this node goes before the ports of other chassis. -/
theorem outdone_of_local {own : Lsp × Ls} (h : (localLsp x).DerivesFrom (Built z) own)
    {k : FlowKey Match} (htable : k.table = TABLE_LSP_INGRESS_LOOKUP_DST_PORT)
    (hlt : k.priority < 4) :
    Outdone (allFlows x opts z learned) k own.2 (.ethDst own.1.macInt) := by
  have hmem : buildFlowsLsp TABLE_LSP_INGRESS_LOOKUP_DST_PORT "lsp_lookup_dst_port"
      (lspLookupDstPort x opts) ∈ stateRules x opts := by
    simp [stateRules, switchRules]
  have hflow : (lspLookupDstPort x opts).DerivesFrom (Built z) (own.2, 4, [.ethDst own.1.macInt],
      [.loadNum own.1.portID .regDst, .resubmitNext]) := by
    simp only [lspLookupDstPort, Rule.derivesFrom_oneOf_cons]
    refine Or.inr (Or.inl ?_)
    simp only [lookupLocal, Rule.derivesFrom_bind, Rule.derivesFrom_pure]
    exact ⟨own, h, rfl⟩
  exact ⟨_, mem_of_query (g := fun flow : LsFlow => (⟨TABLE_LSP_INGRESS_LOOKUP_DST_PORT, flow.2.1,
      .datapath (Props.strOf flow.1.lsID) :: flow.2.2.1⟩,
      flow.2.2.2 ++ [.note "lsp_lookup_dst_port"])) hmem atMost_lspLookupDstPort (by omega)
    not_lspLookupDstPort_of_tunnel hflow, htable.symm, hlt, rfl⟩

theorem form_lspLookupDstPort {idOf : String → ℕ} {f : FlowKey Match × Action}
    (h : (buildFlowsLsp TABLE_LSP_INGRESS_LOOKUP_DST_PORT "lsp_lookup_dst_port"
      (lspLookupDstPort x opts)).DerivesFrom (Built z) f) :
    Form (allFlows x opts z learned) idOf x opts z f := by
  simp only [buildFlowsLsp, lspLookupDstPort, Rule.derivesFrom_bind, Rule.derivesFrom_oneOf_cons,
    Rule.derivesFrom_oneOf_nil, or_false, Rule.derivesFrom_pure] at h
  obtain ⟨flow, hflow, rfl⟩ := h
  rcases hflow with hflow | hflow | hflow | hflow | hflow
  · simp only [lspLookupNat, lnatLink, Rule.derivesFrom_bind, Rule.derivesFrom_guard,
      Rule.derivesFrom_pure] at hflow
    obtain ⟨_, ⟨nat, _, link, hlink, _, _, rfl⟩, rfl⟩ := hflow
    exact .found rfl (show At (Props.strOf link.ls.lsID) [] _ by simp [At]) (forwards_of_link hlink)
      rfl rfl (Or.inl rfl)
  · simp only [lookupLocal, Rule.derivesFrom_bind, Rule.derivesFrom_pure] at hflow
    obtain ⟨lsp, hlsp, rfl⟩ := hflow
    exact .found rfl (show At (Props.strOf lsp.2.lsID) [] _ by simp [At]) (forwards_of_local hlsp)
      rfl
      rfl (Or.inl rfl)
  · simp only [lookupRemote, Rule.derivesFrom_bind, Rule.derivesFrom_pure] at hflow
    obtain ⟨lsp, hlsp, rfl⟩ := hflow
    exact .away lsp hlsp rfl (by simp [At])
      (fun own hown => outdone_of_local hown rfl (Nat.lt_succ_self 3)) _
  · simp only [lookupPatchport, Rule.derivesFrom_bind, Rule.derivesFrom_pure] at hflow
    obtain ⟨lsp, hlsp, rfl⟩ := hflow
    refine .found rfl (show At (Props.strOf lsp.2.lsID) [] _ by simp [At]) (forwards_of_bond ?_) rfl
      rfl
      (Or.inr rfl)
    simp only [localBondLsp, Rule.derivesFrom_oneOf_cons]
    exact Or.inr (Or.inl hlsp)
  · unfold lookupUnknown at hflow
    split_ifs at hflow
    · obtain ⟨ls, _, rfl⟩ := derivesFrom_everySwitch.mp hflow
      exact .unknown rfl _
    · obtain ⟨ls, _, rfl⟩ := derivesFrom_everySwitch.mp hflow
      exact .plain rfl

/-! ### Stages that also trace -/

/-- A stage of a switch, without and with a trace. -/
def Staged (x : Extra) (opts : Options) (table : ℕ) (q : Query LsFlow) : Prop :=
  ∃ note note', buildFlowsLsp table note q ∈ switchRules x opts ∧
    buildTraceLsp table note' q ∈ switchRules x opts

variable (learned) in
/-- Both flows of a stage are among the flows of a bridge. -/
theorem mem_of_staged {table n : ℕ} {q : Query LsFlow} (hq : Staged x opts table q)
    (hmost : q.AtMost n) (hn : n < 100) (hneed : ∀ flow, ¬ q.DerivesFrom (· = tunnelRow) flow)
    {flow : LsFlow} (h : q.DerivesFrom (Built z) flow) :
    (∃ as, (⟨table, flow.2.1, .datapath (Props.strOf flow.1.lsID) :: flow.2.2.1⟩, as) ∈
      allFlows x opts z learned) ∧
    ∃ as, (⟨table, flow.2.1 + 10, .regFlag .TRACE :: flow.2.2.1 ++
      [.datapath (Props.strOf flow.1.lsID)]⟩, as) ∈ allFlows x opts z learned := by
  obtain ⟨note, note', hplain, htrace⟩ := hq
  have hstate : ∀ r ∈ switchRules x opts, r ∈ stateRules x opts := by
    intro r hr
    simp only [stateRules, List.mem_append]
    exact Or.inl (Or.inr hr)
  exact ⟨⟨_, mem_of_query (g := fun flow : LsFlow => (⟨table, flow.2.1,
      .datapath (Props.strOf flow.1.lsID) :: flow.2.2.1⟩, flow.2.2.2 ++ [.note note]))
      (hstate _ hplain) hmost hn hneed h⟩,
    ⟨_, mem_of_query (g := fun flow : LsFlow => (⟨table, flow.2.1 + 10,
      .regFlag .TRACE :: flow.2.2.1 ++ [.datapath (Props.strOf flow.1.lsID)]⟩,
        .uploadTrace :: flow.2.2.2 ++ [.note note'])) (hstate _ htrace) hmost hn hneed h⟩⟩

variable (x opts learned) in
/-- What a flow of a stage loses to another one of the same switch, it loses with a trace, too. -/
theorem beaten_of_staged {table n : ℕ} {q : Query LsFlow} (hq : Staged x opts table q)
    (hmost : q.AtMost n) (hn : n < 100) (hneed : ∀ flow, ¬ q.DerivesFrom (· = tunnelRow) flow)
    {ls : Ls} {priority priority' : ℕ} {m m' r : Match} {as : Action} (hlt : priority < priority')
    (hm : ∀ e ∈ m', e ∈ m ∨ e ∈ r) (h : q.DerivesFrom (Built z) (ls, priority', m', as)) :
    Beaten (allFlows x opts z learned) ⟨table, priority, .datapath (Props.strOf ls.lsID) :: m⟩ r ∧
    Beaten (allFlows x opts z learned) ⟨table, priority + 10,
      .regFlag .TRACE :: m ++ [.datapath (Props.strOf ls.lsID)]⟩ r := by
  obtain ⟨⟨as₁, h1⟩, as₂, h2⟩ := mem_of_staged learned hq hmost hn hneed h
  refine ⟨⟨_, h1, rfl, hlt, fun e he => ?_⟩, ⟨_, h2, rfl, Nat.add_lt_add_right hlt 10, fun e he =>
    ?_⟩⟩
  · rcases List.mem_cons.mp he with rfl | he
    · exact Or.inl List.mem_cons_self
    · exact (hm e he).imp_left (List.mem_cons_of_mem _)
  · simp only [List.cons_append, List.mem_cons, List.mem_append, List.not_mem_nil, or_false] at he ⊢
    rcases he with he | he | he
    · exact Or.inl (Or.inl he)
    · exact (hm e he).imp_left fun h => Or.inr (Or.inl h)
    · exact Or.inl (Or.inr (Or.inr he))

/-! ### To put out, or to the egress stages -/

theorem staged_lspOutputDstPort :
    Staged x opts TABLE_LSP_INGRESS_OUTPUT_DST_PORT (lspOutputDstPort opts) :=
  ⟨"lsp_output_dst_port", "pkt_trace_lsp_output_dst_port", by simp [switchRules],
    by simp [switchRules, TABLE_LSP_TRACE_INGRESS_OUT, TABLE_LSP_INGRESS_OUTPUT_DST_PORT]⟩

theorem atMost_lspOutputDstPort : (lspOutputDstPort opts).AtMost 1 := by
  refine Rule.atMost_oneOf fun r hr => ?_
  rw [List.mem_append] at hr
  split_ifs at hr
  all_goals simp only [List.mem_cons, List.not_mem_nil, or_false, false_or] at hr
  · rcases hr with (rfl | rfl) | rfl | rfl
    all_goals exact atMost_everySwitch _ _ _
  · rcases hr with rfl | rfl
    all_goals exact atMost_everySwitch _ _ _

theorem not_lspOutputDstPort_of_tunnel (flow : LsFlow) :
    ¬ (lspOutputDstPort opts).DerivesFrom (· = tunnelRow) flow := by
  unfold lspOutputDstPort
  split_ifs
  all_goals simp only [List.cons_append, List.nil_append, Rule.derivesFrom_oneOf_cons,
    Rule.derivesFrom_oneOf_nil, derivesFrom_everySwitch, not_lsArray_of_tunnel, false_and,
    exists_false, or_self, not_false_eq_true]

/-- What `lsp_output_dst_port` derives, and what is derived with it. -/
theorem derivesFrom_lspOutputDstPort {S : Row → Prop} {flow : LsFlow} :
    (lspOutputDstPort opts).DerivesFrom S flow ↔ ∃ ls, lsArray.DerivesFrom S ls ∧
      ((opts.enableRedirect = true ∧
        (flow = (ls, 4, [.reg5 1, .regFlag .REDIRECT, .regOutport TP_OFPORT_NONE],
            [.resubmitTable TABLE_DROP_PACKET]) ∨
          flow = (ls, 3, [.reg5 1, .regOutport TP_OFPORT_NONE],
            [.resubmitTable TABLE_REDIRECT_CHASSIS]))) ∨
        flow = (ls, 2, [.reg5 1], [.resubmitTable TABLE_EMBED2_METADATA,
          .resubmitTable TABLE_OUTPUT_PKT]) ∨
        flow = (ls, 1, [.matchNone], [.resubmitTable TABLE_LSP_EGRESS_FIRST])) := by
  unfold lspOutputDstPort
  split_ifs with hredirect
  all_goals simp only [List.cons_append, List.nil_append, Rule.derivesFrom_oneOf_cons,
    Rule.derivesFrom_oneOf_nil, derivesFrom_everySwitch, or_false, hredirect, true_and, false_and,
    false_or, Bool.false_eq_true, and_or_left, exists_or, or_assoc]

/-- Both forms of a flow of the output stage. -/
theorem forms_lspOutputDstPort {idOf : String → ℕ} {flow : LsFlow}
    (h : (lspOutputDstPort opts).DerivesFrom (Built z) flow) (note note' : String) :
    Form (allFlows x opts z learned) idOf x opts z (⟨TABLE_LSP_INGRESS_OUTPUT_DST_PORT, flow.2.1,
      .datapath (Props.strOf flow.1.lsID) :: flow.2.2.1⟩, flow.2.2.2 ++ [.note note]) ∧
    Form (allFlows x opts z learned) idOf x opts z (⟨TABLE_LSP_INGRESS_OUTPUT_DST_PORT,
      flow.2.1 + 10, .regFlag .TRACE :: flow.2.2.1 ++ [.datapath (Props.strOf flow.1.lsID)]⟩,
        .uploadTrace :: flow.2.2.2 ++ [.note note']) := by
  have hbeaten : ∀ {ls : Ls} {priority priority' : ℕ} {m m' r : Match} {as : Action},
      priority < priority' → (∀ e ∈ m', e ∈ m ∨ e ∈ r) →
      (lspOutputDstPort opts).DerivesFrom (Built z) (ls, priority', m', as) → _ :=
    fun hlt hm h => beaten_of_staged x opts learned staged_lspOutputDstPort
      atMost_lspOutputDstPort (by omega) not_lspOutputDstPort_of_tunnel hlt hm h
  obtain ⟨ls, hls, ⟨hredirect, rfl | rfl⟩ | rfl | rfl⟩ := derivesFrom_lspOutputDstPort.mp h
  · exact ⟨.plain rfl, .plain rfl⟩
  · obtain ⟨h1, h2⟩ := hbeaten (m := [.reg5 1, .regOutport TP_OFPORT_NONE])
      (r := [.regFlag .REDIRECT]) (Nat.lt_succ_self 3) (by simp)
      (derivesFrom_lspOutputDstPort.mpr ⟨ls, hls, Or.inl ⟨hredirect, Or.inl rfl⟩⟩)
    exact ⟨.redirect (Or.inl rfl) rfl h1 _, .redirect (Or.inr rfl) rfl h2 _⟩
  · exact ⟨.putOut (Or.inl rfl) rfl (by simp) _, .putOut (Or.inr rfl) rfl (by simp) _⟩
  · obtain ⟨h1, h2⟩ := hbeaten (m := [.matchNone]) (r := [.reg5 1]) (Nat.lt_succ_self 1) (by simp)
      (derivesFrom_lspOutputDstPort.mpr ⟨ls, hls, Or.inr (Or.inl rfl)⟩)
    exact ⟨.deliver (Or.inl rfl) rfl h1 _, .deliver (Or.inr rfl) rfl h2 _⟩

/-! ### To a port, or to a router -/

theorem staged_lspPushoutPacket :
    Staged x opts TABLE_LSP_EGRESS_PUSHOUT lspPushoutPacket :=
  ⟨"lsp_pushout_packet", "pkt_trace_lsp_pushout_packet", by simp [switchRules],
    by simp [switchRules, TABLE_LSP_TRACE_EGRESS_OUT, TABLE_LSP_EGRESS_PUSHOUT]⟩

theorem atMost_lspPushoutPacket : lspPushoutPacket.AtMost 1 := by
  refine Rule.atMost_oneOf fun r hr => ?_
  simp only [List.mem_cons, List.not_mem_nil, or_false] at hr
  rcases hr with rfl | rfl
  all_goals exact atMost_everySwitch _ _ _

theorem derivesFrom_lspPushoutPacket {S : Row → Prop} {flow : LsFlow} :
    lspPushoutPacket.DerivesFrom S flow ↔ ∃ ls, lsArray.DerivesFrom S ls ∧
      (flow = (ls, 2, [.reg5 1], [.resubmitTable TABLE_OUTPUT_PKT]) ∨
        flow = (ls, 1, [.matchNone], [.move (.range .reg6 0 23) (.range .regDp 0 23),
          .move (.all .reg7) (.all .regSrc), .loadNum 0 .reg6, .loadNum 0 .reg7,
          .resubmitTable TABLE_LRP_TRACE_INGRESS_IN])) := by
  simp only [lspPushoutPacket, Rule.derivesFrom_oneOf_cons, Rule.derivesFrom_oneOf_nil,
    derivesFrom_everySwitch, or_false, and_or_left, exists_or]

theorem not_lspPushoutPacket_of_tunnel (flow : LsFlow) :
    ¬ lspPushoutPacket.DerivesFrom (· = tunnelRow) flow := by
  simp only [derivesFrom_lspPushoutPacket, not_lsArray_of_tunnel, false_and, exists_false,
    not_false_eq_true]

/-- Both forms of a flow of the last stage. -/
theorem forms_lspPushoutPacket {idOf : String → ℕ} {flow : LsFlow}
    (h : lspPushoutPacket.DerivesFrom (Built z) flow) (note note' : String) :
    Form (allFlows x opts z learned) idOf x opts z (⟨TABLE_LSP_EGRESS_PUSHOUT, flow.2.1,
      .datapath (Props.strOf flow.1.lsID) :: flow.2.2.1⟩, flow.2.2.2 ++ [.note note]) ∧
    Form (allFlows x opts z learned) idOf x opts z (⟨TABLE_LSP_EGRESS_PUSHOUT,
      flow.2.1 + 10, .regFlag .TRACE :: flow.2.2.1 ++ [.datapath (Props.strOf flow.1.lsID)]⟩,
        .uploadTrace :: flow.2.2.2 ++ [.note note']) := by
  obtain ⟨ls, hls, rfl | rfl⟩ := derivesFrom_lspPushoutPacket.mp h
  · exact ⟨.pushOut (Or.inl rfl) rfl (by simp) _, .pushOut (Or.inr rfl) rfl (by simp) _⟩
  · obtain ⟨h1, h2⟩ := beaten_of_staged x opts learned
      (m := [.matchNone]) (r := [.reg5 1]) staged_lspPushoutPacket atMost_lspPushoutPacket
      (by omega) not_lspPushoutPacket_of_tunnel (Nat.lt_succ_self 1) (by simp)
      (derivesFrom_lspPushoutPacket.mpr ⟨ls, hls, Or.inl rfl⟩)
    exact ⟨.toRouter (Or.inl rfl) rfl h1 _, .toRouter (Or.inr rfl) rfl h2 _⟩

end rivals

section all
variable {x : Extra} {opts : Options} {z : Zoo} {learned : List (ℕ × ℕ)} {idOf : String → ℕ}
  {f : FlowKey Match × Action}

/-! ### Switches -/

theorem form_lspUntunnelDeliver (h : (buildFlowsLsp TABLE_LSP_INGRESS_UNTUNNEL
    "lsp_untunnel_deliver" (lspUntunnelDeliver x opts)).DerivesFrom (Built z) f) :
    Form (allFlows x opts z learned) idOf x opts z f := by
  refine Rule.Only.of_derives (formed_lsp (Rule.only_oneOf fun r hr => ?_)) h
  simp only [List.mem_append, List.mem_cons, List.not_mem_nil, or_false] at hr
  rcases hr with hr | rfl
  · split_ifs at hr
    · obtain ⟨port, hport, hr⟩ := List.mem_flatMap.mp hr
      simp only [List.mem_cons, List.not_mem_nil, or_false] at hr
      rcases hr with rfl | rfl
      · exact Rule.only_bind fun _ => Rule.only_bind fun _ => Rule.only_pure (.plain rfl)
      · exact only_everySwitch fun _ => .untunnel port (Option.mem_toList.mp hport) rfl _
    · cases hr
  · exact only_everySwitch fun _ => .plain rfl

theorem formed_lspArpController {fl : Flows} : Formed fl idOf x opts z
    (buildFlowsLsp TABLE_LSP_INGRESS_ARP_CONTROLLER "lsp_arp_controller"
      (lspArpController x opts)) := by
  refine plain_lsp (Rule.only_oneOf fun r hr => ?_)
  simp only [List.mem_append, List.mem_cons, List.not_mem_nil, or_false] at hr
  rcases hr with (hr | hr) | rfl
  · split_ifs at hr
    · obtain rfl := List.mem_singleton.mp hr
      exact only_everySwitch fun _ => rfl
    · cases hr
  · split_ifs at hr
    · cases hr
    · obtain rfl := List.mem_singleton.mp hr
      exact only_everySwitch fun _ => rfl
  · exact only_everySwitch fun _ => rfl

theorem formed_lspArpResponse {fl : Flows} : Formed fl idOf x opts z
    (buildFlowsLsp TABLE_LSP_INGRESS_ARP_RESPONSE "lsp_arp_response" lspArpResponse) := by
  refine formed_lsp (Rule.only_oneOf fun r hr => ?_)
  simp only [List.mem_cons, List.not_mem_nil, or_false] at hr
  rcases hr with rfl | rfl
  · exact only_everySwitch fun _ => .respond rfl _
  · exact only_everySwitch fun _ => .plain rfl

theorem formed_lspJudgeLoopback {fl : Flows} : Formed fl idOf x opts z
    (buildFlowsLsp TABLE_LSP_EGRESS_JUDGE_LOOPBACK "lsp_judge_loopback" lspJudgeLoopback) := by
  refine formed_lsp (Rule.only_oneOf fun r hr => ?_)
  simp only [List.mem_cons, List.not_mem_nil, or_false] at hr
  rcases hr with rfl | rfl
  all_goals exact only_everySwitch fun _ => .egress (Or.inr rfl) rfl rfl rfl

theorem form_lspForwardPacket (h : (buildFlowsLsp TABLE_LSP_EGRESS_FORWARD_PACKET
    "lsp_forward_packet" (lspForwardPacket x)).DerivesFrom (Built z) f) :
    Form (allFlows x opts z learned) idOf x opts z f := by
  simp only [buildFlowsLsp, lspForwardPacket, Rule.derivesFrom_bind, Rule.derivesFrom_oneOf_cons,
    Rule.derivesFrom_oneOf_nil, or_false, Rule.derivesFrom_pure, derivesFrom_everySwitch] at h
  obtain ⟨flow, hflow | hflow | ⟨ls, _, rfl⟩ | ⟨ls, _, rfl⟩, rfl⟩ := h
  · simp only [SwitchStages.forwardLocal, Rule.derivesFrom_bind, Rule.derivesFrom_pure] at hflow
    obtain ⟨lsp, hlsp, rfl⟩ := hflow
    exact .forwardLocal lsp hlsp rfl (by simp [At]) _
  · simp only [SwitchStages.forwardLrp, Rule.derivesFrom_bind, Rule.derivesFrom_pure] at hflow
    obtain ⟨link, _, rfl⟩ := hflow
    exact .forwardLrp link.lr.lrID link.lrp.portID rfl
      (fun own hown => ⟨_, mem_of_forward (derivesFrom_bond hown), rfl, Nat.lt_succ_self _, rfl⟩) _
  · exact .fallback rfl rfl (by simp) _
  · exact .fallbackArp rfl rfl (by simp) (by simp) _

theorem form_switchRules {r : Rule Row State (FlowKey Match × Action)} (hr : r ∈ switchRules x opts)
    (h : r.DerivesFrom (Built z) f) : Form (allFlows x opts z learned) idOf x opts z f := by
  simp only [switchRules, List.mem_cons, List.not_mem_nil, or_false] at hr
  rcases hr with rfl | rfl | rfl | rfl | rfl | rfl | rfl | rfl | rfl | rfl
  · exact form_lspUntunnelDeliver h
  · obtain ⟨flow, hflow, hf⟩ := Rule.derivesFrom_bind.mp h
    obtain rfl := Rule.derivesFrom_pure.mp hf
    exact (forms_lspOutputDstPort hflow _ "").1
  · exact form_lspLookupDstPort h
  · exact formed_lspArpController.of_derives h
  · exact formed_lspArpResponse.of_derives h
  · exact formed_lspJudgeLoopback.of_derives h
  · exact form_lspForwardPacket h
  · obtain ⟨flow, hflow, hf⟩ := Rule.derivesFrom_bind.mp h
    obtain rfl := Rule.derivesFrom_pure.mp hf
    exact (forms_lspPushoutPacket hflow _ "").1
  · obtain ⟨flow, hflow, hf⟩ := Rule.derivesFrom_bind.mp h
    obtain rfl := Rule.derivesFrom_pure.mp hf
    exact (forms_lspOutputDstPort hflow "" _).2
  · obtain ⟨flow, hflow, hf⟩ := Rule.derivesFrom_bind.mp h
    obtain rfl := Rule.derivesFrom_pure.mp hf
    exact (forms_lspPushoutPacket hflow "" _).2

/-! ### The other flows -/

theorem form_routerRules {r : Rule Row State (FlowKey Match × Action)} (hr : r ∈ routerRules x opts)
    (h : r.DerivesFrom (Built z) f) : Form (allFlows x opts z learned) idOf x opts z f := by
  have hrest : (∃ r' ∈ stageFlows x ++ natDefaults x ++ [
      buildFlowsLrp TABLE_LRP_INGRESS_PKT_RESPONSE "lrp_pkt_response" (lrpPktResponse x opts),
      buildFlowsLrp TABLE_LRP_INGRESS_DROP_UNEXPECT "lrp_drop_unexpect" (lrpDropUnexpect x),
      buildFlowsLrp TABLE_LRP_INGRESS_ECMP "lrp_ecmp_judge" (ecmpStaticRouteJudge x opts),
      buildFlowsLrp TABLE_LRP_EGRESS_UPDATE_ETH_DST "lrp_update_eth_dst" (lrpUpdateEthDst x),
      buildFlowsLrp TABLE_LRP_EGRESS_FORWARD_PACKET "lrp_forward_packet" (lrpForwardPacket x)],
      r = r') ∨ r = buildFlowsLrp TABLE_LRP_EGRESS_HANDLE_UNK_PKT "lrp_handle_unknow_dst_pkt"
        (lrpHandleUnknowDstPkt x opts) := by
    simp only [exists_eq_right', routerRules, List.mem_append, List.mem_cons, List.not_mem_nil,
      or_false] at hr ⊢
    tauto
  rcases hrest with ⟨_, hr', rfl⟩ | rfl
  · exact (formed_routerRest r hr').of_derives h
  · exact form_lrpHandleUnknowDstPkt h

theorem form_convertPhyLogical {fl : Flows} (h : (convertPhyLogical x).DerivesFrom (Built z) f) :
    Form fl idOf x opts z f := by
  simp only [convertPhyLogical, convertTunnel, convertLocal, Rule.derivesFrom_bind,
    Rule.derivesFrom_oneOf_cons, Rule.derivesFrom_oneOf_nil, or_false, Rule.derivesFrom_pure] at h
  obtain ⟨flow, ⟨c, hc, rfl⟩ | ⟨lsp, hlsp, rfl⟩, rfl⟩ := h
  · exact .tunnel c hc _
  · exact .enter lsp hlsp _

theorem form_lrpIpRoute {fl : Flows} {k : FlowKey Match} {a : Action} {s : ℤ}
    {B : List (Row × State)} (h : ⟨k, a, s⟩ ∈ lrpIpRoute x opts B) :
    Form fl idOf x opts z (k, a) := by
  have hplain : ∀ {q : Query LrFlow}, (q.Only fun flow => plain TABLE_LRP_INGRESS_IP_ROUTE
      (flow.2.2.2 ++ [.note "lrp_ip_route"]) = true) → ⟨k, a, s⟩ ∈ buildFlows
        (buildFlowsLrp TABLE_LRP_INGRESS_IP_ROUTE "lrp_ip_route" q) B →
      Form fl idOf x opts z (k, a) := by
    intro q hq hmem
    obtain ⟨flow, sup, hflow, _, heq⟩ := mem_buildFlows_lrp.mp hmem
    obtain ⟨rfl, rfl, rfl⟩ := LFlow.mk.inj heq
    exact .plain (hq flow _ ((q.mem_eval _ _ _).mp hflow).1)
  simp only [lrpIpRoute, List.mem_append, or_assoc] at h
  rcases h with h | h | h | h
  · exact hplain (Rule.only_bind fun _ => Rule.only_pure rfl) h
  · exact hplain (Rule.only_bind fun _ => Rule.only_pure rfl) h
  · split_ifs at h
    · cases h
    · simp only [ecmpStaticRoute, List.mem_flatMap, List.mem_map] at h
      obtain ⟨lr, _, aggr, _, heq⟩ := h
      obtain ⟨rfl, rfl, rfl⟩ := LFlow.mk.inj heq
      exact .plain rfl
  · exact hplain (Rule.only_bind fun _ => Rule.only_pure rfl) h

/-- The ports of an aggregate are those of gateways. -/
theorem form_redirectOtherChassis {fl : Flows} {k : FlowKey Match} {a : Action} {s : ℤ}
    (h : ⟨k, a, s⟩ ∈ redirectOtherChassis x z.scratch) : Form fl idOf x opts z (k, a) := by
  have hport : ∀ ds : List (ChassisPort × List (Row × State)),
      (∀ d ∈ ds, d ∈ (gateway x).eval z.scratch) → ∀ ofport ∈ tupleOf (ds.map portOf),
      ∃ c, (gateway x).DerivesFrom (Built z) c ∧ c.ofport = ofport := by
    intro ds hds ofport hmem
    obtain ⟨uuid, hmem⟩ := mem_tupleOf.mp hmem
    obtain ⟨d, hd, heq⟩ := List.mem_map.mp hmem
    exact ⟨d.1, derivesFrom_built_iff.mpr ⟨d.2, hds d hd⟩, congrArg Prod.fst heq⟩
  have hstanding : ∀ d ∈ Redirect.standing x z.scratch, d ∈ (gateway x).eval z.scratch :=
    fun d hd => (List.mem_filter.mp hd).1
  have hfalling : ∀ d ∈ Redirect.falling x z.scratch, d ∈ (gateway x).eval z.scratch :=
    fun d hd => (List.mem_filter.mp hd).1
  rcases (mem_redirectOtherChassis x z.scratch _).mp h with ⟨_, _, heq⟩ | ⟨_, heq⟩ | ⟨_, _, heq⟩
  all_goals obtain ⟨rfl, rfl, _⟩ := LFlow.mk.inj heq
  · exact .gateways _ (hport _ hstanding)
  · exact .gateways _ (hport _ hfalling)
  · exact .gateways _ (hport _ hstanding)

theorem beaten_of_const {k : FlowKey Match} {m : Match} (g : FlowKey Match)
    (hg : g ∈ buildConstFlows.map Prod.fst) (htable : g.table = k.table)
    (hlt : k.priority < g.priority) (hm : ∀ e ∈ g.mtch, e ∈ k.mtch ∨ e ∈ m) :
    Beaten (allFlows x opts z learned) k m := by
  obtain ⟨f, hf, rfl⟩ := List.mem_map.mp hg
  exact ⟨f, mem_allFlows.mpr (Or.inr (Or.inr (Or.inr (Or.inl hf)))), htable, hlt, hm⟩

theorem form_const (h : f ∈ buildConstFlows) :
    Form (allFlows x opts z learned) idOf x opts z f := by
  have hall : ∀ f ∈ buildConstFlows, plain f.1.table f.2 = true ∨ f ∈ constFlowsPhy ∨
      f ∈ constFlowsMid ∨ f.1.table = TABLE_LSP_TRACE_EGRESS_IN ∧ steady f.2 = true ∧
        free [.regDst] f.2 = true ∧ jumps f.1.table f.2 = [f.1.table + 1] := by
    decide
  rcases hall f h with hplain | hphy | hmid | ⟨htable, hsteady, hdst, hjumps⟩
  · exact .plain hplain
  · simp only [constFlowsPhy, outputPktByReg, List.map_cons, List.map_nil, List.cons_append,
      List.nil_append, List.mem_cons, List.not_mem_nil, or_false] at hphy
    rcases hphy with rfl | rfl | rfl | rfl
    · exact .outputNone (b := []) (Or.inl rfl) rfl _
    · refine .output (b := []) (Or.inl rfl) rfl ?_ _
      exact beaten_of_const ⟨TABLE_OUTPUT_PKT, 1, [.regOutport TP_OFPORT_NONE]⟩ (by decide) rfl
        (Nat.lt_succ_self 0) (by simp)
    · exact .outputNone (b := [.uploadTrace, .move (.range .regFlag 0 31)
        (.range .tunMetadata0 32 63)]) (Or.inr rfl) rfl _
    · refine .output (b :=
        [.uploadTrace, .move (.range .regFlag 0 31) (.range .tunMetadata0 32 63)])
        (Or.inr rfl) rfl ?_ _
      exact beaten_of_const ⟨TABLE_OUTPUT_PKT, 11, [.regFlag .TRACE, .regOutport TP_OFPORT_NONE]⟩
        (by decide) rfl (Nat.lt_succ_self 10) (by simp)
  · simp only [constFlowsMid, pipelineForward, List.map_cons, List.map_nil, List.cons_append,
      List.nil_append, List.mem_cons, List.not_mem_nil, or_false] at hmid
    rcases hmid with rfl | rfl | rfl | rfl | rfl
    · exact .embed rfl _
    · exact .extract rfl _
    · exact .redirected rfl (by simp) _
    · refine .arrived rfl ?_ _
      exact beaten_of_const ⟨TABLE_PIPELINE_FORWARD, 1, [.ipProto, .ethDst 0, .regFlag .REDIRECT]⟩
        (by decide) rfl (Nat.lt_succ_self 0) (by simp)
    · exact .plain rfl
  · obtain ⟨k, a⟩ := f
    exact .egress (Or.inl htable) hsteady hdst hjumps

/-- **The forms are all**: every flow of a bridge has one. -/
theorem form_of_mem (h : f ∈ allFlows x opts z learned) :
    Form (allFlows x opts z learned) idOf x opts z f := by
  rcases mem_allFlows.mp h with ⟨r, hr, s, hs⟩ | ⟨s, hs⟩ | ⟨s, hs⟩ | hs | ⟨b, _, rfl⟩
  · have hderives := derives_of_mem_buildFlows hs
    simp only [stateRules, List.mem_append, List.mem_cons, List.not_mem_nil, or_false] at hr
    rcases hr with (hr | hr) | rfl | rfl
    · exact form_routerRules hr hderives
    · exact form_switchRules hr hderives
    · exact form_convertPhyLogical hderives
    · simp only [arpFlows, arpFeedbackConstruct, Rule.derivesFrom_bind, Rule.derivesFrom_pure]
        at hderives
      obtain ⟨_, ⟨arp, _, rfl⟩, rfl⟩ := hderives
      exact .answer _ _ rfl (by simp) (by simp)
  · exact form_lrpIpRoute hs
  · exact form_redirectOtherChassis hs
  · exact form_const hs
  · exact .learned b.2 rfl

end all

end Forms

end TupleNet
