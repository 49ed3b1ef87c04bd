import TupleNet.Flow.Hosts
import TupleNet.Flow.Stages

/-! # The tables of a switch

The flows of the stages of a switch, and for each of its tables what every run makes of a packet
without a trace (`Out`): the stages of `lsp_ingress.py` and `lsp_egress.py`, the first table of
`physical_flow.py`, and those of `middle_table.py` that the ways between them lead through. -/

namespace TupleNet

open Datalog Resubmit LogicalView IpRoute AddrXlate LongestPrefix SwitchStages BuildFlows Forms
  Lookups Stages

namespace SwitchTables

/-! ### Stages -/

section stages
variable (x : Extra) (opts : Options)

/-- The stages of a switch: their tables and what they are derived by. -/
def switchStages : List (ℕ × Query LsFlow) := [
  (TABLE_LSP_INGRESS_UNTUNNEL, lspUntunnelDeliver x opts),
  (TABLE_LSP_INGRESS_OUTPUT_DST_PORT, lspOutputDstPort opts),
  (TABLE_LSP_INGRESS_LOOKUP_DST_PORT, lspLookupDstPort x opts),
  (TABLE_LSP_INGRESS_ARP_CONTROLLER, lspArpController x opts),
  (TABLE_LSP_INGRESS_ARP_RESPONSE, lspArpResponse),
  (TABLE_LSP_EGRESS_JUDGE_LOOPBACK, lspJudgeLoopback),
  (TABLE_LSP_EGRESS_FORWARD_PACKET, lspForwardPacket x),
  (TABLE_LSP_EGRESS_PUSHOUT, lspPushoutPacket)]

variable {x opts}

theorem map_switchStages : (switchStages x opts).map Prod.fst = switchTables := rfl

theorem stage_unique {t : ℕ} {q q' : Query LsFlow} (h : (t, q) ∈ switchStages x opts)
    (h' : (t, q') ∈ switchStages x opts) : q = q' := by
  have hnodup : ((switchStages x opts).map Prod.fst).Nodup := by
    rw [map_switchStages]
    decide
  exact congrArg Prod.snd (List.inj_on_of_nodup_map hnodup h h' rfl)

variable {z : Zoo} {learned : List (ℕ × ℕ)} {t : ℕ} {q : Query LsFlow} {flow : LsFlow}

theorem atMost_stage (h : (t, q) ∈ switchStages x opts) : q.AtMost 8 := by
  simp only [switchStages, List.mem_cons, Prod.mk.injEq, List.not_mem_nil, or_false] at h
  rcases h with ⟨-, rfl⟩ | ⟨-, rfl⟩ | ⟨-, rfl⟩ | ⟨-, rfl⟩ | ⟨-, rfl⟩ | ⟨-, rfl⟩ | ⟨-, rfl⟩ |
    ⟨-, rfl⟩
  · refine Rule.atMost_oneOf fun r hr => ?_
    simp only [List.mem_append, List.mem_cons, List.not_mem_nil, or_false] at hr
    rcases hr with hr | rfl
    · split_ifs at hr
      · obtain ⟨port, _, hr⟩ := List.mem_flatMap.mp hr
        simp only [List.mem_cons, List.not_mem_nil, or_false] at hr
        rcases hr with rfl | rfl
        · exact (Rule.atMost_fact_bind fun _ => Rule.atMost_bind (n := 0) (atMost_lspLinkLrp x)
            fun _ => Rule.atMost_pure_le _).mono (by omega)
        · exact (atMost_everySwitch _ _ _).mono (by omega)
      · cases hr
    · exact (atMost_everySwitch _ _ _).mono (by omega)
  · exact atMost_lspOutputDstPort.mono (by omega)
  · exact atMost_lspLookupDstPort
  · refine Rule.atMost_oneOf fun r hr => ?_
    simp only [List.mem_append, List.mem_cons, List.not_mem_nil, or_false] at hr
    rcases hr with (hr | hr) | rfl
    · split_ifs at hr
      · rw [List.mem_singleton.mp hr]
        exact (atMost_everySwitch _ _ _).mono (by omega)
      · cases hr
    · split_ifs at hr
      · cases hr
      · rw [List.mem_singleton.mp hr]
        exact (atMost_everySwitch _ _ _).mono (by omega)
    · exact (atMost_everySwitch _ _ _).mono (by omega)
  · refine Rule.atMost_oneOf fun r hr => ?_
    simp only [List.mem_cons, List.not_mem_nil, or_false] at hr
    rcases hr with rfl | rfl
    all_goals exact (atMost_everySwitch _ _ _).mono (by omega)
  · refine Rule.atMost_oneOf fun r hr => ?_
    simp only [List.mem_cons, List.not_mem_nil, or_false] at hr
    rcases hr with rfl | rfl
    all_goals exact (atMost_everySwitch _ _ _).mono (by omega)
  · exact (atMost_lspForwardPacket).mono (by omega)
  · exact atMost_lspPushoutPacket.mono (by omega)

theorem not_stage_of_tunnel (h : (t, q) ∈ switchStages x opts) :
    ¬ q.DerivesFrom (· = tunnelRow) flow := by
  simp only [switchStages, List.mem_cons, Prod.mk.injEq, List.not_mem_nil, or_false] at h
  rcases h with ⟨-, rfl⟩ | ⟨-, rfl⟩ | ⟨-, rfl⟩ | ⟨-, rfl⟩ | ⟨-, rfl⟩ | ⟨-, rfl⟩ | ⟨-, rfl⟩ |
    ⟨-, rfl⟩
  · unfold lspUntunnelDeliver
    split_ifs
    · cases opts.dsrport
      all_goals simp only [Option.toList, List.flatMap_cons, List.flatMap_nil, List.append_nil,
        List.cons_append, List.nil_append, untunnelLrp, Rule.derivesFrom_oneOf_cons,
        Rule.derivesFrom_oneOf_nil, Rule.derivesFrom_bind, derivesFrom_everySwitch,
        not_lsArray_of_tunnel, false_and, exists_false, or_self, not_false_eq_true]
    · simp only [List.nil_append, Rule.derivesFrom_oneOf_cons, Rule.derivesFrom_oneOf_nil,
        derivesFrom_everySwitch, not_lsArray_of_tunnel, false_and, exists_false, or_self,
        not_false_eq_true]
  · exact not_lspOutputDstPort_of_tunnel flow
  · exact not_lspLookupDstPort_of_tunnel flow
  · unfold lspArpController
    split_ifs
    all_goals simp only [List.cons_append, List.nil_append, Rule.derivesFrom_oneOf_cons,
      Rule.derivesFrom_oneOf_nil, derivesFrom_everySwitch, not_lsArray_of_tunnel, false_and,
      exists_false, or_self, not_false_eq_true]
  · simp only [lspArpResponse, Rule.derivesFrom_oneOf_cons, Rule.derivesFrom_oneOf_nil,
      derivesFrom_everySwitch, not_lsArray_of_tunnel, false_and, exists_false, or_self,
      not_false_eq_true]
  · simp only [lspJudgeLoopback, Rule.derivesFrom_oneOf_cons, Rule.derivesFrom_oneOf_nil,
      derivesFrom_everySwitch, not_lsArray_of_tunnel, false_and, exists_false, or_self,
      not_false_eq_true]
  · exact not_lspForwardPacket_of_tunnel flow
  · exact not_lspPushoutPacket_of_tunnel flow

/-- The text of the datapath of a switch. -/
abbrev switchName (ls : Ls) : String := Props.strOf ls.lsID

theorem rule_of_stage (h : (t, q) ∈ switchStages x opts) :
    ∃ note, buildFlowsLsp t note q ∈ switchRules x opts := by
  simp only [switchStages, List.mem_cons, Prod.mk.injEq, List.not_mem_nil, or_false] at h
  rcases h with ⟨rfl, rfl⟩ | ⟨rfl, rfl⟩ | ⟨rfl, rfl⟩ | ⟨rfl, rfl⟩ | ⟨rfl, rfl⟩ | ⟨rfl, rfl⟩ | ⟨rfl,
    rfl⟩ |
    ⟨rfl, rfl⟩
  · exact ⟨"lsp_untunnel_deliver", by simp [switchRules]⟩
  · exact ⟨"lsp_output_dst_port", by simp [switchRules]⟩
  · exact ⟨"lsp_lookup_dst_port", by simp [switchRules]⟩
  · exact ⟨"lsp_arp_controller", by simp [switchRules]⟩
  · exact ⟨"lsp_arp_response", by simp [switchRules]⟩
  · exact ⟨"lsp_judge_loopback", by simp [switchRules]⟩
  · exact ⟨"lsp_forward_packet", by simp [switchRules]⟩
  · exact ⟨"lsp_pushout_packet", by simp [switchRules]⟩

theorem stage_of_rule (h : (t, q) ∈ switchStages x opts)
    {r : Rule Row State (FlowKey Match × Action)} (hr : r ∈ switchRules x opts)
    {f : FlowKey Match × Action} (hderives : r.DerivesFrom (Built z) f) (ht : f.1.table = t) :
    .regFlag .TRACE ∈ f.1.mtch ∨
      ∃ flow note, q.DerivesFrom (Built z) flow ∧ f = stageFlow switchName t flow note := by
  have hplain : ∀ {t' note} {q' : Query LsFlow}, (t', q') ∈ switchStages x opts →
      (buildFlowsLsp t' note q').DerivesFrom (Built z) f →
      ∃ flow note, q.DerivesFrom (Built z) flow ∧ f = stageFlow switchName t flow note := by
    intro t' note q' hq' hd
    obtain ⟨flow, hflow, heq⟩ := Rule.derivesFrom_bind.mp hd
    obtain rfl := Rule.derivesFrom_pure.mp heq
    obtain rfl : t' = t := ht
    exact ⟨flow, note, stage_unique h hq' ▸ hflow, rfl⟩
  have htrace : ∀ {t' note} {q' : Query LsFlow},
      (buildTraceLsp t' note q').DerivesFrom (Built z) f → .regFlag .TRACE ∈ f.1.mtch := by
    intro t' note q' hd
    obtain ⟨flow, _, heq⟩ := Rule.derivesFrom_bind.mp hd
    obtain rfl := Rule.derivesFrom_pure.mp heq
    exact List.mem_cons_self
  simp only [switchRules, List.mem_cons, List.not_mem_nil, or_false] at hr
  rcases hr with rfl | rfl | rfl | rfl | rfl | rfl | rfl | rfl | rfl | rfl
  · exact Or.inr (hplain (by simp [switchStages]) hderives)
  · exact Or.inr (hplain (by simp [switchStages]) hderives)
  · exact Or.inr (hplain (by simp [switchStages]) hderives)
  · exact Or.inr (hplain (by simp [switchStages]) hderives)
  · exact Or.inr (hplain (by simp [switchStages]) hderives)
  · exact Or.inr (hplain (by simp [switchStages]) hderives)
  · exact Or.inr (hplain (by simp [switchStages]) hderives)
  · exact Or.inr (hplain (by simp [switchStages]) hderives)
  · exact Or.inl (htrace hderives)
  · exact Or.inl (htrace hderives)

/-- The flows in the table of a stage are those of the stage, besides flows for packets with a
trace. -/
theorem stage_switch (h : (t, q) ∈ switchStages x opts) :
    Stage switchName (allFlows x opts z learned) t (q.DerivesFrom (Built z)) where
  mem flow hflow := by
    obtain ⟨note, hnote⟩ := rule_of_stage h
    have hstate : buildFlowsLsp t note q ∈ stateRules x opts := by
      simp only [stateRules, List.mem_append]
      exact Or.inl (Or.inr hnote)
    exact ⟨note, mem_of_query (g := fun flow => stageFlow switchName t flow note) hstate
      (atMost_stage h)
      (by omega) (fun _ => not_stage_of_tunnel h) hflow⟩
  only f hf ht := by
    have hmem : f.1.table ∈ switchTables := ht ▸ map_switchStages ▸ List.mem_map_of_mem h
    have hnone : ∀ g ∈ buildConstFlows, g.1.table ∉ switchTables := by decide
    have helse : ∀ t ∈ switchTables, t ∉ routerTables ∧ t ≠ TABLE_CONVERT_PHY_LOGICAL ∧
        t ≠ TABLE_ARP_FEEDBACK_CONSTRUCT ∧ t ≠ TABLE_LRP_INGRESS_IP_ROUTE ∧
        t ≠ TABLE_REDIRECT_CHASSIS ∧
        t ≠ TABLE_SEARCH_IP_MAC := by decide
    obtain ⟨hrouter, hconvert, harp, hroute, hredirect, hlearned⟩ := helse _ hmem
    cases source_of_mem hf with
    | const hc => exact absurd hmem (hnone f hc)
    | switch r hr hd _ => exact stage_of_rule h hr hd ht
    | router r hr hd ht' => exact absurd ht' hrouter
    | convert hd ht' => exact absurd ht' hconvert
    | arp hd ht' => exact absurd ht' harp
    | route s hs ht' => exact absurd ht' hroute
    | redirect ht' => exact absurd ht' hredirect
    | learned ht' => exact absurd ht' hlearned

end stages

section tables
variable {x : Extra} {opts : Options} {z : Zoo} {learned : List (ℕ × ℕ)} {idOf : String → ℕ}
  {up : ℤ → Prop} {p : Packet} {ws : List Sent} {fs : List (Frame ℕ Packet ActionExp)}

/-! ### Tables that are installed once -/

theorem out_traceIngress (htrace : ¬ p.HasFlag .TRACE)
    (h : Out x opts z learned idOf up TABLE_LSP_INGRESS_PROCESS_EXT_LOGIC (p.load .regDst 0) ws) :
    Out x opts z learned idOf up TABLE_LSP_TRACE_INGRESS_IN p ws :=
  out_of_trace (n := 0) (a := [.loadNum 0 .regDst, .resubmitNext, .note "pkt_trace_lsp_ingress_in"])
    (by decide) (by decide) htrace (by decide) fun fs hfs => .go (fun _ => Iff.rfl) (h.next hfs _)

theorem out_ext (h : Out x opts z learned idOf up TABLE_LSP_INGRESS_ARP_CONTROLLER p ws) :
    Out x opts z learned idOf up TABLE_LSP_INGRESS_PROCESS_EXT_LOGIC p ws := by
  have hone : ∀ f ∈ buildConstFlows, f.1.table = TABLE_LSP_INGRESS_PROCESS_EXT_LOGIC →
      f.2 = [.resubmitTable TABLE_THIRD_PARTY, .note "process_third_logic"] := by decide
  have hthird : ∀ f ∈ buildConstFlows, f.1.table = TABLE_THIRD_PARTY →
      f.2 = [.resubmitTable (TABLE_LSP_INGRESS_PROCESS_EXT_LOGIC + 1),
        .note "process_third_logic"] := by decide
  refine out_of_const (g := (⟨TABLE_LSP_INGRESS_PROCESS_EXT_LOGIC, 0, [.matchNone]⟩,
    [.resubmitTable TABLE_THIRD_PARTY, .note "process_third_logic"])) (by decide) (by decide)
    (by simp [Packet.Hits, Packet.Satisfies]) (fun f hf ht _ => Or.inl (hone f hf ht)) fun fs hfs =>
    ?_
  refine Out.last ?_ hfs _ _
  exact out_of_const (g := (⟨TABLE_THIRD_PARTY, 0, [.matchNone]⟩,
    [.resubmitTable (TABLE_LSP_INGRESS_PROCESS_EXT_LOGIC + 1), .note "process_third_logic"]))
    (by decide) (by decide) (by simp [Packet.Hits, Packet.Satisfies])
    (fun f hf ht _ => Or.inl (hthird f hf ht)) fun fs hfs => Out.last h hfs _ _

theorem out_traceEgress (htrace : ¬ p.HasFlag .TRACE)
    (h : Out x opts z learned idOf up TABLE_LSP_EGRESS_JUDGE_LOOPBACK p ws) :
    Out x opts z learned idOf up TABLE_LSP_TRACE_EGRESS_IN p ws :=
  out_of_trace (n := 0) (a := [.resubmitNext, .note "pkt_trace_lsp_egress_in"]) (by decide)
    (by decide)
    htrace (by decide) fun fs hfs => h.next hfs _

/-- A packet that is put out by another port than the one where it came in. -/
theorem out_outputPkt (htrace : ¬ p.HasFlag .TRACE)
    (hport : (p.field .regOutport : ℤ) ≠ TP_OFPORT_NONE)
    (hin : p.field .regOutport ≠ p.field .inPort) :
    Out x opts z learned idOf up TABLE_OUTPUT_PKT p [(p.field .regOutport, p)] := by
  refine out_of_const (g := (⟨TABLE_OUTPUT_PKT, 0, [.matchNone]⟩,
    [.outputReg .regOutport, .note "output_pkt"])) (by decide) (by decide)
    (by simp [Packet.Hits, Packet.Satisfies]) (fun f hf ht hhits => ?_) fun fs hfs => ?_
  · have hall : ∀ f ∈ buildConstFlows, f.1.table = TABLE_OUTPUT_PKT → .regFlag .TRACE ∈ f.1.mtch ∨
        .regOutport TP_OFPORT_NONE ∈ f.1.mtch ∨
        f.2 = [.outputReg .regOutport, .note "output_pkt"] := by
      decide
    exact Or.inl (((hall f hf ht).resolve_left fun hmem => htrace (hhits _ hmem)).resolve_left
      fun hmem => hport (hhits _ hmem))
  · have hemit : p.emit (p.field .regOutport) = .send (p.field .regOutport, p) := if_neg hin
    refine .send (fun e => ?_) (.go (fun _ => Iff.rfl) (.ret (hfs.yields p)))
    rw [← hemit]
    exact Iff.rfl

end tables

/-! ### The ingress stages -/

section ingress
variable {x : Extra} {opts : Options} {z : Zoo} {learned : List (ℕ × ℕ)} {idOf : String → ℕ}
  {up : ℤ → Prop} {p : Packet} {ws : List Sent} {ls : Ls}

variable (z idOf) in
/-- The packet is in the switch and has no trace. -/
structure InSwitch (ls : Ls) (p : Packet) : Prop where
  derived : lsArray.DerivesFrom (Built z) ls
  dp : p.field .regDp = idOf (Props.strOf ls.lsID)
  trace : ¬ p.HasFlag .TRACE

theorem InSwitch.congr {q : Packet} (hp : InSwitch z idOf ls p)
    (hq : p.Agree [.regDp, .regFlag] q) :
    InSwitch z idOf ls q where
  derived := hp.derived
  dp := (hq.field .regDp (by decide)).trans hp.dp
  trace h := hp.trace ((hasFlag_congr (hq.field .regFlag (by decide)) _).mp h)

theorem takes_default (hp : InSwitch z idOf ls p) (priority : ℕ) (a : Action) :
    Takes switchName idOf p (ls, priority, [.matchNone], a) :=
  ⟨hp.dp, by simp [Packet.Hits, Packet.Satisfies]⟩

/-- All but the answers to ARP requests that a gateway learns from. -/
theorem out_arpController (hp : InSwitch z idOf ls p)
    (hnot : ¬ (p.proto = .arp ∧ p.field .arpOp = 2))
    (h : Out x opts z learned idOf up TABLE_LSP_INGRESS_ARP_RESPONSE p ws) :
    Out x opts z learned idOf up TABLE_LSP_INGRESS_ARP_CONTROLLER p ws := by
  have hmem : (TABLE_LSP_INGRESS_ARP_CONTROLLER, lspArpController x opts) ∈ switchStages x
      opts := by
    simp [switchStages]
  have hgateway : ∀ ls', Takes switchName idOf p (ls', 2, [.arpProto, .arpOp 2], [.uploadArp]) →
      False :=
    fun ls' ht => hnot ⟨ht.2 .arpProto (by simp), ht.2 (.arpOp 2) (by simp)⟩
  by_cases hask : x.onDemand = false ∧ p.proto = .arp ∧ p.field .arpOp = 1
  · refine out_of_stage (stage_switch hmem) hp.trace (f := (ls, 1, [.arpProto, .arpOp 1],
      [.uploadArp, .resubmitNext])) ?_ ⟨hp.dp, ?_⟩ (fun flow' hflow' htakes => ?_)
      fun fs note hfs => .go (fun _ => Iff.rfl) (h.next hfs note)
    · unfold lspArpController
      rw [hask.1]
      cases opts.gateway
      all_goals simp [derivesFrom_everySwitch, hp.derived]
    · simp [Packet.Hits, Packet.Satisfies, hask.2]
    · unfold lspArpController at hflow'
      rw [hask.1] at hflow'
      cases hgw : opts.gateway
      all_goals
        rw [hgw] at hflow'
        simp only [Bool.false_eq_true, if_false, if_true, List.nil_append, List.cons_append,
          Rule.derivesFrom_oneOf_cons, Rule.derivesFrom_oneOf_nil, or_false,
          derivesFrom_everySwitch] at hflow'
      · rcases hflow' with ⟨ls', _, rfl⟩ | ⟨ls', _, rfl⟩
        · exact Or.inl rfl
        · exact Or.inr Nat.one_pos
      · rcases hflow' with ⟨ls', _, rfl⟩ | ⟨ls', _, rfl⟩ | ⟨ls', _, rfl⟩
        · exact (hgateway ls' htakes).elim
        · exact Or.inl rfl
        · exact Or.inr Nat.one_pos
  · refine out_of_stage (stage_switch hmem) hp.trace (f := (ls, 0, [.matchNone], [.resubmitNext]))
      ?_
      (takes_default hp _ _) (fun flow' hflow' htakes => ?_) fun fs note hfs => h.next hfs note
    · unfold lspArpController
      cases opts.gateway <;> cases x.onDemand
      all_goals simp [derivesFrom_everySwitch, hp.derived]
    · refine Or.inl ?_
      unfold lspArpController at hflow'
      cases hgw : opts.gateway <;> cases hod : x.onDemand
      all_goals
        rw [hgw, hod] at hflow'
        simp only [Bool.false_eq_true, if_false, if_true, List.nil_append, List.cons_append,
          Rule.derivesFrom_oneOf_cons, Rule.derivesFrom_oneOf_nil, or_false,
          derivesFrom_everySwitch] at hflow'
      · rcases hflow' with ⟨ls', _, rfl⟩ | ⟨ls', _, rfl⟩
        · exact absurd ⟨hod, htakes.2 .arpProto (by simp), htakes.2 (.arpOp 1) (by simp)⟩ hask
        · rfl
      · obtain ⟨ls', _, rfl⟩ := hflow'
        rfl
      · rcases hflow' with ⟨ls', _, rfl⟩ | ⟨ls', _, rfl⟩ | ⟨ls', _, rfl⟩
        · exact (hgateway ls' htakes).elim
        · exact absurd ⟨hod, htakes.2 .arpProto (by simp), htakes.2 (.arpOp 1) (by simp)⟩ hask
        · rfl
      · rcases hflow' with ⟨ls', _, rfl⟩ | ⟨ls', _, rfl⟩
        · exact (hgateway ls' htakes).elim
        · rfl

theorem derivesFrom_lspArpResponse {S : Row → Prop} {flow : LsFlow} :
    lspArpResponse.DerivesFrom S flow ↔ ∃ ls, lsArray.DerivesFrom S ls ∧
      (flow = (ls, 2, [.arpProto, .arpOp 1],
          [.resubmitTable TABLE_ARP_FEEDBACK_CONSTRUCT, .resubmitNext]) ∨
        flow = (ls, 0, [.matchNone], [.resubmitNext])) := by
  simp only [lspArpResponse, Rule.derivesFrom_oneOf_cons, Rule.derivesFrom_oneOf_nil,
    derivesFrom_everySwitch, or_false, and_or_left, exists_or]

/-- What is not sent to the port of the host. -/
theorem out_untunnel (hp : InSwitch z idOf ls p)
    (hoff : opts.enableUntunnel = false ∨ opts.dsrport = none ∨ ¬ p.IsIp)
    (h : Out x opts z learned idOf up TABLE_LSP_INGRESS_LOOKUP_DST_PORT p ws) :
    Out x opts z learned idOf up TABLE_LSP_INGRESS_UNTUNNEL p ws := by
  refine out_of_stage (stage_switch (q := lspUntunnelDeliver x opts) (by simp [switchStages]))
    hp.trace
    (f := (ls, 0, [.matchNone], [.resubmitNext])) ?_ (takes_default hp _ _)
    (fun flow' hflow' htakes => Or.inl ?_) fun fs note hfs => h.next hfs note
  · unfold lspUntunnelDeliver
    split_ifs
    · cases opts.dsrport
      all_goals simp [derivesFrom_everySwitch, hp.derived]
    · simp [derivesFrom_everySwitch, hp.derived]
  · unfold lspUntunnelDeliver at hflow'
    split_ifs at hflow' with hun
    · cases hport : opts.dsrport with
      | none =>
          simp only [hport, Option.toList, List.flatMap_nil, List.nil_append,
            Rule.derivesFrom_oneOf_cons, Rule.derivesFrom_oneOf_nil, or_false,
            derivesFrom_everySwitch] at hflow'
          obtain ⟨ls', _, rfl⟩ := hflow'
          rfl
      | some dsrport =>
          simp only [hport, Option.toList, List.flatMap_cons, List.flatMap_nil, List.append_nil,
            List.cons_append, List.nil_append, untunnelLrp, Rule.derivesFrom_oneOf_cons,
            Rule.derivesFrom_oneOf_nil, or_false, derivesFrom_everySwitch, Rule.derivesFrom_bind,
            Rule.derivesFrom_pure] at hflow'
          have hip : ¬ p.IsIp := by
            refine (hoff.resolve_left fun hno => ?_).resolve_left fun hno => ?_
            · rw [hun] at hno
              cases hno
            · rw [hport] at hno
              cases hno
          rcases hflow' with ⟨ls', _, link, _, rfl⟩ | ⟨ls', _, rfl⟩ | ⟨ls', _, rfl⟩
          · exact absurd (htakes.2 .ipProto (by simp)) hip
          · exact absurd (htakes.2 .ipProto (by simp)) hip
          · rfl
    · simp only [List.nil_append, Rule.derivesFrom_oneOf_cons, Rule.derivesFrom_oneOf_nil, or_false,
        derivesFrom_everySwitch] at hflow'
      obtain ⟨ls', _, rfl⟩ := hflow'
      rfl

variable (x z idOf) in
/-- The Ethernet address is not one of address translation in the switch. -/
def NoNat (dp mac : ℕ) : Prop := ∀ nat, (lnatLink x).DerivesFrom (Built z) nat →
  ¬ (dp = idOf (Props.strOf nat.2.ls.lsID) ∧ mac = nat.1.xlateMacInt)

/-- What `lsp_lookup_dst_port` derives. -/
theorem lookup_cases {S : Row → Prop} {flow : LsFlow}
    (h : (lspLookupDstPort x opts).DerivesFrom S flow) :
    (∃ nat, (lnatLink x).DerivesFrom S nat ∧ flow = (nat.2.ls, 5, [.ethDst nat.1.xlateMacInt],
      [.loadNum nat.2.lsp.portID .regDst, .resubmitNext])) ∨
    (∃ own, (localLsp x).DerivesFrom S own ∧ flow = (own.2, 4, [.ethDst own.1.macInt],
      [.loadNum own.1.portID .regDst, .resubmitNext])) ∨
    (∃ lsp, (remoteLsp x).DerivesFrom S lsp ∧ flow = (lsp.2.1, 3, [.ethDst lsp.1.macInt],
      [.loadNum lsp.1.portID .regDst, loadOutport opts lsp.2.2.ofport, .loadNum 1 .reg5,
        .resubmitNext])) ∨ flow.2.1 ≤ 2 := by
  simp only [lspLookupDstPort, Rule.derivesFrom_oneOf_cons, Rule.derivesFrom_oneOf_nil, or_false]
    at h
  rcases h with h | h | h | h | h
  · simp only [lspLookupNat, Rule.derivesFrom_bind, Rule.derivesFrom_pure] at h
    exact Or.inl h
  · simp only [lookupLocal, Rule.derivesFrom_bind, Rule.derivesFrom_pure] at h
    exact Or.inr (Or.inl h)
  · simp only [lookupRemote, Rule.derivesFrom_bind, Rule.derivesFrom_pure] at h
    exact Or.inr (Or.inr (Or.inl h))
  · simp only [lookupPatchport, Rule.derivesFrom_bind, Rule.derivesFrom_pure] at h
    obtain ⟨lsp, _, rfl⟩ := h
    exact Or.inr (Or.inr (Or.inr (Nat.le_refl 2)))
  · unfold lookupUnknown at h
    split_ifs at h
    all_goals
      obtain ⟨ls', _, rfl⟩ := derivesFrom_everySwitch.mp h
      exact Or.inr (Or.inr (Or.inr (Nat.zero_le 2)))

/-- A port of this node has the Ethernet address. -/
theorem out_lookupLocal (htrace : ¬ p.HasFlag .TRACE) {own : Lsp × Ls}
    (hown : (localLsp x).DerivesFrom (Built z) own)
    (hdp : p.field .regDp = idOf (Props.strOf own.2.lsID)) (hmac : p.field .ethDst = own.1.macInt)
    (hnat : NoNat x z idOf (p.field .regDp) (p.field .ethDst))
    (hsame : ∀ own', (localLsp x).DerivesFrom (Built z) own' →
      p.field .regDp = idOf (Props.strOf own'.2.lsID) → p.field .ethDst = own'.1.macInt →
      own'.1.portID = own.1.portID)
    (h : Out x opts z learned idOf up TABLE_LSP_INGRESS_OUTPUT_DST_PORT
      (p.load .regDst own.1.portID) ws) :
    Out x opts z learned idOf up TABLE_LSP_INGRESS_LOOKUP_DST_PORT p ws := by
  refine out_of_stage (stage_switch (q := lspLookupDstPort x opts) (by simp [switchStages])) htrace
    (f := (own.2, 4, [.ethDst own.1.macInt], [.loadNum own.1.portID .regDst, .resubmitNext])) ?_
    ⟨hdp, by simp [Packet.Hits, Packet.Satisfies, hmac]⟩ (fun flow' hflow' htakes => ?_)
    fun fs note hfs => .go (fun _ => Iff.rfl) (h.next hfs note)
  · simp only [lspLookupDstPort, Rule.derivesFrom_oneOf_cons]
    refine Or.inr (Or.inl ?_)
    simp only [lookupLocal, Rule.derivesFrom_bind, Rule.derivesFrom_pure]
    exact ⟨own, hown, rfl⟩
  · have hdst : ∀ mac, .ethDst mac ∈ flow'.2.2.1 → p.field .ethDst = mac := fun _ hm =>
      htakes.2 _ hm
    rcases lookup_cases hflow' with ⟨nat, hnat', rfl⟩ | ⟨own', hown', rfl⟩ | ⟨lsp, _, rfl⟩ | hle
    · exact absurd ⟨htakes.1, hdst _ (by simp)⟩ (hnat nat hnat')
    · refine Or.inl ?_
      rw [hsame own' hown' htakes.1 (hdst _ (by simp))]
    · exact Or.inr (Nat.lt_succ_self 3)
    · exact Or.inr (Nat.lt_of_le_of_lt hle (show 2 < 4 by omega))

/-- To the egress stages. -/
theorem out_deliver (hp : InSwitch z idOf ls p) (hreg5 : p.field .reg5 ≠ 1)
    (h : Out x opts z learned idOf up TABLE_LSP_TRACE_EGRESS_IN p ws) :
    Out x opts z learned idOf up TABLE_LSP_INGRESS_OUTPUT_DST_PORT p ws := by
  refine out_of_stage (stage_switch (q := lspOutputDstPort opts) (by simp [switchStages])) hp.trace
    (f := (ls, 1, [.matchNone], [.resubmitTable TABLE_LSP_EGRESS_FIRST]))
    (derivesFrom_lspOutputDstPort.mpr ⟨ls, hp.derived, Or.inr (Or.inr rfl)⟩) (takes_default hp _ _)
    (fun flow' hflow' htakes => ?_) fun fs note hfs => h.last hfs _ note
  have hnot : .reg5 1 ∉ flow'.2.2.1 := fun hm => hreg5 (htakes.2 _ hm)
  obtain ⟨ls', _, ⟨_, rfl | rfl⟩ | rfl | rfl⟩ := derivesFrom_lspOutputDstPort.mp hflow'
  · exact absurd (by simp) hnot
  · exact absurd (by simp) hnot
  · exact absurd (by simp) hnot
  · exact Or.inl rfl

end ingress

/-! ### The egress stages -/

section egress
variable {x : Extra} {opts : Options} {z : Zoo} {learned : List (ℕ × ℕ)} {idOf : String → ℕ}
  {up : ℤ → Prop} {p : Packet} {ws : List Sent} {ls : Ls}

theorem derivesFrom_lspJudgeLoopback {S : Row → Prop} {flow : LsFlow} :
    lspJudgeLoopback.DerivesFrom S flow ↔ ∃ ls, lsArray.DerivesFrom S ls ∧
      (flow = (ls, 2, [.regFlag .LOOPBACK], [.loadNum TP_OFPORT_NONE .inPort, .resubmitNext]) ∨
        flow = (ls, 0, [.matchNone], [.resubmitNext])) := by
  simp only [lspJudgeLoopback, Rule.derivesFrom_oneOf_cons, Rule.derivesFrom_oneOf_nil,
    derivesFrom_everySwitch, or_false, and_or_left, exists_or]

/-- After `lsp_judge_loopback`. -/
def judged (p : Packet) : Packet :=
  if p.HasFlag .LOOPBACK then p.load .inPort TP_OFPORT_NONE else p

theorem out_judgeLoopback (hp : InSwitch z idOf ls p)
    (h : Out x opts z learned idOf up TABLE_LSP_EGRESS_FORWARD_PACKET (judged p) ws) :
    Out x opts z learned idOf up TABLE_LSP_EGRESS_JUDGE_LOOPBACK p ws := by
  by_cases hflag : p.HasFlag .LOOPBACK
  · rw [judged, if_pos hflag] at h
    refine out_of_stage (stage_switch (q := lspJudgeLoopback) (by simp [switchStages])) hp.trace
      (f := (ls, 2, [.regFlag .LOOPBACK], [.loadNum TP_OFPORT_NONE .inPort, .resubmitNext]))
      (derivesFrom_lspJudgeLoopback.mpr ⟨ls, hp.derived, Or.inl rfl⟩)
      ⟨hp.dp, by simpa [Packet.Hits, Packet.Satisfies] using hflag⟩ (fun flow' hflow' htakes => ?_)
      fun fs note hfs => .go (fun _ => Iff.rfl) (h.next hfs note)
    obtain ⟨ls', _, rfl | rfl⟩ := derivesFrom_lspJudgeLoopback.mp hflow'
    · exact Or.inl rfl
    · exact Or.inr Nat.two_pos
  · rw [judged, if_neg hflag] at h
    refine out_of_stage (stage_switch (q := lspJudgeLoopback) (by simp [switchStages])) hp.trace
      (f := (ls, 0, [.matchNone], [.resubmitNext]))
      (derivesFrom_lspJudgeLoopback.mpr ⟨ls, hp.derived, Or.inr rfl⟩) (takes_default hp _ _)
      (fun flow' hflow' htakes => ?_) fun fs note hfs => h.next hfs note
    obtain ⟨ls', _, rfl | rfl⟩ := derivesFrom_lspJudgeLoopback.mp hflow'
    · exact absurd (htakes.2 (.regFlag .LOOPBACK) (by simp)) hflag
    · exact Or.inl rfl

/-- To a port of this node. -/
theorem out_forwardLocal (htrace : ¬ p.HasFlag .TRACE) {own : LspPort × Ls}
    (hown : (localBondLsp x).DerivesFrom (Built z) own)
    (hdp : p.field .regDp = idOf (Props.strOf own.2.lsID)) (hdst : p.field .regDst = own.1.portID)
    (hsame : ∀ own', (localBondLsp x).DerivesFrom (Built z) own' →
      p.field .regDp = idOf (Props.strOf own'.2.lsID) → p.field .regDst = own'.1.portID →
      own'.1.ofport = own.1.ofport)
    (h : Out x opts z learned idOf up TABLE_LSP_EGRESS_PUSHOUT
      ((p.load .reg5 1).load .regOutport own.1.ofport) ws) :
    Out x opts z learned idOf up TABLE_LSP_EGRESS_FORWARD_PACKET p ws := by
  refine out_of_stage (stage_switch (q := lspForwardPacket x) (by simp [switchStages])) htrace
    (derivesFrom_bond hown) ⟨hdp, by simp [Packet.Hits, Packet.Satisfies, hdst]⟩
    (fun flow' hflow' htakes => ?_)
    fun fs note hfs => .go (fun _ => Iff.rfl) (.go (fun _ => Iff.rfl) (h.next hfs note))
  simp only [lspForwardPacket, Rule.derivesFrom_oneOf_cons, Rule.derivesFrom_oneOf_nil, or_false,
    derivesFrom_everySwitch] at hflow'
  rcases hflow' with hflow' | hflow' | ⟨ls', _, rfl⟩ | ⟨ls', _, rfl⟩
  · simp only [SwitchStages.forwardLocal, Rule.derivesFrom_bind, Rule.derivesFrom_pure] at hflow'
    obtain ⟨own', hown', rfl⟩ := hflow'
    refine Or.inl ?_
    rw [hsame own' hown' htakes.1 (htakes.2 (.regDst own'.1.portID) (by simp))]
  · simp only [SwitchStages.forwardLrp, Rule.derivesFrom_bind, Rule.derivesFrom_pure] at hflow'
    obtain ⟨link, _, rfl⟩ := hflow'
    exact Or.inr (Nat.lt_succ_self 2)
  · exact Or.inr (Nat.succ_pos 2)
  · exact Or.inr (Nat.succ_pos 2)

theorem out_pushoutPacket (hp : InSwitch z idOf ls p) (hreg5 : p.field .reg5 = 1)
    (h : Out x opts z learned idOf up TABLE_OUTPUT_PKT p ws) :
    Out x opts z learned idOf up TABLE_LSP_EGRESS_PUSHOUT p ws := by
  refine out_of_stage (stage_switch (q := lspPushoutPacket) (by simp [switchStages])) hp.trace
    (f := (ls, 2, [.reg5 1], [.resubmitTable TABLE_OUTPUT_PKT]))
    (derivesFrom_lspPushoutPacket.mpr ⟨ls, hp.derived, Or.inl rfl⟩)
    ⟨hp.dp, by simp [Packet.Hits, Packet.Satisfies, hreg5]⟩ (fun flow' hflow' htakes => ?_)
    fun fs note hfs => h.last hfs _ note
  obtain ⟨ls', _, rfl | rfl⟩ := derivesFrom_lspPushoutPacket.mp hflow'
  · exact Or.inl rfl
  · exact Or.inr (Nat.lt_succ_self 1)

/-- What is put out for a port of this node. -/
def handed (own : LspPort × Ls) (p : Packet) : Packet :=
  ((judged p).load .reg5 1).load .regOutport own.1.ofport

theorem agree_judged {F : List Field} (p : Packet) (h : .inPort ∉ F) : p.Agree F (judged p) := by
  unfold judged
  split_ifs
  · exact agree_load p _ h
  · exact Packet.Agree.refl F p

theorem agree_handed {F : List Field} (own : LspPort × Ls) (p : Packet)
    (h : ∀ f ∈ [Field.inPort, .reg5, .regOutport], f ∉ F) : p.Agree F (handed own p) :=
  (agree_judged p (h _ (by decide))).trans
    ((agree_load _ _ (h _ (by decide))).trans (agree_load _ _ (h _ (by decide))))

/-- **The egress stages** put out a packet for a port of this node by its interface. -/
theorem out_egress {own : LspPort × Ls} (hp : InSwitch z idOf own.2 p)
    (hown : (localBondLsp x).DerivesFrom (Built z) own) (hdst : p.field .regDst = own.1.portID)
    (hsame : ∀ own', (localBondLsp x).DerivesFrom (Built z) own' →
      p.field .regDp = idOf (Props.strOf own'.2.lsID) → p.field .regDst = own'.1.portID →
      own'.1.ofport = own.1.ofport)
    (hport : (portNum own.1.ofport : ℤ) ≠ TP_OFPORT_NONE)
    (hin : portNum own.1.ofport ≠ (judged p).field .inPort) :
    Out x opts z learned idOf up TABLE_LSP_TRACE_EGRESS_IN p
    [(portNum own.1.ofport, handed own p)] := by
  have hjudged := agree_judged (F := [.regDp, .regDst, .regFlag]) p (by decide)
  have hhanded := agree_handed (F := [.regDp, .regFlag]) own p (by decide)
  have hreg5 : (handed own p).field .reg5 = 1 :=
    (Packet.put_field_ne _ _ (by decide)).trans ((load_field _ 1 rfl).trans (by decide))
  have houtport : (handed own p).field .regOutport = portNum own.1.ofport := load_field _ _ rfl
  have hinPort : (handed own p).field .inPort = (judged p).field .inPort :=
    (Packet.put_field_ne _ _ (by decide)).trans (Packet.put_field_ne _ _ (by decide))
  have htrace : ¬ (handed own p).HasFlag .TRACE := fun h =>
    hp.trace ((hasFlag_congr (hhanded.field .regFlag (by decide)) _).mp h)
  refine out_traceEgress hp.trace (out_judgeLoopback hp (out_forwardLocal ?_ hown ?_ ?_ ?_
    (out_pushoutPacket ⟨hp.derived, ?_, htrace⟩ hreg5 ?_)))
  · exact fun h => hp.trace ((hasFlag_congr (hjudged.field .regFlag (by decide)) _).mp h)
  · exact (hjudged.field .regDp (by decide)).trans hp.dp
  · exact (hjudged.field .regDst (by decide)).trans hdst
  · rw [hjudged.field .regDp (by decide), hjudged.field .regDst (by decide)]
    exact hsame
  · exact (hhanded.field .regDp (by decide)).trans hp.dp
  · have hout : Out x opts z learned idOf up TABLE_OUTPUT_PKT (handed own p)
        [((handed own p).field .regOutport, handed own p)] :=
      out_outputPkt htrace (by rw [houtport]; exact hport) (by rw [houtport, hinPort]; exact hin)
    rw [houtport] at hout
    exact hout

end egress

/-! ### The first table -/

section first
variable {x : Extra} {opts : Options} {z : Zoo} {learned : List (ℕ × ℕ)} {idOf : String → ℕ}
  {up : ℤ → Prop} {p : Packet} {ws : List Sent}

theorem convert_of_mem {f : FlowKey Match × Action} (h : f ∈ allFlows x opts z learned)
    (ht : f.1.table = TABLE_CONVERT_PHY_LOGICAL) :
    (∃ c, remoteChassis.DerivesFrom (Built z) c ∧
      f = (⟨TABLE_CONVERT_PHY_LOGICAL, 2, [.inPort c.ofport]⟩,
      [.resubmitTable TABLE_EXTRACT_METADATA, .loadFlag .LOOPBACK,
        .resubmitTable TABLE_PIPELINE_FORWARD,
        .note "convert_phy_logical"])) ∨
    ∃ own, (localBondLsp x).DerivesFrom (Built z) own ∧ f = (⟨TABLE_CONVERT_PHY_LOGICAL, 2,
      [.inPort own.1.ofport]⟩,
      [.loadNum own.1.portID .regSrc, .loadId (Props.strOf own.2.lsID) .regDp,
        .resubmitNext, .note "convert_phy_logical"]) := by
  have hconst : ∀ g ∈ buildConstFlows, g.1.table ≠ TABLE_CONVERT_PHY_LOGICAL := by decide
  cases source_of_mem h with
  | const hc => exact absurd ht (hconst f hc)
  | switch r hr hd ht' => exact absurd ht' (by rw [ht]; decide)
  | router r hr hd ht' => exact absurd ht' (by rw [ht]; decide)
  | convert hd _ =>
      simp only [convertPhyLogical, convertTunnel, convertLocal, Rule.derivesFrom_bind,
        Rule.derivesFrom_oneOf_cons, Rule.derivesFrom_oneOf_nil, or_false, Rule.derivesFrom_pure]
        at hd
      obtain ⟨flow, ⟨c, hc, rfl⟩ | ⟨own, hown, rfl⟩, rfl⟩ := hd
      · exact Or.inl ⟨c, hc, rfl⟩
      · exact Or.inr ⟨own, hown, rfl⟩
  | arp hd ht' => exact absurd (ht.symm.trans ht') (by decide)
  | route s hs ht' => exact absurd (ht.symm.trans ht') (by decide)
  | redirect ht' => exact absurd (ht.symm.trans ht') (by decide)
  | learned ht' => exact absurd (ht.symm.trans ht') (by decide)

theorem mem_of_convert {f : ℕ × Match × Action}
    (h : (Rule.oneOf [convertTunnel, convertLocal x]).DerivesFrom (Built z) f) :
    (⟨TABLE_CONVERT_PHY_LOGICAL, f.1, f.2.1⟩, f.2.2 ++ [.note "convert_phy_logical"]) ∈
      allFlows x opts z learned := by
  have hmost : (Rule.oneOf [convertTunnel, convertLocal x]).AtMost 3 := by
    refine Rule.atMost_oneOf fun r hr => ?_
    simp only [List.mem_cons, List.not_mem_nil, or_false] at hr
    rcases hr with rfl | rfl
    · exact (Rule.atMost_bind (n := 0) atMost_remoteChassis fun _ => Rule.atMost_pure_le _).mono
        (by omega)
    · exact Rule.atMost_bind (n := 0) atMost_localBondLsp fun _ => Rule.atMost_pure_le _
  have hneed : ∀ flow, ¬ (Rule.oneOf [convertTunnel, convertLocal x]).DerivesFrom (· = tunnelRow)
      flow := by
    have hport : ∀ port, ¬ ovsportChassis.DerivesFrom (· = tunnelRow) port := by
      simp only [ovsportChassis, Rule.derivesFrom_fact]
      rintro port ⟨_, rfl, h⟩
      cases h
    intro flow
    simp only [convertTunnel, convertLocal, remoteChassis, localBondLsp, localPatchport,
      Rule.derivesFrom_oneOf_cons, Rule.derivesFrom_oneOf_nil, Rule.derivesFrom_bind, hport,
      not_lsArray_of_tunnel, false_and, and_false, exists_false, or_self, not_false_eq_true]
  have hrule : convertPhyLogical x ∈ stateRules x opts := by simp [stateRules]
  exact mem_of_query (g := fun flow : ℕ × Match × Action =>
    (⟨TABLE_CONVERT_PHY_LOGICAL, flow.1, flow.2.1⟩,
    flow.2.2 ++ [.note "convert_phy_logical"])) hrule hmost (by omega) hneed h

/-- The packet in the switch of the port by which it has come. -/
def entering (idOf : String → ℕ) (own : LspPort × Ls) (p : Packet) : Packet :=
  (p.load .regSrc own.1.portID).set .regDp (idOf (Props.strOf own.2.lsID))

theorem agree_entering {F : List Field} (idOf : String → ℕ) (own : LspPort × Ls) (p : Packet)
    (hsrc : .regSrc ∉ F) (hdp : .regDp ∉ F) : p.Agree F (entering idOf own p) :=
  (agree_load p _ hsrc).trans (Packet.agree_set _ _ hdp)

/-- From a port of a switch. -/
theorem out_enter {own : LspPort × Ls} (hown : (localBondLsp x).DerivesFrom (Built z) own)
    (hin : (p.field .inPort : ℤ) = own.1.ofport)
    (honly : ∀ own', (localBondLsp x).DerivesFrom (Built z) own' → own'.1.ofport = own.1.ofport →
      own' = own)
    (htunnel : ∀ c, remoteChassis.DerivesFrom (Built z) c → c.ofport ≠ own.1.ofport)
    (h : Out x opts z learned idOf up TABLE_LSP_TRACE_INGRESS_IN (entering idOf own p) ws) :
    Out x opts z learned idOf up TABLE_CONVERT_PHY_LOGICAL p ws := by
  refine out_of_finds fun as fs has hfs => ?_
  have hmem : (⟨TABLE_CONVERT_PHY_LOGICAL, 2, [.inPort own.1.ofport]⟩,
      [.loadNum own.1.portID .regSrc, .loadId (Props.strOf own.2.lsID) .regDp, .resubmitNext] ++
        [.note "convert_phy_logical"]) ∈ allFlows x opts z learned := by
    refine mem_of_convert (f := (2, _, _)) ?_
    simp only [Rule.derivesFrom_oneOf_cons, convertLocal, Rule.derivesFrom_bind,
      Rule.derivesFrom_pure]
    exact Or.inr (Or.inl ⟨own, hown, rfl⟩)
  obtain rfl := eq_of_finds has hmem rfl (by simp [Packet.Hits, Packet.Satisfies, hin])
    fun f hf ht hhits => Or.inl (by
      rcases convert_of_mem hf ht with ⟨c, hc, rfl⟩ | ⟨own', hown', rfl⟩
      · have hport : (p.field .inPort : ℤ) = c.ofport := hhits _ List.mem_cons_self
        exact absurd (hport.symm.trans hin) (htunnel c hc)
      · have hport : (p.field .inPort : ℤ) = own'.1.ofport := hhits _ List.mem_cons_self
        rw [honly own' hown' (hport.symm.trans hin)]
        rfl)
  exact .go (fun _ => Iff.rfl) (.go (fun _ => Iff.rfl) (h.next hfs _))

end first

end SwitchTables

end TupleNet
