import TupleNet.Flow.IpRoute

/-! # Address translation

The flows that mention NAT rules: the stages of `nat.py`, the lookup of a translated address in
`lsp_ingress.py` and the answers to ARP requests in `physical_flow.py`, which NAT rules share with
the ports of a switch.

The match of such a flow names the translated address, or the address that is translated, and not
the rule, so rules that agree on it are derivations of one flow.  Deleting one of them deletes the
flow of all (`nat_not_maintained`); otherwise the table stays that of a build from scratch
(`nat_maintained_iff`). -/

namespace TupleNet

open Datalog KeyedTable StepMachine LogicalView

/-- `xlate_mac_int`: the address `_gen_mac_by_ip` makes of the translated one. -/
def Lnat.xlateMacInt (p : Lnat) : ℕ := 0xf201 <<< 32 + p.xlateIpInt

namespace AddrXlate

open IpRoute

/-! ### The stages -/

section stages
variable (x : Extra)

/-- `lnat_data` of one type. -/
def lnatOf (xlateType : String) : Query (Lnat × Lr) := do
  let nat ← lnatData x
  Rule.guard (nat.1.xlateType = some xlateType)
  pure nat

/-- An SNAT and a DNAT rule of one router that translate one address into the same. -/
def floating : Query (Lnat × Lr) := do
  let snat ← lnatOf x "snat"
  let dnat ← lnatOf x "dnat"
  Rule.guard (dnat.2.uuid = snat.2.uuid)
  Rule.guard (snat.1.xlateIp = dnat.1.xlateIp)
  Rule.guard (snat.1.ip = dnat.1.ip)
  Rule.guard (snat.1.prefixLen = 32 ∧ dnat.1.prefixLen = 32)
  pure snat

/-- `lunsnat_xlate_stage1` with priority `2`. -/
def lunsnatFloating : Query LrFlow := do
  let nat ← floating x
  pure (nat.2, 2, [.ipProto, .ipDst nat.1.xlateIpInt 32], [.modNwDst nat.1.ipInt, .resubmitNext])

/-- `lunsnat_xlate_stage1` with priority `1`. -/
def lunsnatXlate : Query LrFlow := do
  let nat ← lnatOf x "snat"
  pure (nat.2, 1, [.ipProto, .ipDst nat.1.xlateIpInt 32],
    [.unsnat TABLE_LRP_INGRESS_UNSNAT_STAGE2])

/-- `lsnat_xlate_stage1`. -/
def lsnatXlate : Query LrFlow := do
  let nat ← lnatOf x "snat"
  pure (nat.2, (nat.1.prefixLen + 1).toNat, [.ipProto, .ipSrcPrefix nat.1.ipInt nat.1.prefixLen],
    [.loadFlag .NAT, .snat nat.1.xlateIpInt TABLE_LRP_EGRESS_SNAT_STAGE2])

/-- `lsnat_xlate_stage2`. -/
def lsnatMac : Query LrFlow := do
  let nat ← lnatOf x "snat"
  pure (nat.2, 1, [.regFlag .NAT, .ipProto, .ipSrc nat.1.xlateIpInt 32],
    [.modDlSrc nat.1.xlateMacInt, .resubmitNext])

/-- `ldnat_xlate_stage1`. -/
def ldnatXlate : Query LrFlow := do
  let nat ← lnatOf x "dnat"
  Rule.guard (nat.1.prefixLen = 32)
  pure (nat.2, (nat.1.prefixLen + 1).toNat, [.ipProto, .ipDst nat.1.xlateIpInt 32],
    [.loadFlag .NAT, .dnat nat.1.ipInt TABLE_LRP_INGRESS_DNAT_STAGE2])

/-- `lundnat_xlate_stage1` with priority `2`. -/
def lundnatFloating : Query LrFlow := do
  let nat ← floating x
  pure (nat.2, 2, [.ipProto, .ipSrc nat.1.ipInt 32], [.modNwSrc nat.1.xlateIpInt, .resubmitNext])

/-- `lundnat_xlate_stage1` with priority `1`. -/
def lundnatXlate : Query LrFlow := do
  let nat ← lnatOf x "dnat"
  pure (nat.2, 1, [.ipProto, .ipSrc nat.1.ipInt 32],
    [.loadFlag .NAT, .undnat TABLE_LRP_EGRESS_UNDNAT_STAGE2])

/-- `lundnat_xlate_stage2`. -/
def lundnatMac : Query LrFlow := do
  let nat ← lnatOf x "dnat"
  pure (nat.2, 1, [.regFlag .NAT, .ipProto, .ipSrc nat.1.xlateIpInt 32],
    [.modDlSrc nat.1.xlateMacInt, .resubmitNext])

/-! ### Delivery and ARP -/

/-- What a rule of a switch pipeline derives: the switch, priority, match and action. -/
abbrev LsFlow := Ls × ℕ × Match × Action

/-- `build_flows_lsp` for one table, with a note. -/
def buildFlowsLsp (table : ℕ) (note : String) (r : Query LsFlow) :
    Rule Row State (FlowKey Match × Action) := do
  let flow ← r
  pure (⟨table, flow.2.1, .datapath (Props.strOf flow.1.lsID) :: flow.2.2.1⟩,
    flow.2.2.2 ++ [.note note])

/-- A NAT rule and a port of its router with the switch behind it. -/
def lnatLink : Query (Lnat × LspLinkLrp) := do
  let nat ← lnatData x
  let link ← lspLinkLrp x
  Rule.guard (link.lr = nat.2)
  pure (nat.1, link)

/-- `lsp_lookup_dst_port` with priority `5`. -/
def lspLookupNat : Query LsFlow := do
  let nat ← lnatLink x
  pure (nat.2.ls, 5, [.ethDst nat.1.xlateMacInt],
    [.loadNum nat.2.lsp.portID .regDst, .resubmitNext])

/-- `_arp_ip_mac`: an address, its Ethernet address, and the switch on which it is asked for. -/
def arpIpMac : Query (ℕ × ℕ × Ls) := Rule.oneOf [
  (do
    let lsp ← activeLsp x
    pure (lsp.1.ipInt, lsp.1.macInt, lsp.2)),
  (do
    let nat ← lnatLink x
    pure (nat.1.xlateIpInt, nat.1.xlateMacInt, nat.2.ls))]

/-- `arp_feedback_construct`. -/
def arpFeedbackConstruct : Query LsFlow := do
  let entry ← arpIpMac x
  pure (entry.2.2, 0, [.arpProto, .arpTpa entry.1, .arpOp 1],
    [.loadFlag .LOOPBACK, .move (.all .ethSrc) (.all .ethDst), .modDlSrc entry.2.1,
      .loadNum 2 .arpOp, .move (.all .arpSha) (.all .arpTha), .loadNum entry.2.1 .arpSha,
      .move (.all .arpSpa) (.all .arpTpa), .loadNum entry.1 .arpSpa,
      .move (.all .regSrc) (.all .regDst)])

/-- `build_flows_phy` for the ARP answers, which carry no note. -/
def arpFlows : Rule Row State (FlowKey Match × Action) := do
  let flow ← arpFeedbackConstruct x
  pure (⟨TABLE_ARP_FEEDBACK_CONSTRUCT, flow.2.1,
    .datapath (Props.strOf flow.1.lsID) :: flow.2.2.1⟩, flow.2.2.2)

/-- The rules of router tables that mention NAT rules. -/
def stageFlows : List (Rule Row State (FlowKey Match × Action)) := [
  buildFlowsLrp TABLE_LRP_INGRESS_UNSNAT_STAGE1 "lrp_ip_unsnat_stage1" (lunsnatFloating x),
  buildFlowsLrp TABLE_LRP_INGRESS_UNSNAT_STAGE1 "lrp_ip_unsnat_stage1" (lunsnatXlate x),
  buildFlowsLrp TABLE_LRP_EGRESS_SNAT_STAGE1 "lrp_ip_snat_stage1" (lsnatXlate x),
  buildFlowsLrp TABLE_LRP_EGRESS_SNAT_STAGE2 "lrp_ip_snat_stage2" (lsnatMac x),
  buildFlowsLrp TABLE_LRP_INGRESS_DNAT_STAGE1 "lrp_ip_dnat_stage1" (ldnatXlate x),
  buildFlowsLrp TABLE_LRP_EGRESS_UNDNAT_STAGE1 "lrp_ip_undnat_stage1" (lundnatFloating x),
  buildFlowsLrp TABLE_LRP_EGRESS_UNDNAT_STAGE1 "lrp_ip_undnat_stage1" (lundnatXlate x),
  buildFlowsLrp TABLE_LRP_EGRESS_UNDNAT_STAGE2 "lrp_ip_undnat_stage2" (lundnatMac x)]

/-- The rows that mention NAT rules, and those of ARP answers for ports beside them. -/
def natFlows : Rule Row State (FlowKey Match × Action) := Rule.oneOf (stageFlows x ++ [
  buildFlowsLsp TABLE_LSP_INGRESS_LOOKUP_DST_PORT "lsp_lookup_dst_port" (lspLookupNat x),
  arpFlows x])

/-! ### Premises -/

theorem atMost_lnatOf (xlateType : String) : (lnatOf x xlateType).AtMost 3 :=
  Rule.atMost_bind (n := 0) (atMost_lnatData x) fun _ => Rule.atMost_guard_bind fun _ =>
    Rule.atMost_pure_le _

theorem atMost_floating : (floating x).AtMost 6 :=
  Rule.atMost_bind (n := 3) (atMost_lnatOf x _) fun _ =>
    Rule.atMost_bind (n := 0) (atMost_lnatOf x _) fun _ => Rule.atMost_guard_bind fun _ =>
      Rule.atMost_guard_bind fun _ => Rule.atMost_guard_bind fun _ =>
        Rule.atMost_guard_bind fun _ =>
        Rule.atMost_pure_le _

theorem atMost_lnatLink : (lnatLink x).AtMost 8 :=
  Rule.atMost_bind (n := 5) (atMost_lnatData x) fun _ =>
    Rule.atMost_bind (n := 0) (atMost_lspLinkLrp x) fun _ => Rule.atMost_guard_bind fun _ =>
      Rule.atMost_pure_le _

theorem atMost_arpIpMac : (arpIpMac x).AtMost 8 := by
  refine Rule.atMost_oneOf fun r hr => ?_
  simp only [List.mem_cons, List.not_mem_nil, or_false] at hr
  rcases hr with rfl | rfl
  · exact Rule.AtMost.mono (Rule.atMost_bind (n := 0) (atMost_activeLsp x) fun _ =>
      Rule.atMost_pure_le _) (by omega)
  · exact Rule.atMost_bind (n := 0) (atMost_lnatLink x) fun _ => Rule.atMost_pure_le _

theorem atMost_natFlows : (natFlows x).AtMost 8 := by
  have hpair : ∀ (table : ℕ) (note : String) (f : Lnat × Lr → LrFlow),
      (buildFlowsLrp table note (floating x >>= fun nat => pure (f nat))).AtMost 8 :=
    fun table note f => (atMost_buildFlowsLrp (Rule.atMost_bind (n := 0) (atMost_floating x)
      fun _ => Rule.atMost_pure_le _)).mono (by omega)
  have hone : ∀ (table : ℕ) (note xlateType : String) (f : Lnat × Lr → LrFlow),
      (buildFlowsLrp table note (lnatOf x xlateType >>= fun nat => pure (f nat))).AtMost 8 :=
    fun table note xlateType f => (atMost_buildFlowsLrp (Rule.atMost_bind (n := 0)
      (atMost_lnatOf x xlateType) fun _ => Rule.atMost_pure_le _)).mono (by omega)
  refine Rule.atMost_oneOf fun r hr => ?_
  simp only [stageFlows, List.cons_append, List.nil_append, List.mem_cons, List.not_mem_nil,
    or_false] at hr
  rcases hr with rfl | rfl | rfl | rfl | rfl | rfl | rfl | rfl | rfl | rfl
  · exact hpair _ _ _
  · exact hone _ _ _ _
  · exact hone _ _ _ _
  · exact hone _ _ _ _
  · exact (atMost_buildFlowsLrp (Rule.atMost_bind (n := 0) (atMost_lnatOf x _) fun _ =>
      Rule.atMost_guard_bind fun _ => Rule.atMost_pure_le _)).mono (by omega)
  · exact hpair _ _ _
  · exact hone _ _ _ _
  · exact hone _ _ _ _
  · exact Rule.atMost_bind (n := 0) (Rule.atMost_bind (n := 0) (atMost_lnatLink x) fun _ =>
      Rule.atMost_pure_le _) fun _ => Rule.atMost_pure_le _
  · exact Rule.atMost_bind (n := 0) (Rule.atMost_bind (n := 0) (atMost_arpIpMac x) fun _ =>
      Rule.atMost_pure_le _) fun _ => Rule.atMost_pure_le _

/-! ### Facts that the flows need -/

theorem not_lnatData_of_tunnel (nat : Lnat × Lr) :
    ¬ (lnatData x).DerivesFrom (· = tunnelRow) nat := by
  simp only [lnatData, lnatArray, Rule.derivesFrom_bind, Rule.derivesFrom_fact,
    Props.lnat?_eq_some]
  rintro ⟨_, _, _, ⟨_, rfl, h⟩, _⟩
  cases h

theorem not_activeLsp_of_tunnel (lsp : Lsp × Ls) :
    ¬ (activeLsp x).DerivesFrom (· = tunnelRow) lsp := by
  simp only [activeLsp, lspLinkLrp, lsArray, exchangeLspArray, Rule.derivesFrom_oneOf_cons,
    Rule.derivesFrom_oneOf_nil, Rule.derivesFrom_bind, Rule.derivesFrom_fact, or_false,
    Props.ls?_eq_some, Props.exchangeLsp?_eq_some]
  rintro (⟨_, ⟨_, rfl, h⟩, _⟩ | ⟨_, ⟨_, _, _, ⟨_, rfl, h, _⟩, _⟩, _⟩)
  · cases h
  · cases h

theorem not_natFlows_of_tunnel (f : FlowKey Match × Action) :
    ¬ (natFlows x).DerivesFrom (· = tunnelRow) f := by
  simp only [natFlows, stageFlows, List.cons_append, List.nil_append,
    Rule.derivesFrom_oneOf_cons, Rule.derivesFrom_oneOf_nil, buildFlowsLrp,
    buildFlowsLsp, arpFlows, lunsnatFloating, lunsnatXlate, lsnatXlate, lsnatMac, ldnatXlate,
    lundnatFloating, lundnatXlate, lundnatMac, lspLookupNat, arpFeedbackConstruct, arpIpMac,
    floating, lnatOf, lnatLink, Rule.derivesFrom_bind, not_lnatData_of_tunnel,
    not_activeLsp_of_tunnel, false_and, exists_false, or_self, not_false_eq_true]

end stages

/-! ### Maintenance -/

/-- One round of a node that maintains the flows of NAT rules. -/
abbrev natRound (x : Extra) :
    FlowNode Match Action → Round Match Action → Option (FlowNode Match Action) :=
  FlowNode.round x (buildFlows (natFlows x))

/-- **NAT flows over runs**: after every round the table holds exactly the flows of a build from
scratch iff in no round a flow loses a derivation, keeps another one and gains none. -/
theorem nat_maintained_iff (x : Extra) (rounds : List (Round Match Action)) :
    (∀ bs, bs <+: rounds → ∀ s, run (natRound x) (FlowNode.start fun _ => none) bs = some s →
        Exact s.table (FlowNode.Fresh (natFlows x) s.zoo)) ↔
      Meets (natRound x) (fun s rd => NoOrphan (natFlows x) (s.changed x rd).clauses)
        (FlowNode.start fun _ => none) rounds :=
  FlowNode.maintained_iff (atMost_natFlows x) (by omega) (not_natFlows_of_tunnel x) rounds

/-- Router `1` translates two networks into one address of switch `LS-1`; then the rule of the
second network is deleted. -/
def sharedAddress : List (Round Match Action) :=
  [.ofChanges (attachRouter "1" ++
      [.addEntity (.LS "LS-1" (some "10")),
        .addEntity (.lnat "snat-1" (some "20.0.1.0") (some "24") (some "10.0.0.9") (some "snat")
          "LR-1"),
        .addEntity (.lnat "snat-2" (some "20.0.2.0") (some "24") (some "10.0.0.9") (some "snat")
          "LR-1")]),
    .ofChanges [.moveEntity2sink .lnat "snat-2"]]

/-- The key of the answer to ARP requests for the address. -/
def arpKey : FlowKey Match :=
  ⟨TABLE_ARP_FEEDBACK_CONSTRUCT, 0, [.datapath "10", .arpProto, .arpTpa 0x0a000009, .arpOp 1]⟩

set_option maxRecDepth 100000 in
/-- The answer for the address is gone although the first rule still uses it. -/
theorem nat_not_maintained : ¬ ∀ (x : Extra) (rounds : List (Round Match Action))
    (s : FlowNode Match Action),
    run (natRound x) (FlowNode.start fun _ => none) rounds = some s →
    Exact s.table (FlowNode.Fresh (natFlows x) s.zoo) := by
  intro h
  have hfinal : ∀ s ∈ run (natRound (.node false "hyper1")) (FlowNode.start fun _ => none)
      sharedAddress, s.table arpKey = none ∧
        ∃ d ∈ (natFlows (.node false "hyper1")).eval s.zoo.clauses, d.1.1 = arpKey := by
    decide +kernel
  obtain ⟨s, hs⟩ := Option.isSome_iff_exists.mp (FlowNode.run_isSome _ _ _ sharedAddress)
  obtain ⟨hnone, ⟨⟨k, a⟩, sup⟩, hd, rfl⟩ := hfinal s hs
  exact ((h _ _ s hs) arpKey).2 hnone a (FlowNode.fresh_of_mem_eval hd)

end AddrXlate

end TupleNet
