import TupleNet.Flow.Lookups

/-! # What a packet finds in a table

Where the flows of a table come from (`mem_cases`), and which of them a packet without a trace takes
(`Stage.finds`, `eq_of_finds`).  `Out` says what every run of a lookup puts out; a rule for it in
each table follows from the flows of the table (`out_of_stage`, `out_of_const`). -/

namespace TupleNet

open Datalog Resubmit LogicalView IpRoute AddrXlate Ecmp RouteTable LongestPrefix Redirect
  SwitchStages RouterStages BuildFlows Forms Lookups

namespace Stages

/-! ### The flows of a table -/

section tables
variable {x : Extra} {opts : Options} {z : Zoo} {learned : List (ℕ × ℕ)}
    {f : FlowKey Match × Action}

/-- The tables of the stages of a switch. -/
def switchTables : List ℕ := [TABLE_LSP_INGRESS_UNTUNNEL, TABLE_LSP_INGRESS_OUTPUT_DST_PORT,
  TABLE_LSP_INGRESS_LOOKUP_DST_PORT, TABLE_LSP_INGRESS_ARP_CONTROLLER,
  TABLE_LSP_INGRESS_ARP_RESPONSE,
  TABLE_LSP_EGRESS_JUDGE_LOOPBACK, TABLE_LSP_EGRESS_FORWARD_PACKET, TABLE_LSP_EGRESS_PUSHOUT]

/-- The tables of the stages of a router besides the routes. -/
def routerTables : List ℕ := [TABLE_LRP_INGRESS_PKT_RESPONSE, TABLE_LRP_INGRESS_DROP_UNEXPECT,
  TABLE_LRP_INGRESS_UNSNAT_STAGE1, TABLE_LRP_INGRESS_UNSNAT_STAGE2, TABLE_LRP_INGRESS_DNAT_STAGE1,
  TABLE_LRP_INGRESS_DNAT_STAGE2, TABLE_LRP_INGRESS_ECMP, TABLE_LRP_EGRESS_UNDNAT_STAGE1,
  TABLE_LRP_EGRESS_UNDNAT_STAGE2, TABLE_LRP_EGRESS_SNAT_STAGE1, TABLE_LRP_EGRESS_SNAT_STAGE2,
  TABLE_LRP_EGRESS_UPDATE_ETH_DST, TABLE_LRP_EGRESS_HANDLE_UNK_PKT, TABLE_LRP_EGRESS_FORWARD_PACKET]

theorem only_table_lrp {table : ℕ} {note : String} {q : Query LrFlow} :
    (buildFlowsLrp table note q).Only fun f => f.1.table = table :=
  Rule.only_bind fun _ => Rule.only_pure rfl

theorem only_table_convert : (convertPhyLogical x).Only fun f =>
    f.1.table = TABLE_CONVERT_PHY_LOGICAL :=
  Rule.only_bind fun _ => Rule.only_pure rfl

theorem only_table_arp : (arpFlows x).Only fun f => f.1.table = TABLE_ARP_FEEDBACK_CONSTRUCT :=
  Rule.only_bind fun _ => Rule.only_pure rfl

theorem table_of_switchRules {r : Rule Row State (FlowKey Match × Action)}
    (hr : r ∈ switchRules x opts) : r.Only fun f => f.1.table ∈ switchTables := by
  have hplain : ∀ {t note} {q : Query LsFlow}, t ∈ switchTables →
      (buildFlowsLsp t note q).Only fun f => f.1.table ∈ switchTables :=
    fun ht => Rule.only_bind fun _ => Rule.only_pure ht
  have htrace : ∀ {t note} {q : Query LsFlow}, t ∈ switchTables →
      (buildTraceLsp t note q).Only fun f => f.1.table ∈ switchTables :=
    fun ht => Rule.only_bind fun _ => Rule.only_pure ht
  simp only [switchRules, List.mem_cons, List.not_mem_nil, or_false] at hr
  rcases hr with rfl | rfl | rfl | rfl | rfl | rfl | rfl | rfl | rfl | rfl
  · exact hplain (by decide)
  · exact hplain (by decide)
  · exact hplain (by decide)
  · exact hplain (by decide)
  · exact hplain (by decide)
  · exact hplain (by decide)
  · exact hplain (by decide)
  · exact hplain (by decide)
  · exact htrace (by decide)
  · exact htrace (by decide)

theorem table_of_routerRules {r : Rule Row State (FlowKey Match × Action)}
    (hr : r ∈ routerRules x opts) : r.Only fun f => f.1.table ∈ routerTables := by
  have hmono : ∀ {t note} {q : Query LrFlow}, t ∈ routerTables →
      (buildFlowsLrp t note q).Only fun f => f.1.table ∈ routerTables :=
    fun ht f sup hf => (congrArg (· ∈ routerTables) (only_table_lrp f sup hf)).mpr ht
  simp only [routerRules, stageFlows, natDefaults, List.cons_append, List.nil_append, List.mem_cons,
    List.not_mem_nil, or_false] at hr
  rcases hr with rfl | rfl | rfl | rfl | rfl | rfl | rfl | rfl | rfl | rfl | rfl | rfl | rfl | rfl |
    rfl | rfl | rfl | rfl | rfl | rfl | rfl | rfl
  all_goals exact hmono (by decide)

theorem table_of_lrpIpRoute {k : FlowKey Match} {a : Action} {s : ℤ} {B : List (Row × State)}
    (h : ⟨k, a, s⟩ ∈ lrpIpRoute x opts B) : k.table = TABLE_LRP_INGRESS_IP_ROUTE := by
  have hbuilt : ∀ {q : Query LrFlow}, ⟨k, a, s⟩ ∈ buildFlows
      (buildFlowsLrp TABLE_LRP_INGRESS_IP_ROUTE "lrp_ip_route" q) B →
      k.table = TABLE_LRP_INGRESS_IP_ROUTE := by
    intro q hmem
    obtain ⟨flow, sup, _, _, heq⟩ := mem_buildFlows_lrp.mp hmem
    obtain ⟨rfl, rfl, rfl⟩ := LFlow.mk.inj heq
    rfl
  simp only [lrpIpRoute, List.mem_append, or_assoc] at h
  rcases h with h | h | h | h
  · exact hbuilt h
  · exact hbuilt h
  · split_ifs at h
    · cases h
    · simp only [ecmpStaticRoute, List.mem_flatMap, List.mem_map] at h
      obtain ⟨lr, _, aggr, _, heq⟩ := h
      obtain ⟨rfl, rfl, rfl⟩ := LFlow.mk.inj heq
      rfl
  · exact hbuilt h

theorem table_of_redirectOtherChassis {k : FlowKey Match} {a : Action} {s : ℤ}
    (h : ⟨k, a, s⟩ ∈ redirectOtherChassis x z.scratch) : k.table = TABLE_REDIRECT_CHASSIS := by
  rcases (mem_redirectOtherChassis x z.scratch _).mp h with ⟨_, _, heq⟩ | ⟨_, heq⟩ | ⟨_, _, heq⟩
  all_goals
    obtain ⟨rfl, rfl, _⟩ := LFlow.mk.inj heq
    rfl

variable (x opts z) in
/-- Where a flow comes from, by its table. -/
inductive Source (f : FlowKey Match × Action) : Prop where
  | const (h : f ∈ buildConstFlows)
  | switch (r : Rule Row State (FlowKey Match × Action)) (hr : r ∈ switchRules x opts)
      (h : r.DerivesFrom (Built z) f) (ht : f.1.table ∈ switchTables)
  | router (r : Rule Row State (FlowKey Match × Action)) (hr : r ∈ routerRules x opts)
      (h : r.DerivesFrom (Built z) f) (ht : f.1.table ∈ routerTables)
  | convert (h : (convertPhyLogical x).DerivesFrom (Built z) f)
      (ht : f.1.table = TABLE_CONVERT_PHY_LOGICAL)
  | arp (h : (arpFlows x).DerivesFrom (Built z) f) (ht : f.1.table = TABLE_ARP_FEEDBACK_CONSTRUCT)
  | route (s : ℤ) (h : ⟨f.1, f.2, s⟩ ∈ lrpIpRoute x opts z.scratch)
      (ht : f.1.table = TABLE_LRP_INGRESS_IP_ROUTE)
  | redirect (ht : f.1.table = TABLE_REDIRECT_CHASSIS)
  | learned (ht : f.1.table = TABLE_SEARCH_IP_MAC)

theorem source_of_mem (h : f ∈ allFlows x opts z learned) : Source x opts z f := by
  rcases mem_allFlows.mp h with ⟨r, hr, s, hs⟩ | ⟨s, hs⟩ | ⟨s, hs⟩ | hs | ⟨b, _, rfl⟩
  · have hderives := derives_of_mem_buildFlows hs
    simp only [stateRules, List.mem_append, List.mem_cons, List.not_mem_nil, or_false] at hr
    rcases hr with (hr | hr) | rfl | rfl
    · exact .router r hr hderives ((table_of_routerRules hr).of_derives hderives)
    · exact .switch r hr hderives ((table_of_switchRules hr).of_derives hderives)
    · exact .convert hderives (only_table_convert.of_derives hderives)
    · exact .arp hderives (only_table_arp.of_derives hderives)
  · exact .route s hs (table_of_lrpIpRoute hs)
  · exact .redirect (table_of_redirectOtherChassis hs)
  · exact .const hs
  · exact .learned rfl

end tables

/-! ### Which flow is taken -/

section taken
variable {fl : Flows} {idOf : String → ℕ} {t : ℕ} {p : Packet} {as : Action}

/-- The flow that goes before all others that match is taken. -/
theorem eq_of_finds (h : fl.Finds idOf t p as) {g : FlowKey Match × Action} (hg : g ∈ fl)
    (ht : g.1.table = t) (hhits : p.Hits idOf g.1.mtch)
    (hbest : ∀ f ∈ fl, f.1.table = t → p.Hits idOf f.1.mtch → f.2 = g.2 ∨
      f.1.priority < g.1.priority) : as = g.2 := by
  rcases h with ⟨f, hf, hft, rfl⟩ | ⟨_, hnone⟩
  · refine (hbest f hf.mem hft hf.hits).resolve_right fun hlt => ?_
    exact absurd (hf.highest g hg (ht.trans hft.symm) hhits) (Nat.not_le.mpr hlt)
  · exact absurd hhits (hnone g hg ht)

variable {α : Type} {name : α → String} {P : α × ℕ × Match × Action → Prop}
  {flow : α × ℕ × Match × Action}

/-- A flow of the table for a switch or a router. -/
def stageFlow (name : α → String) (t : ℕ) (flow : α × ℕ × Match × Action) (note : String) :
    FlowKey Match × Action :=
  (⟨t, flow.2.1, .datapath (name flow.1) :: flow.2.2.1⟩, flow.2.2.2 ++ [.note note])

/-- A packet of the switch or the router that the flow is about. -/
def Takes (name : α → String) (idOf : String → ℕ) (p : Packet) (flow : α × ℕ × Match × Action) :
    Prop :=
  p.field .regDp = idOf (name flow.1) ∧ p.Hits idOf flow.2.2.1

/-- These are the flows of the table, besides flows for packets with a trace. -/
structure Stage (name : α → String) (fl : Flows) (t : ℕ) (P : α × ℕ × Match × Action → Prop) :
    Prop where
  mem : ∀ flow, P flow → ∃ note, stageFlow name t flow note ∈ fl
  only : ∀ f ∈ fl, f.1.table = t → .regFlag .TRACE ∈ f.1.mtch ∨
    ∃ flow note, P flow ∧ f = stageFlow name t flow note

theorem hits_stageFlow {note : String} :
    p.Hits idOf (stageFlow name t flow note).1.mtch ↔ Takes name idOf p flow := by
  simp only [Packet.Hits, stageFlow, List.mem_cons, forall_eq_or_imp, Takes, Packet.Satisfies]

/-- **What a packet without a trace finds in a stage**: the actions of the flow that goes before all
others. -/
theorem Stage.finds (hstage : Stage name fl t P) (htrace : ¬ p.HasFlag .TRACE)
    (h : fl.Finds idOf t p as) (hflow : P flow) (htakes : Takes name idOf p flow)
    (hbest : ∀ flow', P flow' → Takes name idOf p flow' →
      flow'.2.2.2 = flow.2.2.2 ∨ flow'.2.1 < flow.2.1) :
    ∃ note, as = flow.2.2.2 ++ [.note note] := by
  obtain ⟨note', hmem⟩ := hstage.mem flow hflow
  rcases h with ⟨f, hf, hft, rfl⟩ | ⟨_, hnone⟩
  · rcases hstage.only f hf.mem hft with htraced | ⟨flow', note, hflow', rfl⟩
    · exact absurd (hf.hits _ htraced) htrace
    · have hle := hf.highest _ hmem rfl (hits_stageFlow.mpr htakes)
      have heq := (hbest flow' hflow' (hits_stageFlow.mp hf.hits)).resolve_right
        fun hlt => absurd hle (Nat.not_le.mpr hlt)
      refine ⟨note, ?_⟩
      rw [← heq]
      rfl
  · exact absurd (hits_stageFlow.mpr htakes) (hnone _ hmem rfl)

end taken

/-! ### Lookups of packets without a trace -/

section out
variable {x : Extra} {opts : Options} {z : Zoo} {learned : List (ℕ × ℕ)} {idOf : String → ℕ}
  {up : ℤ → Prop} {t : ℕ} {p : Packet} {ws : List Sent} {fs : List (Frame ℕ Packet ActionExp)}

/-- The flows that wait do nothing more. -/
def Noted (fs : List (Frame ℕ Packet ActionExp)) : Prop :=
  ∀ f ∈ fs, f.keep = none ∧ ∃ note, f.rest = [.note note]

theorem Noted.cons (h : Noted fs) (t : ℕ) (note : String) :
    Noted (⟨t, [.note note], none⟩ :: fs) :=
  List.forall_mem_cons.mpr ⟨⟨rfl, note, rfl⟩, h⟩

theorem Noted.yields (h : Noted fs) (p : Packet) :
    (bridgeUp x opts z learned idOf up).Yields ⟨p, fs⟩ [] := by
  induction fs with
  | nil => exact .nil
  | cons f fs ih =>
      obtain ⟨⟨hkeep, note, hrest⟩, hfs⟩ := List.forall_mem_cons.mp h
      obtain ⟨t, as, k⟩ := f
      obtain rfl : as = _ := hrest
      obtain rfl : k = _ := hkeep
      exact .go (fun _ => Iff.rfl) (.ret (ih hfs))

variable (x opts z learned idOf up t p ws) in
/-- Every run of a lookup puts out exactly this, if the flows that wait do nothing more. -/
def Out : Prop := ∀ fs, Noted fs → (bridgeUp x opts z learned idOf up).Brings t p fs ws

theorem out_of_finds (h : ∀ as fs, Flows.Finds idOf (allFlows x opts z learned) t p as → Noted fs →
    (bridgeUp x opts z learned idOf up).Yields ⟨p, ⟨t, as, none⟩ :: fs⟩ ws) :
    Out x opts z learned idOf up t p ws :=
  fun fs hfs => ⟨⟨_, Flows.finds_choose idOf _ t p⟩, fun as has => h as fs has hfs⟩

/-- A lookup and a note. -/
theorem Out.last {t' : ℕ} (h : Out x opts z learned idOf up t' p ws) (hfs : Noted fs) (t : ℕ)
    (note : String) : (bridgeUp x opts z learned idOf up).Yields
      ⟨p, ⟨t, [.resubmitTable t', .note note], none⟩ :: fs⟩ ws :=
  (h _ (hfs.cons t note)).call fun _ => Iff.rfl

/-- A lookup in the next table and a note. -/
theorem Out.next (h : Out x opts z learned idOf up (t + 1) p ws) (hfs : Noted fs) (note : String) :
    (bridgeUp x opts z learned idOf up).Yields ⟨p, ⟨t, [.resubmitNext, .note note], none⟩ :: fs⟩
    ws :=
  (h _ (hfs.cons t note)).call fun _ => Iff.rfl

/-- What a stage that a packet takes a flow of puts out. -/
theorem out_of_stage {α : Type} {name : α → String} {P : α × ℕ × Match × Action → Prop}
    (hstage : Stage name (allFlows x opts z learned) t P) (htrace : ¬ p.HasFlag .TRACE)
    {f : α × ℕ × Match × Action} (hf : P f) (htakes : Takes name idOf p f)
    (hbest : ∀ f', P f' → Takes name idOf p f' → f'.2.2.2 = f.2.2.2 ∨ f'.2.1 < f.2.1)
    (h : ∀ fs note, Noted fs → (bridgeUp x opts z learned idOf up).Yields
      ⟨p, ⟨t, f.2.2.2 ++ [.note note], none⟩ :: fs⟩ ws) : Out x opts z learned idOf up t p ws :=
  out_of_finds fun as fs has hfs => by
    obtain ⟨note, rfl⟩ := hstage.finds htrace has hf htakes hbest
    exact h fs note hfs

/-! ### Tables that are installed once -/

/-- The flows of these tables are installed once. -/
def constTables : List ℕ := [TABLE_LSP_TRACE_INGRESS_IN, TABLE_LSP_INGRESS_PROCESS_EXT_LOGIC,
  TABLE_THIRD_PARTY, TABLE_LSP_TRACE_EGRESS_IN, TABLE_LRP_TRACE_INGRESS_IN,
  TABLE_LRP_TRACE_INGRESS_OUT,
  TABLE_LRP_TRACE_EGRESS_IN, TABLE_LRP_TRACE_EGRESS_OUT, TABLE_OUTPUT_PKT, TABLE_EMBED2_METADATA,
  TABLE_EXTRACT_METADATA, TABLE_PIPELINE_FORWARD]

theorem const_of_mem {f : FlowKey Match × Action} (h : f ∈ allFlows x opts z learned)
    (ht : f.1.table ∈ constTables) : f ∈ buildConstFlows := by
  have helse : ∀ t ∈ constTables, t ∉ switchTables ∧ t ∉ routerTables ∧
      t ≠ TABLE_CONVERT_PHY_LOGICAL ∧ t ≠ TABLE_ARP_FEEDBACK_CONSTRUCT ∧
      t ≠ TABLE_LRP_INGRESS_IP_ROUTE ∧ t ≠ TABLE_REDIRECT_CHASSIS ∧ t ≠ TABLE_SEARCH_IP_MAC := by
    decide
  obtain ⟨hswitch, hrouter, hconvert, harp, hroute, hredirect, hlearned⟩ := helse _ ht
  cases source_of_mem h with
  | const hf => exact hf
  | switch r hr hd ht' => exact absurd ht' hswitch
  | router r hr hd ht' => exact absurd ht' hrouter
  | convert hd ht' => exact absurd ht' hconvert
  | arp hd ht' => exact absurd ht' harp
  | route s hs ht' => exact absurd ht' hroute
  | redirect ht' => exact absurd ht' hredirect
  | learned ht' => exact absurd ht' hlearned

/-- What a table puts out whose flows are installed once. -/
theorem out_of_const {g : FlowKey Match × Action} (hg : g ∈ buildConstFlows)
    (ht : g.1.table = t ∧ t ∈ constTables) (hhits : p.Hits idOf g.1.mtch)
    (hbest : ∀ f ∈ buildConstFlows, f.1.table = t → p.Hits idOf f.1.mtch → f.2 = g.2 ∨
      f.1.priority < g.1.priority)
    (h : ∀ fs, Noted fs → (bridgeUp x opts z learned idOf up).Yields ⟨p, ⟨t, g.2, none⟩ :: fs⟩ ws) :
    Out x opts z learned idOf up t p ws :=
  out_of_finds fun as fs has hfs => by
    have hmem : g ∈ allFlows x opts z learned :=
      mem_allFlows.mpr (Or.inr (Or.inr (Or.inr (Or.inl hg))))
    obtain rfl := eq_of_finds has hmem ht.1 hhits fun f hf hft hhits =>
      hbest f (const_of_mem hf (hft ▸ ht.2)) hft hhits
    exact h fs hfs

/-- What a table that only traces puts out for a packet without a trace. -/
theorem out_of_trace {n : ℕ} {a : Action} (hg : (⟨t, n, [.matchNone]⟩, a) ∈ buildConstFlows)
    (ht : t ∈ constTables) (htrace : ¬ p.HasFlag .TRACE)
    (hall : ∀ f ∈ buildConstFlows, f.1.table = t → .regFlag .TRACE ∈ f.1.mtch ∨ f.2 = a)
    (h : ∀ fs, Noted fs → (bridgeUp x opts z learned idOf up).Yields ⟨p, ⟨t, a, none⟩ :: fs⟩ ws) :
    Out x opts z learned idOf up t p ws :=
  out_of_const hg ⟨rfl, ht⟩ (by simp [Packet.Hits, Packet.Satisfies])
    (fun f hf hft hhits => Or.inl ((hall f hf hft).resolve_left fun hmem => htrace (hhits _ hmem)))
    h

end out

end Stages

end TupleNet
