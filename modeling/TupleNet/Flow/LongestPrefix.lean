import TupleNet.Flow.RouteTable
import Mathlib.Data.Finset.Max

/-! # Longest prefix match

Which flow of `lrp_ip_route` a packet takes after a build from scratch.  The priority orders the
prefixes first, then the levels and then the indexes (`lex_of_calPriority_le`), so a packet takes a
flow of a longest prefix, and ECMP before static before connected, as long as the flows that match
it with the highest priority are one flow.

They are not in three cases: a port with the prefix `0` and the index `0` has the priority of the
drop flow; a static route can lead out of a port of another router, and its index then comes from
the group of its own router; and ECMP groups are made by the text of the address, so two groups can
have one network.  There are no others (`longestPrefixMatch_iff`). -/

namespace TupleNet

open Datalog LogicalView IpRoute Ecmp RouteTable

namespace LongestPrefix

/-! ### Packets and the table -/

/-- What a match says about an IP packet on a datapath to an address; the table has no others. -/
def Holds (dp : String) (addr : ℕ) : MatchExp → Prop
  | .matchNone => True
  | .datapath id => id = dp
  | .ipProto => True
  | .ipDst net prefixLen => maskIp addr prefixLen = net
  | _ => False

instance (dp : String) (addr : ℕ) : DecidablePred (Holds dp addr) := fun e => by
  cases e <;> unfold Holds <;> infer_instance

/-- A flow with this key matches the packets on a datapath to an address. -/
def Hits (dp : String) (addr : ℕ) (k : FlowKey Match) : Prop := ∀ e ∈ k.mtch, Holds dp addr e

instance (dp : String) (addr : ℕ) : DecidablePred (Hits dp addr) := fun k =>
  inferInstanceAs (Decidable (∀ e ∈ k.mtch, Holds dp addr e))

section table
variable (x : Extra) (opts : Options) (z : Zoo)

/-- The table after a build from scratch. -/
def build : List (LFlow Match Action) := lrpIpRoute x opts z.scratch

/-- The flows of a level. -/
def levelFlows : Level → List (LFlow Match Action)
  | .connected => buildFlows
      (buildFlowsLrp TABLE_LRP_INGRESS_IP_ROUTE "lrp_ip_route" (connectedRoute x)) z.scratch
  | .static => buildFlows (staticRouteFlows x opts) z.scratch
  | .ecmp => if opts.gateway then [] else ecmpStaticRoute x z.scratch

/-- The flows that drop what no route matches. -/
def dropFlows : List (LFlow Match Action) :=
  buildFlows (buildFlowsLrp TABLE_LRP_INGRESS_IP_ROUTE "lrp_ip_route" (dropRoute x)) z.scratch

variable {x opts z} in
theorem mem_build {l : LFlow Match Action} :
    l ∈ build x opts z ↔ (∃ level, l ∈ levelFlows x opts z level) ∨ l ∈ dropFlows x z := by
  simp only [build, lrpIpRoute, List.mem_append, or_assoc]
  constructor
  · rintro (h | h | h | h)
    · exact Or.inl ⟨.connected, h⟩
    · exact Or.inl ⟨.static, h⟩
    · exact Or.inl ⟨.ecmp, h⟩
    · exact Or.inr h
  · rintro (⟨level, h⟩ | h)
    · cases level with
      | connected => exact Or.inl h
      | static => exact Or.inr (Or.inl h)
      | ecmp => exact Or.inr (Or.inr (Or.inl h))
    · exact Or.inr (Or.inr (Or.inr h))

/-- The flow is that of a route of a level to a network with this prefix. -/
def IsRoute (level : Level) (prefixLen : ℕ) (l : LFlow Match Action) : Prop :=
  l ∈ levelFlows x opts z level ∧ ∃ net, MatchExp.ipDst net prefixLen ∈ l.key.mtch

variable (dp : String) (addr : ℕ)

/-- The flow that the packet takes.  It alone has the highest priority of those that match, and if a
route matches, it is a route with no shorter prefix, and with the same prefix of no lower level.
The flows are those that the build derives: two of one key with different actions tie, although a
table of Open vSwitch would have only one of them. -/
structure Chosen (l : LFlow Match Action) : Prop where
  mem : l ∈ build x opts z
  hits : Hits dp addr l.key
  only : ∀ l' ∈ build x opts z, Hits dp addr l'.key →
    l'.key.priority < l.key.priority ∨ l'.key = l.key ∧ l'.action = l.action
  longest : ∀ l' level' prefixLen', IsRoute x opts z level' prefixLen' l' → Hits dp addr l'.key →
    ∃ level prefixLen, IsRoute x opts z level prefixLen l ∧
      (prefixLen' < prefixLen ∨ prefixLen' = prefixLen ∧ level'.val ≤ level.val)

/-- The packets on a datapath to an address are routed by longest prefix match; a datapath without
flows is that of no router. -/
def LongestPrefixMatch : Prop :=
  (∃ l ∈ build x opts z, Hits dp addr l.key) → ∃ l, Chosen x opts z dp addr l

end table

/-! ### Routes that match -/

/-- The row is part of a build from scratch. -/
def Built (z : Zoo) (r : Row) : Prop := ∃ s : State, (r, s) ∈ z.scratch

/-- The address lies in the network. -/
def InNet (addr ipInt prefixLen : ℕ) : Prop := maskIp addr prefixLen = maskIp ipInt prefixLen

/-- The address of a group. -/
def groupIp (g : Group) : ℕ := (ip2int g.ip).getD 0

/-- The tunnel ports of a group in a build from scratch. -/
def groupPorts (x : Extra) (z : Zoo) (g : Group) : List ℤ := portsOf (adding x z.scratch) g

/-- What the flow of a port does. -/
def portAction (link : LspLinkLrp) : Action :=
  towards link.lrp (.move (.all .ipDst) (.all .reg2)) ++ [.note "lrp_ip_route"]

/-- What the flow of a static route does. -/
def routeAction (route : LsrFact × Lr × LrpFact) : Action :=
  towards route.2.2 (.loadNum route.1.nextHopInt .reg2) ++ [.note "lrp_ip_route"]

section routes
variable (x : Extra) (opts : Options) (z : Zoo) (dp : String) (addr : ℕ)

/-- A router port on the datapath whose network has the address. -/
structure PortMatches (link : LspLinkLrp) : Prop where
  derived : (lspLinkLrp x).DerivesFrom (Built z) link
  datapath : toString link.lr.lrID = dp
  net : InNet addr link.lrp.ipInt link.lrp.prefixLen

/-- A static route with an outport on the datapath whose network has the address. -/
structure RouteMatches (route : LsrFact × Lr × LrpFact) : Prop where
  derived : (staticRouteChanged x opts).DerivesFrom (Built z) route
  datapath : toString route.2.1.lrID = dp
  net : InNet addr route.1.ipInt route.1.prefixLen

/-- An ECMP group of the router of the datapath whose network has the address. -/
structure GroupMatches (lr : Lr) (g : Group) : Prop where
  node : opts.gateway = false
  router : (lrArray x).DerivesFrom (Built z) lr
  derived : ∃ slave, (ecmpPair x).DerivesFrom (Built z) slave ∧ slave.group = g
  join : g.lrUuid = lr.uuid
  datapath : toString lr.lrID = dp
  net : InNet addr (groupIp g) g.prefixLen

/-- A route matches: its prefix, level and index, and what its flow does. -/
inductive RouteTo : ℕ → Level → ℕ → Action → Prop where
  | connected (link : LspLinkLrp) (h : PortMatches x z dp addr link) :
      RouteTo link.lrp.prefixLen .connected link.lrp.ilkIdx (portAction link)
  | static (route : LsrFact × Lr × LrpFact) (h : RouteMatches x opts z dp addr route) :
      RouteTo route.1.prefixLen .static route.1.ilkIdx (routeAction route)
  | ecmp (lr : Lr) (g : Group) (h : GroupMatches x opts z dp addr lr g) :
      RouteTo g.prefixLen .ecmp 0 (ecmpAction (groupPorts x z g))

/-- A route with a higher priority matches. -/
def Better (prefixLen : ℕ) (level : Level) (idx : ℕ) : Prop :=
  ∃ prefixLen' level' idx' a, RouteTo x opts z dp addr prefixLen' level' idx' a ∧
    calPriority prefixLen level.val idx < calPriority prefixLen' level'.val idx'

/-- No two flows that differ match with the highest priority. -/
structure NoTie : Prop where
  /-- A port with the priority of the drop flow. -/
  connected : ∀ link, PortMatches x z dp addr link → link.lrp.prefixLen = 0 →
    link.lrp.ilkIdx = 0 → Better x opts z dp addr 0 .connected 0
  /-- Static routes of different routers with outports of one router. -/
  static : ∀ a b, RouteMatches x opts z dp addr a → RouteMatches x opts z dp addr b →
    a.1.lrUuid ≠ b.1.lrUuid → a.1.prefixLen = b.1.prefixLen → a.1.ilkIdx = b.1.ilkIdx →
      routeAction a ≠ routeAction b → Better x opts z dp addr a.1.prefixLen .static a.1.ilkIdx
  /-- ECMP groups of one network. -/
  ecmp : ∀ lr g g', GroupMatches x opts z dp addr lr g → GroupMatches x opts z dp addr lr g' →
    g.ip ≠ g'.ip → g.prefixLen = g'.prefixLen → groupPorts x z g ≠ groupPorts x z g' →
      Better x opts z dp addr g.prefixLen .ecmp 0

end routes

/-! ### Rows of a build -/

section built
variable {x : Extra} {opts : Options} {z : Zoo} {α : Type}

theorem derivesFrom_built_iff {q : Query α} {a : α} :
    q.DerivesFrom (Built z) a ↔ ∃ sup, (a, sup) ∈ q.eval z.scratch := by
  have hbuilt : Built z = fun r => ∃ s : State, (r, s) ∈ z.scratch ∧ True := by
    funext r
    simp only [Built, and_true]
  rw [hbuilt, ← Rule.derives_iff_derivesFrom (P := fun _ => True), Rule.derives_iff_eval]
  simp only [implies_true, and_true]

theorem derives_all {q : Query α} {P : α → Prop}
    (h : ∀ d ∈ q.eval z.scratch, P d.1) : ∀ a, q.DerivesFrom (Built z) a → P a := by
  intro a ha
  obtain ⟨sup, hsup⟩ := derivesFrom_built_iff.mp ha
  exact h _ hsup

theorem derives_all₂ {β : Type} {q : Query α} {q' : Query β} {P : α → β → Prop}
    (h : ∀ d ∈ q.eval z.scratch, ∀ e ∈ q'.eval z.scratch, P d.1 e.1) :
    ∀ a b, q.DerivesFrom (Built z) a → q'.DerivesFrom (Built z) b → P a b := by
  intro a b ha hb
  obtain ⟨sup, hsup⟩ := derivesFrom_built_iff.mp ha
  obtain ⟨sup', hsup'⟩ := derivesFrom_built_iff.mp hb
  exact h _ hsup _ hsup'

theorem derives_some {q : Query α} {P : α → Prop}
    (h : ∃ d ∈ q.eval z.scratch, P d.1) : ∃ a, q.DerivesFrom (Built z) a ∧ P a := by
  obtain ⟨d, hd, hP⟩ := h
  exact ⟨d.1, derivesFrom_built_iff.mpr ⟨d.2, hd⟩, hP⟩

/-- A build from scratch has the flows that the rows derive, if none comes from the tunnel alone. -/
theorem mem_buildFlows_scratch {r : Rule Row State (FlowKey Match × Action)} {n : ℕ}
    (hr : r.AtMost n) (hn : n < 100) (hneed : ∀ f, ¬ r.DerivesFrom (· = tunnelRow) f)
    {k : FlowKey Match} {a : Action} :
    (∃ s, ⟨k, a, s⟩ ∈ buildFlows r z.scratch) ↔ r.DerivesFrom (Built z) (k, a) := by
  simp only [mem_buildFlows, derivesFrom_built_iff]
  constructor
  · rintro ⟨s, sup, hd, _, _⟩
    exact ⟨sup, hd⟩
  · rintro ⟨sup, hd⟩
    obtain ⟨hholds, hmem⟩ := (r.mem_eval _ _ _).mp hd
    have hborn : IsBorn sup := by
      refine ⟨fun f hf => (State.live_iff _).mpr (not_dying_scratch (hmem f hf)), ?_⟩
      by_contra hold
      refine hneed (k, a) ⟨_, hholds, fun d hd => ?_⟩
      obtain ⟨f, hf, rfl⟩ := List.mem_map.mp hd
      rcases Zoo.mem_scratch.mp (hmem f hf) with ⟨htunnel, _⟩ | ⟨hadd, _⟩
      · exact htunnel
      · exact absurd ⟨f, hf, hadd⟩ hold
    exact ⟨_, sup, hd, ((stateSum_pos_iff (length_lt_of_mem_eval hr hn hd)).mpr hborn).ne', rfl⟩

section reachable
variable (h : Zoo.Reachable x z)
include h

/-- A row other than that of the tunnel is the row of a live entity of its type and name. -/
theorem Built.entity {r : Row} (hr : Built z r) (hne : r.props.etype ≠ .chassis) :
    ∃ e, z.entity? r.props.etype r.props.uuid = some e ∧ e.row = r := by
  obtain ⟨s, hs⟩ := hr
  rcases Zoo.mem_scratch.mp hs with ⟨rfl, _⟩ | ⟨_, t, key, e, he, _, rfl⟩
  · exact absurd rfl hne
  · obtain ⟨rfl, rfl⟩ := h.indexed.keyed t key e he
    exact ⟨e, he, rfl⟩

theorem Built.unique {r r' : Row} (hr : Built z r) (hr' : Built z r')
    (hne : r.props.etype ≠ .chassis) (htype : r'.props.etype = r.props.etype)
    (huuid : r'.props.uuid = r.props.uuid) : r' = r := by
  obtain ⟨e, he, rfl⟩ := hr.entity h hne
  obtain ⟨e', he', rfl⟩ := hr'.entity h (htype ▸ hne)
  rw [htype, huuid, he] at he'
  rw [Option.some.inj he']

/-- Routers have different ids. -/
theorem Built.router_unique {lr lr' : Lr} {i i' : ℕ} (hr : Built z ⟨.LR lr, i⟩)
    (hr' : Built z ⟨.LR lr', i'⟩) (hid : toString lr.lrID = toString lr'.lrID) : lr = lr' := by
  obtain ⟨e, he, hrow⟩ := hr.entity h (by rintro ⟨⟩)
  obtain ⟨e', he', hrow'⟩ := hr'.entity h (by rintro ⟨⟩)
  by_cases huuid : lr.uuid = lr'.uuid
  · have := Built.unique h hr' hr (by rintro ⟨⟩) rfl huuid
    injection this with this
    injection this
  · refine absurd ?_ (h.indexed.apart _ _ e _ _ e' he he' (fun heq => huuid (Prod.mk.inj heq).2)
      (.globalViewId, toString lr.lrID) ?_)
    · rw [Entity.uniq, hrow', hid]
      exact List.mem_cons_self
    · rw [Entity.uniq, hrow]
      exact List.mem_cons_self

theorem Built.mem_held {r : Row} (hr : Built z r) (hne : r.props.etype ≠ .chassis) :
    r ∈ z.held r.props.etype := by
  obtain ⟨e, he, hrow⟩ := hr.entity h hne
  refine List.mem_append_left _ (List.mem_map.mpr ⟨_, Dict.mem_items.mpr he, hrow⟩)

/-- Entities of one type, network and index are the same. -/
theorem Built.eq_of_idx {r r' : Row} (hr : Built z r) (hr' : Built z r')
    (hne : r.props.etype ≠ .chassis) (htype : r'.props.etype = r.props.etype)
    (hnet : Zoo.network r.props = Zoo.network r'.props) (hsome : Zoo.network r.props ≠ none)
    (hidx : r.ilkIdx = r'.ilkIdx) : r = r' := by
  by_contra hdiff
  have hsymm : Std.Symm (fun r r' : Row => Zoo.network r.props = Zoo.network r'.props →
      Zoo.network r.props ≠ none → r.ilkIdx ≠ r'.ilkIdx) :=
    ⟨fun r r' hrr' hnet hsome hidx => hrr' hnet.symm (hnet ▸ hsome) hidx.symm⟩
  have hheld' : r' ∈ z.held r.props.etype := by
    rw [← htype]
    exact hr'.mem_held h (htype ▸ hne)
  exact (h.ilkIdx_apart _).forall (hr.mem_held h hne) hheld' hdiff hnet hsome hidx

theorem Built.idx_lt {r : Row} (hr : Built z r) (hne : r.props.etype ≠ .chassis)
    (hsome : Zoo.network r.props ≠ none) : r.ilkIdx < 64 :=
  h.ilkIdx_lt _ (hr.mem_held h hne) hsome

end reachable

end built

/-! ### What the rules read -/

section inversion
variable {x : Extra} {opts : Options} {S : Row → Prop}

theorem eq_of_lrp? {r : Row} {p : LrpFact} (h : r.lrp? = some p) :
    r = ⟨.lrp p.toLrp, p.ilkIdx⟩ := by
  obtain ⟨hprops, hidx⟩ := lrp?_eq_some h
  rw [← hprops, ← hidx]

theorem eq_of_lsr? {r : Row} {p : LsrFact} (h : r.lsr? = some p) :
    r = ⟨.lsr p.toLsr, p.ilkIdx⟩ := by
  obtain ⟨hprops, hidx⟩ := lsr?_eq_some h
  rw [← hprops, ← hidx]

/-- A link reads a port of its router. -/
theorem link_spec {link : LspLinkLrp} (h : (lspLinkLrp x).DerivesFrom S link) :
    S ⟨.lrp link.lrp.toLrp, link.lrp.ilkIdx⟩ ∧ (lrArray x).DerivesFrom S link.lr ∧
      link.lrp.lrUuid = link.lr.uuid := by
  simp only [lspLinkLrp, lrpArray, exchangeLspArray, lsArray, Rule.derivesFrom_bind,
    Rule.derivesFrom_fact, Rule.derivesFrom_guard, Rule.derivesFrom_pure] at h
  obtain ⟨lrp, ⟨r, hr, hlrp⟩, lsp, _, _, _, ls, _, _, _, lr, hlr, _, hjoin, rfl⟩ := h
  obtain rfl := eq_of_lrp? hlrp
  exact ⟨hr, hlr, hjoin⟩

/-- A next hop reads a port of its router. -/
theorem hop_spec {hop : NextHopLr} (h : (nextLiveHopLr x).DerivesFrom S hop) :
    S ⟨.lrp hop.lrp.toLrp, hop.lrp.ilkIdx⟩ ∧ (lrArray x).DerivesFrom S hop.lr := by
  have hop_next : (nextHopLr x).DerivesFrom S hop := by
    simp only [nextLiveHopLr, Rule.derivesFrom_oneOf_cons, Rule.derivesFrom_oneOf_nil,
      Rule.derivesFrom_bind, Rule.derivesFrom_guard, Rule.derivesFrom_pure, or_false] at h
    rcases h with ⟨_, h, _, _, rfl⟩ | ⟨_, h, _, _, _, _, _, _, rfl⟩ | ⟨_, h, _, _, rfl⟩
    all_goals exact h
  simp only [nextHopLr, lrpArray, exchangeLspArray, Rule.derivesFrom_bind, Rule.derivesFrom_fact,
    Rule.derivesFrom_guard, Rule.derivesFrom_pure] at hop_next
  obtain ⟨lrp, ⟨r, hr, hlrp⟩, lsp₁, _, _, _, lsp₂, _, _, _, lrp₂, _, _, _, _, _, lrNext, _, _, _,
    lr, hlr, _, _, rfl⟩ := hop_next
  obtain rfl := eq_of_lrp? hlrp
  exact ⟨hr, hlr⟩

/-- A static route reads the route and its outport. -/
theorem route_spec {route : LsrFact × Lr × LrpFact}
    (h : (staticRouteChanged x opts).DerivesFrom S route) :
    S ⟨.lsr route.1.toLsr, route.1.ilkIdx⟩ ∧ S ⟨.lrp route.2.2.toLrp, route.2.2.ilkIdx⟩ ∧
      (lrArray x).DerivesFrom S route.2.1 ∧ route.1.outport = some route.2.2.uuid := by
  have hcases : (patchportRoute x).DerivesFrom S route ∨ (nextHopRoute x).DerivesFrom S route := by
    unfold staticRouteChanged at h
    split_ifs at h
    · simpa using h
    · exact Or.inr h
  simp only [patchportRoute, nextHopRoute, lrouteArray, Rule.derivesFrom_bind,
    Rule.derivesFrom_fact, Rule.derivesFrom_guard, Rule.derivesFrom_pure] at hcases
  rcases hcases with ⟨lsr, ⟨r, hr, hlsr⟩, link, hlink, _, _, _, _, _, hout, _, _, _, _, rfl⟩ |
    ⟨lsr, ⟨r, hr, hlsr⟩, hop, hhop, _, hout, rfl⟩
  · obtain rfl := eq_of_lsr? hlsr
    exact ⟨hr, (link_spec hlink).1, (link_spec hlink).2.1, hout⟩
  · obtain rfl := eq_of_lsr? hlsr
    exact ⟨hr, (hop_spec hhop).1, (hop_spec hhop).2, hout⟩

end inversion

/-! ### Flows that match -/

/-- The key of a flow that matches, by the priority of its route. -/
def hitKey (dp : String) (addr prefixLen : ℕ) (level : Level) (idx : ℕ) : FlowKey Match :=
  ⟨TABLE_LRP_INGRESS_IP_ROUTE, calPriority prefixLen level.val idx,
    [.datapath dp, .ipProto, .ipDst (maskIp addr prefixLen) prefixLen]⟩

/-- The key of the drop flow of a datapath. -/
def dropKey (dp : String) : FlowKey Match :=
  ⟨TABLE_LRP_INGRESS_IP_ROUTE, 0, [.datapath dp, .matchNone]⟩

/-- What the drop flow does. -/
def dropAction : Action := [.resubmitTable TABLE_DROP_PACKET, .note "lrp_ip_route"]

section flows
variable {x : Extra} {opts : Options} {z : Zoo} {dp : String} {addr : ℕ}

/-- A build from scratch has the flows of a rule that computes them from what a query derives, if
the query does not derive anything from the tunnel alone. -/
theorem mem_lrpFlows {α : Type} {q : Query α} {n : ℕ} (hq : q.AtMost n) (hn : n < 100)
    (hneed : ∀ y, ¬ q.DerivesFrom (· = tunnelRow) y) {g : α → LrFlow} {table : ℕ} {note : String}
    {k : FlowKey Match} {a : Action} :
    (∃ s, ⟨k, a, s⟩ ∈ buildFlows (buildFlowsLrp table note (do let y ← q; pure (g y))) z.scratch) ↔
      ∃ y, q.DerivesFrom (Built z) y ∧ a = (g y).2.2.2 ++ [.note note] ∧
        k = ⟨table, (g y).2.1, .datapath (toString (g y).1.lrID) :: (g y).2.2.1⟩ := by
  have hrule : (buildFlowsLrp table note (do let y ← q; pure (g y))).AtMost n :=
    atMost_buildFlowsLrp (Rule.atMost_bind (n := 0) hq fun _ => Rule.atMost_pure_le _)
  rw [mem_buildFlows_scratch hrule hn]
  · simp only [buildFlowsLrp, Rule.derivesFrom_bind, Rule.derivesFrom_pure, Prod.mk.injEq]
    constructor
    · rintro ⟨_, ⟨y, hy, rfl⟩, rfl, rfl⟩
      exact ⟨y, hy, rfl, rfl⟩
    · rintro ⟨y, hy, rfl, rfl⟩
      exact ⟨_, ⟨y, hy, rfl⟩, rfl, rfl⟩
  · intro f hf
    simp only [buildFlowsLrp, Rule.derivesFrom_bind] at hf
    obtain ⟨_, ⟨y, hy, _⟩, _⟩ := hf
    exact hneed y hy

theorem connected_iff {k : FlowKey Match} {a : Action} :
    (∃ s, ⟨k, a, s⟩ ∈ levelFlows x opts z .connected) ↔
      ∃ link, (lspLinkLrp x).DerivesFrom (Built z) link ∧ a = portAction link ∧
        k = routingKey link.lr 0 link.lrp.ilkIdx link.lrp.ipInt link.lrp.prefixLen := by
  refine mem_lrpFlows (atMost_lspLinkLrp x) (by omega) fun link h => ?_
  cases (link_spec h).1

theorem static_iff {k : FlowKey Match} {a : Action} :
    (∃ s, ⟨k, a, s⟩ ∈ levelFlows x opts z .static) ↔
      ∃ route, (staticRouteChanged x opts).DerivesFrom (Built z) route ∧ a = routeAction route ∧
        k = routingKey route.2.1 1 route.1.ilkIdx route.1.ipInt route.1.prefixLen := by
  refine mem_lrpFlows (atMost_staticRouteChanged x opts) (by omega) fun route h => ?_
  cases (route_spec h).1

theorem drop_iff {k : FlowKey Match} {a : Action} : (∃ s, ⟨k, a, s⟩ ∈ dropFlows x z) ↔
    ∃ lr, (lrArray x).DerivesFrom (Built z) lr ∧ a = dropAction ∧
      k = dropKey (toString lr.lrID) := by
  refine mem_lrpFlows (atMost_lrArray x) (by omega) fun lr h => ?_
  obtain ⟨⟨r, rfl, hr⟩, _⟩ := derivesFrom_lrArray.mp h
  cases hr

theorem ecmp_iff {k : FlowKey Match} {a : Action} :
    (∃ s, ⟨k, a, s⟩ ∈ levelFlows x opts z .ecmp) ↔ opts.gateway = false ∧
      ∃ lr g, (lrArray x).DerivesFrom (Built z) lr ∧
        (∃ slave, (ecmpPair x).DerivesFrom (Built z) slave ∧ slave.group = g) ∧
        g.lrUuid = lr.uuid ∧ a = ecmpAction (groupPorts x z g) ∧ k = ecmpKey lr g := by
  rw [levelFlows]
  split_ifs with hgateway
  · simp [hgateway]
  simp only [mem_ecmpStaticRoute, derivesFrom_built_iff]
  constructor
  · rintro ⟨s, lr, hlr, a, ha, hjoin, _, hl⟩
    obtain ⟨rfl, rfl, rfl⟩ := LFlow.mk.inj hl
    rcases mem_ecmpAggregateOutport.mp ha with ⟨d, hd, rfl⟩ | ⟨h, hh, rfl⟩ | ⟨d, _, ⟨h, hh, _⟩, rfl⟩
    · refine ⟨by simpa using hgateway, lr.1, d.1.group, ⟨lr.2, hlr⟩, ?_, hjoin, rfl, rfl⟩
      exact ⟨d.1, ⟨d.2, mem_adding_scratch.mp hd⟩, rfl⟩
    · exact absurd hh (falling_scratch h)
    · exact absurd hh (falling_scratch h)
  · rintro ⟨_, lr, g, ⟨sup, hlr⟩, ⟨slave, ⟨sup', hslave⟩, rfl⟩, hjoin, rfl, rfl⟩
    have hmem := (((lrArray x).mem_eval _ _ _).mp hlr).2
    have hpos : 0 < stateSum sup + State.ADD.val :=
      (add_pos_iff hlr).mpr fun f hf => (State.live_iff _).mpr (not_dying_scratch (hmem f hf))
    exact ⟨_, (lr, sup), hlr, _, mem_ecmpAggregateOutport.mpr
      (Or.inl ⟨(slave, sup'), mem_adding_scratch.mpr hslave, rfl⟩), hjoin, hpos.ne', rfl⟩

/-- A flow of a route matches iff it is of the datapath and its network has the address. -/
theorem hits_routingKey {lr : Lr} (level idx : ℕ) {ipInt prefixLen : ℕ} :
    Hits dp addr (routingKey lr level idx ipInt prefixLen) ↔
      toString lr.lrID = dp ∧ InNet addr ipInt prefixLen := by
  simp [Hits, routingKey, Holds, MatchExp.ipDstPrefix, InNet]

/-- The match of a flow that matches depends on the prefix only. -/
theorem routingKey_eq {lr : Lr} (level : Level) (idx : ℕ) {ipInt prefixLen : ℕ}
    (hdp : toString lr.lrID = dp) (hnet : InNet addr ipInt prefixLen) :
    routingKey lr level.val idx ipInt prefixLen = hitKey dp addr prefixLen level idx := by
  rw [routingKey, hitKey, MatchExp.ipDstPrefix, hdp, hnet]

/-- The flows of a level that match are those of the routes that match. -/
theorem route_iff {level : Level} {k : FlowKey Match} {a : Action} :
    (∃ s, ⟨k, a, s⟩ ∈ levelFlows x opts z level) ∧ Hits dp addr k ↔
      ∃ prefixLen idx, RouteTo x opts z dp addr prefixLen level idx a ∧
        k = hitKey dp addr prefixLen level idx := by
  constructor
  · rintro ⟨hmem, hhits⟩
    cases level with
    | connected =>
        obtain ⟨link, hlink, rfl, rfl⟩ := connected_iff.mp hmem
        obtain ⟨hdp, hnet⟩ := (hits_routingKey _ _).mp hhits
        exact ⟨_, _, .connected link ⟨hlink, hdp, hnet⟩,
          routingKey_eq .connected _ hdp hnet⟩
    | static =>
        obtain ⟨route, hroute, rfl, rfl⟩ := static_iff.mp hmem
        obtain ⟨hdp, hnet⟩ := (hits_routingKey _ _).mp hhits
        exact ⟨_, _, .static route ⟨hroute, hdp, hnet⟩,
          routingKey_eq .static _ hdp hnet⟩
    | ecmp =>
        obtain ⟨hgateway, lr, g, hlr, hslave, hjoin, rfl, rfl⟩ := ecmp_iff.mp hmem
        obtain ⟨hdp, hnet⟩ := (hits_routingKey 2 0).mp hhits
        exact ⟨_, _, .ecmp lr g ⟨hgateway, hlr, hslave, hjoin, hdp, hnet⟩,
          routingKey_eq .ecmp 0 hdp hnet⟩
  · rintro ⟨prefixLen, idx, hroute, rfl⟩
    cases hroute with
    | connected link h =>
        have hkey := routingKey_eq .connected link.lrp.ilkIdx h.datapath h.net
        rw [← hkey]
        exact ⟨connected_iff.mpr ⟨link, h.derived, rfl, rfl⟩,
          (hits_routingKey _ _).mpr ⟨h.datapath, h.net⟩⟩
    | static route h =>
        have hkey := routingKey_eq .static route.1.ilkIdx h.datapath h.net
        rw [← hkey]
        exact ⟨static_iff.mpr ⟨route, h.derived, rfl, rfl⟩,
          (hits_routingKey _ _).mpr ⟨h.datapath, h.net⟩⟩
    | ecmp lr g h =>
        have hkey := routingKey_eq .ecmp 0 h.datapath h.net
        rw [← hkey]
        exact ⟨ecmp_iff.mpr ⟨h.node, lr, g, h.router, h.derived, h.join, rfl, rfl⟩,
          (hits_routingKey _ _).mpr ⟨h.datapath, h.net⟩⟩

/-- The prefix of a route can be read off its flow. -/
theorem isRoute_iff {level : Level} {prefixLen : ℕ} {l : LFlow Match Action}
    (hhits : Hits dp addr l.key) : IsRoute x opts z level prefixLen l ↔
      l ∈ levelFlows x opts z level ∧ ∃ idx, RouteTo x opts z dp addr prefixLen level idx l.action ∧
        l.key = hitKey dp addr prefixLen level idx := by
  refine and_congr_right fun hmem => ?_
  obtain ⟨prefixLen', idx, hroute, hkey⟩ := route_iff.mp ⟨⟨_, hmem⟩, hhits⟩
  constructor
  · rintro ⟨net, hnet⟩
    obtain ⟨_, rfl⟩ : net = maskIp addr prefixLen' ∧ prefixLen = prefixLen' := by
      rw [hkey] at hnet
      simpa [hitKey] using hnet
    exact ⟨idx, hroute, hkey⟩
  · rintro ⟨idx, _, hkey⟩
    refine ⟨maskIp addr prefixLen, ?_⟩
    rw [hkey]
    simp [hitKey]

/-- A flow that matches is that of a route or a drop flow. -/
theorem hit_cases {l : LFlow Match Action} (hmem : l ∈ build x opts z)
    (hhits : Hits dp addr l.key) :
    (∃ prefixLen level idx, IsRoute x opts z level prefixLen l ∧
      RouteTo x opts z dp addr prefixLen level idx l.action ∧
        l.key = hitKey dp addr prefixLen level idx) ∨
    l.key = dropKey dp ∧ l.action = dropAction := by
  rcases mem_build.mp hmem with ⟨level, hlevel⟩ | hdrop
  · obtain ⟨prefixLen, idx, hroute, hkey⟩ := route_iff.mp ⟨⟨_, hlevel⟩, hhits⟩
    have hisRoute := (isRoute_iff hhits).mpr ⟨hlevel, idx, hroute, hkey⟩
    exact Or.inl ⟨prefixLen, level, idx, hisRoute, hroute, hkey⟩
  · obtain ⟨lr, _, haction, hkey⟩ := drop_iff.mp ⟨_, hdrop⟩
    have hdp : toString lr.lrID = dp := by
      rw [hkey] at hhits
      exact hhits _ List.mem_cons_self
    exact Or.inr ⟨by rw [hkey, hdp], haction⟩

/-- A route that matches has a flow that matches. -/
theorem RouteTo.exists_flow {prefixLen : ℕ} {level : Level} {idx : ℕ} {a : Action}
    (h : RouteTo x opts z dp addr prefixLen level idx a) :
    ∃ l ∈ build x opts z, Hits dp addr l.key ∧ l.key = hitKey dp addr prefixLen level idx ∧
      l.action = a := by
  obtain ⟨⟨s, hmem⟩, hhits⟩ := route_iff.mpr ⟨prefixLen, idx, h, rfl⟩
  exact ⟨_, mem_build.mpr (Or.inl ⟨level, hmem⟩), hhits, rfl, rfl⟩

variable (opts) in
/-- The router of a port has a drop flow. -/
theorem PortMatches.exists_drop {link : LspLinkLrp} (h : PortMatches x z dp addr link) :
    ∃ l ∈ build x opts z, Hits dp addr l.key ∧ l.key = dropKey dp ∧ l.action = dropAction := by
  obtain ⟨s, hmem⟩ := drop_iff.mpr ⟨link.lr, (link_spec h.derived).2.1, rfl, rfl⟩
  rw [h.datapath] at hmem
  exact ⟨_, mem_build.mpr (Or.inr hmem), by simp [Hits, dropKey, Holds], rfl, rfl⟩

theorem hitKey_ne_dropKey {prefixLen idx : ℕ} {level : Level} :
    hitKey dp addr prefixLen level idx ≠ dropKey dp := by
  simp [hitKey, dropKey]

end flows

/-! ### Priorities -/

/-- The priority orders by prefix, then by level. -/
theorem lex_of_calPriority_le {prefixLen idx prefixLen' idx' : ℕ} {level level' : Level}
    (hidx : idx < 64) (hidx' : idx' < 64)
    (h : calPriority prefixLen level.val idx ≤ calPriority prefixLen' level'.val idx') :
    prefixLen < prefixLen' ∨ prefixLen = prefixLen' ∧ level.val ≤ level'.val := by
  have hlevel := Level.val_le level
  have hlevel' := Level.val_le level'
  rw [calPriority_eq, calPriority_eq] at h
  omega

/-- Prefix, level and index can be read off the priority. -/
theorem calPriority_injective {prefixLen idx prefixLen' idx' : ℕ} {level level' : Level}
    (hidx : idx < 64) (hidx' : idx' < 64)
    (h : calPriority prefixLen level.val idx = calPriority prefixLen' level'.val idx') :
    prefixLen = prefixLen' ∧ level = level' ∧ idx = idx' := by
  have hlevel := Level.val_le level
  have hlevel' := Level.val_le level'
  rw [calPriority_eq, calPriority_eq] at h
  have hval : level.val = level'.val := by omega
  exact ⟨by omega, Level.val_injective hval, by omega⟩

/-! ### Ties -/

section ties
variable {x : Extra} {opts : Options} {z : Zoo} {dp : String} {addr : ℕ} (h : Zoo.Reachable x z)
include h

theorem RouteTo.idx_lt {prefixLen : ℕ} {level : Level} {idx : ℕ} {a : Action}
    (hroute : RouteTo x opts z dp addr prefixLen level idx a) : idx < 64 := by
  cases hroute with
  | connected link hlink => exact (link_spec hlink.derived).1.idx_lt h (by rintro ⟨⟩) (by rintro ⟨⟩)
  | static route hroute =>
      exact (route_spec hroute.derived).1.idx_lt h (by rintro ⟨⟩) (by rintro ⟨⟩)
  | ecmp lr g hgroup => decide

/-- The routers of one datapath are one. -/
theorem router_unique {lr lr' : Lr} (hlr : (lrArray x).DerivesFrom (Built z) lr)
    (hlr' : (lrArray x).DerivesFrom (Built z) lr') (hdp : toString lr.lrID = toString lr'.lrID) :
    lr = lr' := by
  obtain ⟨⟨⟨_, i⟩, hr, rfl⟩, _⟩ := derivesFrom_lrArray.mp hlr
  obtain ⟨⟨⟨_, i'⟩, hr', rfl⟩, _⟩ := derivesFrom_lrArray.mp hlr'
  exact Built.router_unique h hr hr' hdp

/-- Ports of one datapath with one priority are one. -/
theorem PortMatches.unique {link link' : LspLinkLrp} (hlink : PortMatches x z dp addr link)
    (hlink' : PortMatches x z dp addr link') (hbits : link.lrp.prefixLen = link'.lrp.prefixLen)
    (hidx : link.lrp.ilkIdx = link'.lrp.ilkIdx) : link.lrp = link'.lrp := by
  obtain ⟨hport, hlr, hjoin⟩ := link_spec hlink.derived
  obtain ⟨hport', hlr', hjoin'⟩ := link_spec hlink'.derived
  have hrouter := router_unique h hlr hlr' (hlink.datapath.trans hlink'.datapath.symm)
  have hnet : Zoo.network (.lrp link.lrp.toLrp) = Zoo.network (.lrp link'.lrp.toLrp) := by
    have hmask : maskIp link.lrp.ipInt link.lrp.prefixLen =
        maskIp link'.lrp.ipInt link'.lrp.prefixLen := by
      rw [← hlink.net, ← hlink'.net, hbits]
    rw [Zoo.network, Zoo.network, hjoin, hjoin', hrouter, hmask, hbits]
  have hrow := Built.eq_of_idx h hport hport' (by rintro ⟨⟩) rfl hnet (by rintro ⟨⟩) hidx
  exact Option.some.inj (congrArg Row.lrp? hrow)

/-- Static routes of one router with one priority are one, and have one outport. -/
theorem RouteMatches.unique {a b : LsrFact × Lr × LrpFact}
    (ha : RouteMatches x opts z dp addr a) (hb : RouteMatches x opts z dp addr b)
    (hlr : a.1.lrUuid = b.1.lrUuid) (hbits : a.1.prefixLen = b.1.prefixLen)
    (hidx : a.1.ilkIdx = b.1.ilkIdx) : routeAction a = routeAction b := by
  obtain ⟨hlsr, hport, _, hout⟩ := route_spec ha.derived
  obtain ⟨hlsr', hport', _, hout'⟩ := route_spec hb.derived
  have hnet : Zoo.network (.lsr a.1.toLsr) = Zoo.network (.lsr b.1.toLsr) := by
    have hmask : maskIp a.1.ipInt a.1.prefixLen = maskIp b.1.ipInt b.1.prefixLen := by
      rw [← ha.net, ← hb.net, hbits]
    rw [Zoo.network, Zoo.network, hlr, hmask, hbits]
  have hrow := Built.eq_of_idx h hlsr hlsr' (by rintro ⟨⟩) rfl hnet (by rintro ⟨⟩) hidx
  have hroute : a.1 = b.1 := Option.some.inj (congrArg Row.lsr? hrow)
  have huuid : a.2.2.uuid = b.2.2.uuid := by
    rw [hroute, hout'] at hout
    exact (Option.some.inj hout).symm
  have hrow' := Built.unique h hport' hport (by rintro ⟨⟩) rfl huuid
  have hlrp : a.2.2 = b.2.2 := Option.some.inj (congrArg Row.lrp? hrow')
  rw [routeAction, routeAction, hroute, hlrp]

/-- Routes that match with one priority do the same, or a route with a higher one matches. -/
theorem RouteTo.eq_or_better (hn : NoTie x opts z dp addr) {prefixLen idx prefixLen' idx' : ℕ}
    {level level' : Level} {a b : Action} (ha : RouteTo x opts z dp addr prefixLen level idx a)
    (hb : RouteTo x opts z dp addr prefixLen' level' idx' b) (hbits : prefixLen = prefixLen')
    (hlevel : level = level') (hidx : idx = idx') :
    a = b ∨ Better x opts z dp addr prefixLen level idx := by
  cases ha with
  | connected link hlink =>
      cases hb with
      | connected link' hlink' =>
          rw [portAction, portAction, hlink.unique h hlink' hbits hidx]
          exact Or.inl rfl
      | static route hroute => cases hlevel
      | ecmp lr g hgroup => cases hlevel
  | static route hroute =>
      cases hb with
      | connected link hlink => cases hlevel
      | static route' hroute' =>
          by_cases hlr : route.1.lrUuid = route'.1.lrUuid
          · exact Or.inl (hroute.unique h hroute' hlr hbits hidx)
          · exact or_iff_not_imp_left.mpr (hn.static _ _ hroute hroute' hlr hbits hidx)
      | ecmp lr g hgroup => cases hlevel
  | ecmp lr g hgroup =>
      cases hb with
      | connected link hlink => cases hlevel
      | static route hroute => cases hlevel
      | ecmp lr' g' hgroup' =>
          obtain rfl := router_unique h hgroup.router hgroup'.router
            (hgroup.datapath.trans hgroup'.datapath.symm)
          by_cases hports : groupPorts x z g = groupPorts x z g'
          · exact Or.inl (by rw [hports])
          · refine Or.inr (hn.ecmp _ _ _ hgroup hgroup' (fun hip => hports ?_) hbits hports)
            have hlr : g.lrUuid = g'.lrUuid := hgroup.join.trans hgroup'.join.symm
            have hg : g = g' := by
              calc g = ⟨g.lrUuid, g.ip, g.prefixLen⟩ := rfl
                _ = g' := by rw [hlr, hip, hbits]
            rw [hg]

omit h in
/-- A route with the priority of the drop flow is that of a port. -/
theorem RouteTo.better_of_zero (hn : NoTie x opts z dp addr) {prefixLen idx : ℕ} {level : Level}
    {a : Action} (ha : RouteTo x opts z dp addr prefixLen level idx a)
    (hzero : calPriority prefixLen level.val idx = 0) :
    Better x opts z dp addr prefixLen level idx := by
  rw [calPriority_eq] at hzero
  cases ha with
  | connected link hlink =>
      have hbits : link.lrp.prefixLen = 0 := by omega
      have hidx : link.lrp.ilkIdx = 0 := by omega
      rw [hbits, hidx]
      exact hn.connected link hlink hbits hidx
  | static route hroute => simp [Level.val] at hzero
  | ecmp lr g hgroup => simp [Level.val] at hzero

end ties

/-! ### The flow that is taken -/

section chosen
variable {x : Extra} {opts : Options} {z : Zoo} {dp : String} {addr : ℕ}

/-- A chosen flow is that of a route that matches, or one with a higher priority matches. -/
theorem Chosen.eq_or_better {l : LFlow Match Action} (hl : Chosen x opts z dp addr l)
    {prefixLen idx : ℕ} {level : Level} {a : Action}
    (ha : RouteTo x opts z dp addr prefixLen level idx a) :
    l.key = hitKey dp addr prefixLen level idx ∧ l.action = a ∨
      Better x opts z dp addr prefixLen level idx := by
  obtain ⟨l', hmem', hhits', hkey', rfl⟩ := ha.exists_flow
  rcases hl.only l' hmem' hhits' with hlt | ⟨hkey, haction⟩
  · right
    rw [hkey'] at hlt
    rcases hit_cases hl.mem hl.hits with ⟨_, _, _, _, hroute, hkey⟩ | ⟨hdrop, _⟩
    · rw [hkey] at hlt
      exact ⟨_, _, _, _, hroute, hlt⟩
    · rw [hdrop] at hlt
      exact absurd hlt (Nat.not_lt_zero _)
  · exact Or.inl ⟨by rw [← hkey, hkey'], haction.symm⟩

/-- Longest prefix match leaves no ties. -/
theorem noTie_of_longestPrefixMatch (h : LongestPrefixMatch x opts z dp addr) :
    NoTie x opts z dp addr where
  connected := by
    intro link hlink hbits hidx
    have hroute : RouteTo x opts z dp addr link.lrp.prefixLen .connected link.lrp.ilkIdx
        (portAction link) := .connected link hlink
    rw [hbits, hidx] at hroute
    obtain ⟨l', hmem', hhits', _⟩ := hroute.exists_flow
    obtain ⟨l, hl⟩ := h ⟨l', hmem', hhits'⟩
    refine (hl.eq_or_better hroute).resolve_left fun hsame => ?_
    obtain ⟨d, hd, hhitsd, hkeyd, _⟩ := hlink.exists_drop opts
    rcases hl.only d hd hhitsd with hlt | ⟨hkey, _⟩
    · rw [hsame.1, hkeyd] at hlt
      exact absurd hlt (Nat.lt_irrefl 0)
    · rw [hsame.1, hkeyd] at hkey
      exact hitKey_ne_dropKey hkey.symm
  static := by
    intro a b ha hb _ hbits hidx hne
    obtain ⟨l', hmem', hhits', _⟩ := (RouteTo.static a ha).exists_flow
    obtain ⟨l, hl⟩ := h ⟨l', hmem', hhits'⟩
    rcases hl.eq_or_better (.static a ha) with ⟨_, haction⟩ | hbetter
    · have hb' := hl.eq_or_better (.static b hb)
      rw [← hbits, ← hidx] at hb'
      exact hb'.resolve_left fun hsame => hne (haction.symm.trans hsame.2)
    · exact hbetter
  ecmp := by
    intro lr g g' hg hg' _ hbits hne
    obtain ⟨l', hmem', hhits', _⟩ := (RouteTo.ecmp lr g hg).exists_flow
    obtain ⟨l, hl⟩ := h ⟨l', hmem', hhits'⟩
    rcases hl.eq_or_better (.ecmp lr g hg) with ⟨_, haction⟩ | hbetter
    · have hg'' := hl.eq_or_better (.ecmp lr g' hg')
      rw [← hbits] at hg''
      refine hg''.resolve_left fun hsame => hne (ecmpAction_injective ?_)
      exact haction.symm.trans hsame.2
    · exact hbetter

/-- Without ties the flows that match with the highest priority are one. -/
theorem chosen_of_noTie (hz : Zoo.Reachable x z) (hn : NoTie x opts z dp addr)
    {l : LFlow Match Action} (hmem : l ∈ build x opts z) (hhits : Hits dp addr l.key)
    (htop : ∀ l' ∈ build x opts z, Hits dp addr l'.key → l'.key.priority ≤ l.key.priority) :
    Chosen x opts z dp addr l := by
  -- nothing is better than a route with the priority of the flow
  have hbest : ∀ prefixLen level idx, calPriority prefixLen level.val idx = l.key.priority →
      ¬ Better x opts z dp addr prefixLen level idx := by
    rintro prefixLen level idx hprio ⟨_, _, _, _, hroute, hlt⟩
    obtain ⟨l', hmem', hhits', hkey', _⟩ := hroute.exists_flow
    have hle := htop l' hmem' hhits'
    rw [hkey', ← hprio] at hle
    exact absurd hlt (Nat.not_lt.mpr hle)
  have hcases := hit_cases hmem hhits
  refine ⟨hmem, hhits, fun l' hmem' hhits' => ?_, fun l' level' prefixLen' hisRoute' hhits' => ?_⟩
  · rcases Nat.lt_or_eq_of_le (htop l' hmem' hhits') with hlt | hprio
    · exact Or.inl hlt
    · right
      rcases hcases with ⟨prefixLen, level, idx, _, hroute, hkey⟩ | ⟨hkey, haction⟩
      · rcases hit_cases hmem' hhits' with ⟨_, _, _, _, hroute', hkey'⟩ | ⟨hkey', _⟩
        · rw [hkey, hkey'] at hprio
          obtain ⟨rfl, rfl, rfl⟩ :=
            calPriority_injective (hroute'.idx_lt hz) (hroute.idx_lt hz) hprio
          refine ⟨by rw [hkey, hkey'], ?_⟩
          exact (hroute'.eq_or_better hz hn hroute rfl rfl rfl).resolve_right
            (hbest _ _ _ (by rw [hkey]; rfl))
        · rw [hkey, hkey'] at hprio
          exact absurd (hroute.better_of_zero hn hprio.symm) (hbest _ _ _ (by rw [hkey]; rfl))
      · rcases hit_cases hmem' hhits' with ⟨_, _, _, _, hroute', hkey'⟩ | ⟨hkey', haction'⟩
        · rw [hkey'] at hprio
          refine absurd (hroute'.better_of_zero hn (hprio.trans ?_)) (hbest _ _ _ hprio)
          rw [hkey]
          rfl
        · exact ⟨by rw [hkey, hkey'], by rw [haction, haction']⟩
  · obtain ⟨hlevel', idx', hroute', hkey'⟩ := (isRoute_iff hhits').mp hisRoute'
    have hle := htop l' (mem_build.mpr (Or.inl ⟨level', hlevel'⟩)) hhits'
    rw [hkey'] at hle
    rcases hcases with ⟨prefixLen, level, idx, hisRoute, hroute, hkey⟩ | ⟨hkey, _⟩
    · rw [hkey] at hle
      exact ⟨level, prefixLen, hisRoute,
        lex_of_calPriority_le (hroute'.idx_lt hz) (hroute.idx_lt hz) hle⟩
    · have hzero : calPriority prefixLen' level'.val idx' = 0 := by
        rw [hkey] at hle
        exact Nat.le_zero.mp hle
      refine absurd (hroute'.better_of_zero hn hzero) (hbest _ _ _ (hzero.trans ?_))
      rw [hkey]
      rfl

/-- **Longest prefix match**: after any calls on the zoo, the packets on a datapath to an address
are routed by longest prefix match in a build from scratch iff there are no ties. -/
theorem longestPrefixMatch_iff (x : Extra) (opts : Options) (ops : List Zoo.Op) (dp : String)
    (addr : ℕ) : LongestPrefixMatch x opts (Zoo.runOps x ops) dp addr ↔
      NoTie x opts (Zoo.runOps x ops) dp addr := by
  refine ⟨noTie_of_longestPrefixMatch, fun hn => ?_⟩
  rintro ⟨l₀, hmem₀, hhits₀⟩
  have hne : ((build x opts (Zoo.runOps x ops)).toFinset.filter
      (fun l => Hits dp addr l.key)).Nonempty :=
    ⟨l₀, Finset.mem_filter.mpr ⟨List.mem_toFinset.mpr hmem₀, hhits₀⟩⟩
  obtain ⟨l, hl, htop⟩ := Finset.exists_max_image _ (fun l => l.key.priority) hne
  obtain ⟨hmem, hhits⟩ := Finset.mem_filter.mp hl
  refine ⟨l, chosen_of_noTie (Zoo.reachable_runOps x ops) hn (List.mem_toFinset.mp hmem) hhits ?_⟩
  intro l' hmem' hhits'
  exact htop l' (Finset.mem_filter.mpr ⟨List.mem_toFinset.mpr hmem', hhits'⟩)

end chosen

/-- A router whose port is attached to a switch and has the prefix `0`. -/
def allNetworks : List Zoo.Op :=
  [.addEntity (.LS "LS-1" (some "2")), .addEntity (.LR "LR-1" (some "1") none),
    .addEntity (.lrp "lrp-1" (some "10.0.0.1") (some "0") (some "f2:01:0a:00:00:01") "LR-1"
      (some "lsp-1")),
    .addEntity (.lsp "lsp-1" (some "10.0.0.1") (some "f2:01:0a:00:00:01") "LS-1" none
      (some "lrp-1"))]

set_option maxRecDepth 100000 in
/-- The flow of the port and the drop flow both have the priority `0`. -/
theorem drop_flow_tie : ¬ ∀ (x : Extra) (opts : Options) (ops : List Zoo.Op) (dp : String)
    (addr : ℕ), LongestPrefixMatch x opts (Zoo.runOps x ops) dp addr := by
  intro h
  have hall : ∀ l ∈ build (.node false "hyper-1") ⟨false, false, false, none⟩
      (Zoo.runOps (.node false "hyper-1") allNetworks),
      Hits "1" 0x14000001 l.key ∧ l.key.priority = 0 := by
    decide +kernel
  have htwo : ∃ l ∈ build (.node false "hyper-1") ⟨false, false, false, none⟩
      (Zoo.runOps (.node false "hyper-1") allNetworks),
      ∃ l' ∈ build (.node false "hyper-1") ⟨false, false, false, none⟩
        (Zoo.runOps (.node false "hyper-1") allNetworks), l.key ≠ l'.key := by
    decide +kernel
  obtain ⟨l, hl, l', hl', hne⟩ := htwo
  obtain ⟨c, hc⟩ := h (.node false "hyper-1") ⟨false, false, false, none⟩ allNetworks "1" 0x14000001
    ⟨l, hl, (hall l hl).1⟩
  have hsame : ∀ l ∈ build (.node false "hyper-1") ⟨false, false, false, none⟩
      (Zoo.runOps (.node false "hyper-1") allNetworks), l.key = c.key := by
    intro l hl
    refine ((hc.only l hl (hall l hl).1).resolve_left fun hlt => ?_).1
    rw [(hall l hl).2, (hall c hc.mem).2] at hlt
    exact absurd hlt (Nat.lt_irrefl 0)
  exact hne ((hsame l hl).trans (hsame l' hl').symm)

end LongestPrefix

end TupleNet
