import TupleNet.Flow.IpRoute
import TupleNet.Flow.Redirect

/-! # ECMP bundles

`ecmp_static_route` of `ecmp.py`.  Two static routes of one router to one address through one next
hop, with different outports, make a pair; the tunnel ports behind their outports are the slaves of
the bundle of the group (router, address, prefix).  Three aggregates maintain it: `adding` writes
the ports of the new pairs, `deleting` removes the flow when a pair may be dying, `readding` writes
the ports of all standing pairs after a removal.

`Written` and `Erased` say in terms of derivations which flows the rows write and erase. -/

namespace TupleNet

open Datalog KeyedTable StepMachine LogicalView IpRoute Redirect

namespace Ecmp

/-! ### Pairs of routes -/

/-- The first three components of the key of the aggregates. -/
structure Group where
  lrUuid : String
  ip : String
  prefixLen : ℕ
deriving DecidableEq, Repr

/-- The group of a route. -/
def groupOf (route : LsrFact) : Group := ⟨route.lrUuid, route.ip, route.prefixLen⟩

/-- A route that is paired and a tunnel port behind its outport. -/
structure Slave where
  route : LsrFact
  ofport : ℤ
deriving DecidableEq, Repr

/-- The group of a slave. -/
def Slave.group (s : Slave) : Group := groupOf s.route

section rules
variable (x : Extra)

/-- `Route1` and `Route2` differ in their outports only. -/
def Paired (route₁ route₂ : LsrFact) : Prop :=
  route₁.lrUuid = route₂.lrUuid ∧ route₁.uuid ≠ route₂.uuid ∧ route₁.ip = route₂.ip ∧
    route₁.prefixLen = route₂.prefixLen ∧ route₁.nextHop = route₂.nextHop ∧
    route₁.outport ≠ route₂.outport

instance (route₁ route₂ : LsrFact) : Decidable (Paired route₁ route₂) :=
  inferInstanceAs (Decidable (_ ∧ _))

/-- The join of `adding` and `readding`. -/
def ecmpPair : Query Slave := do
  let route₁ ← lrouteArray
  let route₂ ← lrouteArray
  Rule.guard (Paired route₁ route₂)
  let port₁ ← nextHopOvsport x
  Rule.guard (route₁.outport = some port₁.1.uuid)
  let port₂ ← nextHopOvsport x
  Rule.guard (route₂.outport = some port₂.1.uuid)
  pure ⟨route₁, port₁.2⟩

/-- The join of `deleting`. -/
def ecmpHop : Query Slave := do
  let route₁ ← lrouteArray
  let route₂ ← lrouteArray
  Rule.guard (Paired route₁ route₂)
  let port ← nextHopOvsport x
  Rule.guard (route₁.outport = some port.1.uuid)
  pure ⟨route₁, port.2⟩

/-! ### Aggregates -/

variable (B : List (Row × State))

/-- The pairs of `adding`; the first two facts are the routes. -/
def adding : List (Slave × List (Row × State)) :=
  ((ecmpPair x).eval B).filter (fun d => 0 ≤ stateSum (d.2.take 2) ∧ 0 < stateSum d.2)

/-- The pairs of `readding`, before they are joined with `deleting`. -/
def standing : List (Slave × List (Row × State)) :=
  ((ecmpPair x).eval B).filter (fun d => 0 ≤ stateSum (d.2.take 2) ∧ 0 ≤ stateSum d.2)

/-- The derivations of `deleting`. -/
def falling : List (Slave × List (Row × State)) :=
  ((ecmpHop x).eval B).filter (fun d => stateSum d.2 < 0)

/-- The groups that have a derivation. -/
def groups (ds : List (Slave × List (Row × State))) : List Group :=
  (ds.map (fun d => d.1.group)).dedup

/-- `tuple_(Y, order_by=Z)` for one group. -/
def portsOf (ds : List (Slave × List (Row × State))) (g : Group) : List ℤ :=
  tupleOf ((ds.filter (fun d => d.1.group = g)).map (fun d => (d.1.ofport, d.1.route.uuid)))

/-- A value of an aggregate: the group, `X[3]` and the ports. -/
structure Aggr where
  group : Group
  state : State
  ports : List ℤ
deriving DecidableEq, Repr

/-- `ecmp_aggregate_outport` and `ecmp_aggregate_outport_readd`. -/
def ecmpAggregateOutport : List Aggr :=
  (groups (adding x B)).map (fun g => ⟨g, .ADD, portsOf (adding x B) g⟩) ++
    (groups (falling x B)).map (fun g => ⟨g, .DEL, portsOf (falling x B) g⟩) ++
    ((groups (standing x B)).filter (fun g => g ∈ groups (falling x B))).map
      (fun g => ⟨g, .ADD, portsOf (standing x B) g⟩)

end rules

/-! ### The flows -/

/-- The key of the flow of a router and a group. -/
def ecmpKey (lr : Lr) (g : Group) : FlowKey Match :=
  ⟨TABLE_LRP_INGRESS_IP_ROUTE, calPriority g.prefixLen 2 0,
    [.datapath (toString lr.lrID), .ipProto, .ipDstPrefix ((ip2int g.ip).getD 0) g.prefixLen]⟩

/-- What an ECMP flow does. -/
def ecmpAction (ports : List ℤ) : Action :=
  [.bundleLoad .regOutport ports, .resubmitNext, .note "lrp_ip_route"]

theorem ecmpAction_injective {ps qs : List ℤ} (h : ecmpAction ps = ecmpAction qs) : ps = qs := by
  injection h with h
  injection h

/-- `ecmp_static_route`, as `build_flows` wraps it. -/
def ecmpStaticRoute (x : Extra) (B : List (Row × State)) : List (LFlow Match Action) :=
  ((lrArray x).eval B).flatMap (fun lr =>
    ((ecmpAggregateOutport x B).filter (fun a =>
      a.group.lrUuid = lr.1.uuid ∧ stateSum lr.2 + a.state.val ≠ 0)).map
        (fun a => ⟨ecmpKey lr.1 a.group, ecmpAction a.ports, stateSum lr.2 + a.state.val⟩))

/-! ### Premises -/

section premises
variable (x : Extra) {B : List (Row × State)} {d : Slave × List (Row × State)}

theorem atMost_ecmpPair : (ecmpPair x).AtMost 20 :=
  Rule.atMost_fact_bind fun _ => Rule.atMost_fact_bind fun _ => Rule.atMost_guard_bind fun _ =>
    Rule.atMost_bind (n := 9) (atMost_nextHopOvsport x) fun _ => Rule.atMost_guard_bind fun _ =>
      Rule.atMost_bind (n := 0) (atMost_nextHopOvsport x) fun _ => Rule.atMost_guard_bind fun _ =>
        Rule.atMost_pure_le _

theorem atMost_ecmpHop : (ecmpHop x).AtMost 11 :=
  Rule.atMost_fact_bind fun _ => Rule.atMost_fact_bind fun _ => Rule.atMost_guard_bind fun _ =>
    Rule.atMost_bind (n := 0) (atMost_nextHopOvsport x) fun _ => Rule.atMost_guard_bind fun _ =>
      Rule.atMost_pure_le _

variable {x}

theorem length_le_of_mem {α : Type} {r : Query α} {n : ℕ} (hr : r.AtMost n)
    {d : α × List (Row × State)} (hd : d ∈ r.eval B) : d.2.length ≤ n := by
  have hle := hr d.1 _ ((r.mem_eval B d.1 d.2).mp hd).1
  rwa [List.length_map] at hle

theorem length_lt_of_mem_pair (hd : d ∈ (ecmpPair x).eval B) : d.2.length < 100 := by
  have := length_le_of_mem (atMost_ecmpPair x) hd
  omega

/-- A pair stands when none of its facts is dying; the sum of the routes adds nothing to that. -/
theorem mem_standing : d ∈ standing x B ↔ d ∈ (ecmpPair x).eval B ∧ ∀ f ∈ d.2, f.2.Live := by
  rw [standing, List.mem_filter, decide_eq_true_eq]
  refine and_congr_right fun hd => ?_
  have hlen := length_lt_of_mem_pair hd
  rw [stateSum_nonneg_iff hlen]
  refine ⟨And.right, fun h => ⟨?_, h⟩⟩
  have htake : (d.2.take 2).length < 100 := by
    rw [List.length_take]
    omega
  exact (stateSum_nonneg_iff htake).mpr fun f hf => h f (List.mem_of_mem_take hf)

/-- The pairs of `adding` are the born ones. -/
theorem mem_adding : d ∈ adding x B ↔ d ∈ (ecmpPair x).eval B ∧ IsBorn d.2 := by
  rw [adding, List.mem_filter, decide_eq_true_eq]
  refine and_congr_right fun hd => ?_
  have hlen := length_lt_of_mem_pair hd
  rw [stateSum_pos_iff hlen]
  refine ⟨And.right, fun h => ⟨?_, h⟩⟩
  have htake : (d.2.take 2).length < 100 := by
    rw [List.length_take]
    omega
  exact (stateSum_nonneg_iff htake).mpr fun f hf => h.1 f (List.mem_of_mem_take hf)

theorem mem_falling : d ∈ falling x B ↔ d ∈ (ecmpHop x).eval B ∧ ∃ f ∈ d.2, f.2 = .DEL := by
  rw [falling, List.mem_filter, decide_eq_true_eq]
  refine and_congr_right fun hd => ?_
  have hle := length_le_of_mem (atMost_ecmpHop x) hd
  have hlen : d.2.length < 100 := by omega
  rw [← not_iff_not, not_lt, stateSum_nonneg_iff hlen]
  simp only [State.live_iff, not_exists, not_and]

theorem mem_groups {ds : List (Slave × List (Row × State))} {g : Group} :
    g ∈ groups ds ↔ ∃ d ∈ ds, d.1.group = g := by
  simp only [groups, List.mem_dedup, List.mem_map]

theorem mem_portsOf {ds : List (Slave × List (Row × State))} {g : Group} {p : ℤ} :
    p ∈ portsOf ds g ↔ ∃ d ∈ ds, d.1.group = g ∧ d.1.ofport = p := by
  rw [portsOf, mem_tupleOf]
  simp only [List.mem_map, List.mem_filter, decide_eq_true_eq, Prod.mk.injEq]
  constructor
  · rintro ⟨z, d, ⟨hd, hg⟩, hp, _⟩
    exact ⟨d, hd, hg, hp⟩
  · rintro ⟨d, hd, hg, hp⟩
    exact ⟨_, d, ⟨hd, hg⟩, hp, rfl⟩

end premises

/-! ### Members of bundles -/

/-- A derivation of a port of a bundle: one of the router and one of the pair. -/
structure Member where
  lr : Lr
  lrFacts : List (Row × State)
  slave : Slave
  facts : List (Row × State)
deriving DecidableEq, Repr

namespace Member

/-- The key of the flow. -/
def key (m : Member) : FlowKey Match := ecmpKey m.lr m.slave.group

/-- All facts. -/
def support (m : Member) : List (Row × State) := m.lrFacts ++ m.facts

/-- No fact is dying. -/
def Live (m : Member) : Prop := ∀ f ∈ m.support, f.2.Live

/-- No fact is new. -/
def Old (m : Member) : Prop := ∀ f ∈ m.support, f.2.Old

instance (m : Member) : Decidable m.Live := inferInstanceAs (Decidable (∀ f ∈ m.support, f.2.Live))
instance (m : Member) : Decidable m.Old := inferInstanceAs (Decidable (∀ f ∈ m.support, f.2.Old))

theorem live_iff {m : Member} :
    m.Live ↔ (∀ f ∈ m.lrFacts, f.2.Live) ∧ ∀ f ∈ m.facts, f.2.Live := List.forall_mem_append

theorem old_iff {m : Member} :
    m.Old ↔ (∀ f ∈ m.lrFacts, f.2.Old) ∧ ∀ f ∈ m.facts, f.2.Old := List.forall_mem_append

end Member

section members
variable (x : Extra) (B : List (Row × State))

/-- The members of all bundles, dying and live ones. -/
def members : List Member :=
  ((lrArray x).eval B).flatMap (fun lr =>
    (((ecmpPair x).eval B).filter (fun d => d.1.group.lrUuid = lr.1.uuid)).map
      (fun d => ⟨lr.1, lr.2, d.1, d.2⟩))

variable {x B}

theorem mem_members {m : Member} : m ∈ members x B ↔ (m.lr, m.lrFacts) ∈ (lrArray x).eval B ∧
    (m.slave, m.facts) ∈ (ecmpPair x).eval B ∧ m.slave.group.lrUuid = m.lr.uuid := by
  simp only [members, List.mem_flatMap, List.mem_map, List.mem_filter, decide_eq_true_eq]
  constructor
  · rintro ⟨lr, hlr, d, ⟨hd, hjoin⟩, rfl⟩
    exact ⟨hlr, hd, hjoin⟩
  · rintro ⟨hlr, hd, hjoin⟩
    exact ⟨_, hlr, _, ⟨hd, hjoin⟩, rfl⟩

/-- Another pair of the group is a member of the same bundle. -/
theorem mem_members_of_group {m : Member} (hm : m ∈ members x B)
    {d : Slave × List (Row × State)} (hd : d ∈ (ecmpPair x).eval B)
    (hg : d.1.group = m.slave.group) : (⟨m.lr, m.lrFacts, d.1, d.2⟩ : Member) ∈ members x B := by
  obtain ⟨hlr, _, hjoin⟩ := mem_members.mp hm
  refine mem_members.mpr ⟨hlr, hd, ?_⟩
  rw [← hjoin, ← hg]

variable (x B)

/-- A row writes the flow: a live pair is new, or one of its group is dying. -/
def Written (k : FlowKey Match) : Prop :=
  ∃ m ∈ members x B, m.Live ∧ m.key = k ∧
    (IsBorn m.facts ∨ ∃ h ∈ falling x B, h.1.group = m.slave.group)

/-- A row erases the flow: a pair of its group is dying. -/
def Erased (k : FlowKey Match) : Prop :=
  ∃ lr ∈ (lrArray x).eval B, (∀ f ∈ lr.2, f.2.Old) ∧
    ∃ h ∈ falling x B, h.1.group.lrUuid = lr.1.uuid ∧ ecmpKey lr.1 h.1.group = k

instance (k : FlowKey Match) : Decidable (Written x B k) :=
  inferInstanceAs (Decidable (∃ m ∈ members x B, _))

instance (k : FlowKey Match) : Decidable (Erased x B k) :=
  inferInstanceAs (Decidable (∃ lr ∈ (lrArray x).eval B, _))

end members

/-! ### Rows -/

section rows
variable {x : Extra} {B : List (Row × State)}

theorem mem_ecmpAggregateOutport {a : Aggr} : a ∈ ecmpAggregateOutport x B ↔
    (∃ d ∈ adding x B, a = ⟨d.1.group, .ADD, portsOf (adding x B) d.1.group⟩) ∨
    (∃ h ∈ falling x B, a = ⟨h.1.group, .DEL, portsOf (falling x B) h.1.group⟩) ∨
    (∃ d ∈ standing x B, (∃ h ∈ falling x B, h.1.group = d.1.group) ∧
      a = ⟨d.1.group, .ADD, portsOf (standing x B) d.1.group⟩) := by
  simp only [ecmpAggregateOutport, List.mem_append, List.mem_map, List.mem_filter, mem_groups,
    decide_eq_true_eq, or_assoc]
  refine or_congr ?_ (or_congr ?_ ?_)
  · constructor
    · rintro ⟨g, ⟨d, hd, rfl⟩, rfl⟩
      exact ⟨d, hd, rfl⟩
    · rintro ⟨d, hd, rfl⟩
      exact ⟨_, ⟨d, hd, rfl⟩, rfl⟩
  · constructor
    · rintro ⟨g, ⟨h, hh, rfl⟩, rfl⟩
      exact ⟨h, hh, rfl⟩
    · rintro ⟨h, hh, rfl⟩
      exact ⟨_, ⟨h, hh, rfl⟩, rfl⟩
  · constructor
    · rintro ⟨g, ⟨⟨d, hd, rfl⟩, hfall⟩, rfl⟩
      exact ⟨d, hd, hfall, rfl⟩
    · rintro ⟨d, hd, hfall, rfl⟩
      exact ⟨_, ⟨⟨d, hd, rfl⟩, hfall⟩, rfl⟩

theorem mem_ecmpStaticRoute {l : LFlow Match Action} : l ∈ ecmpStaticRoute x B ↔
    ∃ lr ∈ (lrArray x).eval B, ∃ a ∈ ecmpAggregateOutport x B, a.group.lrUuid = lr.1.uuid ∧
      stateSum lr.2 + a.state.val ≠ 0 ∧
      l = ⟨ecmpKey lr.1 a.group, ecmpAction a.ports, stateSum lr.2 + a.state.val⟩ := by
  simp only [ecmpStaticRoute, List.mem_flatMap, List.mem_map, List.mem_filter, decide_eq_true_eq]
  constructor
  · rintro ⟨lr, hlr, a, ⟨ha, hjoin, hne⟩, rfl⟩
    exact ⟨lr, hlr, a, ha, hjoin, hne, rfl⟩
  · rintro ⟨lr, hlr, a, ha, hjoin, hne, rfl⟩
    exact ⟨lr, hlr, a, ⟨ha, hjoin, hne⟩, rfl⟩

section states
variable {lr : Lr × List (Row × State)} (hlr : lr ∈ (lrArray x).eval B)
include hlr

/-- Beside `State_ADD` the facts of a router decide whether the flow is written. -/
theorem add_pos_iff : 0 < stateSum lr.2 + State.ADD.val ↔ ∀ f ∈ lr.2, f.2.Live := by
  have hle := length_le_of_mem (atMost_lrArray x) hlr
  rw [← stateSum_nonneg_iff (by omega : lr.2.length < 100)]
  simp only [State.val]
  omega

theorem not_deletes_add {k : FlowKey Match} {a : Action} :
    ¬ (⟨k, a, stateSum lr.2 + State.ADD.val⟩ : LFlow Match Action).Deletes := by
  have hle := length_le_of_mem (atMost_lrArray x) hlr
  have hcount := stateCount_add_le lr.2
  rw [LFlow.Deletes, ← Int.dvd_iff_fmod_eq_zero, dvd_abs, stateSum_eq]
  simp only [State.val, Int.neg_dvd]
  omega

theorem not_pos_del : ¬ 0 < stateSum lr.2 + State.DEL.val := by
  have hle := length_le_of_mem (atMost_lrArray x) hlr
  have hcount := stateCount_add_le lr.2
  rw [stateSum_eq]
  simp only [State.val]
  omega

/-- Beside `State_DEL` the facts of a router decide whether the flow is erased. -/
theorem deletes_del_iff {k : FlowKey Match} {a : Action} :
    (⟨k, a, stateSum lr.2 + State.DEL.val⟩ : LFlow Match Action).Deletes ↔
      ∀ f ∈ lr.2, f.2.Old := by
  have hle := length_le_of_mem (atMost_lrArray x) hlr
  have hcount := stateCount_add_le lr.2
  have hold : stateCount .ADD lr.2 = 0 ↔ ∀ f ∈ lr.2, f.2.Old := by
    simp only [stateCount, List.countP_eq_zero, State.old_iff, decide_eq_true_eq]
  rw [← hold, LFlow.Deletes, ← Int.dvd_iff_fmod_eq_zero, dvd_abs, stateSum_eq]
  simp only [State.val, Int.neg_dvd]
  omega

end states

/-- A row that writes a flow lists the ports of the new pairs, or those of all live ones. -/
theorem written_of_add {l : LFlow Match Action} (hl : l ∈ ecmpStaticRoute x B)
    (hpos : 0 < l.state) : ∃ m ∈ members x B, m.Live ∧ m.key = l.key ∧
      ((IsBorn m.facts ∧ l.action = ecmpAction (portsOf (adding x B) m.slave.group)) ∨
        ((∃ h ∈ falling x B, h.1.group = m.slave.group) ∧
          l.action = ecmpAction (portsOf (standing x B) m.slave.group))) := by
  obtain ⟨lr, hlr, a, ha, hjoin, _, rfl⟩ := mem_ecmpStaticRoute.mp hl
  rcases mem_ecmpAggregateOutport.mp ha with ⟨d, hd, rfl⟩ | ⟨h, _, rfl⟩ | ⟨d, hd, hfall, rfl⟩
  · obtain ⟨heval, hborn⟩ := mem_adding.mp hd
    have hlive := (add_pos_iff hlr).mp hpos
    exact ⟨⟨lr.1, lr.2, d.1, d.2⟩, mem_members.mpr ⟨hlr, heval, hjoin⟩,
      Member.live_iff.mpr ⟨hlive, hborn.1⟩, rfl, Or.inl ⟨hborn, rfl⟩⟩
  · exact absurd hpos (not_pos_del hlr)
  · obtain ⟨heval, hstand⟩ := mem_standing.mp hd
    have hlive := (add_pos_iff hlr).mp hpos
    exact ⟨⟨lr.1, lr.2, d.1, d.2⟩, mem_members.mpr ⟨hlr, heval, hjoin⟩,
      Member.live_iff.mpr ⟨hlive, hstand⟩, rfl, Or.inr ⟨hfall, rfl⟩⟩

theorem exists_add_iff {k : FlowKey Match} :
    (∃ l ∈ ecmpStaticRoute x B, l.key = k ∧ 0 < l.state) ↔ Written x B k := by
  constructor
  · rintro ⟨l, hl, rfl, hpos⟩
    obtain ⟨m, hm, hlive, hkey, h⟩ := written_of_add hl hpos
    exact ⟨m, hm, hlive, hkey, h.imp And.left And.left⟩
  · rintro ⟨m, hm, hlive, rfl, h⟩
    obtain ⟨hlr, hd, hjoin⟩ := mem_members.mp hm
    obtain ⟨hlrlive, hfacts⟩ := Member.live_iff.mp hlive
    have hpos := (add_pos_iff hlr).mpr hlrlive
    rcases h with hborn | hfall
    · exact ⟨_, mem_ecmpStaticRoute.mpr ⟨_, hlr, _, mem_ecmpAggregateOutport.mpr
        (Or.inl ⟨_, mem_adding.mpr ⟨hd, hborn⟩, rfl⟩), hjoin, hpos.ne', rfl⟩, rfl, hpos⟩
    · exact ⟨_, mem_ecmpStaticRoute.mpr ⟨_, hlr, _, mem_ecmpAggregateOutport.mpr
        (Or.inr (Or.inr ⟨_, mem_standing.mpr ⟨hd, hfacts⟩, hfall, rfl⟩)), hjoin, hpos.ne', rfl⟩,
        rfl, hpos⟩

theorem exists_delete_iff {k : FlowKey Match} :
    (∃ l ∈ ecmpStaticRoute x B, l.key = k ∧ l.Deletes) ↔ Erased x B k := by
  constructor
  · rintro ⟨l, hl, rfl, hdel⟩
    obtain ⟨lr, hlr, a, ha, hjoin, _, rfl⟩ := mem_ecmpStaticRoute.mp hl
    rcases mem_ecmpAggregateOutport.mp ha with ⟨d, _, rfl⟩ | ⟨h, hh, rfl⟩ | ⟨d, _, _, rfl⟩
    · exact absurd hdel (not_deletes_add hlr)
    · exact ⟨lr, hlr, (deletes_del_iff hlr).mp hdel, h, hh, hjoin, rfl⟩
    · exact absurd hdel (not_deletes_add hlr)
  · rintro ⟨lr, hlr, hold, h, hh, hjoin, rfl⟩
    have hdel := (deletes_del_iff (k := ecmpKey lr.1 h.1.group)
      (a := ecmpAction (portsOf (falling x B) h.1.group)) hlr).mpr hold
    exact ⟨_, mem_ecmpStaticRoute.mpr ⟨lr, hlr, _, mem_ecmpAggregateOutport.mpr
      (Or.inr (Or.inl ⟨h, hh, rfl⟩)), hjoin, hdel.1.ne, rfl⟩, rfl, hdel⟩

end rows

end Ecmp

end TupleNet
