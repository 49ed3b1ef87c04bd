import TupleNet.Flow.EcmpRounds
import TupleNet.Zoo.Ilk

/-! # Overlapping routes

All rows of `lrp_ip_route`.  The priority of a routing flow consists of the prefix, the level
(connected, static, ECMP) and the index of the port or route, so the flows of ports and routes of
one network differ in their priority as soon as their indexes do (`FlowOf.key_ne`).  An ECMP flow
belongs to a group of routes and has no index: the deletion that the end of one route causes has the
key of the flow that the remaining ones keep, and `readding` writes it again. -/

namespace TupleNet

open Datalog KeyedTable LogicalView IpRoute Ecmp

namespace RouteTable

/-! ### Rows -/

/-- The levels of `_cal_priority`. -/
inductive Level where
  | connected
  | static
  | ecmp
deriving DecidableEq, Repr

/-- The number of a level. -/
def Level.val : Level → ℕ
  | connected => 0
  | static => 1
  | ecmp => 2

theorem Level.val_injective {level level' : Level} (h : level.val = level'.val) :
    level = level' := by
  cases level <;> cases level' <;> first | rfl | cases h

theorem Level.val_le (level : Level) : level.val ≤ 2 := by cases level <;> decide

/-- The key of a routing flow. -/
def routingKey (lr : Lr) (level idx ipInt prefixLen : ℕ) : FlowKey Match :=
  ⟨TABLE_LRP_INGRESS_IP_ROUTE, calPriority prefixLen level idx,
    [.datapath (toString lr.lrID), .ipProto, .ipDstPrefix ipInt prefixLen]⟩

section rows
variable (x : Extra) (opts : Options)

/-- `lrp_ip_route`, as `build_flows` wraps it; a gateway has no ECMP flows. -/
def lrpIpRoute (B : List (Row × State)) : List (LFlow Match Action) :=
  buildFlows (buildFlowsLrp TABLE_LRP_INGRESS_IP_ROUTE "lrp_ip_route" (connectedRoute x)) B ++
    buildFlows (staticRouteFlows x opts) B ++
    (if opts.gateway then [] else ecmpStaticRoute x B) ++
    buildFlows (buildFlowsLrp TABLE_LRP_INGRESS_IP_ROUTE "lrp_ip_route" (dropRoute x)) B

/-- A row that belongs to an entity: the network of a port, a route, or the group of a route. -/
inductive FlowOf (B : List (Row × State)) (r : Row) : Level → LFlow Match Action → Prop where
  | connected (link : LspLinkLrp) (sup : List (Row × State)) (hport : r.lrp? = some link.lrp)
      (hlink : (link, sup) ∈ (lspLinkLrp x).eval B) (hne : stateSum sup ≠ 0) :
      FlowOf B r .connected
        ⟨routingKey link.lr 0 link.lrp.ilkIdx link.lrp.ipInt link.lrp.prefixLen,
          towards link.lrp (.move (.all .ipDst) (.all .reg2)) ++ [.note "lrp_ip_route"],
          stateSum sup⟩
  | static (route : LsrFact × Lr × LrpFact) (sup : List (Row × State))
      (hlsr : r.lsr? = some route.1) (hroute : (route, sup) ∈ (staticRouteChanged x opts).eval B)
      (hne : stateSum sup ≠ 0) :
      FlowOf B r .static
        ⟨routingKey route.2.1 1 route.1.ilkIdx route.1.ipInt route.1.prefixLen,
          towards route.2.2 (.loadNum route.1.nextHopInt .reg2) ++ [.note "lrp_ip_route"],
          stateSum sup⟩
  | ecmp (route : LsrFact) (lr : Lr) (l : LFlow Match Action) (hlsr : r.lsr? = some route)
      (hgateway : opts.gateway = false) (hl : l ∈ ecmpStaticRoute x B)
      (hkey : l.key = ecmpKey lr (groupOf route)) : FlowOf B r .ecmp l

variable {x opts} {B : List (Row × State)} {l : LFlow Match Action}

theorem mem_buildFlows {r : Rule Row State (FlowKey Match × Action)} : l ∈ buildFlows r B ↔
    ∃ sup, ((l.key, l.action), sup) ∈ r.eval B ∧ stateSum sup ≠ 0 ∧ l.state = stateSum sup := by
  simp only [buildFlows, List.mem_filterMap]
  constructor
  · rintro ⟨⟨⟨k, a⟩, sup⟩, hd, hl⟩
    split_ifs at hl with hne
    obtain rfl := Option.some.inj hl
    exact ⟨sup, hd, hne, rfl⟩
  · rintro ⟨sup, hd, hne, hstate⟩
    refine ⟨_, hd, ?_⟩
    rw [if_pos hne, ← hstate]

theorem mem_buildFlows_lrp {table : ℕ} {note : String} {q : Query LrFlow} :
    l ∈ buildFlows (buildFlowsLrp table note q) B ↔
      ∃ f sup, (f, sup) ∈ q.eval B ∧ stateSum sup ≠ 0 ∧
        l = ⟨⟨table, f.2.1, .datapath (toString f.1.lrID) :: f.2.2.1⟩, f.2.2.2 ++ [.note note],
          stateSum sup⟩ := by
  rw [mem_buildFlows]
  simp only [buildFlowsLrp, Rule.mem_eval_bind_pure]
  constructor
  · rintro ⟨sup, ⟨f, hf, hrow⟩, hne, hstate⟩
    obtain ⟨hkey, haction⟩ := Prod.mk.inj hrow
    refine ⟨f, sup, hf, hne, ?_⟩
    rw [← hkey, ← haction, ← hstate]
  · rintro ⟨f, sup, hf, hne, rfl⟩
    exact ⟨sup, ⟨f, hf, rfl⟩, hne, rfl⟩

/-- Each row belongs to an entity or drops what no route matches. -/
theorem flowOf_of_mem (hl : l ∈ lrpIpRoute x opts B) : (∃ r level, FlowOf x opts B r level l) ∨
    ∃ lr ∈ (lrArray x).eval B, l.key = ⟨TABLE_LRP_INGRESS_IP_ROUTE, 0,
      [.datapath (toString lr.1.lrID), .matchNone]⟩ := by
  simp only [lrpIpRoute, List.mem_append, or_assoc] at hl
  rcases hl with hl | hl | hl | hl
  · obtain ⟨f, sup, hf, hne, rfl⟩ := mem_buildFlows_lrp.mp hl
    obtain ⟨link, hlink, rfl⟩ := Rule.mem_eval_bind_pure.mp hf
    exact Or.inl ⟨⟨.lrp link.lrp.toLrp, link.lrp.ilkIdx⟩, _, .connected link sup rfl hlink hne⟩
  · obtain ⟨f, sup, hf, hne, rfl⟩ := mem_buildFlows_lrp.mp hl
    obtain ⟨route, hroute, rfl⟩ := Rule.mem_eval_bind_pure.mp hf
    exact Or.inl ⟨⟨.lsr route.1.toLsr, route.1.ilkIdx⟩, _, .static route sup rfl hroute hne⟩
  · split_ifs at hl with hgateway
    · cases hl
    · obtain ⟨lr, hlr, a, ha, hjoin, hne, rfl⟩ := mem_ecmpStaticRoute.mp hl
      obtain ⟨route, hroute⟩ : ∃ route : LsrFact, groupOf route = a.group := by
        rcases mem_ecmpAggregateOutport.mp ha with ⟨d, _, rfl⟩ | ⟨d, _, rfl⟩ | ⟨d, _, _, rfl⟩
        all_goals exact ⟨d.1.route, rfl⟩
      have hnot : opts.gateway = false := by simpa using hgateway
      refine Or.inl ⟨⟨.lsr route.toLsr, route.ilkIdx⟩, _, .ecmp route lr.1 _ rfl hnot hl ?_⟩
      rw [hroute]
  · obtain ⟨f, sup, hf, hne, rfl⟩ := mem_buildFlows_lrp.mp hl
    obtain ⟨lr, hlr, rfl⟩ := Rule.mem_eval_bind_pure.mp hf
    exact Or.inr ⟨_, hlr, rfl⟩

end rows

/-! ### Priorities -/

theorem calPriority_eq (prefixLen level idx : ℕ) :
    calPriority prefixLen level idx = prefixLen * 1024 + level * 64 + idx := by
  simp only [calPriority, Nat.shiftLeft_eq, Nat.reducePow]

theorem lrp?_eq_some {r : Row} {p : LrpFact} (h : r.lrp? = some p) :
    r.props = .lrp p.toLrp ∧ r.ilkIdx = p.ilkIdx := by
  unfold Row.lrp? at h
  split at h
  · next q hq =>
      obtain rfl := Option.some.inj h
      exact ⟨hq, rfl⟩
  · cases h

theorem lsr?_eq_some {r : Row} {p : LsrFact} (h : r.lsr? = some p) :
    r.props = .lsr p.toLsr ∧ r.ilkIdx = p.ilkIdx := by
  unfold Row.lsr? at h
  split at h
  · next q hq =>
      obtain rfl := Option.some.inj h
      exact ⟨hq, rfl⟩
  · cases h

/-- The index that counts in the priority. -/
def Level.idx (level : Level) (r : Row) : ℕ := if level = .ecmp then 0 else r.ilkIdx

section flowOf
variable {x : Extra} {opts : Options} {B : List (Row × State)} {r r' : Row} {level level' : Level}
  {l l' : LFlow Match Action}

/-- The priority holds the prefix of the entity, the level and the index. -/
theorem FlowOf.priority (h : FlowOf x opts B r level l) :
    ∃ lr ip prefixLen, Zoo.network r.props = some (lr, ip, prefixLen) ∧
      l.key.priority = calPriority prefixLen level.val (level.idx r) := by
  cases h with
  | connected link sup hport hlink hne =>
      obtain ⟨hprops, hidx⟩ := lrp?_eq_some hport
      refine ⟨_, _, link.lrp.prefixLen, by rw [hprops]; rfl, ?_⟩
      rw [Level.idx, if_neg (by decide), hidx]
      rfl
  | static route sup hlsr hroute hne =>
      obtain ⟨hprops, hidx⟩ := lsr?_eq_some hlsr
      refine ⟨_, _, route.1.prefixLen, by rw [hprops]; rfl, ?_⟩
      rw [Level.idx, if_neg (by decide), hidx]
      rfl
  | ecmp route lr l hlsr hgateway hl hkey =>
      obtain ⟨hprops, _⟩ := lsr?_eq_some hlsr
      refine ⟨_, _, route.prefixLen, by rw [hprops]; rfl, ?_⟩
      rw [hkey]
      rfl

/-- Flows of two entities of one network that are not both ECMP flows have different keys, when the
indexes of the entities are different. -/
theorem FlowOf.key_ne (h : FlowOf x opts B r level l) (h' : FlowOf x opts B r' level' l')
    (hnet : Zoo.network r.props = Zoo.network r'.props) (hidx : r.ilkIdx ≠ r'.ilkIdx)
    (hlt : r.ilkIdx < 64) (hlt' : r'.ilkIdx < 64) (hecmp : ¬ (level = .ecmp ∧ level' = .ecmp)) :
    l.key ≠ l'.key := by
  obtain ⟨lr, ip, prefixLen, hr, hprio⟩ := h.priority
  obtain ⟨lr', ip', prefixLen', hr', hprio'⟩ := h'.priority
  have hprefix : prefixLen = prefixLen' := by
    rw [hr, hr'] at hnet
    exact (Prod.mk.inj (Prod.mk.inj (Option.some.inj hnet)).2).2
  intro hkey
  rw [hkey, hprio', hprefix, calPriority_eq, calPriority_eq] at hprio
  have hle : level.idx r ≤ r.ilkIdx := by unfold Level.idx; split_ifs <;> omega
  have hle' : level'.idx r' ≤ r'.ilkIdx := by unfold Level.idx; split_ifs <;> omega
  cases level <;> cases level' <;> simp [Level.val, Level.idx] at hprio hle hle' hecmp <;> omega

end flowOf

/-! ### Reachable zoos -/

/-- **Overlapping routes**: after any calls on the zoo, the entities of one network that are live or
in the sink hold different indexes below 64, an entity that is eliminated holds its index until
then, and the flows of two entities have different keys, unless both are ECMP flows. -/
theorem routes_apart (x : Extra) (opts : Options) (ops : List Zoo.Op) :
    (∀ t, ((Zoo.runOps x ops).held t).Pairwise (fun r r' =>
      Zoo.network r.props = Zoo.network r'.props → Zoo.network r.props ≠ none →
        r.ilkIdx ≠ r'.ilkIdx ∧ ∀ level l level' l',
          FlowOf x opts (Zoo.runOps x ops).clauses r level l →
          FlowOf x opts (Zoo.runOps x ops).clauses r' level' l' →
          ¬ (level = .ecmp ∧ level' = .ecmp) → l.key ≠ l'.key)) ∧
    (∀ t, ∀ r ∈ (Zoo.runOps x ops).held t, Zoo.network r.props ≠ none → r.ilkIdx < 64) ∧
    ∀ l₁ e l₂, (Zoo.runOps x ops).sunk = l₁ ++ e :: l₂ →
      Zoo.Taken (l₁.foldl (fun z e => z.eliminate e) (Zoo.runOps x ops)).ilkGroup e.row := by
  have hreach := Zoo.reachable_runOps x ops
  refine ⟨fun t => ?_, fun t r hr hnet => hreach.ilkIdx_lt t hr hnet,
    fun l₁ e l₂ hsunk => hreach.taken_eliminate hsunk⟩
  refine List.Pairwise.imp_of_mem ?_ (hreach.ilkIdx_apart t)
  intro r r' hr hr' hapart hnet hsome
  have hidx := hapart hnet hsome
  refine ⟨hidx, fun level l level' l' h h' hecmp => ?_⟩
  exact h.key_ne h' hnet hidx (hreach.ilkIdx_lt t hr hsome)
    (hreach.ilkIdx_lt t hr' (hnet ▸ hsome)) hecmp

/-- A third outport of router `1` with a gateway behind it, and a route. -/
def thirdOutport : List Zoo.Change :=
  attachGateway "4" "LS-c" 14 ++
    [.addEntity (.lrp "lrp-c" (some "10.0.0.10") (some "24") (some "f2:01:0a:00:00:10") "LR-1"
        (some "lsp-c")),
      .addEntity (.lsp "lsp-c" (some "10.0.0.10") (some "f2:01:0a:00:00:10") "LS-c" none
        (some "lrp-c")),
      .addEntity (.lsr "route-c" (some "20.0.0.0") (some "24") (some "10.0.0.7") (some "lrp-c")
        "LR-1")]

/-- One of three routes is deleted. -/
def threeRoutes : List Zoo.Op :=
  (attachGateway "2" "LS-a" 12 ++ attachGateway "3" "LS-b" 13 ++ twoOutports ++
    thirdOutport).map Zoo.Change.op ++ [.sweepZoo, .moveEntity2sink .lsr "route-a"]

/-- The group of the three routes. -/
def threeGroup : Group := ⟨"LR-1", "20.0.0.0", 24⟩

/-- No row that deletes a flow of one entity has the key of a row that writes one of the other. -/
def DeletesApart (x : Extra) (opts : Options) (B : List (Row × State)) (r r' : Row) : Prop :=
  ∀ level l level' l', FlowOf x opts B r level l → FlowOf x opts B r' level' l' →
    (l.Deletes ∧ 0 < l'.state) ∨ (l'.Deletes ∧ 0 < l.state) → l.key ≠ l'.key

theorem DeletesApart.symm {x : Extra} {opts : Options} {B : List (Row × State)} {r r' : Row}
    (h : DeletesApart x opts B r r') : DeletesApart x opts B r' r :=
  fun level l level' l' hl hl' hdel hkey => h level' l' level l hl' hl hdel.symm hkey.symm

set_option maxRecDepth 100000 in
/-- The bundle of the other two is deleted and written again. -/
theorem ecmp_routes_share_key : ¬ ∀ (x : Extra) (opts : Options) (ops : List Zoo.Op)
    (t : EntityType), ((Zoo.runOps x ops).held t).Pairwise (fun r r' =>
      Zoo.network r.props = Zoo.network r'.props → Zoo.network r.props ≠ none →
        DeletesApart x opts (Zoo.runOps x ops).clauses r r') := by
  intro h
  have hrun : (∃ r ∈ (Zoo.runOps (.node false "hyper-1") threeRoutes).held .lsr,
      ∃ r' ∈ (Zoo.runOps (.node false "hyper-1") threeRoutes).held .lsr, r ≠ r' ∧
        Zoo.network r.props = Zoo.network r'.props ∧ Zoo.network r.props ≠ none ∧
        r.lsr?.map groupOf = some threeGroup ∧ r'.lsr?.map groupOf = some threeGroup) ∧
      Erased (.node false "hyper-1") (Zoo.runOps (.node false "hyper-1") threeRoutes).clauses
        (ecmpKey ⟨"LR-1", none, 1⟩ threeGroup) ∧
      Written (.node false "hyper-1") (Zoo.runOps (.node false "hyper-1") threeRoutes).clauses
        (ecmpKey ⟨"LR-1", none, 1⟩ threeGroup) := by
    decide +kernel
  obtain ⟨⟨r, hr, r', hr', hne, hnet, hsome, hgroup, hgroup'⟩, herased, hwritten⟩ := hrun
  obtain ⟨route, hroute, hg⟩ := Option.map_eq_some_iff.mp hgroup
  obtain ⟨route', hroute', hg'⟩ := Option.map_eq_some_iff.mp hgroup'
  obtain ⟨l, hl, hlk, hdel⟩ := exists_delete_iff.mpr herased
  obtain ⟨l', hl', hlk', hpos⟩ := exists_add_iff.mpr hwritten
  have hflow : FlowOf (.node false "hyper-1") ⟨false, false, false, none⟩
      (Zoo.runOps (.node false "hyper-1") threeRoutes).clauses r .ecmp l :=
    .ecmp route ⟨"LR-1", none, 1⟩ l hroute rfl hl (hlk.trans (by rw [hg]))
  have hflow' : FlowOf (.node false "hyper-1") ⟨false, false, false, none⟩
      (Zoo.runOps (.node false "hyper-1") threeRoutes).clauses r' .ecmp l' :=
    .ecmp route' ⟨"LR-1", none, 1⟩ l' hroute' rfl hl' (hlk'.trans (by rw [hg']))
  have hpair := h (.node false "hyper-1") ⟨false, false, false, none⟩ threeRoutes .lsr
  -- whichever of the two rows comes first
  have hsymm : Std.Symm (fun r r' : Row => Zoo.network r.props = Zoo.network r'.props →
      Zoo.network r.props ≠ none → DeletesApart (.node false "hyper-1")
        ⟨false, false, false, none⟩ (Zoo.runOps (.node false "hyper-1") threeRoutes).clauses r
        r') :=
    ⟨fun r r' hrr' hnet hsome => (hrr' hnet.symm (hnet ▸ hsome)).symm⟩
  exact hpair.forall hr hr' hne hnet hsome _ l _ l' hflow hflow' (Or.inl ⟨hdel, hpos⟩)
    (hlk.trans hlk'.symm)

end RouteTable

end TupleNet
