import TupleNet.Flow.LogicalView
import TupleNet.Zoo.Touched
import TupleNet.Zoo.Mirror

/-! # Tunnel ports

The predicate `tunnel_port` of `tunnel.py`: the chassis to which a tunnel port is to be added, or
whose port is to be deleted.  It reads the clauses of chassis and of tunnel ports, so a chassis that
is not touched gets no tunnel.  A chassis on which a live router is pinned is touched
(`Zoo.Touched`), hence gets one. -/

namespace TupleNet

namespace Tunnel

/-! ### The rules -/

/-- `chassis_array` with the states. -/
def chassisFacts (cs : List (Row × State)) : List (Chassis × State) :=
  cs.filterMap (fun f => f.1.props.chassis?.map (fun c => (c, f.2)))

/-- `ovsport_chassis` with the states. -/
def ovsportChassisFacts (cs : List (Row × State)) : List (OvsPort × State) :=
  cs.filterMap (fun f => (f.1.props.ovsport? true).map (fun p => (p, f.2)))

/-- The states of the tunnel ports that lead to a chassis. -/
def portStates (cs : List (Row × State)) (uuid : String) : List State :=
  ((ovsportChassisFacts cs).filter (fun p => p.1.ifaceId = uuid)).map Prod.snd

variable (x : Extra) (cs : List (Row × State))

/-- There is a chassis but no tunnel port. -/
def missing : List (Chassis × State) :=
  (chassisFacts cs).filter
    (fun c => 0 ≤ c.2.val ∧ portStates cs c.1.uuid = [] ∧ c.1.uuid ≠ x.systemId)

/-- There is a chassis but its tunnel port has been deleted. -/
def removed : List (Chassis × State) :=
  (chassisFacts cs).filter
    (fun c => 0 ≤ c.2.val ∧ .DEL ∈ portStates cs c.1.uuid ∧ c.1.uuid ≠ x.systemId)

/-- The chassis has been deleted but its tunnel port exists. -/
def obsolete : List (Chassis × State) :=
  (chassisFacts cs).filter
    (fun c => c.2 = .DEL ∧ (∃ s ∈ portStates cs c.1.uuid, 0 ≤ s.val) ∧ c.1.uuid ≠ x.systemId)

/-- `tunnel_port`. -/
def tunnelPort : List (Chassis × State) := missing x cs ++ removed x cs ++ obsolete x cs

variable {cs}

theorem mem_chassisFacts {c : Chassis} {s : State} :
    (c, s) ∈ chassisFacts cs ↔ ∃ r, (r, s) ∈ cs ∧ r.props = .chassis c := by
  simp only [chassisFacts, List.mem_filterMap, Option.map_eq_some_iff, Props.chassis?_eq_some,
    Prod.mk.injEq]
  constructor
  · rintro ⟨f, hf, c', hc', rfl, rfl⟩
    exact ⟨f.1, hf, hc'⟩
  · rintro ⟨r, hr, hc⟩
    exact ⟨(r, s), hr, c, hc, rfl, rfl⟩

/-- A known or new chassis without a tunnel port gets one. -/
theorem mem_tunnelPort {c : Chassis} {s : State} (hc : (c, s) ∈ chassisFacts cs) (hs : s ≠ .DEL)
    (hport : portStates cs c.uuid = []) (hremote : c.uuid ≠ x.systemId) :
    (c, s) ∈ tunnelPort x cs := by
  have hval : 0 ≤ s.val := by
    cases s with
    | NO => decide
    | ADD => decide
    | DEL => exact absurd rfl hs
  have hmissing : (c, s) ∈ missing x cs :=
    List.mem_filter.mpr ⟨hc, decide_eq_true ⟨hval, hport, hremote⟩⟩
  exact List.mem_append_left _ (List.mem_append_left _ hmissing)

end Tunnel

namespace Zoo

/-! ### Gateways -/

/-- A live chassis has a chassis record of its own name. -/
theorem Reachable.chassis_props {x : Extra} {z : Zoo} (h : Reachable x z) {uuid : String}
    {e : Entity} (he : z.entity? .chassis uuid = some e) :
    ∃ c, e.row.props = .chassis c ∧ c.uuid = uuid := by
  obtain ⟨htype, huuid⟩ := h.indexed.keyed .chassis uuid e he
  unfold Entity.etype at htype
  unfold Entity.uuid at huuid
  cases hp : e.row.props with
  | chassis c =>
      rw [hp] at huuid
      exact ⟨c, rfl, huuid⟩
  | ovsport p =>
      rw [hp, Props.etype] at htype
      split_ifs at htype
  | _ =>
      rw [hp] at htype
      cases htype

/-- The clause of a touched live entity is asserted. -/
theorem Reachable.clause_mem {x : Extra} {z : Zoo} (h : Reachable x z) {t : EntityType}
    {key : String} {e : Entity} (he : z.entity? t key = some e) (htouched : e.touched) :
    e.clause ∈ z.clauses :=
  (h.mirrored.mem_clauses e.clause).mpr (Or.inr (Or.inl ⟨t, key, e, he, htouched, rfl⟩))

/-- **A chassis that hosts a router is touched**: after any calls a live chassis on which a live
router is pinned is touched, its clause is asserted, and unless it is this node it gets a tunnel
port as long as it has none. -/
theorem pinned_chassis_touched (x : Extra) (ops : List Op) {key uuid : String} {r e : Entity}
    (hr : (runOps x ops).entity? .LR key = some r) (hpin : pinnedTo r.row.props = some uuid)
    (he : (runOps x ops).entity? .chassis uuid = some e) :
    e.touched ∧ e.clause ∈ (runOps x ops).clauses ∧
      ∃ c, e.row.props = .chassis c ∧ c.uuid = uuid ∧
        (uuid ≠ x.systemId → Tunnel.portStates (runOps x ops).clauses uuid = [] →
          (c, e.state) ∈ Tunnel.tunnelPort x (runOps x ops).clauses) := by
  have hz := reachable_runOps x ops
  have htouched := hz.touched.pinned key r uuid e hr hpin he
  have hclause := hz.clause_mem he htouched
  obtain ⟨c, hc, rfl⟩ := hz.chassis_props he
  refine ⟨htouched, hclause, c, hc, rfl, fun hremote hport => ?_⟩
  have hfact : (c, e.state) ∈ Tunnel.chassisFacts (runOps x ops).clauses :=
    Tunnel.mem_chassisFacts.mpr ⟨e.row, hclause, hc⟩
  exact Tunnel.mem_tunnelPort x hfact (hz.mirrored.live_state .chassis c.uuid e he) hport hremote

/-- A router comes before its chassis, is known, and then the chassis gets another address. -/
def moveGateway : List Op :=
  [.addEntity (.LR "LR-1" (some "1") (some "hyper-2")),
    .addEntity (.chassis "hyper-2" (some "10.10.0.2") (some "1")),
    .sweepZoo,
    .addEntity (.chassis "hyper-2" (some "10.10.0.3") (some "2"))]

set_option maxRecDepth 100000 in
/-- The new record of the chassis is touched as the old one was. -/
theorem pinned_chassis_touched_moveGateway :
    ∃ e, (runOps (.node true "hyper-1") moveGateway).entity? .chassis "hyper-2" = some e ∧
      e.touched ∧ e.clause ∈ (runOps (.node true "hyper-1") moveGateway).clauses := by
  obtain ⟨r, hr⟩ := Option.isSome_iff_exists.mp
    (show ((runOps (.node true "hyper-1") moveGateway).entity? .LR "LR-1").isSome by
      decide +kernel)
  obtain ⟨e, he⟩ := Option.isSome_iff_exists.mp
    (show ((runOps (.node true "hyper-1") moveGateway).entity? .chassis "hyper-2").isSome by
      decide +kernel)
  have hpinned : ∀ r ∈ (runOps (.node true "hyper-1") moveGateway).entity? .LR "LR-1",
      pinnedTo r.row.props = some "hyper-2" := by
    decide +kernel
  obtain ⟨htouched, hclause, _⟩ := pinned_chassis_touched _ moveGateway hr (hpinned r hr) he
  exact ⟨e, he, htouched, hclause⟩

end Zoo

end TupleNet
