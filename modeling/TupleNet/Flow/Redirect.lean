import TupleNet.Flow.LogicalView
import TupleNet.Flow.Rounds
import Mathlib.Data.List.Sort
import Mathlib.Data.String.Basic

/-! # The redirect flow

`redirect_other_chassis` of `middle_table.py`.  A gateway is a chassis with a tunnel port on which a
router is pinned; the one redirect flow sends a packet to one of all gateways.  Its rows come from
three aggregates over the derivations of gateways: `adding` writes the ports of all live gateways if
one of them is new, `deleting` removes the flow if one is dying, and `readding` writes the flow
again after such a removal.

Whatever changes meet in one round, the flow lists exactly the ports of the live gateways afterwards
(`redirect_lists_gateways`). -/

namespace TupleNet

open Datalog KeyedTable StepMachine LogicalView

namespace Redirect

/-! ### Aggregates -/

/-- `tuple_(Y, order_by=Z)` over the distinct pairs. -/
def tupleOf (l : List (ℤ × String)) : List ℤ :=
  (l.dedup.mergeSort (fun a b => decide (a.2 ≤ b.2))).map Prod.fst

/-- `sum_(State, for_each=Z)` over the distinct pairs. -/
def sumOf (l : List (ℤ × String)) : ℤ := (l.dedup.map Prod.fst).sum

theorem mem_tupleOf {l : List (ℤ × String)} {y : ℤ} : y ∈ tupleOf l ↔ ∃ z, (y, z) ∈ l := by
  simp [tupleOf, List.mem_map, List.mem_mergeSort, List.mem_dedup]

/-- A sum of numbers that are not negative is not negative, and zero iff all of them are. -/
theorem sumOf_nonneg {l : List (ℤ × String)} (h : ∀ p ∈ l, 0 ≤ p.1) :
    0 ≤ sumOf l ∧ (sumOf l = 0 ↔ ∀ p ∈ l, p.1 = 0) := by
  have hsum : ∀ ns : List ℤ, (∀ n ∈ ns, 0 ≤ n) → 0 ≤ ns.sum ∧ (ns.sum = 0 ↔ ∀ n ∈ ns, n = 0) := by
    intro ns
    induction ns with
    | nil => simp
    | cons n ns ih =>
        intro hns
        obtain ⟨hpos, hzero⟩ := ih fun m hm => hns m (List.mem_cons_of_mem n hm)
        have hn := hns n List.mem_cons_self
        simp only [List.sum_cons, List.forall_mem_cons, ← hzero]
        omega
  have hmem : ∀ q : ℤ → Prop, (∀ n ∈ l.dedup.map Prod.fst, q n) ↔ ∀ p ∈ l, q p.1 := by
    intro q
    simp only [List.mem_map, List.mem_dedup, forall_exists_index, and_imp,
      forall_apply_eq_imp_iff₂]
  have hs := hsum (l.dedup.map Prod.fst) ((hmem (0 ≤ ·)).mpr h)
  rwa [hmem (· = 0)] at hs

/-! ### The rules -/

section rules
variable (x : Extra)

/-- The join that the three aggregates share. -/
def gateway : Query ChassisPort := do
  let phyChassis ← remoteChassis
  let lr ← lrArray x
  Rule.guard (lr.chassis = some phyChassis.uuid)
  pure phyChassis

/-- The first component of `X` and what is to be done. -/
inductive GatewayKey where
  | adding (sum : ℤ)
  | deleting
  | readding
deriving DecidableEq, Repr

/-- `X[1]`. -/
def GatewayKey.state : GatewayKey → ℤ
  | adding sum => sum
  | deleting => State.DEL.val
  | readding => State.ADD.val

variable (B : List (Row × State))

/-- The derivations with `State >= 0`. -/
def standing : List (ChassisPort × List (Row × State)) :=
  ((gateway x).eval B).filter (fun d => 0 ≤ stateSum d.2)

/-- The derivations with `State < 0`. -/
def falling : List (ChassisPort × List (Row × State)) :=
  ((gateway x).eval B).filter (fun d => stateSum d.2 < 0)

/-- The values `Y` and `Z` of a derivation. -/
def portOf (d : ChassisPort × List (Row × State)) : ℤ × String := (d.1.ofport, d.1.uuid)

/-- The value of `_gateway_state_sum`. -/
def stateTotal : ℤ := sumOf ((standing x B).map (fun d => (stateSum d.2, d.1.uuid)))

/-- `_gateway_state_sum`, if it has a value. -/
def gatewayStateSum : Option ℤ := if standing x B = [] then none else some (stateTotal x B)

/-- `_gateway_ofport`. -/
def gatewayOfportAggr : List (GatewayKey × List ℤ) :=
  ((gatewayStateSum x B).toList.map (fun s => (.adding s, tupleOf ((standing x B).map portOf)))) ++
    if falling x B = [] then [] else [(.deleting, tupleOf ((falling x B).map portOf))]

/-- `_gateway_ofport_readd`. -/
def gatewayOfportReadd : List (GatewayKey × List ℤ) :=
  if standing x B = [] then []
  else if (gatewayOfportAggr x B).any (fun g => g.1 = .deleting) then
    [(.readding, tupleOf ((standing x B).map portOf))]
  else []

/-- `gateway_ofport`. -/
def gatewayOfport : List (GatewayKey × List ℤ) := gatewayOfportAggr x B ++ gatewayOfportReadd x B

end rules

/-- The flow of priority `1`. -/
def redirectKey : FlowKey Match := ⟨TABLE_REDIRECT_CHASSIS, 1, [.matchNone]⟩

/-- What the redirect flow does. -/
def redirectAction (ofports : List ℤ) : Action :=
  [.loadFlag .REDIRECT, .bundleLoad .regOutport ofports, .resubmitTable TABLE_EMBED2_METADATA,
    .resubmitTable TABLE_OUTPUT_PKT, .note "redirect_other_chassis"]

/-- `redirect_other_chassis` with a state, as `build_flows` wraps it. -/
def redirectOtherChassis (x : Extra) (B : List (Row × State)) : List (LFlow Match Action) :=
  ((gatewayOfport x B).filter (fun g => g.1.state ≠ 0)).map
    (fun g => ⟨redirectKey, redirectAction g.2, g.1.state⟩)

/-- `redirect_other_chassis` without a state: the flow that is installed once. -/
def constFlows : Table (FlowKey Match) Action := fun k =>
  if k = ⟨TABLE_REDIRECT_CHASSIS, 0, [.matchNone]⟩ then
    some [.resubmitTable TABLE_DROP_PACKET, .note "redirect_other_chassis"]
  else none

/-! ### Derivations of gateways -/

section derivations
variable {x : Extra} {B : List (Row × State)}

theorem atMost_gateway : (gateway x).AtMost 4 :=
  Rule.atMost_bind (n := 2) atMost_remoteChassis fun _ =>
    Rule.atMost_bind (n := 0) (atMost_lrArray x) fun _ =>
      Rule.atMost_guard_bind fun _ => Rule.atMost_pure_le _

theorem length_lt_of_mem {d : ChassisPort × List (Row × State)} (hd : d ∈ (gateway x).eval B) :
    d.2.length < 100 := by
  have hle := atMost_gateway d.1 _ (((gateway x).mem_eval B d.1 d.2).mp hd).1
  rw [List.length_map] at hle
  omega

theorem mem_standing {d : ChassisPort × List (Row × State)} :
    d ∈ standing x B ↔ d ∈ (gateway x).eval B ∧ ∀ f ∈ d.2, f.2.Live := by
  rw [standing, List.mem_filter, decide_eq_true_eq]
  exact and_congr_right fun hd => stateSum_nonneg_iff (length_lt_of_mem hd)

theorem mem_falling {d : ChassisPort × List (Row × State)} :
    d ∈ falling x B ↔ d ∈ (gateway x).eval B ∧ ∃ f ∈ d.2, f.2 = .DEL := by
  rw [falling, List.mem_filter, decide_eq_true_eq]
  refine and_congr_right fun hd => ?_
  rw [← not_iff_not, not_lt, stateSum_nonneg_iff (length_lt_of_mem hd)]
  simp only [State.live_iff, not_exists, not_and]

/-- The total is positive iff a standing derivation has a new fact. -/
theorem stateTotal_spec : 0 ≤ stateTotal x B ∧
    (stateTotal x B = 0 ↔ ∀ d ∈ standing x B, AllKept d.2) := by
  have hnonneg : ∀ d ∈ standing x B, 0 ≤ stateSum d.2 := fun d hd => by
    simpa using (List.mem_filter.mp hd).2
  have hmap : ∀ q : ℤ → Prop, (∀ p ∈ (standing x B).map (fun d => (stateSum d.2, d.1.uuid)),
      q p.1) ↔ ∀ d ∈ standing x B, q (stateSum d.2) := by
    intro q
    simp only [List.mem_map, forall_exists_index, and_imp, forall_apply_eq_imp_iff₂]
  obtain ⟨hpos, hzero⟩ := sumOf_nonneg ((hmap (0 ≤ ·)).mpr hnonneg)
  refine ⟨hpos, hzero.trans ((hmap (· = 0)).trans (forall₂_congr fun d hd => ?_))⟩
  obtain ⟨hmem, hlive⟩ := mem_standing.mp hd
  have hborn := stateSum_pos_iff (length_lt_of_mem hmem)
  constructor
  · intro heq
    refine (live_iff_kept_or_born.mp hlive).resolve_right fun h => ?_
    have := hborn.mpr h
    omega
  · intro hkept
    have hnot : ¬ 0 < stateSum d.2 := by
      rw [hborn]
      rintro ⟨_, f, hf, hadd⟩
      rw [hkept f hf] at hadd
      cases hadd
    have := hnonneg d hd
    omega

end derivations

/-! ### The rows -/

section rows
variable (x : Extra) (B : List (Row × State))

/-- The ports of all standing gateways. -/
def ofports : List ℤ := tupleOf ((standing x B).map portOf)

theorem mem_gatewayOfport (g : GatewayKey × List ℤ) : g ∈ gatewayOfport x B ↔
    (standing x B ≠ [] ∧ g = (.adding (stateTotal x B), ofports x B)) ∨
    (falling x B ≠ [] ∧ g = (.deleting, tupleOf ((falling x B).map portOf))) ∨
    (standing x B ≠ [] ∧ falling x B ≠ [] ∧ g = (.readding, ofports x B)) := by
  unfold gatewayOfport gatewayOfportReadd gatewayOfportAggr gatewayStateSum ofports
  by_cases hs : standing x B = [] <;> by_cases hf : falling x B = [] <;> simp [hs, hf]

/-- The rows: one for new gateways, one for dying ones, one for what stays beside dying ones. -/
theorem mem_redirectOtherChassis (l : LFlow Match Action) : l ∈ redirectOtherChassis x B ↔
    (standing x B ≠ [] ∧ stateTotal x B ≠ 0 ∧
      l = ⟨redirectKey, redirectAction (ofports x B), stateTotal x B⟩) ∨
    (falling x B ≠ [] ∧
      l = ⟨redirectKey, redirectAction (tupleOf ((falling x B).map portOf)), -100⟩) ∨
    (standing x B ≠ [] ∧ falling x B ≠ [] ∧
      l = ⟨redirectKey, redirectAction (ofports x B), 1⟩) := by
  simp only [redirectOtherChassis, List.mem_map, List.mem_filter, mem_gatewayOfport,
    decide_eq_true_eq]
  constructor
  · rintro ⟨g, ⟨⟨hs, rfl⟩ | ⟨hf, rfl⟩ | ⟨hs, hf, rfl⟩, hne⟩, rfl⟩
    · exact Or.inl ⟨hs, hne, rfl⟩
    · exact Or.inr (Or.inl ⟨hf, rfl⟩)
    · exact Or.inr (Or.inr ⟨hs, hf, rfl⟩)
  · rintro (⟨hs, hne, rfl⟩ | ⟨hf, rfl⟩ | ⟨hs, hf, rfl⟩)
    · exact ⟨_, ⟨Or.inl ⟨hs, rfl⟩, hne⟩, rfl⟩
    · exact ⟨_, ⟨Or.inr (Or.inl ⟨hf, rfl⟩), by simp [GatewayKey.state, State.val]⟩, rfl⟩
    · exact ⟨_, ⟨Or.inr (Or.inr ⟨hs, hf, rfl⟩), by simp [GatewayKey.state, State.val]⟩, rfl⟩

theorem key_of_mem {l : LFlow Match Action} (hl : l ∈ redirectOtherChassis x B) :
    l.key = redirectKey := by
  rcases (mem_redirectOtherChassis x B l).mp hl with ⟨_, _, rfl⟩ | ⟨_, rfl⟩ | ⟨_, _, rfl⟩ <;> rfl

/-- Every row that adds the flow lists the ports of all standing gateways. -/
theorem action_of_add {l : LFlow Match Action} (hl : l ∈ redirectOtherChassis x B)
    (hpos : 0 < l.state) : l.action = redirectAction (ofports x B) := by
  rcases (mem_redirectOtherChassis x B l).mp hl with ⟨_, _, rfl⟩ | ⟨_, rfl⟩ | ⟨_, _, rfl⟩
  · rfl
  · simp at hpos
  · rfl

theorem exists_add_iff : (∃ l ∈ redirectOtherChassis x B, 0 < l.state) ↔
    standing x B ≠ [] ∧ (stateTotal x B ≠ 0 ∨ falling x B ≠ []) := by
  have hpos : 0 ≤ stateTotal x B := stateTotal_spec.1
  simp only [mem_redirectOtherChassis]
  constructor
  · rintro ⟨l, ⟨hs, hne, rfl⟩ | ⟨_, rfl⟩ | ⟨hs, hf, rfl⟩, hadd⟩
    · exact ⟨hs, Or.inl hne⟩
    · simp at hadd
    · exact ⟨hs, Or.inr hf⟩
  · rintro ⟨hs, hne | hf⟩
    · exact ⟨_, Or.inl ⟨hs, hne, rfl⟩, lt_of_le_of_ne hpos (Ne.symm hne)⟩
    · exact ⟨_, Or.inr (Or.inr ⟨hs, hf, rfl⟩), by simp⟩

theorem exists_del_iff :
    (∃ l ∈ redirectOtherChassis x B, l.Deletes) ↔ falling x B ≠ [] := by
  have hpos : 0 ≤ stateTotal x B := stateTotal_spec.1
  simp only [mem_redirectOtherChassis, LFlow.Deletes]
  constructor
  · rintro ⟨l, ⟨_, _, rfl⟩ | ⟨hf, rfl⟩ | ⟨_, _, rfl⟩, hneg, _⟩
    · exact absurd hneg (not_lt.mpr hpos)
    · exact hf
    · simp at hneg
  · intro hf
    exact ⟨_, Or.inr (Or.inl ⟨hf, rfl⟩),
      (by decide : (-100 : ℤ) < 0 ∧ Int.fmod |(-100 : ℤ)| State.DEL.val = 0)⟩

end rows

/-! ### Rounds -/

/-- A port that a build from scratch lists. -/
def Port (x : Extra) (z : Zoo) (p : ℤ) : Prop :=
  ∃ c, (gateway x).DerivesFrom z.HasRow c ∧ c.ofport = p

/-- The redirect flow lists exactly the ports. -/
structure Listed (x : Extra) (s : FlowNode Match Action) : Prop where
  absent : s.table redirectKey = none → ∀ p, ¬ Port x s.zoo p
  present : ∀ a, s.table redirectKey = some a → ∃ slaves, a = redirectAction slaves ∧
    (∃ p, p ∈ slaves) ∧ ∀ p, p ∈ slaves ↔ Port x s.zoo p

section round
variable {x : Extra} {s s' : FlowNode Match Action} {rd : Round Match Action}

theorem mem_ofports {B : List (Row × State)} {p : ℤ} :
    p ∈ ofports x B ↔ ∃ d ∈ standing x B, d.1.ofport = p := by
  rw [ofports, mem_tupleOf]
  simp only [List.mem_map, portOf, Prod.mk.injEq]
  constructor
  · rintro ⟨u, d, hd, hp, _⟩
    exact ⟨d, hd, hp⟩
  · rintro ⟨d, hd, hp⟩
    exact ⟨_, d, hd, hp, rfl⟩

theorem standing_eq_nil_iff {B : List (Row × State)} :
    standing x B = [] ↔ ∀ p, p ∉ ofports x B := by
  simp only [mem_ofports, List.eq_nil_iff_forall_not_mem]
  exact ⟨fun h p ⟨d, hd, _⟩ => h d hd, fun h d hd => h _ ⟨d, hd, rfl⟩⟩

variable (hs : s.zoo.Settled x)
include hs

/-- After the sweep the ports are those of the standing gateways. -/
theorem port_sweep_iff (p : ℤ) :
    Port x (s.changed x rd).sweepZoo p ↔ p ∈ ofports x (s.changed x rd).clauses := by
  have hrow : (s.changed x rd).sweepZoo.HasRow =
      fun d => ∃ st, (d, st) ∈ (s.changed x rd).clauses ∧ st.Live :=
    funext fun d => propext (hs.hasRow_sweep rd.changes d)
  rw [Port, mem_ofports, hrow]
  simp only [← Rule.derives_iff_derivesFrom, Rule.derives_iff_eval, mem_standing]
  constructor
  · rintro ⟨c, ⟨sup, hsup, hlive⟩, rfl⟩
    exact ⟨(c, sup), ⟨hsup, hlive⟩, rfl⟩
  · rintro ⟨d, ⟨hsup, hlive⟩, rfl⟩
    exact ⟨d.1, ⟨d.2, hsup, hlive⟩, rfl⟩

/-- Where nothing is dying and nothing is new, the ports are what they were. -/
theorem port_unchanged (hf : falling x (s.changed x rd).clauses = [])
    (hkept : ∀ d ∈ standing x (s.changed x rd).clauses, AllKept d.2) (p : ℤ) :
    Port x s.zoo p ↔ Port x (s.changed x rd).sweepZoo p := by
  rw [port_sweep_iff hs, mem_ofports]
  constructor
  · rintro ⟨c, hc, rfl⟩
    have hold : (gateway x).Derives (s.changed x rd).clauses State.Old c :=
      Rule.derives_iff_derivesFrom.mpr (hc.mono fun d hd => hs.old_of_hasRow rd.changes hd)
    obtain ⟨sup, hsup, hold⟩ := Rule.derives_iff_eval.mp hold
    have hlive : ∀ f ∈ sup, f.2.Live := by
      intro f hmem
      rw [State.live_iff]
      intro hdel
      have hfall : (c, sup) ∈ falling x (s.changed x rd).clauses :=
        mem_falling.mpr ⟨hsup, f, hmem, hdel⟩
      rw [hf] at hfall
      cases hfall
    exact ⟨(c, sup), mem_standing.mpr ⟨hsup, hlive⟩, rfl⟩
  · rintro ⟨d, hd, rfl⟩
    obtain ⟨hholds, hmem⟩ := ((gateway x).mem_eval _ _ _).mp (mem_standing.mp hd).1
    refine ⟨d.1, ⟨d.2.map Prod.fst, hholds, fun r hr => ?_⟩, rfl⟩
    obtain ⟨f, hf, rfl⟩ := List.mem_map.mp hr
    refine hs.hasRow_of_known rd.changes ?_
    have hclause := hmem f hf
    rwa [← Prod.mk.eta (p := f), hkept d hd f hf] at hclause

/-- **One round**: the redirect flow follows the gateways. -/
theorem Listed.round (h : Listed x s)
    (hstep : FlowNode.round x (redirectOtherChassis x) s rd = some s') : Listed x s' := by
  obtain rfl := Option.some.inj hstep
  have hport : ∀ p, Port x (s.changed x rd).sweepZoo p ↔ p ∈ ofports x (s.changed x rd).clauses :=
    port_sweep_iff hs
  have hrows : ∀ l, l ∈ rd.order (redirectOtherChassis x (s.changed x rd).clauses) ↔
      l ∈ redirectOtherChassis x (s.changed x rd).clauses := rd.mem_order _
  by_cases hadd : ∃ l ∈ redirectOtherChassis x (s.changed x rd).clauses, 0 < l.state
  · -- the flow is written with the ports of all standing gateways
    have hstand := ((exists_add_iff x _).mp hadd).1
    obtain ⟨l, hl, hpos⟩ := hadd
    obtain ⟨l', hl', _, hpos', htable⟩ := commitFlows_of_add (t := s.table) ((hrows l).mpr hl)
      (key_of_mem x _ hl) hpos
    rw [action_of_add x _ ((hrows l').mp hl') hpos'] at htable
    refine ⟨fun hnone => ?_, fun a ha => ⟨_, ?_, ?_, fun p => (hport p).symm⟩⟩
    · cases htable.symm.trans hnone
    · exact (Option.some.inj (htable.symm.trans ha)).symm
    · rw [ne_eq, standing_eq_nil_iff] at hstand
      simpa using hstand
  · have hno : ∀ l ∈ rd.order (redirectOtherChassis x (s.changed x rd).clauses),
        l.key = redirectKey → ¬ 0 < l.state :=
      fun l hl _ hpos => hadd ⟨l, (hrows l).mp hl, hpos⟩
    obtain ⟨hdel, hkeep⟩ := commitFlows_of_no_add (t := s.table) hno
    rw [exists_add_iff, not_and] at hadd
    by_cases hfall : falling x (s.changed x rd).clauses = []
    · -- nothing is dying and nothing is new
      have hkept : ∀ d ∈ standing x (s.changed x rd).clauses, AllKept d.2 := by
        intro d hd
        have hne : standing x (s.changed x rd).clauses ≠ [] := List.ne_nil_of_mem hd
        have htotal := not_not.mp (not_or.mp (hadd hne)).1
        exact stateTotal_spec.2.mp htotal d hd
      have hsame := hkeep fun l hl _ hd =>
        (exists_del_iff x _).mp ⟨l, (hrows l).mp hl, hd⟩ hfall
      have hunchanged := port_unchanged hs hfall hkept
      refine ⟨fun hnone p hp => ?_, fun a ha => ?_⟩
      · exact h.absent (hsame.symm.trans hnone) p ((hunchanged p).mpr hp)
      · obtain ⟨slaves, rfl, hne, hslaves⟩ := h.present a (hsame.symm.trans ha)
        exact ⟨slaves, rfl, hne, fun p => (hslaves p).trans (hunchanged p)⟩
    · -- the last gateways are dying
      have hstand : standing x (s.changed x rd).clauses = [] := by
        by_contra hne
        exact (not_or.mp (hadd hne)).2 hfall
      obtain ⟨l, hl, hd⟩ := (exists_del_iff x _).mpr hfall
      have hgone := hdel ⟨l, (hrows l).mpr hl, key_of_mem x _ hl, hd⟩
      refine ⟨fun _ p hp => ?_, fun a ha => ?_⟩
      · exact standing_eq_nil_iff.mp hstand p ((hport p).mp hp)
      · cases hgone.symm.trans ha

end round

/-! ### Live gateways -/

/-- The number of a live tunnel port that leads to a registered chassis on which a live router is
pinned.  A remote chassis is what `remote_chassis` derives: a chassis that a tunnel port leads to,
and a node makes no tunnel port to itself.  The flow based tunnel has a record of its own. -/
def IsGatewayPort (z : Zoo) (p : ℤ) : Prop :=
  ∃ lr port uuid, z.Lives (.LR lr) ∧ lr.chassis = some uuid ∧
    (uuid = TP_FLOW_TUNNEL_NAME ∨ ∃ c, z.Lives (.chassis c) ∧ c.uuid = uuid) ∧
    z.Lives (.ovsport port) ∧ port.isRemote ∧ port.ifaceId = uuid ∧ port.ofport = p ∧ 0 < p

/-- On the rows of a zoo between two rounds the join finds the ports of live gateways. -/
theorem port_iff {x : Extra} {z : Zoo} (hz : z.Settled x) (p : ℤ) :
    Port x z p ↔ IsGatewayPort z p := by
  simp only [Port, gateway, remoteChassis, ovsportChassis, chassisArray, Rule.derivesFrom_bind,
    Rule.derivesFrom_fact, Rule.derivesFrom_guard, Rule.derivesFrom_pure, derivesFrom_lrArray,
    Props.ovsport?_eq_some, Props.chassis?_eq_some]
  constructor
  · rintro ⟨_, ⟨_, ⟨port, ⟨r, hr, hport, hremote⟩, _, hpos, c, ⟨r', hr', hc⟩, _, hiface, rfl⟩, lr,
      ⟨⟨r'', hr'', hlr⟩, _⟩, _, hpin, rfl⟩, rfl⟩
    refine ⟨lr, port, c.uuid, ?_, hpin, ?_, ?_, hremote, hiface, rfl, hpos⟩
    · exact hlr ▸ hz.lives_of_hasRow hr'' (by rw [hlr]; simp [tunnelRow])
    · by_cases htunnel : r'.props = tunnelRow.props
      · rw [hc] at htunnel
        exact Or.inl (congrArg Chassis.uuid (Props.chassis.inj htunnel))
      · exact Or.inr ⟨c, hc ▸ hz.lives_of_hasRow hr' htunnel, rfl⟩
    · exact hport ▸ hz.lives_of_hasRow hr (by rw [hport]; simp [tunnelRow])
  · rintro ⟨lr, port, uuid, hlr, hpin, hc, hport, hremote, rfl, rfl, hpos⟩
    obtain ⟨r, hr, hprops⟩ := hz.hasRow_of_lives hport rfl
    obtain ⟨r'', hr'', hlr'⟩ := hz.hasRow_of_lives hlr rfl
    have hchassis : ∃ r' c, z.HasRow r' ∧ r'.props = .chassis c ∧ c.uuid = port.ifaceId := by
      rcases hc with htunnel | ⟨c, hc, huuid⟩
      · refine ⟨tunnelRow, _, ?_, rfl, htunnel.symm⟩
        exact (hz.reachable.mirrored.hasRow_iff hz.sink tunnelRow).mpr (Or.inl rfl)
      · obtain ⟨r', hr', hc'⟩ := hz.hasRow_of_pinned hlr hc (by rw [huuid]; exact hpin)
        exact ⟨r', c, hr', hc', huuid⟩
    obtain ⟨r', c, hr', hc', huuid⟩ := hchassis
    refine ⟨⟨c, port.ofport⟩, ⟨_, ⟨port, ⟨r, hr, hprops, hremote⟩, (), hpos, c, ⟨r', hr', hc'⟩, (),
      huuid.symm, rfl⟩, lr, ⟨⟨r'', hr'', hlr'⟩, fun uuid heq _ => ?_⟩, (), ?_, rfl⟩, rfl⟩
    · exact ⟨r', c, hr', hc', huuid.trans (Option.some.inj (hpin.symm.trans heq))⟩
    · rw [huuid]
      exact hpin

/-- **The redirect flow lists the live gateways**: after any rounds the table holds the redirect
flow iff there is a live gateway, and the flow lists exactly the ports of the live gateways. -/
theorem redirect_lists_gateways (x : Extra) (rounds : List (Round Match Action)) :
    ∃ s, run (FlowNode.round x (redirectOtherChassis x)) (FlowNode.start constFlows) rounds =
        some s ∧
      ((s.table redirectKey).isSome ↔ ∃ p, IsGatewayPort s.zoo p) ∧
      ∀ a, s.table redirectKey = some a →
        ∃ slaves, a = redirectAction slaves ∧ ∀ p, p ∈ slaves ↔ IsGatewayPort s.zoo p := by
  obtain ⟨s, hs⟩ := Option.isSome_iff_exists.mp
    (FlowNode.run_isSome x (redirectOtherChassis x) (FlowNode.start constFlows) rounds)
  have hstart : Listed x (FlowNode.start constFlows) := by
    refine ⟨fun _ p hp => ?_, fun a ha => ?_⟩
    · obtain ⟨_, _, _, ⟨_, _, _, h, _⟩, _⟩ := (port_iff (Zoo.settled_empty x) p).mp hp
      rw [Zoo.entity?_empty] at h
      cases h
    · cases (show (none : Option Action) = some a from ha)
  obtain ⟨hsettled, hlisted⟩ : s.zoo.Settled x ∧ Listed x s :=
    run_preserves _ (I := fun s => s.zoo.Settled x ∧ Listed x s)
      (fun _ _ _ h hstep => ⟨FlowNode.settled_round x h.1 hstep, h.2.round h.1 hstep⟩)
      ⟨Zoo.settled_empty x, hstart⟩ hs
  have hport := port_iff hsettled
  refine ⟨s, hs, ⟨fun hsome => ?_, fun ⟨p, hp⟩ => ?_⟩, fun a ha => ?_⟩
  · obtain ⟨a, ha⟩ := Option.isSome_iff_exists.mp hsome
    obtain ⟨slaves, _, ⟨p, hp⟩, hslaves⟩ := hlisted.present a ha
    exact ⟨p, (hport p).mp ((hslaves p).mp hp)⟩
  · rw [Option.isSome_iff_ne_none]
    exact fun hnone => hlisted.absent hnone p ((hport p).mpr hp)
  · obtain ⟨slaves, hshape, _, hslaves⟩ := hlisted.present a ha
    exact ⟨slaves, hshape, fun p => (hslaves p).trans (hport p)⟩

end Redirect

end TupleNet
