import TupleNet.Zoo.Zoo
import TupleNet.Flow.OpenFlow

/-! # The logical view

The predicates of `logicalview.py` as joins over the clauses of the zoo: first those that entities
assert (`lsp_array`, `lrp_array`, ...), then those of `init_entity_clause`.  The joins read their
facts in the order of the source, and the conditions under which two of them agree on a variable are
guards.

In the source a variable such as `LS` stands for the whole clause, its state included.  Here it is
the row, so a join may also pair the dying clause of a row with a new one of the same row.  Such a
pair has a dying and a new fact, and so makes no difference: it is neither added nor deleted. -/

namespace TupleNet

open Datalog

/-- What `get_extra()['options']` says to the flow rules, besides `ONDEMAND`. -/
structure Options where
  gateway : Bool
  enableRedirect : Bool
  enableUntunnel : Bool
  /-- The address and port of `dsrport`. -/
  dsrport : Option (ℕ × ℤ)
deriving DecidableEq, Repr

/-- A query over the clauses of the zoo. -/
abbrev Query (α : Type) := Rule Row State α

/-! ### Clauses -/

/-- A router port with its index. -/
structure LrpFact extends Lrp where
  ilkIdx : ℕ
deriving DecidableEq, Repr

/-- A static route with its index. -/
structure LsrFact extends Lsr where
  ilkIdx : ℕ
deriving DecidableEq, Repr

/-- A switch port with the number of its OVS port. -/
structure LspPort extends Lsp where
  ofport : ℤ
deriving DecidableEq, Repr

/-- A chassis with the number of the tunnel port that leads to it. -/
structure ChassisPort extends Chassis where
  ofport : ℤ
deriving DecidableEq, Repr

namespace Props

def ls? : Props → Option Ls
  | LS p => some p
  | _ => none

def regularLsp? : Props → Option Lsp
  | lsp p => if p.peer = none then some p else none
  | _ => none

def exchangeLsp? : Props → Option Lsp
  | lsp p => if p.peer = none then none else some p
  | _ => none

def lr? : Props → Option Lr
  | LR p => some p
  | _ => none

def lnat? : Props → Option Lnat
  | lnat p => some p
  | _ => none

def chassis? : Props → Option Chassis
  | chassis p => some p
  | _ => none

def ovsport? (isRemote : Bool) : Props → Option OvsPort
  | ovsport p => if p.isRemote = isRemote then some p else none
  | _ => none

@[simp] theorem ls?_eq_some {p : Props} {q : Ls} : p.ls? = some q ↔ p = LS q := by
  cases p <;> simp [ls?]

@[simp] theorem lr?_eq_some {p : Props} {q : Lr} : p.lr? = some q ↔ p = LR q := by
  cases p <;> simp [lr?]

@[simp] theorem lnat?_eq_some {p : Props} {q : Lnat} : p.lnat? = some q ↔ p = lnat q := by
  cases p <;> simp [lnat?]

@[simp] theorem chassis?_eq_some {p : Props} {q : Chassis} :
    p.chassis? = some q ↔ p = chassis q := by
  cases p <;> simp [chassis?]

@[simp] theorem regularLsp?_eq_some {p : Props} {q : Lsp} :
    p.regularLsp? = some q ↔ p = lsp q ∧ q.peer = none := by
  cases p <;> simp [regularLsp?]
  grind

@[simp] theorem exchangeLsp?_eq_some {p : Props} {q : Lsp} :
    p.exchangeLsp? = some q ↔ p = lsp q ∧ q.peer ≠ none := by
  cases p <;> simp [exchangeLsp?]
  grind

@[simp] theorem ovsport?_eq_some {p : Props} {isRemote : Bool} {q : OvsPort} :
    p.ovsport? isRemote = some q ↔ p = ovsport q ∧ q.isRemote = isRemote := by
  cases p <;> simp [ovsport?]
  grind

end Props

namespace Row

def lrp? (r : Row) : Option LrpFact :=
  match r.props with
  | .lrp p => some ⟨p, r.ilkIdx⟩
  | _ => none

def lsr? (r : Row) : Option LsrFact :=
  match r.props with
  | .lsr p => some ⟨p, r.ilkIdx⟩
  | _ => none

end Row

namespace LogicalView

def lsArray : Query Ls := Rule.fact (fun r => r.props.ls?)
def lspArray : Query Lsp := Rule.fact (fun r => r.props.regularLsp?)
def exchangeLspArray : Query Lsp := Rule.fact (fun r => r.props.exchangeLsp?)
def lrpArray : Query LrpFact := Rule.fact Row.lrp?
def lrouteArray : Query LsrFact := Rule.fact Row.lsr?
def lnatArray : Query Lnat := Rule.fact (fun r => r.props.lnat?)
def chassisArray : Query Chassis := Rule.fact (fun r => r.props.chassis?)
def ovsport : Query OvsPort := Rule.fact (fun r => r.props.ovsport? false)
def ovsportChassis : Query OvsPort := Rule.fact (fun r => r.props.ovsport? true)

/-- `_lr_array`. -/
def allLrArray : Query Lr := Rule.fact (fun r => r.props.lr?)

variable (x : Extra)

/-! ### Routers -/

/-- `lr_array`: routers on no chassis, on another chassis that is registered, on this one. -/
def lrArray : Query Lr := Rule.oneOf [
  (do
    let lr ← allLrArray
    Rule.guard (lr.chassis = none)
    pure lr),
  (do
    let lr ← allLrArray
    Rule.guard (lr.chassis ≠ none)
    Rule.guard (lr.chassis ≠ some x.systemId)
    let phyChassis ← chassisArray
    Rule.guard (lr.chassis = some phyChassis.uuid)
    pure lr),
  (do
    let lr ← allLrArray
    Rule.guard (lr.chassis = some x.systemId)
    pure lr)]

variable {x} in
/-- A router counts unless it is pinned on another chassis that is not registered. -/
theorem derivesFrom_lrArray {S : Row → Prop} {lr : Lr} : (lrArray x).DerivesFrom S lr ↔
    (∃ r, S r ∧ r.props = .LR lr) ∧ ∀ uuid, lr.chassis = some uuid → uuid ≠ x.systemId →
      ∃ r c, S r ∧ r.props = .chassis c ∧ c.uuid = uuid := by
  simp only [lrArray, allLrArray, chassisArray, Rule.derivesFrom_oneOf_cons,
    Rule.derivesFrom_oneOf_nil, Rule.derivesFrom_bind, Rule.derivesFrom_fact,
    Rule.derivesFrom_guard, Rule.derivesFrom_pure, or_false]
  constructor
  · rintro (⟨lr', ⟨r, hr, hlr⟩, _, hnone, rfl⟩ |
      ⟨lr', ⟨r, hr, hlr⟩, _, _, _, _, c, ⟨r', hr', hc⟩, _, hpin, rfl⟩ |
      ⟨lr', ⟨r, hr, hlr⟩, _, hlocal, rfl⟩)
    · refine ⟨⟨r, hr, Props.lr?_eq_some.mp hlr⟩, fun uuid huuid => ?_⟩
      rw [hnone] at huuid
      cases huuid
    · refine ⟨⟨r, hr, Props.lr?_eq_some.mp hlr⟩, fun uuid huuid _ => ?_⟩
      refine ⟨r', c, hr', Props.chassis?_eq_some.mp hc, ?_⟩
      exact Option.some.inj (hpin.symm.trans huuid)
    · refine ⟨⟨r, hr, Props.lr?_eq_some.mp hlr⟩, fun uuid huuid hne => absurd ?_ hne⟩
      exact Option.some.inj (huuid.symm.trans hlocal)
  · rintro ⟨⟨r, hr, hlr⟩, hpin⟩
    have hlr := Props.lr?_eq_some.mpr hlr
    cases hchassis : lr.chassis with
    | none => exact Or.inl ⟨lr, ⟨r, hr, hlr⟩, (), hchassis, rfl⟩
    | some uuid =>
        by_cases hlocal : uuid = x.systemId
        · exact Or.inr (Or.inr ⟨lr, ⟨r, hr, hlr⟩, (), by rw [hchassis, hlocal], rfl⟩)
        · obtain ⟨r', c, hr', hc, rfl⟩ := hpin uuid hchassis hlocal
          refine Or.inr (Or.inl ⟨lr, ⟨r, hr, hlr⟩, (), by simp [hchassis], (), ?_, c,
            ⟨r', hr', Props.chassis?_eq_some.mpr hc⟩, (), hchassis, rfl⟩)
          simpa [hchassis] using hlocal

/-- What `lsp_link_lrp` derives: a router port and the switch port that it is attached to. -/
structure LspLinkLrp where
  lsp : Lsp
  ls : Ls
  lrp : LrpFact
  lr : Lr
deriving DecidableEq, Repr

/-- `lsp_link_lrp`. -/
def lspLinkLrp : Query LspLinkLrp := do
  let lrp ← lrpArray
  let lsp ← exchangeLspArray
  Rule.guard (lrp.peer = some lsp.uuid ∧ lsp.peer = some lrp.uuid)
  let ls ← lsArray
  Rule.guard (lsp.lsUuid = ls.uuid)
  let lr ← lrArray x
  Rule.guard (lrp.lrUuid = lr.uuid)
  pure ⟨lsp, ls, lrp, lr⟩

/-! ### Ports -/

/-- `local_patchport`. -/
def localPatchport : Query (LspPort × Ls) := do
  let port ← ovsport
  Rule.guard (port.ofport > 0)
  let ls ← lsArray
  let lsp ← exchangeLspArray
  Rule.guard (lsp.uuid = port.ifaceId ∧ lsp.lsUuid = ls.uuid ∧ lsp.chassis = some x.systemId)
  Rule.guard (lsp.ip = "255.255.255.255")
  pure (⟨lsp, port.ofport⟩, ls)

/-- `local_bond_lsp`. -/
def localBondLsp : Query (LspPort × Ls) := Rule.oneOf [
  (do
    let port ← ovsport
    Rule.guard (port.ofport > 0)
    let ls ← lsArray
    let lsp ← lspArray
    Rule.guard (lsp.uuid = port.ifaceId ∧ lsp.lsUuid = ls.uuid ∧ lsp.chassis = some x.systemId)
    pure (⟨lsp, port.ofport⟩, ls)),
  localPatchport x]

/-- `local_lsp`. -/
def localLsp : Query (Lsp × Ls) := Rule.oneOf [
  (do
    let link ← lspLinkLrp x
    Rule.guard (link.lr.chassis = none)
    pure (link.lsp, link.ls)),
  (do
    let link ← lspLinkLrp x
    Rule.guard (link.lr.chassis = some x.systemId)
    pure (link.lsp, link.ls)),
  (do
    let port ← localBondLsp x
    pure (port.1.toLsp, port.2))]

/-- `active_lsp`. -/
def activeLsp : Query (Lsp × Ls) := Rule.oneOf [
  (do
    let ls ← lsArray
    let lsp ← lspArray
    Rule.guard (lsp.lsUuid = ls.uuid)
    let phyChassis ← chassisArray
    Rule.guard (lsp.chassis = some phyChassis.uuid)
    pure (lsp, ls)),
  (do
    let link ← lspLinkLrp x
    pure (link.lsp, link.ls))]

/-- `remote_chassis`. -/
def remoteChassis : Query ChassisPort := do
  let port ← ovsportChassis
  Rule.guard (port.ofport > 0)
  let phyChassis ← chassisArray
  Rule.guard (port.ifaceId = phyChassis.uuid)
  pure ⟨phyChassis, port.ofport⟩

/-- `remote_lsp`. -/
def remoteLsp : Query (Lsp × Ls × ChassisPort) := Rule.oneOf [
  (do
    let phyChassis ← remoteChassis
    let lsp ← lspArray
    Rule.guard (lsp.chassis = some phyChassis.uuid)
    let ls ← lsArray
    Rule.guard (lsp.lsUuid = ls.uuid)
    pure (lsp, ls, phyChassis)),
  (do
    let link ← lspLinkLrp x
    let phyChassis ← remoteChassis
    Rule.guard (link.lr.chassis = some phyChassis.uuid)
    pure (link.lsp, link.ls, phyChassis))]

/-! ### Next hops and address translation -/

/-- What `next_hop_lr` derives: a router port, its router and another router on the same switch. -/
structure NextHopLr where
  lrp : LrpFact
  lr : Lr
  lrNext : Lr
deriving DecidableEq, Repr

/-- `next_hop_lr`. -/
def nextHopLr : Query NextHopLr := do
  let lrp ← lrpArray
  let lsp₁ ← exchangeLspArray
  Rule.guard (lrp.peer = some lsp₁.uuid ∧ lsp₁.peer = some lrp.uuid)
  let lsp₂ ← exchangeLspArray
  Rule.guard (lsp₂.lsUuid = lsp₁.lsUuid)
  let lrp₂ ← lrpArray
  Rule.guard (lsp₂.peer = some lrp₂.uuid ∧ lrp₂.peer = some lsp₂.uuid)
  Rule.guard (lrp.lrUuid ≠ lrp₂.lrUuid)
  let lrNext ← lrArray x
  Rule.guard (lrNext.uuid = lrp₂.lrUuid)
  let lr ← lrArray x
  Rule.guard (lr.uuid = lrp.lrUuid)
  pure ⟨lrp, lr, lrNext⟩

/-- `next_hop_ovsport`. -/
def nextHopOvsport : Query (LrpFact × ℤ) := do
  let hop ← nextHopLr x
  let port ← ovsportChassis
  Rule.guard (hop.lrNext.chassis = some port.ifaceId)
  Rule.guard (port.ofport > 0)
  pure (hop.lrp, port.ofport)

/-- `lnat_data`. -/
def lnatData : Query (Lnat × Lr) := do
  let lr ← lrArray x
  let lnat ← lnatArray
  Rule.guard (lnat.lrUuid = lr.uuid)
  pure (lnat, lr)

/-! ### Number of premises -/

section premises
open Rule

theorem atMost_lrArray : AtMost 2 (lrArray x) := by
  refine atMost_oneOf fun r hr => ?_
  simp only [List.mem_cons, List.not_mem_nil, or_false] at hr
  rcases hr with rfl | rfl | rfl
  · exact atMost_fact_bind fun _ => atMost_guard_bind fun _ => atMost_pure_le _
  · exact atMost_fact_bind fun _ => atMost_guard_bind fun _ => atMost_guard_bind fun _ =>
      atMost_fact_bind fun _ => atMost_guard_bind fun _ => atMost_pure_le _
  · exact atMost_fact_bind fun _ => atMost_guard_bind fun _ => atMost_pure_le _

theorem atMost_remoteChassis : AtMost 2 remoteChassis :=
  atMost_fact_bind fun _ => atMost_guard_bind fun _ => atMost_fact_bind fun _ =>
    atMost_guard_bind fun _ => atMost_pure_le _

theorem atMost_lspLinkLrp : AtMost 5 (lspLinkLrp x) :=
  atMost_fact_bind fun _ => atMost_fact_bind fun _ => atMost_guard_bind fun _ =>
    atMost_fact_bind fun _ => atMost_guard_bind fun _ =>
      atMost_bind (n := 0) (atMost_lrArray x) fun _ => atMost_guard_bind fun _ => atMost_pure_le _

theorem atMost_localPatchport : AtMost 3 (localPatchport x) :=
  atMost_fact_bind fun _ => atMost_guard_bind fun _ => atMost_fact_bind fun _ =>
    atMost_fact_bind fun _ => atMost_guard_bind fun _ => atMost_guard_bind fun _ => atMost_pure_le _

theorem atMost_activeLsp : AtMost 5 (activeLsp x) := by
  refine atMost_oneOf fun r hr => ?_
  simp only [List.mem_cons, List.not_mem_nil, or_false] at hr
  rcases hr with rfl | rfl
  · exact atMost_fact_bind fun _ => atMost_fact_bind fun _ => atMost_guard_bind fun _ =>
      atMost_fact_bind fun _ => atMost_guard_bind fun _ => atMost_pure_le _
  · exact atMost_bind (n := 0) (atMost_lspLinkLrp x) fun _ => atMost_pure_le _

theorem atMost_nextHopLr : AtMost 8 (nextHopLr x) :=
  atMost_fact_bind fun _ => atMost_fact_bind fun _ => atMost_guard_bind fun _ =>
    atMost_fact_bind fun _ => atMost_guard_bind fun _ => atMost_fact_bind fun _ =>
      atMost_guard_bind fun _ => atMost_guard_bind fun _ =>
        atMost_bind (n := 2) (atMost_lrArray x) fun _ => atMost_guard_bind fun _ =>
          atMost_bind (n := 0) (atMost_lrArray x) fun _ => atMost_guard_bind fun _ =>
            atMost_pure_le _

theorem atMost_nextHopOvsport : AtMost 9 (nextHopOvsport x) :=
  atMost_bind (n := 1) (atMost_nextHopLr x) fun _ => atMost_fact_bind fun _ =>
    atMost_guard_bind fun _ => atMost_guard_bind fun _ => atMost_pure_le _

theorem atMost_lnatData : AtMost 3 (lnatData x) :=
  atMost_bind (n := 1) (atMost_lrArray x) fun _ => atMost_fact_bind fun _ =>
    atMost_guard_bind fun _ => atMost_pure_le _

end premises

end LogicalView

end TupleNet
