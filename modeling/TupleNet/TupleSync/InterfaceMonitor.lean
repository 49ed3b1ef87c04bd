import TupleNet.Lib.Machine
import TupleNet.Zoo.Detection
import Mathlib.Data.Finmap

/-! # Ports of OVS

The table `Interface` of OVSDB as the zoo sees it: `parse_iface_record` and `iface_monitor_parse` of
`ovsdbman.py`, `update_ovsport` and `handle_interface_update` of `commit_ovs.py`.

OVSDB reports an inserted row in full, a deleted row in full, and of a modified row all of the new
columns and those old ones that have changed.  An old row that lacks a column does not parse, so a
modification retracts nothing unless all columns have changed.  `Careful` is what the table and its
change must satisfy for the zoo to follow, and `ports_follow_iff` says that it is exactly that. -/

namespace TupleNet

open StepMachine

/-! ### The table -/

/-- The monitored columns of an interface; an empty `ofport` is `none`. -/
structure Iface where
  ofport : Option ℤ
  name : String
  externalIds : Finmap (fun _ : String => String)
  portType : String
deriving DecidableEq

/-- A row as OVSDB reports it; columns may be missing. -/
structure Columns where
  ofport : Option (Option ℤ)
  name : Option String
  externalIds : Option (Finmap (fun _ : String => String))
  portType : Option String

/-- All columns. -/
def Iface.full (r : Iface) : Columns :=
  ⟨some r.ofport, some r.name, some r.externalIds, some r.portType⟩

/-- The columns that have changed, as they were. -/
def Iface.changed (r r' : Iface) : Columns where
  ofport := if r.ofport = r'.ofport then none else some r.ofport
  name := if r.name = r'.name then none else some r.name
  externalIds := if r.externalIds = r'.externalIds then none else some r.externalIds
  portType := if r.portType = r'.portType then none else some r.portType

/-- The update of one row. -/
structure RowUpdate where
  new : Option Columns
  old : Option Columns

/-- The rows of the table, by their uuid. -/
abbrev IfaceTable := String → Option Iface

/-- What becomes of a row; `none` is its deletion. -/
structure RowChange where
  rowUuid : String
  row : Option Iface

/-- What OVSDB reports of a change. -/
def report (table : IfaceTable) (c : RowChange) : Option RowUpdate :=
  match table c.rowUuid, c.row with
  | none, none => none
  | none, some r' => some ⟨some r'.full, none⟩
  | some r, none => some ⟨none, some r.full⟩
  | some r, some r' => if r = r' then none else some ⟨some r'.full, some (r.changed r')⟩

/-! ### Records -/

/-- `op_type`. -/
inductive OpType where
  | new
  | old
deriving DecidableEq, Repr

/-- A record that parses. -/
structure IfaceRecord where
  opType : OpType
  ofport : ℤ
  portName : String
  externalIds : Finmap (fun _ : String => String)
  portType : String

/-- The text is ASCII. -/
def isAscii (s : String) : Bool := s.toList.all (fun c => c.toNat < 128)

/-- `parse_iface_record`: `int` raises on an empty column, `str` on a text that is not ASCII. -/
def parseIfaceRecord (record : Option Columns) (opType : OpType) : Option IfaceRecord := do
  let record ← record
  let ofport ← record.ofport.join
  let portName ← record.name.filter (fun s => isAscii s)
  let externalIds ← record.externalIds
  let portType ← record.portType
  some ⟨opType, ofport, portName, externalIds, portType⟩

/-- What the loop of `iface_monitor_parse` appends for a row. -/
def rowRecords (newRecord oldRecord : Option IfaceRecord) : List (Option IfaceRecord) :=
  match newRecord, oldRecord with
  | none, oldRecord => [oldRecord]
  | some newRecord, none => [some newRecord]
  | some newRecord, some oldRecord => [some oldRecord, some newRecord]

/-- `iface_monitor_parse`. -/
def ifaceMonitorParse (ifaces : List RowUpdate) : List IfaceRecord :=
  (ifaces.flatMap (fun u =>
    rowRecords (parseIfaceRecord u.new .new) (parseIfaceRecord u.old .old))).filterMap id

/-- The id of a port and whether it belongs to a remote chassis. -/
def portId (externalIds : Finmap (fun _ : String => String)) : Option (String × Bool) :=
  match externalIds.lookup "iface-id" with
  | some uuid => some (uuid, false)
  | none => (externalIds.lookup "chassis-id").map (fun uuid => (uuid, true))

/-- The type of a port. -/
def ovsType (isRemote : Bool) : EntityType := if isRemote then .ovsportChassis else .ovsport

namespace Zoo

/-- `update_version_force`. -/
def updateVersionForce (z : Zoo) : Zoo := { z with zooVer := z.zooVer + 1 }

/-- `add_entity` of a port; the constructor raises on an id that is not ASCII. -/
def addOvsport (x : Extra) (p : OvsPort) (z : Zoo) : Zoo :=
  if isAscii p.ifaceId then z.addEntity x (.ovsport p.ovsportName p.ifaceId p.ofport p.isRemote)
  else z

/-- `update_ovsport`. -/
def updateOvsport (x : Extra) (record : IfaceRecord) (z : Zoo) : Zoo :=
  let z := if record.portType = "internal" then z.updateVersionForce else z
  match portId record.externalIds with
  | none => z
  | some (uuid, isRemote) => match record.opType with
      | .old => z.moveEntity2sink (ovsType isRemote) record.portName
      | .new =>
          if record.ofport < 0 then z
          else z.addOvsport x ⟨record.portName, uuid, record.ofport, isRemote⟩

/-- `handle_interface_update`. -/
def handleInterfaceUpdate (x : Extra) (data : List RowUpdate) (z : Zoo) : Zoo :=
  (ifaceMonitorParse data).foldl (fun z record => z.updateOvsport x record) z

end Zoo

/-! ### The run -/

/-- OVSDB and the zoo. -/
structure OvsSystem where
  table : IfaceTable
  zoo : Zoo

namespace OvsSystem

/-- No interface and no entity. -/
def start : OvsSystem := ⟨fun _ => none, .empty⟩

/-- A row changes and its update is handled. -/
def step (x : Extra) (s : OvsSystem) (c : RowChange) : Option OvsSystem :=
  match report s.table c with
  | none => some s
  | some u => some ⟨Function.update s.table c.rowUuid c.row, s.zoo.handleInterfaceUpdate x [u]⟩

end OvsSystem

/-- The port that an interface stands for. -/
def Iface.port (r : Iface) : Option OvsPort := do
  let ofport ← r.ofport
  let (uuid, isRemote) ← portId r.externalIds
  if ofport < 0 then none else some ⟨r.name, uuid, ofport, isRemote⟩

/-- Some interface of the table stands for the port. -/
def Wanted (table : IfaceTable) (p : OvsPort) : Prop :=
  ∃ rowUuid r, table rowUuid = some r ∧ r.port = some p

/-- The live ports are exactly those of the table. -/
def OvsSystem.Follows (s : OvsSystem) : Prop :=
  ∀ isRemote name q, s.zoo.props? (ovsType isRemote) name = some q ↔
    ∃ p, q = .ovsport p ∧ p.isRemote = isRemote ∧ p.ovsportName = name ∧ Wanted s.table p

/-! ### What the zoo makes of records -/

namespace OvsPort

/-- Type and name, under which the zoo keeps the port. -/
def key (p : OvsPort) : Bool × String := (p.isRemote, p.ovsportName)

/-- `host_view_ovsport`. -/
def hostView (p : OvsPort) : String :=
  "ovsport" ++ p.ovsportName ++ p.ifaceId ++ toString p.ofport

/-- Name and id are ASCII. -/
def Ascii (p : OvsPort) : Prop := isAscii p.ovsportName ∧ isAscii p.ifaceId

end OvsPort

namespace Zoo

/-- The live port of a type and a name. -/
def port? (z : Zoo) (k : Bool × String) : Option OvsPort :=
  match z.props? (ovsType k.1) k.2 with
  | some (.ovsport p) => some p
  | _ => none

/-- What holds of zoos that see updates of interfaces only. -/
structure OvsZoo (z : Zoo) : Prop where
  indexed : Indexed z
  exact : Exact z
  ascii : ∀ k p, z.port? k = some p → p.Ascii

theorem etype_ovsport (p : OvsPort) : (Props.ovsport p).etype = ovsType p.isRemote := rfl

theorem ovsType_injective {b b' : Bool} (h : ovsType b = ovsType b') : b = b' := by
  cases b <;> cases b' <;> first | rfl | cases h

section port?
variable {z : Zoo}

/-- What is live under the type of a port is a port. -/
theorem Indexed.props?_ovsType (h : Indexed z) {isRemote : Bool} {name : String} {q : Props} :
    z.props? (ovsType isRemote) name = some q ↔
      ∃ p, q = .ovsport p ∧ z.port? (isRemote, name) = some p := by
  unfold port?
  cases hq : z.props? (ovsType isRemote) name with
  | none => simp
  | some q' =>
      obtain ⟨e, he, rfl⟩ := Option.map_eq_some_iff.mp hq
      have htype : e.row.props.etype = ovsType isRemote := (h.keyed _ _ e he).1
      cases hp : e.row.props with
      | ovsport p => simp [eq_comm]
      | _ =>
          rw [hp] at htype
          cases isRemote <;> cases htype

theorem Indexed.key_of_port? (h : Indexed z) {k : Bool × String} {p : OvsPort}
    (hp : z.port? k = some p) : p.key = k := by
  have hq := h.props?_ovsType.mpr ⟨p, rfl, hp⟩
  obtain ⟨e, he, hrow⟩ := Option.map_eq_some_iff.mp hq
  obtain ⟨htype, hname⟩ := h.keyed _ _ e he
  rw [Entity.etype, hrow, etype_ovsport] at htype
  rw [Entity.uuid, hrow] at hname
  exact Prod.ext (ovsType_injective htype) hname

theorem port?_moveEntity2sink (k k' : Bool × String) :
    (z.moveEntity2sink (ovsType k.1) k.2).port? k' = if k' = k then none else z.port? k' := by
  unfold port?
  rw [props?_moveEntity2sink]
  by_cases hk : k' = k
  · rw [if_pos hk, if_pos ⟨by rw [hk], by rw [hk]⟩]
  · rw [if_neg hk, if_neg]
    rintro ⟨htype, hname⟩
    exact hk (Prod.ext (ovsType_injective htype) hname)

theorem OvsZoo.move (h : OvsZoo z) (k : Bool × String) :
    OvsZoo (z.moveEntity2sink (ovsType k.1) k.2) := by
  refine ⟨h.indexed.move _ _, h.exact.move h.indexed _ _, fun k' p hp => ?_⟩
  rw [port?_moveEntity2sink] at hp
  split_ifs at hp
  exact h.ascii k' p hp

/-- No other live port has the text of `p`. -/
def Unshared (z : Zoo) (p : OvsPort) : Prop :=
  ∀ k p', z.port? k = some p' → p'.hostView = p.hostView → k = p.key

/-- The key of `p` is taken by another live port or not at all. -/
theorem OvsZoo.unshared_iff (h : OvsZoo z) (p : OvsPort) : Unshared z p ↔
    ∀ u ∈ (Props.ovsport p).uniq, u ∈ z.entityIdxmap →
      ∃ q, z.props? (Props.ovsport p).etype (Props.ovsport p).uuid = some q ∧ u ∈ q.uniq := by
  simp only [Props.uniq, List.mem_singleton, forall_eq]
  constructor
  · intro hun hmem
    obtain ⟨q, ⟨t, name, hq⟩, hu⟩ := h.exact _ hmem
    obtain ⟨e, he, rfl⟩ := Option.map_eq_some_iff.mp hq
    obtain ⟨htype, hname⟩ := h.indexed.keyed t name e he
    cases hprops : e.row.props with
    | ovsport p' =>
        rw [hprops, Props.uniq, List.mem_singleton, Prod.mk.injEq] at hu
        rw [Entity.etype, hprops, etype_ovsport] at htype
        rw [← htype, hprops] at hq
        have hk := hun (p'.isRemote, name) p' ?_ hu.2.symm
        · obtain ⟨hremote, rfl⟩ := Prod.mk.inj hk
          refine ⟨.ovsport p', ?_, ?_⟩
          · rw [etype_ovsport, ← hremote]
            exact hq
          · exact List.mem_singleton.mpr (Prod.ext rfl hu.2)
        · obtain ⟨p'', hp'', hport⟩ := h.indexed.props?_ovsType.mp hq
          obtain rfl := Props.ovsport.inj hp''
          exact hport
    | _ => simp [hprops, Props.uniq] at hu
  · intro hfree k p' hp' htext
    have hlive := h.indexed.props?_ovsType.mpr ⟨p', rfl, hp'⟩
    obtain ⟨e, he, hrow⟩ := Option.map_eq_some_iff.mp hlive
    have hu : (UniqKey.hostViewOvsport, p.hostView) ∈ e.uniq := by
      rw [Entity.uniq, hrow, ← htext]
      exact List.mem_singleton.mpr rfl
    obtain ⟨q, hq, huq⟩ := hfree (h.indexed.reserved _ _ e he _ hu)
    obtain ⟨e', he', rfl⟩ := Option.map_eq_some_iff.mp hq
    by_contra hne
    refine h.indexed.apart _ _ e _ _ e' he he' (fun heq => hne ?_) _ hu huq
    obtain ⟨htype, hname⟩ := Prod.mk.inj heq
    exact Prod.ext (ovsType_injective htype) hname

/-- A refusal over the only key reserves nothing. -/
theorem Exact.addEntity_of_single {x : Extra} (hz : Exact z) (hidx : Indexed z) {a : Args}
    {p : Props} {u : UniqKey × String} (hp : a.construct = some p) (hu : p.uniq = [u]) :
    Exact (z.addEntity x a) := by
  by_cases htaken : KeyTaken x a z
  · obtain ⟨htries, p', idx, g, hp', hg, hrefused⟩ := htaken
    obtain rfl := Option.some.inj (hp.symm.trans hp')
    have hsame : (insertIdxmap p.uniq (z.vacate g p).entityIdxmap).1 =
        (z.vacate g p).entityIdxmap := by
      refine (insertIdxmap_refused_iff hrefused).mpr ?_
      obtain ⟨u', hu', hmem⟩ := (insertIdxmap_refuses_iff p.uniq_nodup).mp hrefused
      rw [hu, List.mem_singleton] at hu'
      exact ⟨u, by rw [hu]; rfl, hu' ▸ hmem⟩
    rw [addEntity_of_keyTaken htries hp hg hrefused, hsame]
    exact Exact.move (z := z.setIlkGroup g) hz (hidx.setIlk hg) _ _
  · exact hz.addEntity hidx htaken

section add
variable (h : OvsZoo z) (x : Extra) {p : OvsPort} (hp : p.Ascii)
include h hp

/-- **An addition**: the port is live afterwards iff its text is not shared. -/
theorem OvsZoo.port?_addOvsport : (∀ k ≠ p.key, (z.addOvsport x p).port? k = z.port? k) ∧
    ∀ q, (z.addOvsport x p).port? p.key = some q ↔ Unshared z p ∧ q = p := by
  have hbuilt : (Args.ovsport p.ovsportName p.ifaceId p.ofport p.isRemote).construct =
      some (.ovsport p) := rfl
  rw [addOvsport, if_pos hp.2]
  constructor
  · intro k hk
    unfold port?
    rw [props?_addEntity_of_ne hbuilt]
    rintro ⟨htype, hname⟩
    exact hk (Prod.ext (ovsType_injective htype) hname)
  · intro q
    cases hatt : z.attempts (.ovsport p.ovsportName p.ifaceId p.ofport p.isRemote) with
    | false =>
        have hsame : z.props? (ovsType p.isRemote) p.ovsportName = some (.ovsport p) := by
          unfold attempts at hatt
          change (z.props? (ovsType p.isRemote) p.ovsportName).all _ = false at hatt
          cases hq : z.props? (ovsType p.isRemote) p.ovsportName with
          | none => simp [hq] at hatt
          | some q' =>
              obtain ⟨e, he, rfl⟩ := Option.map_eq_some_iff.mp hq
              rw [hq] at hatt
              have heq := Args.eq_of_isSame hbuilt (h.indexed.valid _ _ e he) (by simpa using hatt)
              rw [heq]
        have hun : Unshared z p := (h.unshared_iff p).mpr fun u hu _ => ⟨_, hsame, hu⟩
        rw [addEntity_of_not_attempts hatt]
        have hport : z.port? p.key = some p := by
          unfold port? OvsPort.key
          rw [hsame]
        rw [hport, Option.some.injEq, eq_comm]
        exact ⟨fun hq => ⟨hun, hq⟩, fun hq => hq.2⟩
    | true =>
        have hroom : z.Room (.ovsport p) := by
          intro key hkey
          cases hkey
        by_cases hun : Unshared z p
        · have hlive := (addEntity_of_free (x := x) hbuilt h.indexed hatt hroom
            ((h.unshared_iff p).mp hun)).1 (ovsType p.isRemote) p.ovsportName
          rw [if_pos ⟨rfl, rfl⟩] at hlive
          have hport : (z.addEntity x (.ovsport p.ovsportName p.ifaceId p.ofport
              p.isRemote)).port? p.key = some p := by
            unfold port? OvsPort.key
            rw [hlive]
          rw [hport, Option.some.injEq, eq_comm]
          exact ⟨fun hq => ⟨hun, hq⟩, fun hq => hq.2⟩
        · have hgone : (z.addEntity x (.ovsport p.ovsportName p.ifaceId p.ofport
              p.isRemote)).props? (ovsType p.isRemote) p.ovsportName = none :=
            props?_addEntity_of_not_free hbuilt h.indexed hatt hroom
              (mt (h.unshared_iff p).mpr hun)
          have hport : (z.addEntity x (.ovsport p.ovsportName p.ifaceId p.ofport
              p.isRemote)).port? p.key = none := by
            unfold port? OvsPort.key
            rw [hgone]
          rw [hport]
          exact ⟨fun hq => (by cases hq), fun hq => absurd hq.1 hun⟩

theorem OvsZoo.add : OvsZoo (z.addOvsport x p) := by
  have hbuilt : (Args.ovsport p.ovsportName p.ifaceId p.ofport p.isRemote).construct =
      some (.ovsport p) := rfl
  obtain ⟨hothers, hself⟩ := h.port?_addOvsport x hp
  refine ⟨?_, ?_, fun k q hq => ?_⟩
  · rw [addOvsport, if_pos hp.2]
    exact (indexed_invariant x).addEntity h.indexed _
  · rw [addOvsport, if_pos hp.2]
    exact h.exact.addEntity_of_single h.indexed hbuilt rfl
  · by_cases hk : k = p.key
    · rw [hk] at hq
      rw [((hself q).mp hq).2]
      exact hp
    · rw [hothers k hk] at hq
      exact h.ascii k q hq

end add

/-- A live port shares its text with no other. -/
theorem OvsZoo.unshared_of_live (h : OvsZoo z) {k : Bool × String} {p : OvsPort}
    (hp : z.port? k = some p) : Unshared z p := by
  obtain rfl := h.indexed.key_of_port? hp
  exact (h.unshared_iff p).mpr fun u hu _ =>
    ⟨_, h.indexed.props?_ovsType.mpr ⟨p, rfl, hp⟩, hu⟩

/-- The version is no matter of ports. -/
theorem OvsZoo.updateVersionForce (h : OvsZoo z) (c : Prop) [Decidable c] :
    OvsZoo (if c then z.updateVersionForce else z) ∧
      ∀ k, (if c then z.updateVersionForce else z).port? k = z.port? k := by
  split_ifs
  · exact ⟨⟨⟨h.indexed.keyed, h.indexed.valid, h.indexed.reserved, h.indexed.apart, h.indexed.ilk⟩,
      h.exact, h.ascii⟩, fun _ => rfl⟩
  · exact ⟨h, fun _ => rfl⟩

/-! ### One update -/

/-- A record that may be missing is handled. -/
def handleRecord (x : Extra) (record : Option IfaceRecord) (z : Zoo) : Zoo :=
  record.elim z (fun r => z.updateOvsport x r)

theorem handleInterfaceUpdate_one (x : Extra) (u : RowUpdate) (z : Zoo) :
    z.handleInterfaceUpdate x [u] = (z.handleRecord x (parseIfaceRecord u.old .old)).handleRecord x
      (parseIfaceRecord u.new .new) := by
  unfold handleInterfaceUpdate ifaceMonitorParse handleRecord
  rw [List.flatMap_singleton]
  cases parseIfaceRecord u.new .new <;> cases parseIfaceRecord u.old .old <;> rfl

theorem parseIfaceRecord_full (r : Iface) (opType : OpType) :
    parseIfaceRecord (some r.full) opType = if isAscii r.name then
      r.ofport.map (fun n => ⟨opType, n, r.name, r.externalIds, r.portType⟩) else none := by
  cases hofport : r.ofport <;> cases hname : isAscii r.name <;>
    simp [parseIfaceRecord, Iface.full, Option.filter, hofport, hname]

/-- What an old record retracts. -/
def retractedBy (record : Option IfaceRecord) : Option (Bool × String) := do
  let record ← record
  let (_, isRemote) ← portId record.externalIds
  some (isRemote, record.portName)

section handle
variable (h : OvsZoo z) (x : Extra)
include h

/-- An old record retracts what it names and nothing else. -/
theorem OvsZoo.handle_old (columns : Option Columns) :
    OvsZoo (z.handleRecord x (parseIfaceRecord columns .old)) ∧
      ∀ k, (z.handleRecord x (parseIfaceRecord columns .old)).port? k =
        if retractedBy (parseIfaceRecord columns .old) = some k then none else z.port? k := by
  cases hrecord : parseIfaceRecord columns .old with
  | none => exact ⟨h, fun k => rfl⟩
  | some record =>
      have hop : record.opType = .old := by
        simp only [parseIfaceRecord, Option.bind_eq_bind, Option.bind_eq_some_iff,
          Option.some.injEq] at hrecord
        obtain ⟨_, _, _, _, _, _, _, _, _, _, rfl⟩ := hrecord
        rfl
      obtain ⟨hz, hsame⟩ := h.updateVersionForce (record.portType = "internal")
      obtain hid | ⟨⟨uuid, isRemote⟩, hid⟩ := (portId record.externalIds).eq_none_or_eq_some
      · simp only [handleRecord, Option.elim_some, updateOvsport, retractedBy, hid,
          Option.bind_eq_bind, Option.bind_some, Option.bind_none, reduceCtorEq, if_false]
        exact ⟨hz, hsame⟩
      · simp only [handleRecord, Option.elim_some, updateOvsport, retractedBy, hid, hop,
          Option.bind_eq_bind, Option.bind_some]
        refine ⟨hz.move (isRemote, record.portName), fun k => ?_⟩
        rw [port?_moveEntity2sink (isRemote, record.portName) k, hsame]
        simp [eq_comm]

/-- A new record brings in its port, if the port is ASCII and its text is not shared. -/
theorem OvsZoo.handle_new (r : Iface) :
    OvsZoo (z.handleRecord x (parseIfaceRecord (some r.full) .new)) ∧
      ((∃ p, r.port = some p ∧ p.Ascii ∧
          (∀ k ≠ p.key, (z.handleRecord x (parseIfaceRecord (some r.full) .new)).port? k =
            z.port? k) ∧
          ∀ q, (z.handleRecord x (parseIfaceRecord (some r.full) .new)).port? p.key = some q ↔
            Unshared z p ∧ q = p) ∨
        (∀ p, r.port = some p → ¬ p.Ascii) ∧
          ∀ k, (z.handleRecord x (parseIfaceRecord (some r.full) .new)).port? k = z.port? k) := by
  rw [parseIfaceRecord_full]
  by_cases hname : isAscii r.name
  · rw [if_pos hname]
    cases hofport : r.ofport with
    | none =>
        refine ⟨h, Or.inr ⟨fun p hp => ?_, fun k => rfl⟩⟩
        simp [Iface.port, hofport] at hp
    | some n =>
        obtain ⟨hz, hsame⟩ := h.updateVersionForce (r.portType = "internal")
        simp only [handleRecord, Option.map_some, Option.elim_some, updateOvsport]
        obtain hid | ⟨⟨uuid, isRemote⟩, hid⟩ := (portId r.externalIds).eq_none_or_eq_some
        · have hport : r.port = none := by simp [Iface.port, hofport, hid]
          simp only [hid, hport]
          exact ⟨hz, Or.inr ⟨fun p hp => (by cases hp), hsame⟩⟩
        · by_cases hneg : n < 0
          · have hport : r.port = none := by simp [Iface.port, hofport, hid, hneg]
            simp only [hid, hport, if_pos hneg]
            exact ⟨hz, Or.inr ⟨fun p hp => (by cases hp), hsame⟩⟩
          · have hport : r.port = some ⟨r.name, uuid, n, isRemote⟩ := by
              simp [Iface.port, hofport, hid, hneg]
            simp only [hid, hport, if_neg hneg]
            by_cases huuid : isAscii uuid
            · have hascii : OvsPort.Ascii ⟨r.name, uuid, n, isRemote⟩ := ⟨hname, huuid⟩
              obtain ⟨hothers, hself⟩ := hz.port?_addOvsport x hascii
              refine ⟨hz.add x hascii, Or.inl ⟨_, rfl, hascii, fun k hk => ?_, fun q => ?_⟩⟩
              · rw [hothers k hk, hsame]
              · rw [hself]
                unfold Unshared
                simp only [hsame]
            · rw [addOvsport, if_neg huuid]
              refine ⟨hz, Or.inr ⟨fun p hp hascii => huuid ?_, hsame⟩⟩
              obtain rfl := Option.some.inj hp
              exact hascii.2
  · rw [if_neg hname]
    refine ⟨h, Or.inr ⟨fun p hp hascii => hname ?_, fun k => rfl⟩⟩
    simp only [Iface.port, Option.bind_eq_bind, Option.bind_eq_some_iff] at hp
    obtain ⟨n, _, i, _, hp⟩ := hp
    split_ifs at hp
    obtain rfl := Option.some.inj hp
    exact hascii.1

end handle

end port?

end Zoo

/-! ### When the zoo follows -/

/-- An interface other than the row stands for the port. -/
def WantedElsewhere (table : IfaceTable) (rowUuid : String) (p : OvsPort) : Prop :=
  ∃ rowUuid' r, rowUuid' ≠ rowUuid ∧ table rowUuid' = some r ∧ r.port = some p

/-- What the update of a row retracts: something only if all columns of the old row are reported. -/
def retracted (table : IfaceTable) (c : RowChange) : Option (Bool × String) :=
  (report table c).bind (fun u => Zoo.retractedBy (parseIfaceRecord u.old .old))

/-- A change that the zoo can follow: a port that goes is retracted, no other port is, and a port
that comes is ASCII, has no rival of its name and shares its text with no port that stays. -/
structure Careful (table : IfaceTable) (c : RowChange) : Prop where
  retracts : ∀ p, (table c.rowUuid).bind Iface.port = some p →
    (∀ p', c.row.bind Iface.port = some p' → p'.key ≠ p.key) →
      WantedElsewhere table c.rowUuid p ∨ retracted table c = some p.key
  spares : ∀ p, WantedElsewhere table c.rowUuid p →
    (∀ p', c.row.bind Iface.port = some p' → p'.key ≠ p.key) → retracted table c ≠ some p.key
  accepts : ∀ p, c.row.bind Iface.port = some p → p.Ascii ∧
    (∀ p', WantedElsewhere table c.rowUuid p' → p'.key = p.key → p' = p) ∧
      ∀ p', Wanted table p' → p'.hostView = p.hostView →
        p'.key = p.key ∨ retracted table c = some p'.key

section follows
variable {x : Extra} {s s' : OvsSystem} {c : RowChange}

theorem wanted_iff {table : IfaceTable} (rowUuid : String) {p : OvsPort} : Wanted table p ↔
    (table rowUuid).bind Iface.port = some p ∨ WantedElsewhere table rowUuid p := by
  constructor
  · rintro ⟨rowUuid', r, hr, hp⟩
    by_cases heq : rowUuid' = rowUuid
    · exact Or.inl (Option.bind_eq_some_iff.mpr ⟨r, heq ▸ hr, hp⟩)
    · exact Or.inr ⟨rowUuid', r, heq, hr, hp⟩
  · rintro (hp | ⟨rowUuid', r, _, hr, hp⟩)
    · obtain ⟨r, hr, hp⟩ := Option.bind_eq_some_iff.mp hp
      exact ⟨rowUuid, r, hr, hp⟩
    · exact ⟨rowUuid', r, hr, hp⟩

theorem wanted_update_iff {table : IfaceTable} {p : OvsPort} :
    Wanted (Function.update table c.rowUuid c.row) p ↔
      c.row.bind Iface.port = some p ∨ WantedElsewhere table c.rowUuid p := by
  rw [wanted_iff c.rowUuid, Function.update_self]
  refine or_congr_right (exists_congr fun rowUuid' => exists_congr fun r => and_congr_right ?_)
  intro hne
  rw [Function.update_of_ne hne]

theorem OvsSystem.follows_iff (h : s.zoo.OvsZoo) :
    s.Follows ↔ ∀ k p, s.zoo.port? k = some p ↔ p.key = k ∧ Wanted s.table p := by
  unfold OvsSystem.Follows
  simp only [h.indexed.props?_ovsType]
  constructor
  · intro hall k p
    have hp := hall k.1 k.2 (.ovsport p)
    simp only [Props.ovsport.injEq, exists_eq_left'] at hp
    rw [hp, ← and_assoc]
    exact and_congr_left' (Prod.ext_iff (x := p.key) (y := k)).symm
  · intro hall isRemote name q
    refine exists_congr fun p => and_congr_right fun _ => ?_
    rw [hall, ← and_assoc]
    exact and_congr_left' (Prod.ext_iff (x := p.key))

/-- A change that is not reported is none. -/
theorem row_of_report_none (h : report s.table c = none) : s.table c.rowUuid = c.row := by
  unfold report at h
  cases hold : s.table c.rowUuid with
  | none =>
      cases hnew : c.row with
      | none => rfl
      | some r' => simp [hold, hnew] at h
  | some r =>
      cases hnew : c.row with
      | none => simp [hold, hnew] at h
      | some r' =>
          simp only [hold, hnew] at h
          split_ifs at h with heq
          rw [heq]

theorem new_of_report {u : RowUpdate} (h : report s.table c = some u) :
    u.new = c.row.map Iface.full := by
  unfold report at h
  cases hold : s.table c.rowUuid <;> cases hnew : c.row <;> simp only [hold, hnew] at h
  · cases h
  · rw [← Option.some.inj h]
    rfl
  · rw [← Option.some.inj h]
    rfl
  · split_ifs at h
    rw [← Option.some.inj h]
    rfl

/-- What a reported change does to the zoo: the retraction, then the new port. -/
theorem OvsSystem.step_cases (h : s.zoo.OvsZoo) (hstep : step x s c = some s') :
    s' = s ∧ report s.table c = none ∨
      s'.table = Function.update s.table c.rowUuid c.row ∧ s'.zoo.OvsZoo ∧
        ∃ z : Zoo, z.OvsZoo ∧
          (∀ k, z.port? k = if retracted s.table c = some k then none else s.zoo.port? k) ∧
          ((∃ p, c.row.bind Iface.port = some p ∧ p.Ascii ∧
              (∀ k ≠ p.key, s'.zoo.port? k = z.port? k) ∧
              ∀ q, s'.zoo.port? p.key = some q ↔ z.Unshared p ∧ q = p) ∨
            (∀ p, c.row.bind Iface.port = some p → ¬ p.Ascii) ∧
              ∀ k, s'.zoo.port? k = z.port? k) := by
  unfold step at hstep
  cases hreport : report s.table c with
  | none =>
      rw [hreport] at hstep
      exact Or.inl ⟨(Option.some.inj hstep).symm, rfl⟩
  | some u =>
      rw [hreport, Option.some.injEq] at hstep
      obtain rfl := hstep
      have hold := h.handle_old x u.old
      have hnew := new_of_report hreport
      refine Or.inr ⟨rfl, ?_⟩
      simp only [Zoo.handleInterfaceUpdate_one, retracted, hreport, Option.bind_some]
      cases hrow : c.row with
      | none =>
          rw [hrow] at hnew
          rw [hnew]
          exact ⟨hold.1, _, hold.1, hold.2, Or.inr ⟨fun p hp => (by cases hp), fun k => rfl⟩⟩
      | some r =>
          rw [hrow] at hnew
          rw [hnew]
          have hin := hold.1.handle_new x r
          exact ⟨hin.1, _, hold.1, hold.2, hin.2⟩

/-- **One update**: a zoo that agrees with the table goes on to agree with it iff the change is
careful. -/
theorem OvsSystem.follows_step_iff (h : s.zoo.OvsZoo) (hf : s.Follows)
    (hstep : step x s c = some s') : s'.Follows ↔ Careful s.table c := by
  have hlive := (follows_iff h).mp hf
  rcases step_cases h hstep with ⟨rfl, hreport⟩ | ⟨htable, hzoo, z, hz, hold, hcases⟩
  · -- the row is what it was
    have hrow := row_of_report_none hreport
    have hret : retracted s'.table c = none := by rw [retracted, hreport]; rfl
    refine iff_of_true hf ⟨fun p hp hno => ?_, fun p _ _ heq => ?_, fun p hp => ?_⟩
    · rw [hrow] at hp
      exact absurd rfl (hno p hp)
    · rw [hret] at heq
      cases heq
    · rw [← hrow] at hp
      have hport := (hlive p.key p).mpr ⟨rfl, (wanted_iff c.rowUuid).mpr (Or.inl hp)⟩
      refine ⟨h.ascii _ _ hport, fun p' hp' hkey => ?_, fun p' hp' htext => Or.inl ?_⟩
      · have hport' := (hlive p.key p').mpr ⟨hkey, (wanted_iff c.rowUuid).mpr (Or.inr hp')⟩
        exact Option.some.inj (hport'.symm.trans hport)
      · exact h.unshared_of_live hport p'.key p' ((hlive _ _).mpr ⟨rfl, hp'⟩) htext
  · have hz' : ∀ k p, z.port? k = some p ↔
        retracted s.table c ≠ some k ∧ p.key = k ∧ Wanted s.table p := by
      intro k p
      rw [hold]
      split_ifs with hret
      · simp [hret]
      · rw [hlive]
        simp [hret]
    rw [follows_iff hzoo, htable]
    simp only [wanted_update_iff]
    -- what is left of a port whose name no new port takes
    have hkept : ∀ p, (∀ p', c.row.bind Iface.port = some p' → p'.key ≠ p.key) →
        Careful s.table c → (z.port? p.key = some p ↔ WantedElsewhere s.table c.rowUuid p) := by
      intro p hno hcareful
      rw [hz', wanted_iff c.rowUuid]
      constructor
      · rintro ⟨hret, _, hp | hp⟩
        · exact (hcareful.retracts p hp hno).resolve_right hret
        · exact hp
      · exact fun hp => ⟨hcareful.spares p hp hno, rfl, Or.inr hp⟩
    rcases hcases with ⟨q, hq, hascii, hothers, hself⟩ | ⟨hnone, hsame⟩
    · have hnew : ∀ p : OvsPort, (∀ p', c.row.bind Iface.port = some p' → p'.key ≠ p.key) ↔
          q.key ≠ p.key := by
        intro p
        simp only [hq, Option.some.injEq, forall_eq']
      simp only [hq, Option.some.injEq]
      constructor
      · intro hfollows
        refine ⟨fun p hp hno => ?_, fun p hp hno hret => ?_, fun p hp => ?_⟩
        · have hne := (hnew p).mp hno
          by_contra hstale
          obtain ⟨helse, hret⟩ := not_or.mp hstale
          have hport := (hz' p.key p).mpr ⟨hret, rfl, (wanted_iff c.rowUuid).mpr (Or.inl hp)⟩
          rw [← hothers _ (Ne.symm hne), hfollows] at hport
          rcases hport.2 with rfl | hp'
          · exact hne rfl
          · exact helse hp'
        · have hport := (hfollows p.key p).mpr ⟨rfl, Or.inr hp⟩
          rw [hothers _ (Ne.symm ((hnew p).mp hno)), hz'] at hport
          exact hport.1 hret
        · obtain rfl := Option.some.inj (hq.symm.trans hp)
          have hun : z.Unshared q := ((hself q).mp ((hfollows q.key q).mpr ⟨rfl, Or.inl rfl⟩)).1
          refine ⟨hascii, fun p' hp' hkey => ?_, fun p' hp' htext => ?_⟩
          · exact ((hself p').mp ((hfollows q.key p').mpr ⟨hkey, Or.inr hp'⟩)).2
          · by_contra hshared
            obtain ⟨hkey, hret⟩ := not_or.mp hshared
            exact hkey (hun p'.key p' ((hz' _ _).mpr ⟨hret, rfl, hp'⟩) htext)
      · intro hcareful k p
        obtain ⟨_, hrival, htext⟩ := hcareful.accepts q hq
        by_cases hk : k = q.key
        · rw [hk, hself]
          constructor
          · rintro ⟨_, rfl⟩
            exact ⟨rfl, Or.inl rfl⟩
          · rintro ⟨hkey, hp⟩
            have hpq : p = q := hp.elim Eq.symm fun hp => hrival p hp hkey
            refine ⟨fun k' p' hp' ht => ?_, hpq⟩
            obtain ⟨hret, rfl, hwanted⟩ := (hz' k' p').mp hp'
            exact (htext p' hwanted ht).resolve_right hret
        · rw [hothers k hk]
          constructor
          · intro hport
            obtain rfl := ((hz' k p).mp hport).2.1
            exact ⟨rfl, Or.inr ((hkept p ((hnew p).mpr (Ne.symm hk)) hcareful).mp hport)⟩
          · rintro ⟨rfl, rfl | hp⟩
            · exact absurd rfl hk
            · exact (hkept p ((hnew p).mpr (Ne.symm hk)) hcareful).mpr hp
    · simp only [hsame]
      constructor
      · intro hfollows
        refine ⟨fun p hp hno => ?_, fun p hp hno hret => ?_, fun p hp => ?_⟩
        · by_contra hstale
          obtain ⟨helse, hret⟩ := not_or.mp hstale
          have hport := (hz' p.key p).mpr ⟨hret, rfl, (wanted_iff c.rowUuid).mpr (Or.inl hp)⟩
          rcases ((hfollows p.key p).mp hport).2 with hp' | hp'
          · exact hno p hp' rfl
          · exact helse hp'
        · exact ((hz' p.key p).mp ((hfollows p.key p).mpr ⟨rfl, Or.inr hp⟩)).1 hret
        · obtain ⟨_, _, hwanted⟩ := (hz' p.key p).mp ((hfollows p.key p).mpr ⟨rfl, Or.inl hp⟩)
          exact absurd (h.ascii _ _ ((hlive p.key p).mpr ⟨rfl, hwanted⟩)) (hnone p hp)
      · intro hcareful k p
        have hno : ∀ p', c.row.bind Iface.port ≠ some p' :=
          fun p' hp' => hnone p' hp' (hcareful.accepts p' hp').1
        have hiff := hkept p (fun p' hp' => absurd hp' (hno p')) hcareful
        constructor
        · intro hport
          obtain rfl := ((hz' k p).mp hport).2.1
          exact ⟨rfl, Or.inr (hiff.mp hport)⟩
        · rintro ⟨rfl, hp | hp⟩
          · exact absurd hp (hno p)
          · exact hiff.mpr hp

theorem OvsSystem.ovsZoo_step (h : s.zoo.OvsZoo) (hstep : step x s c = some s') :
    s'.zoo.OvsZoo := by
  rcases step_cases h hstep with ⟨rfl, _⟩ | ⟨_, hzoo, _⟩
  · exact h
  · exact hzoo

theorem OvsSystem.run_isSome (x : Extra) (s : OvsSystem) (cs : List RowChange) :
    (run (step x) s cs).isSome := by
  induction cs generalizing s with
  | nil => rfl
  | cons c cs ih =>
      obtain ⟨s', hs'⟩ : ∃ s', step x s c = some s' := by
        unfold step
        split
        · exact ⟨_, rfl⟩
        · exact ⟨_, rfl⟩
      simp only [run, hs']
      exact ih s'

theorem Zoo.port?_empty (k : Bool × String) : Zoo.empty.port? k = none := by
  unfold Zoo.port? Zoo.props?
  rw [Zoo.entity?_empty]
  rfl

theorem OvsSystem.start_ovsZoo : OvsSystem.start.zoo.OvsZoo where
  indexed := Zoo.indexed_empty
  exact := fun u hu => absurd hu (Finset.notMem_empty u)
  ascii := by
    intro k p hp
    rw [start, Zoo.port?_empty] at hp
    cases hp

theorem OvsSystem.start_follows : OvsSystem.start.Follows := by
  rw [follows_iff start_ovsZoo]
  intro k p
  rw [start, Zoo.port?_empty]
  refine iff_of_false (fun hp => (by cases hp)) ?_
  rintro ⟨_, _, _, hr, _⟩
  cases hr

/-- **The ports of the zoo follow OVSDB** all along a list of updates iff all the changes are
careful. -/
theorem OvsSystem.ports_follow_iff (x : Extra) (cs : List RowChange) :
    (∀ bs, bs <+: cs → ∀ s, run (step x) start bs = some s → s.Follows) ↔
      Meets (step x) (fun s c => Careful s.table c) start cs :=
  forall_prefix_iff_meets (step x) (fun _ _ _ _ h hstep => ovsZoo_step h hstep)
    (fun _ _ _ _ h hf hstep => follows_step_iff h hf hstep) start_ovsZoo start_follows
    (meets_of_forall (step x) (fun _ _ => trivial) start cs) (run_isSome x start cs)

/-- An interface with the id of a logical port. -/
def tapIface (ofport : Option ℤ) : Iface :=
  ⟨ofport, "tap1", [⟨"iface-id", "lsp-portA"⟩].toFinmap, ""⟩

/-- The interface comes up and fails. -/
def tapFails : List RowChange :=
  [⟨"u1", some (tapIface (some 5))⟩, ⟨"u1", some (tapIface (some (-1)))⟩]

set_option maxRecDepth 100000 in
/-- A port whose `ofport` becomes negative stays live. -/
theorem OvsSystem.ports_not_follow_negativeOfport : ¬ ∀ (x : Extra) (cs : List RowChange) (s),
    run (step x) start cs = some s → s.Follows := by
  intro hall
  obtain ⟨s, hs⟩ := Option.isSome_iff_exists.mp (run_isSome (.node false "hv1") start tapFails)
  have hfollows := hall _ _ s hs
  have hlive : ((run (step (.node false "hv1")) start tapFails).bind (fun s =>
      s.zoo.props? .ovsport "tap1")) = some (.ovsport ⟨"tap1", "lsp-portA", 5, false⟩) := by
    decide +kernel
  have htable : ((run (step (.node false "hv1")) start tapFails).map (fun s => s.table)) =
      some (Function.update (Function.update (fun _ => none) "u1" (some (tapIface (some 5)))) "u1"
        (some (tapIface (some (-1))))) := rfl
  rw [hs] at hlive htable
  obtain ⟨p, hp, _, _, rowUuid, r, hr, hport⟩ := (hfollows false "tap1" _).mp hlive
  have htable' : s.table = _ := Option.some.inj htable
  rw [htable'] at hr
  obtain rfl := Props.ovsport.inj hp
  by_cases heq : rowUuid = "u1"
  · rw [heq, Function.update_self, Option.some.injEq] at hr
    rw [← hr] at hport
    cases hport
  · rw [Function.update_of_ne heq, Function.update_of_ne heq] at hr
    cases hr

end follows

end TupleNet
