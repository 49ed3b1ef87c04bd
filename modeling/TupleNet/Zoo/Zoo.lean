import TupleNet.Flow.Convert
import TupleNet.Zoo.Entity
import Mathlib.Data.Finset.Range
import Mathlib.Data.Finset.Card
import Mathlib.Data.Finset.Max

/-! # The zoo

`LogicalEntityZoo`: the live entities by type and name, the sink of the entities whose flows are
still to be deleted, the index of uniqueness keys, the index groups of `ILKEntity` (a class variable
in the source) and the clauses that the entities have asserted.

A clause is asserted with the state that its entity has; asserting it twice is asserting it once.
Entities that are not touched assert nothing. -/

namespace TupleNet

/-! ### Data -/

/-- What the flow rules see of an entity. -/
structure Row where
  props : Props
  ilkIdx : ℕ
deriving DecidableEq, Repr

/-- An entity of the zoo; `touched` is true for classes without this attribute. -/
structure Entity where
  row : Row
  state : State
  touched : Bool
deriving DecidableEq, Repr

namespace Entity

def etype (e : Entity) : EntityType := e.row.props.etype
def uuid (e : Entity) : String := e.row.props.uuid
def uniq (e : Entity) : List (UniqKey × String) := e.row.props.uniq

/-- The clause of the entity. -/
def clause (e : Entity) : Row × State := (e.row, e.state)

/-- `add_clause`. -/
def addClause (e : Entity) (clauses : List (Row × State)) : List (Row × State) :=
  if e.touched then e.clause :: clauses else clauses

/-- `del_clause`. -/
def delClause (e : Entity) (clauses : List (Row × State)) : List (Row × State) :=
  if e.touched then clauses.filter (· ≠ e.clause) else clauses

/-- `mark`, apart from the clauses. -/
def mark (event : State) (e : Entity) : Entity := { e with state := event }

/-- `touch`, apart from the clauses. -/
def touch (e : Entity) : Entity :=
  if e.touched then e else { e with touched := true, state := .ADD }

end Entity

/-- Uniqueness keys that are taken. -/
abbrev Idxmap := Finset (UniqKey × String)

/-- The indexes in use, by type and network, for the networks that have been seen. -/
abbrev IlkGroup := EntityType → String → Option (Finset ℕ)

/-- `LogicalEntityZoo` with the class variable `_ilk_group` and the asserted clauses. -/
structure Zoo where
  entitySet : EntityType → Dict String Entity
  entitySinkSet : EntityType → List Entity
  entityIdxmap : Idxmap
  ilkGroup : IlkGroup
  clauses : List (Row × State)
  zooVer : ℕ

/-- What the zoo takes from `get_extra()`, and which element `set.pop()` removes. -/
structure Extra where
  onDemand : Bool
  systemId : String
  popIdx : Finset ℕ → ℕ
  popIdx_mem : ∀ s : Finset ℕ, s.Nonempty → popIdx s ∈ s

/-- A node whose `set.pop()` takes the least element. -/
def Extra.node (onDemand : Bool) (systemId : String) : Extra where
  onDemand := onDemand
  systemId := systemId
  popIdx s := if h : s.Nonempty then s.min' h else 0
  popIdx_mem s h := by
    rw [dif_pos h]
    exact s.min'_mem h

/-- The name of the tunnel port that belongs to no chassis record. -/
def TP_FLOW_TUNNEL_NAME : String := "flow_base_tunnel"

/-- The clause of `chassis_array` that is there from the start. -/
def tunnelRow : Row := ⟨.chassis ⟨TP_FLOW_TUNNEL_NAME, "", 0⟩, 0⟩

namespace Zoo

/-- The zoo after `__init__`. -/
def empty : Zoo where
  entitySet _ := ∅
  entitySinkSet _ := []
  entityIdxmap := ∅
  ilkGroup _ _ := none
  clauses := [(tunnelRow, .NO)]
  zooVer := 0

/-- The entity of a name, if it is live. -/
def entity? (z : Zoo) (t : EntityType) (key : String) : Option Entity := (z.entitySet t).lookup key

/-! ### The sink -/

/-- `_del_entity_idxmap`: it stops at the first key that is not there. -/
def delIdxmap : List (UniqKey × String) → Idxmap → Idxmap
  | [], m => m
  | u :: us, m => if u ∈ m then delIdxmap us (m.erase u) else m

/-- `move_entity2sink`. -/
def moveEntity2sink (t : EntityType) (key : String) (z : Zoo) : Zoo :=
  match z.entity? t key with
  | none => z
  | some e =>
      { z with
        entitySet := Function.update z.entitySet t ((z.entitySet t).erase key)
        entitySinkSet := Function.update z.entitySinkSet t (z.entitySinkSet t ++ [e.mark .DEL])
        entityIdxmap := delIdxmap e.uniq z.entityIdxmap
        clauses := (e.mark .DEL).addClause (e.delClause z.clauses)
        zooVer := z.zooVer + 1 }

/-- `move_entity2sink_by_pool`: the name is the last component of the path. -/
def moveEntity2sinkByPool (t : EntityType) (delPool : List String) (z : Zoo) : Zoo :=
  delPool.foldl (fun z path => z.moveEntity2sink t ((Text.split '/' path).getLastD "")) z

/-- The names of a type, in iteration order. -/
def keysOf (z : Zoo) (t : EntityType) : List (EntityType × String) :=
  (z.entitySet t).keys.map (fun key => (t, key))

/-- `move_all_entity2sink`. -/
def moveAllEntity2sink (types exclude : List EntityType) (z : Zoo) : Zoo :=
  ((types.filter (· ∉ exclude)).flatMap z.keysOf).foldl (fun z k => z.moveEntity2sink k.1 k.2) z

/-! ### Adding -/

/-- `_should_touch`; classes without it are always touched. -/
def shouldTouch (x : Extra) : Props → Bool
  | .lsp p => !x.onDemand || p.chassis = some x.systemId || p.peer.isSome
  | .chassis p => !x.onDemand || p.uuid = x.systemId
  | _ => true

/-- The indexes that a group may use. -/
def wholeIdxSet : Finset ℕ := Finset.range 64

/-- The indexes of one group have changed. -/
def setGroup (t : EntityType) (key : String) (s : Finset ℕ) (g : IlkGroup) : IlkGroup :=
  fun t' key' => if t' = t ∧ key' = key then some s else g t' key'

/-- `_get_ilk_idx`: an index and the groups with it, `none` where it raises; `0` for classes that
are no `ILKEntity`. -/
def getIlkIdx (x : Extra) (p : Props) (g : IlkGroup) : Option (ℕ × IlkGroup) :=
  match p.ilkKey with
  | none => some (0, g)
  | some key =>
      match g p.etype key with
      | none => some (0, setGroup p.etype key {0} g)
      | some occupied =>
          let free := wholeIdxSet \ occupied
          if free = ∅ then none
          else some (x.popIdx free, setGroup p.etype key (insert (x.popIdx free) occupied) g)

/-- `_insert_entity_idxmap`: the keys that are inserted before one that is taken stay. -/
def insertIdxmap : List (UniqKey × String) → Idxmap → Idxmap × Bool
  | [], m => (m, true)
  | u :: us, m => if u ∈ m then (m, false) else insertIdxmap us (insert u m)

/-- The entity becomes live: the end of `_add_entity_in_zoo`, and `populate`. -/
def enter (e : Entity) (z : Zoo) : Zoo :=
  { z with
    entitySet := Function.update z.entitySet e.etype ((z.entitySet e.etype).insert e.uuid e)
    clauses := e.addClause z.clauses
    zooVer := z.zooVer + 1 }

/-- The index groups have changed. -/
def setIlkGroup (g : IlkGroup) (z : Zoo) : Zoo := { z with ilkGroup := g }

/-- The uniqueness keys have changed. -/
def setIdxmap (m : Idxmap) (z : Zoo) : Zoo := { z with entityIdxmap := m }

/-- `_add_entity_in_zoo` and `populate`; the entity that had the name goes into the sink also when
the new one is refused. -/
def addEntityInZoo (e : Entity) (z : Zoo) : Zoo × Bool :=
  let z := z.moveEntity2sink e.etype e.uuid
  match insertIdxmap e.uniq z.entityIdxmap with
  | (m, true) => ((z.setIdxmap m).enter e, true)
  | (m, false) => (z.setIdxmap m, false)

/-- `touch` of a live entity of the zoo. -/
def touch (t : EntityType) (key : String) (z : Zoo) : Zoo :=
  match z.entity? t key with
  | none => z
  | some e =>
      if e.touched then z
      else
        { z with
          entitySet := Function.update z.entitySet t ((z.entitySet t).insert key e.touch)
          clauses := e.touch.addClause z.clauses }

/-- `touch_entity` of the entities with the given names. -/
def touchEntity (t : EntityType) (keys : List String) (z : Zoo) : Zoo :=
  keys.foldl (fun z key => z.touch t key) z

/-- The chassis on which a router is pinned. -/
def pinnedTo : Props → Option String
  | .LR p => p.chassis
  | _ => none

/-- A router is pinned on the chassis. -/
def hasPinned (z : Zoo) (uuid : String) : Bool :=
  (z.entitySet .LR).items.any (fun x => pinnedTo x.2.row.props = some uuid)

/-- `_touch_gateway_by_LR` and `_touch_gateway_by_chassis`. -/
def touchGateway (p : Props) (z : Zoo) : Zoo :=
  match p with
  | .LR r => match r.chassis with
      | none => z
      | some uuid => z.touch .chassis uuid
  | .chassis c => if z.hasPinned c.uuid then z.touch .chassis c.uuid else z
  | _ => z

/-- `add_entity`, with the exception of `is_same` caught as its callers do. -/
def addEntity (x : Extra) (a : Args) (z : Zoo) : Zoo :=
  match (z.entity? a.etype a.uuid).elim (some false) (fun e => a.isSame e.row.props) with
  | some false => match a.construct with
      | none => z
      | some p => match getIlkIdx x p z.ilkGroup with
          | none => z
          | some (idx, g) =>
              match addEntityInZoo ⟨⟨p, idx⟩, .ADD, shouldTouch x p⟩ (z.setIlkGroup g) with
              | (z, true) => if x.onDemand then z.touchGateway p else z
              | (z, false) => z
  | _ => z

/-- `_convert_kv2entity`. -/
def convertKv2entity (x : Extra) (t : EntityType) (path : String) (vs : ValueSet) (z : Zoo) : Zoo :=
  match Args.ofKv t path vs.kv.lookup with
  | none => z
  | some a => z.addEntity x a

/-- `convert_pool2entity`. -/
def convertPool2entity (x : Extra) (t : EntityType) (addPool : List (String × ValueSet)) (z : Zoo) :
    Zoo :=
  addPool.foldl (fun z kv => z.convertKv2entity x t kv.1 kv.2) z

/-! ### Sweeping -/

/-- `_free_ilk_idx`. -/
def freeIlkIdx (r : Row) (g : IlkGroup) : IlkGroup :=
  match r.props.ilkKey with
  | none => g
  | some key => match g r.props.etype key with
      | none => g
      | some occupied => setGroup r.props.etype key (occupied.erase r.ilkIdx) g

/-- `eliminate`. -/
def eliminate (e : Entity) (z : Zoo) : Zoo :=
  { z with clauses := e.delClause z.clauses, ilkGroup := freeIlkIdx e.row z.ilkGroup }

/-- All entities that wait in the sink. -/
def sunk (z : Zoo) : List Entity := EntityType.all.flatMap z.entitySinkSet

/-- `_clean_sink`. -/
def cleanSink (z : Zoo) : Zoo :=
  { z.sunk.foldl (fun z e => z.eliminate e) z with entitySinkSet := fun _ => [] }

/-- What the sweep makes of an entity. -/
def swept (e : Entity) : Entity := if e.state = .ADD then e.mark .NO else e

/-- All live entities. -/
def live (z : Zoo) : List Entity :=
  EntityType.all.flatMap (fun t => (z.entitySet t).items.map Prod.snd)

/-- `_sweep_entity_set`. -/
def sweepEntitySet (z : Zoo) : Zoo :=
  { z with
    entitySet := fun t => Dict.mapVal swept (z.entitySet t)
    clauses := (z.live.filter (fun e => e.state = .ADD)).foldl
      (fun cs e => (e.mark .NO).addClause (e.delClause cs)) z.clauses }

/-- `sweep_zoo`. -/
def sweepZoo (z : Zoo) : Zoo := z.cleanSink.sweepEntitySet

end Zoo

end TupleNet
