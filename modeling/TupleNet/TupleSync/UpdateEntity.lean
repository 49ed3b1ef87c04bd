import TupleNet.Zoo.Additions

/-! # A batch of changes on the zoo

`update_entity`: first every name of the delete pool goes into the sink, then every record of the
add pool is added, type by type and path by path.  `Snapshot` is what etcd holds at some revision.
A batch that leads from one conflict-free snapshot to another one leads the zoo there iff every
record that changes something finds its uniqueness keys free at its turn and room in its index
group (`updateEntity_liveIs_iff`): the keys of an entity that a later record replaces are still
taken. -/

namespace TupleNet

open Zoo

/-! ### `update_entity` -/

/-- The part of a pool that belongs to a type. -/
def poolOf (pool : Option (Dict Mark Pool)) (t : EntityType) : List (String × ValueSet) :=
  ((pool.bind fun pool => t.mark.bind pool.lookup).map Dict.items).getD []

/-- `update_entity`; `types` is `logical_entity_types` in iteration order. -/
def updateEntity (x : Extra) (types : List EntityType) (addPool delPool : Option (Dict Mark Pool))
    (z : Zoo) : Zoo :=
  let z := types.foldl
    (fun z t => z.moveEntity2sinkByPool t ((poolOf delPool t).map Prod.fst)) z
  types.foldl (fun z t => z.convertPool2entity x t (poolOf addPool t)) z

/-- The name of a record: the last component of its path. -/
def nameOf (path : String) : String := (Text.split '/' path).getLastD ""

/-- The types and names of the records of a pool, in order. -/
def namesOf (types : List EntityType) (pool : Option (Dict Mark Pool)) :
    List (EntityType × String) :=
  types.flatMap (fun t => (poolOf pool t).map (fun kv => (t, nameOf kv.1)))

/-- The calls of `add_entity`, in order. -/
def additions (types : List EntityType) (addPool : Option (Dict Mark Pool)) : List Args :=
  types.flatMap (fun t => (poolOf addPool t).filterMap (fun kv => Args.ofKv t kv.1 kv.2.kv.lookup))

/-- Names into the sink, one after another. -/
def moveAll (gone : List (EntityType × String)) (z : Zoo) : Zoo :=
  gone.foldl (fun z k => z.moveEntity2sink k.1 k.2) z

theorem updateEntity_eq (x : Extra) (types : List EntityType)
    (addPool delPool : Option (Dict Mark Pool)) (z : Zoo) :
    updateEntity x types addPool delPool z =
      (moveAll (namesOf types delPool) z).addAll x (additions types addPool) := by
  have hpool : ∀ (t : EntityType) (z : Zoo), z.convertPool2entity x t (poolOf addPool t) =
      ((poolOf addPool t).filterMap (fun kv => Args.ofKv t kv.1 kv.2.kv.lookup)).foldl
        (fun z a => z.addEntity x a) z := by
    intro t z
    rw [convertPool2entity, List.foldl_filterMap]
    refine congrArg (fun f => (poolOf addPool t).foldl f z) (funext fun z => funext fun kv => ?_)
    unfold convertKv2entity
    cases Args.ofKv t kv.1 kv.2.kv.lookup <;> rfl
  simp only [updateEntity, addAll, moveAll, namesOf, additions, List.foldl_flatMap,
    List.foldl_map, moveEntity2sinkByPool, hpool]
  rfl

/-! ### Moves -/

/-- The view of a zoo from which names have been moved into the sink. -/
def Zoo.View.without (v : View) (gone : List (EntityType × String)) : View where
  props? t key := if (t, key) ∈ gone then none else v.props? t key
  Taken u := v.Taken u ∧ ¬ ∃ k ∈ gone, ∃ q ∈ v.props? k.1 k.2, u ∈ q.uniq
  ilkSize := v.ilkSize

instance (v : View) (gone : List (EntityType × String)) [DecidablePred v.Taken] :
    DecidablePred (v.without gone).Taken :=
  fun u => inferInstanceAs (Decidable (v.Taken u ∧ ¬ ∃ k ∈ gone, ∃ q ∈ v.props? k.1 k.2,
    u ∈ q.uniq))

theorem Zoo.View.without_nil (v : View) : v.without [] = v := by
  simp [View.without]

theorem Zoo.View.without_cons (v : View) (k : EntityType × String)
    (gone : List (EntityType × String)) : (v.without [k]).without gone = v.without (k :: gone) := by
  refine congrArg₂ (fun f g => View.mk f g v.ilkSize) (funext fun t => funext fun key => ?_)
    (funext fun u => propext ?_)
  · simp only [View.without, List.mem_cons]
    by_cases h₁ : (t, key) = k <;> by_cases h₂ : (t, key) ∈ gone <;> simp [h₁, h₂]
  · simp only [View.without, List.mem_singleton, exists_eq_left, List.exists_mem_cons_iff, not_or,
      and_assoc]
    refine and_congr_right fun _ => and_congr_right fun hk => not_congr ?_
    refine exists_congr fun k' => and_congr_right fun _ => exists_congr fun q => ?_
    by_cases hkk : k' = k
    · simp only [hkk, Prod.mk.eta, if_true, Option.mem_def, reduceCtorEq, false_and, false_iff]
      exact fun h => hk ⟨q, h⟩
    · simp [hkk]

theorem Zoo.Indexed.view_move {z : Zoo} (h : Indexed z) (k : EntityType × String) :
    (z.moveEntity2sink k.1 k.2).view = z.view.without [k] := by
  obtain ⟨t, key⟩ := k
  refine congr (congr (congrArg View.mk (funext fun t' => funext fun key' => ?_))
    (funext fun u => propext ?_)) (funext fun t' => funext fun key' => ?_)
  · simp only [props?_moveEntity2sink, List.mem_singleton, Prod.mk.injEq, view]
  · simp only [view, List.mem_singleton, exists_eq_left]
    cases he : z.entity? t key with
    | none => simp [move_of_none he, props?, he]
    | some e => simp [h.mem_idxmap_move he, props?, he, Entity.uniq]
  · simp only [ilkSize, ilkGroup_move, view]

theorem Zoo.Indexed.view_moveAll {z : Zoo} (h : Indexed z) (gone : List (EntityType × String)) :
    Indexed (moveAll gone z) ∧ (moveAll gone z).view = z.view.without gone := by
  induction gone generalizing z with
  | nil => exact ⟨h, z.view.without_nil.symm⟩
  | cons k gone ih =>
      obtain ⟨h₁, h₂⟩ := ih (h.move k.1 k.2)
      refine ⟨h₁, ?_⟩
      rw [← View.without_cons, ← h.view_move]
      exact h₂

/-! ### Snapshots -/

/-- The entity of a record. -/
def propsOf (t : EntityType) (path : String) (vs : ValueSet) : Option Props :=
  (Args.ofKv t path vs.kv.lookup).bind Args.construct

theorem nameOf_eq_of_reverse {path uuid : String} {rest : List String}
    (h : (Text.split '/' path).reverse = uuid :: rest) : nameOf path = uuid := by
  rw [nameOf, List.reverse_eq_iff.mp h, List.reverse_cons, List.getLastD_concat]

theorem Args.ofKv_key {t : EntityType} {path : String} {get : String → Option String} {a : Args}
    (h : Args.ofKv t path get = some a) : a.etype = t ∧ a.uuid = nameOf path := by
  unfold Args.ofKv at h
  split at h
  · cases h
  · next uuid rest hrev =>
      rw [nameOf_eq_of_reverse hrev]
      cases t <;> simp only [Option.map_eq_some_iff, Option.some.injEq, reduceCtorEq] at h
      case chassis => rw [← h]; exact ⟨rfl, rfl⟩
      case LS => rw [← h]; exact ⟨rfl, rfl⟩
      case LR => rw [← h]; exact ⟨rfl, rfl⟩
      all_goals
        obtain ⟨parent, _, rfl⟩ := h
        exact ⟨rfl, rfl⟩

/-- The arguments depend only on what the properties are looked up as. -/
theorem propsOf_congr {t : EntityType} {path : String} {v w : ValueSet}
    (h : ∀ k, v.kv.lookup k = w.kv.lookup k) : propsOf t path v = propsOf t path w := by
  rw [propsOf, propsOf, show (fun k => v.kv.lookup k) = fun k => w.kv.lookup k from funext h]

/-- Records of etcd at some revision: every record has the type that its path says, and the entities
can be built. -/
structure Snapshot where
  kvs : Pool
  typed : ∀ path v, kvs.lookup path = some v → parseKey path = some v.mark
  loads : ∀ t path v, kvs.lookup path = some v → t.mark = some v.mark → (propsOf t path v).isSome

/-- The entities of a snapshot. -/
def Snapshot.Has (S : Snapshot) (t : EntityType) (key : String) (p : Props) : Prop :=
  ∃ path v, S.kvs.lookup path = some v ∧ t.mark = some v.mark ∧ nameOf path = key ∧
    propsOf t path v = some p

/-- Two entities that must not be there together. -/
def Conflict : Props → Props → Prop
  | .lsp p, .lsp q => p.lsUuid = q.lsUuid ∧ (p.ip = q.ip ∨ p.mac = q.mac)
  | .lrp p, .lrp q => p.lrUuid = q.lrUuid ∧ (p.ip = q.ip ∨ p.mac = q.mac)
  | .lsr p, .lsr q => p.lrUuid = q.lrUuid ∧ p.ip = q.ip ∧ p.prefixLen = q.prefixLen ∧
      p.nextHop = q.nextHop ∧ p.outport = q.outport
  | .lnat p, .lnat q => p.lrUuid = q.lrUuid ∧ p.ip = q.ip ∧ p.prefixLen = q.prefixLen ∧
      p.xlateType = q.xlateType
  | .chassis p, .chassis q => p.ip = q.ip ∧ p.tick = q.tick
  | .LS p, .LS q => p.lsID = q.lsID
  | .LS p, .LR q => p.lsID = some (toString q.lrID)
  | .LR p, .LS q => q.lsID = some (toString p.lrID)
  | .LR p, .LR q => p.lrID = q.lrID
  | _, _ => False

/-- Names are different for each type, and no two entities conflict. -/
structure ConflictFree (S : Snapshot) : Prop where
  names : ∀ (t : EntityType) path path' v v', S.kvs.lookup path = some v →
    S.kvs.lookup path' = some v' →
    t.mark = some v.mark → t.mark = some v'.mark → nameOf path = nameOf path' → path = path'
  apart : ∀ t key p t' key' p', S.Has t key p → S.Has t' key' p' → (t, key) ≠ (t', key') →
    ¬ Conflict p p'

/-- The live entities that come from etcd are those of the snapshot, with its properties. -/
def LiveIs (z : Zoo) (S : Snapshot) : Prop :=
  ∀ t, t.mark.isSome → ∀ key p, z.props? t key = some p ↔ S.Has t key p

/-- The batch that turns one snapshot into another: the delete pool has the paths that are gone, the
add pool those that are new or have another value, and perhaps unchanged ones. -/
structure Changeset (A B : Snapshot) (addPool delPool : Dict Mark Pool) : Prop where
  del : ∀ m path, (∃ v, Dict.lookupIn delPool m path = some v) ↔
    ∃ v, A.kvs.lookup path = some v ∧ v.mark = m ∧ B.kvs.lookup path = none
  add_mem : ∀ m path v, Dict.lookupIn addPool m path = some v →
    B.kvs.lookup path = some v ∧ v.mark = m
  add_all : ∀ path v, B.kvs.lookup path = some v →
    (∃ w, A.kvs.lookup path = some w ∧ ∀ k, w.kv.lookup k = v.kv.lookup k) ∨
      Dict.lookupIn addPool v.mark path = some v

theorem mem_poolOf {pool : Dict Mark Pool} {t : EntityType} {path : String} {v : ValueSet} :
    (path, v) ∈ poolOf (some pool) t ↔
      ∃ m, t.mark = some m ∧ Dict.lookupIn pool m path = some v := by
  simp only [poolOf, Option.bind_some, Dict.lookupIn]
  cases t.mark with
  | none => simp
  | some m =>
      simp only [Option.bind_some, Option.some.injEq, exists_eq_left']
      cases pool.lookup m with
      | none => simp
      | some d => simp [Dict.mem_items]

theorem nodup_poolOf (pool : Dict Mark Pool) (t : EntityType) :
    ((poolOf (some pool) t).map Prod.fst).Nodup := by
  unfold poolOf
  cases h : (some pool).bind fun pool => t.mark.bind pool.lookup with
  | none => exact List.nodup_nil
  | some d => exact d.nodup_items_fst

theorem mem_namesOf {pool : Dict Mark Pool} {types : List EntityType} (htypes : ∀ t, t ∈ types)
    {t : EntityType} {key : String} : (t, key) ∈ namesOf types (some pool) ↔
      ∃ m path v, t.mark = some m ∧ Dict.lookupIn pool m path = some v ∧ nameOf path = key := by
  simp only [namesOf, List.mem_flatMap, List.mem_map, Prod.exists, Prod.mk.injEq, mem_poolOf]
  constructor
  · rintro ⟨_, _, path, v, ⟨m, hm, hv⟩, rfl, rfl⟩
    exact ⟨m, path, v, hm, hv, rfl⟩
  · rintro ⟨m, path, v, hm, hv, rfl⟩
    exact ⟨t, htypes t, path, v, ⟨m, hm, hv⟩, rfl, rfl⟩

/-! ### From one snapshot to the next -/

/-- The additions are the calls for records of the pool. -/
theorem mem_additions {pool : Dict Mark Pool} {types : List EntityType}
    (htypes : ∀ t, t ∈ types) {a : Args} : a ∈ additions types (some pool) ↔
      ∃ m path v, a.etype.mark = some m ∧ Dict.lookupIn pool m path = some v ∧
        Args.ofKv a.etype path v.kv.lookup = some a := by
  simp only [additions, List.mem_flatMap, List.mem_filterMap, Prod.exists, mem_poolOf]
  constructor
  · rintro ⟨t, _, path, v, ⟨m, hm, hv⟩, ha⟩
    obtain ⟨rfl, _⟩ := Args.ofKv_key ha
    exact ⟨m, path, v, hm, hv, ha⟩
  · rintro ⟨m, path, v, hm, hv, ha⟩
    exact ⟨a.etype, htypes _, path, v, ⟨m, hm, hv⟩, ha⟩

section batch
variable {x : Extra} {A B : Snapshot} {addPool delPool : Dict Mark Pool} {types : List EntityType}
  {z : Zoo} (hbatch : Changeset A B addPool delPool) (htypes : ∀ t, t ∈ types)
include hbatch htypes

/-- Every addition builds an entity of the new snapshot. -/
theorem Changeset.additions_has {a : Args} (ha : a ∈ additions types (some addPool)) :
    ∃ p, a.construct = some p ∧ B.Has a.etype a.uuid p := by
  obtain ⟨m, path, v, hm, hv, hofKv⟩ := (mem_additions htypes).mp ha
  obtain ⟨hB, rfl⟩ := hbatch.add_mem m path v hv
  obtain ⟨p, hp⟩ := Option.isSome_iff_exists.mp (B.loads a.etype path v hB hm)
  refine ⟨p, ?_, path, v, hB, hm, (Args.ofKv_key hofKv).2.symm, hp⟩
  rw [propsOf, hofKv] at hp
  exact hp

/-- A record of the add pool is an addition. -/
theorem Changeset.exists_addition {t : EntityType} {path : String} {v : ValueSet}
    (hv : Dict.lookupIn addPool v.mark path = some v) (ht : t.mark = some v.mark) :
    ∃ a ∈ additions types (some addPool), (a.etype, a.uuid) = (t, nameOf path) := by
  have hload := B.loads t path v (hbatch.add_mem _ _ _ hv).1 ht
  rw [propsOf] at hload
  obtain ⟨a, ha⟩ := Option.isSome_iff_exists.mp (Option.isSome_of_isSome_bind hload)
  obtain ⟨rfl, huu⟩ := Args.ofKv_key ha
  exact ⟨a, (mem_additions htypes).mpr ⟨v.mark, path, v, ht, hv, ha⟩, Prod.ext rfl huu⟩

variable (hB : ConflictFree B)
include hB

omit htypes in
theorem Changeset.nodup_additions (hnd : types.Nodup) :
    ((additions types (some addPool)).map (fun a => (a.etype, a.uuid))).Nodup := by
  have hsub : ∀ (t : EntityType) (l : List (String × ValueSet)),
      ((l.filterMap (fun kv => Args.ofKv t kv.1 kv.2.kv.lookup)).map
        (fun a => (a.etype, a.uuid))).Sublist (l.map (fun kv => (t, nameOf kv.1))) := by
    intro t l
    induction l with
    | nil => exact List.Sublist.slnil
    | cons kv l ih =>
        cases ha : Args.ofKv t kv.1 (fun k => kv.2.kv.lookup k) with
        | none =>
            rw [List.filterMap_cons, ha]
            exact ih.cons _
        | some a =>
            rw [List.filterMap_cons, ha]
            obtain ⟨het, huu⟩ := Args.ofKv_key ha
            simp only [List.map_cons, het, huu]
            exact ih.cons_cons _
  have hone : ∀ t, ((poolOf (some addPool) t).map (fun kv => (t, nameOf kv.1))).Nodup := by
    intro t
    refine List.Nodup.map_on ?_ (List.Nodup.of_map _ (nodup_poolOf addPool t))
    rintro ⟨path, v⟩ hv ⟨path', v'⟩ hv' heq
    obtain ⟨m, hm, hv⟩ := mem_poolOf.mp hv
    obtain ⟨m', hm', hv'⟩ := mem_poolOf.mp hv'
    obtain ⟨h₁, rfl⟩ := hbatch.add_mem m path v hv
    obtain ⟨h₂, rfl⟩ := hbatch.add_mem m' path' v' hv'
    obtain rfl := hB.names t path path' v v' h₁ h₂ hm hm' (Prod.mk.inj heq).2
    rw [Option.some.inj (h₁.symm.trans h₂)]
  rw [additions, List.map_flatMap, List.nodup_flatMap]
  refine ⟨fun t _ => (hone t).sublist (hsub t _), hnd.imp fun {t t'} hne k hk hk' => ?_⟩
  obtain ⟨_, _, rfl⟩ := List.mem_map.mp ((hsub t _).subset hk)
  obtain ⟨_, _, heq⟩ := List.mem_map.mp ((hsub t' _).subset hk')
  exact hne (Prod.mk.inj heq).1.symm

omit hB in
/-- A name that the batch does not add has the same entity in both snapshots, or none in the new
one. -/
theorem Changeset.has_iff_of_not_added (hA : ConflictFree A) {t : EntityType} {key : String}
    (hno : ∀ a ∈ additions types (some addPool), (a.etype, a.uuid) ≠ (t, key)) (p : Props) :
    B.Has t key p ↔ A.Has t key p ∧ (t, key) ∉ namesOf types (some delPool) := by
  constructor
  · rintro ⟨path, w, hw, ht, rfl, hp⟩
    rcases hbatch.add_all path w hw with ⟨v, hv, hvw⟩ | hadd
    · have hmark : v.mark = w.mark :=
        Option.some.inj ((A.typed path v hv).symm.trans (B.typed path w hw))
      refine ⟨⟨path, v, hv, by rw [hmark, ht], rfl, by rw [propsOf_congr hvw, hp]⟩, fun hdel => ?_⟩
      obtain ⟨m, path', u, hm, hu, hname⟩ := (mem_namesOf htypes).mp hdel
      obtain ⟨u', hu', rfl, hgone⟩ := (hbatch.del m path').mp ⟨u, hu⟩
      obtain rfl := hA.names t path' path u' v hu' hv hm (by rw [hmark, ht]) hname
      rw [hgone] at hw
      cases hw
    · obtain ⟨a, ha, heq⟩ := hbatch.exists_addition htypes hadd ht
      exact absurd heq (hno a ha)
  · rintro ⟨⟨path, v, hv, ht, rfl, hp⟩, hdel⟩
    cases hw : B.kvs.lookup path with
    | none =>
        obtain ⟨u, hu⟩ := (hbatch.del v.mark path).mpr ⟨v, hv, rfl, hw⟩
        exact absurd ((mem_namesOf htypes).mpr ⟨v.mark, path, u, ht, hu, rfl⟩) hdel
    | some w =>
        have hmark : v.mark = w.mark :=
          Option.some.inj ((A.typed path v hv).symm.trans (B.typed path w hw))
        rcases hbatch.add_all path w hw with ⟨v', hv', hvw⟩ | hadd
        · obtain rfl := Option.some.inj (hv.symm.trans hv')
          exact ⟨path, w, hw, by rw [ht, hmark], rfl, by rw [← propsOf_congr hvw, hp]⟩
        · obtain ⟨a, ha, heq⟩ := hbatch.exists_addition htypes hadd (by rw [ht, hmark])
          exact absurd heq (hno a ha)

/-- The zoo has reached the new snapshot iff every addition is live. -/
theorem Changeset.liveIs_iff (hA : ConflictFree A) (hlive : LiveIs z A) (hz : Indexed z) :
    LiveIs (updateEntity x types (some addPool) (some delPool) z) B ↔
      ∀ a ∈ additions types (some addPool),
        (updateEntity x types (some addPool) (some delPool) z).props? a.etype a.uuid =
          a.construct := by
  have hload : ∀ a ∈ additions types (some addPool), a.construct.isSome := fun a ha =>
    Option.isSome_iff_exists.mpr ((hbatch.additions_has htypes ha).imp fun _ h => h.1)
  obtain ⟨_, hview⟩ := hz.view_moveAll (namesOf types (some delPool))
  constructor
  · intro h a ha
    obtain ⟨p, hp, hhas⟩ := hbatch.additions_has htypes ha
    obtain ⟨m, _, _, hm, _, _⟩ := (mem_additions htypes).mp ha
    rw [hp]
    exact (h a.etype (by rw [hm]; rfl) a.uuid p).mpr hhas
  · intro h t ht key p
    by_cases hnew : ∃ a ∈ additions types (some addPool), (a.etype, a.uuid) = (t, key)
    · -- the batch has a record for this name, and it is the only one in `B`
      obtain ⟨a, ha, heq⟩ := hnew
      obtain ⟨rfl, rfl⟩ := Prod.mk.inj heq
      obtain ⟨q, hq, path, v, hv, hm, hname, hprops⟩ := hbatch.additions_has htypes ha
      rw [h a ha, hq, Option.some.injEq]
      constructor
      · rintro rfl
        exact ⟨path, v, hv, hm, hname, hprops⟩
      · rintro ⟨path', v', hv', hm', hname', hprops'⟩
        obtain rfl := hB.names _ path path' v v' hv hv' hm hm' (hname.trans hname'.symm)
        obtain rfl := Option.some.inj (hv.symm.trans hv')
        exact Option.some.inj (hprops.symm.trans hprops')
    · have hno : ∀ a ∈ additions types (some addPool), (a.etype, a.uuid) ≠ (t, key) :=
        fun a ha heq => hnew ⟨a, ha, heq⟩
      have hold : (updateEntity x types (some addPool) (some delPool) z).props? t key =
          if (t, key) ∈ namesOf types (some delPool) then none else z.props? t key := by
        rw [updateEntity_eq, props?_addAll_of_not_mem hload hno]
        exact congrFun (congrFun (congrArg View.props? hview) t) key
      rw [hold, hbatch.has_iff_of_not_added htypes hA hno, ← hlive t ht key p]
      split_ifs with hdel <;> simp [hdel]

end batch

/-- **A batch of changes**: the zoo follows the snapshots iff, in the order in which the records are
taken, each of them that changes an entity finds its uniqueness keys free and room in its index
group. -/
theorem updateEntity_liveIs_iff {x : Extra} {z : Zoo} (hz : Reachable x z) {A B : Snapshot}
    (hA : ConflictFree A) (hlive : LiveIs z A) (hB : ConflictFree B)
    {addPool delPool : Dict Mark Pool} (hbatch : Changeset A B addPool delPool)
    {types : List EntityType} (htypes : types.Perm EntityType.all) :
    LiveIs (updateEntity x types (some addPool) (some delPool) z) B ↔
      (z.view.without (namesOf types (some delPool))).AcceptsAll []
        (additions types (some addPool)) := by
  have hall : ∀ t, t ∈ types := fun t => htypes.mem_iff.mpr t.mem_all
  have hnd : types.Nodup := htypes.nodup_iff.mpr (by decide +kernel)
  have hload : ∀ a ∈ additions types (some addPool), a.construct.isSome := fun a ha =>
    Option.isSome_iff_exists.mpr ((hbatch.additions_has hall ha).imp fun _ h => h.1)
  obtain ⟨hmoved, hview⟩ := hz.indexed.view_moveAll (namesOf types (some delPool))
  rw [hbatch.liveIs_iff hall hB hA hlive hz.indexed, updateEntity_eq, ← hview]
  exact additions_live_iff hload (hbatch.nodup_additions hB hnd) hmoved

/-! ### An address that moves from one port to another -/

instance : DecidableRel Conflict := fun p q => by
  cases p <;> cases q <;> unfold Conflict <;> infer_instance

/-- A snapshot from a checked list of records. -/
def Snapshot.ofPool (kvs : Pool)
    (h : ∀ kv ∈ kvs.items, parseKey kv.1 = some kv.2.mark ∧
      ∀ t ∈ EntityType.all, t.mark = some kv.2.mark → (propsOf t kv.1 kv.2).isSome) : Snapshot where
  kvs := kvs
  typed path v hv := (h (path, v) (Dict.mem_items.mpr hv)).1
  loads t path v hv := (h (path, v) (Dict.mem_items.mpr hv)).2 t t.mem_all

theorem conflictFree_of_items {S : Snapshot}
    (hnames : ∀ kv ∈ S.kvs.items, ∀ kv' ∈ S.kvs.items, kv.2.mark = kv'.2.mark →
      nameOf kv.1 = nameOf kv'.1 → kv.1 = kv'.1)
    (hapart : ∀ kv ∈ S.kvs.items, ∀ kv' ∈ S.kvs.items, ∀ t ∈ EntityType.all, ∀ t' ∈ EntityType.all,
      t.mark = some kv.2.mark → t'.mark = some kv'.2.mark → (t, nameOf kv.1) ≠ (t', nameOf kv'.1) →
      ∀ p ∈ propsOf t kv.1 kv.2, ∀ p' ∈ propsOf t' kv'.1 kv'.2, ¬ Conflict p p') :
    ConflictFree S where
  names t path path' v v' hv hv' ht ht' :=
    hnames (path, v) (Dict.mem_items.mpr hv) (path', v') (Dict.mem_items.mpr hv')
      (Option.some.inj (ht.symm.trans ht'))
  apart := by
    rintro t key p t' key' p' ⟨path, v, hv, ht, rfl, hp⟩ ⟨path', v', hv', ht', rfl, hp'⟩ hne
    exact hapart (path, v) (Dict.mem_items.mpr hv) (path', v') (Dict.mem_items.mpr hv') t t.mem_all
      t' t'.mem_all ht ht' hne p hp p' hp'

/-- The batch of a snapshot that keeps all paths, with every record in the add pool. -/
theorem changeset_of_keys {A B : Snapshot} (h : ∀ kv ∈ A.kvs.items, (B.kvs.lookup kv.1).isSome) :
    Changeset A B (dispatchPool B.kvs) ∅ where
  del m path := by
    constructor
    · rintro ⟨v, hv⟩
      simp [Dict.lookupIn] at hv
    · rintro ⟨v, hv, _, hnone⟩
      have hsome := h (path, v) (Dict.mem_items.mpr hv)
      rw [hnone] at hsome
      cases hsome
  add_mem m path v hv := (Dict.lookupIn_groupBy ValueSet.mark B.kvs m path v).mp hv
  add_all path v hv :=
    Or.inr ((Dict.lookupIn_groupBy ValueSet.mark B.kvs v.mark path v).mpr ⟨hv, rfl⟩)

theorem liveIs_of_items {z : Zoo} {S : Snapshot}
    (hzoo : ∀ t ∈ EntityType.all, t.mark.isSome → ∀ ke ∈ (z.entitySet t).items, ∃ kv ∈ S.kvs.items,
      t.mark = some kv.2.mark ∧ nameOf kv.1 = ke.1 ∧ propsOf t kv.1 kv.2 = some ke.2.row.props)
    (hkvs : ∀ kv ∈ S.kvs.items, ∀ t ∈ EntityType.all, t.mark = some kv.2.mark →
      z.props? t (nameOf kv.1) = propsOf t kv.1 kv.2) : LiveIs z S := by
  intro t ht key p
  constructor
  · intro hp
    obtain ⟨e, he, rfl⟩ := Option.map_eq_some_iff.mp hp
    obtain ⟨kv, hkv, hmark, hname, hprops⟩ := hzoo t t.mem_all ht (key, e) (Dict.mem_items.mpr he)
    exact ⟨kv.1, kv.2, Dict.mem_items.mp hkv, hmark, hname, hprops⟩
  · rintro ⟨path, v, hv, hmark, rfl, hp⟩
    rw [hkvs (path, v) (Dict.mem_items.mpr hv) t t.mem_all hmark]
    exact hp

/-- The record of a port on the switch `s`. -/
def portRecord (name ip mac : String) : String × ValueSet :=
  ("/tuplenet/entity_view/LS/s/lsp/" ++ name, valueSet .lsp ("ip=" ++ ip ++ ",mac=" ++ mac))

/-- A pool of ports; the first one of the list is the first one of the iteration. -/
def portPool (ports : List (String × ValueSet)) : Pool :=
  ports.foldr (fun kv pool => pool.insert kv.1 kv.2) ∅

/-- One port. -/
def onePort : Snapshot :=
  .ofPool (portPool [portRecord "p" "10.0.0.1" "02:00:00:00:00:01"]) (by decide +kernel)

/-- The port has another address, and a second port has its old one; the add pool of this snapshot
lists the changed port first. -/
def changedFirst : Snapshot :=
  .ofPool (portPool [portRecord "q" "10.0.0.1" "02:00:00:00:00:02",
    portRecord "p" "10.0.0.2" "02:00:00:00:00:01"]) (by decide +kernel)

/-- The same records; the add pool lists the new port first. -/
def newFirst : Snapshot :=
  .ofPool (portPool [portRecord "p" "10.0.0.2" "02:00:00:00:00:01",
    portRecord "q" "10.0.0.1" "02:00:00:00:00:02"]) (by decide +kernel)

/-- The zoo with the one port. -/
def onePortZoo : Zoo :=
  Zoo.empty.addEntity (.node false "hyper1")
    (.lsp "p" (some "10.0.0.1") (some "02:00:00:00:00:01") "s" none none)

theorem onePort_conflictFree : ConflictFree onePort :=
  conflictFree_of_items (by decide +kernel) (by decide +kernel)

theorem changedFirst_conflictFree : ConflictFree changedFirst :=
  conflictFree_of_items (by decide +kernel) (by decide +kernel)

theorem newFirst_conflictFree : ConflictFree newFirst :=
  conflictFree_of_items (by decide +kernel) (by decide +kernel)

theorem onePortZoo_liveIs : LiveIs onePortZoo onePort :=
  liveIs_of_items (by decide +kernel) (by decide +kernel)

/-- With the changed port first the zoo follows. -/
theorem updateEntity_liveIs_changedFirst :
    LiveIs (updateEntity (.node false "hyper1") EntityType.all
      (some (dispatchPool changedFirst.kvs))
      (some ∅) onePortZoo) changedFirst :=
  (updateEntity_liveIs_iff (.addEntity _ .empty) onePort_conflictFree onePortZoo_liveIs
    changedFirst_conflictFree (changeset_of_keys (by decide +kernel)) (List.Perm.refl _)).mpr
    (by decide +kernel)

/-- With the new port first it does not: the port is refused and stays missing. -/
theorem updateEntity_not_liveIs_newFirst : ¬ ∀ (x : Extra) (z : Zoo) (A B : Snapshot)
    (addPool delPool : Dict Mark Pool) (types : List EntityType),
    Reachable x z → ConflictFree A → LiveIs z A → ConflictFree B → Changeset A B addPool delPool →
    types.Perm EntityType.all →
    LiveIs (updateEntity x types (some addPool) (some delPool) z) B := by
  intro h
  have hlive := h (.node false "hyper1") onePortZoo onePort newFirst (dispatchPool newFirst.kvs) ∅
    EntityType.all (.addEntity _ .empty) onePort_conflictFree onePortZoo_liveIs
    newFirst_conflictFree (changeset_of_keys (by decide +kernel)) (List.Perm.refl _)
  have hhas : newFirst.Has .lsp "q"
      (.lsp ⟨"q", "10.0.0.1", 167772161, "02:00:00:00:00:02", 2199023255554, none, "s", none⟩) :=
    ⟨"/tuplenet/entity_view/LS/s/lsp/q", _, rfl, rfl, by decide +kernel, by decide +kernel⟩
  have hgone : (updateEntity (.node false "hyper1") EntityType.all
      (some (dispatchPool newFirst.kvs)) (some ∅) onePortZoo).props? .lsp "q" = none := by
      decide +kernel
  rw [← hlive .lsp rfl, hgone] at hhas
  cases hhas

end TupleNet
