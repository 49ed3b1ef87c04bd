import TupleNet.TupleSync.UpdateEntity

/-! # Following etcd

`update_entity_from_remote` takes what `read_remote_kvdata` returns.  A triple with `True` stands
for the data of the whole prefix, and all entities that come from etcd are moved into the sink
before they are added again.  When the call of `get_prefix` raises, the triple has no data type;
when the generator raises later, the outer handler answers for the reading function and says `True`,
too. -/

namespace TupleNet

open Zoo

/-! ### Reading -/

namespace WatchMaster

/-- What etcd does during one call of `read_remote_kvdata`. -/
structure Fetch where
  lostConnection : Bool
  reconnects : ℕ
  read : PrefixRead
  entityWatch : Option ℕ
  commuWatch : Option ℕ

/-- The prefix could not be read to the end. -/
def PrefixRead.Fails : PrefixRead → Prop
  | callRaises => True
  | iterationRaises _ => True
  | items _ => False

/-- The generator has been made and raises. -/
def PrefixRead.RaisesLate : PrefixRead → Prop
  | callRaises => False
  | iterationRaises _ => True
  | items _ => False

instance (r : PrefixRead) : Decidable r.Fails := by
  cases r <;> unfold PrefixRead.Fails <;> infer_instance

instance (r : PrefixRead) : Decidable r.RaisesLate := by
  cases r <;> unfold PrefixRead.RaisesLate <;> infer_instance

/-- `_etcd_operate`: every exception of etcd3 leads to `reconn_master`, which disables the
watches. -/
def etcdOperate (reconnects : ℕ) (w : WatchMaster) : WatchMaster := disableAllWatches^[reconnects] w

/-- `self.read_remote_func()`. -/
def readRemote (f : Fetch) (w : WatchMaster) : WatchMaster × Option ReadResult :=
  match w.readRemoteFunc with
  | .entire => readRemoteEntireKvdata f.read (w.etcdOperate f.reconnects)
  | .incremental => (w.readRemoteIncrementalKvdata.1, some w.readRemoteIncrementalKvdata.2)

/-- `read_remote_kvdata`. -/
def readRemoteKvdata (f : Fetch) (w : WatchMaster) : WatchMaster × ReadResult :=
  let w := if f.lostConnection then w.disableAllWatches else w
  match w.readRemote f with
  | (w, none) =>
      (w, { dataType := some (w.readRemoteFunc = .entire), addPool := none, delPool := none })
  | (w, some r) =>
      (((w.runEntityWatch f.entityWatch).runCommunicateWatch f.commuWatch).scheduleRead
        r.addPool.isSome, r)

/-- The read asks etcd for data and does not get them. -/
def FetchFails (f : Fetch) (w : WatchMaster) : Prop := w.readRemoteFunc = .entire ∧ f.read.Fails

theorem etcdOperate_readRemoteFunc (n : ℕ) (w : WatchMaster) :
    (w.etcdOperate n).readRemoteFunc = w.readRemoteFunc := by
  induction n generalizing w with
  | zero => rfl
  | succ n ih => exact ih w.disableAllWatches

/-- The two triples of a failed read, and the next read is an entire one again. -/
theorem FetchFails.result {f : Fetch} {w : WatchMaster} (h : w.FetchFails f) :
    ∃ w', w'.readRemoteFunc = .entire ∧ w.readRemoteKvdata f =
      (w', { dataType := if f.read.RaisesLate then some true else none
             addPool := none
             delPool := none }) := by
  obtain ⟨hfunc, hread⟩ := h
  have hw : (if f.lostConnection then w.disableAllWatches else w).readRemoteFunc = .entire := by
    split_ifs <;> exact hfunc
  unfold readRemoteKvdata readRemote
  simp only [hw]
  cases hr : f.read with
  | callRaises => exact ⟨_, rfl, rfl⟩
  | iterationRaises before =>
      have hentire := etcdOperate_readRemoteFunc f.reconnects
        (if f.lostConnection then w.disableAllWatches else w)
      rw [hw] at hentire
      refine ⟨_, hentire, ?_⟩
      simp only [readRemoteEntireKvdata, hentire]
      rfl
  | items data =>
      rw [hr] at hread
      exact hread.elim

end WatchMaster

/-! ### Updating -/

/-- The zoo of a node, its watch master and the attribute `accept_diff` of the function. -/
structure Node where
  zoo : Zoo
  lm : WatchMaster
  acceptDiff : Bool

/-- `update_entity_from_remote`; `types` and `groups` are the iteration orders of
`logical_entity_types` and of `entity_set`.  Pushed commands do not change the zoo. -/
def updateEntityFromRemote (x : Extra) (types groups : List EntityType) (f : WatchMaster.Fetch)
    (n : Node) : Node :=
  let (lm, r) := n.lm.readRemoteKvdata f
  let z :=
    if r.dataType = some true ∧ n.acceptDiff then
      n.zoo.moveAllEntity2sink groups [.ovsport, .ovsportChassis]
    else n.zoo
  { zoo := updateEntity x types r.addPool r.delPool z, lm := lm, acceptDiff := true }

theorem updateEntity_none (x : Extra) (types : List EntityType) (z : Zoo) :
    updateEntity x types none none z = z := by
  have hnames : namesOf types none = [] := List.flatMap_eq_nil_iff.mpr fun _ _ => rfl
  have hadds : additions types none = [] := List.flatMap_eq_nil_iff.mpr fun _ _ => rfl
  rw [updateEntity_eq, hnames, hadds]
  rfl

theorem Zoo.entity?_moveAll (gone : List (EntityType × String)) (z : Zoo) (t : EntityType)
    (key : String) :
    (moveAll gone z).entity? t key = if (t, key) ∈ gone then none else z.entity? t key := by
  induction gone generalizing z with
  | nil => rw [if_neg List.not_mem_nil]; rfl
  | cons k gone ih =>
      have hstep : (moveAll (k :: gone) z).entity? t key =
          (moveAll gone (z.moveEntity2sink k.1 k.2)).entity? t key := rfl
      rw [hstep, ih, entity?_moveEntity2sink]
      by_cases hk : (t, key) = k
      · subst hk
        simp only [and_self, if_true, ite_self, List.mem_cons, true_or]
      · have hne : ¬ (t = k.1 ∧ key = k.2) := fun h => hk (Prod.ext h.1 h.2)
        simp only [hne, if_false, List.mem_cons, hk, false_or]

/-- After `move_all_entity2sink` only the excluded types have live entities. -/
theorem Zoo.entity?_moveAllEntity2sink (groups exclude : List EntityType) (z : Zoo)
    (t : EntityType) (key : String) :
    (z.moveAllEntity2sink groups exclude).entity? t key =
      if t ∈ groups ∧ t ∉ exclude then none else z.entity? t key := by
  have hgone : (t, key) ∈ (groups.filter (· ∉ exclude)).flatMap z.keysOf ↔
      (t ∈ groups ∧ t ∉ exclude) ∧ key ∈ z.entitySet t := by
    simp [keysOf, List.mem_flatMap, AList.mem_keys, and_assoc]
  have hall : (z.moveAllEntity2sink groups exclude).entity? t key =
      if (t, key) ∈ (groups.filter (· ∉ exclude)).flatMap z.keysOf then none
      else z.entity? t key := entity?_moveAll _ z t key
  rw [hall]
  by_cases hkey : key ∈ z.entitySet t
  · simp only [hgone, hkey, and_true]
  · have hnone : z.entity? t key = none := AList.lookup_eq_none.mpr hkey
    simp only [hnone, ite_self]

/-- **A failed read**: the live entities stay iff the generator has not raised after a first update,
or nothing that comes from etcd is live. -/
theorem updateEntityFromRemote_live_iff {x : Extra} {types groups : List EntityType}
    {f : WatchMaster.Fetch} {n : Node} (hgroups : groups.Perm EntityType.all)
    (h : n.lm.FetchFails f) :
    (∀ t key, (updateEntityFromRemote x types groups f n).zoo.entity? t key =
        n.zoo.entity? t key) ↔
      ¬ (f.read.RaisesLate ∧ n.acceptDiff) ∨
        ∀ t, t.mark.isSome → ∀ key, n.zoo.entity? t key = none := by
  have hzoo : (updateEntityFromRemote x types groups f n).zoo =
      if f.read.RaisesLate ∧ n.acceptDiff then
        n.zoo.moveAllEntity2sink groups [.ovsport, .ovsportChassis]
      else n.zoo := by
    obtain ⟨w, _, hread⟩ := h.result
    simp only [updateEntityFromRemote, hread, updateEntity_none]
    by_cases hlate : f.read.RaisesLate <;> simp [hlate]
  have hmark : ∀ t : EntityType, (t ∈ groups ∧ t ∉ [EntityType.ovsport, .ovsportChassis]) ↔
      t.mark.isSome := by
    intro t
    rw [hgroups.mem_iff]
    cases t <;> decide
  rw [hzoo]
  split_ifs with hmoved
  · simp only [entity?_moveAllEntity2sink, hmark]
    constructor
    · intro hlive
      refine Or.inr fun t ht key => ?_
      rw [← hlive t key, if_pos ht]
    · rintro (hnot | hnone) t key
      · exact absurd hmoved hnot
      · split_ifs with ht
        · exact (hnone t ht key).symm
        · rfl
  · exact iff_of_true (fun _ _ => rfl) (Or.inl hmoved)

/-- A node with a port that reads the whole prefix. -/
def nodeWithPort (acceptDiff : Bool) : Node := ⟨onePortZoo, .init (some "hyper1"), acceptDiff⟩

/-- A read that stops at the first item. -/
def brokenRead : WatchMaster.Fetch := ⟨false, 0, .iterationRaises [], none, none⟩

/-- In the first update nothing happens. -/
theorem updateEntityFromRemote_live_nodeWithPort :
    (updateEntityFromRemote (.node false "hyper1") EntityType.all EntityType.all brokenRead
      (nodeWithPort false)).zoo.entity? .lsp "p" = (nodeWithPort false).zoo.entity? .lsp "p" :=
  (updateEntityFromRemote_live_iff (f := brokenRead) (n := nodeWithPort false) (List.Perm.refl _)
    ⟨rfl, trivial⟩).mpr (Or.inl (by decide)) .lsp "p"

/-- In a later one the port is gone. -/
theorem updateEntityFromRemote_erases : ¬ ∀ (x : Extra) (types groups : List EntityType)
    (f : WatchMaster.Fetch) (n : Node), types.Perm EntityType.all → groups.Perm EntityType.all →
    n.lm.FetchFails f →
    ∀ t key, (updateEntityFromRemote x types groups f n).zoo.entity? t key =
      n.zoo.entity? t key := by
  intro h
  have hport := h (.node false "hyper1") EntityType.all EntityType.all brokenRead
    (nodeWithPort true) (List.Perm.refl _) (List.Perm.refl _) ⟨rfl, trivial⟩ .lsp "p"
  exact absurd hport (by decide +kernel)

end TupleNet
