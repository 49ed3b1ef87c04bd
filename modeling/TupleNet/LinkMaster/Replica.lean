import TupleNet.Lib.Table
import TupleNet.LinkMaster.WatchMaster

/-! # What a consumer of the pools sees

A node keeps a map `copy` of the entity keys of etcd.  Between two drains the watch delivers a
window of events; the drain hands the two pools to `updateEntityMap`, which drops the keys of the
delete pool and then sets those of the add pool, one entity type after the other.

The pools merge the operations on a key without knowing whether the consumer has the key
(`KeyInv`).  A put followed by a delete cancels out, which is right for a key that was absent when
the window began and wrong for one that was present: the consumer keeps it.  `replica_converges_iff`
says that this is the only way in which the copy can go wrong. -/

namespace TupleNet

open KeyedTable WatchMaster

/-! ### Events and windows -/

/-- The store: what etcd holds under a path. -/
abbrev Etcd := String → Option String

/-- A change of one key of etcd. -/
inductive KvEvent where
  | put (modRevision : ℤ) (key value : String)
  | delete (modRevision : ℤ) (key : String)
deriving DecidableEq, Repr

namespace KvEvent

/-- The event as the watch reports it. -/
def toWatch : KvEvent → WatchEvent
  | put rev key value => .put rev key value
  | delete rev key => .delete rev key

/-- The store after the event. -/
def apply (etcd : Etcd) : KvEvent → Etcd
  | put _ key value => Function.update etcd key (some value)
  | delete _ key => Function.update etcd key none

/-- etcd reports a delete only for a key that it holds. -/
def CanEmit (etcd : Etcd) : KvEvent → Prop
  | put _ _ _ => True
  | delete _ key => etcd key ≠ none

instance (etcd : Etcd) : DecidablePred (CanEmit etcd) := fun e => by
  cases e <;> unfold CanEmit <;> infer_instance

end KvEvent

/-- The store after a list of events. -/
def applyEvents (etcd : Etcd) (es : List KvEvent) : Etcd := es.foldl KvEvent.apply etcd

/-- etcd can emit the events one after the other. -/
def CanEmit : Etcd → List KvEvent → Prop
  | _, [] => True
  | etcd, e :: es => e.CanEmit etcd ∧ CanEmit (e.apply etcd) es

instance decidableCanEmit : (etcd : Etcd) → DecidablePred (CanEmit etcd)
  | _, [] => isTrue trivial
  | etcd, e :: es =>
      have := decidableCanEmit (e.apply etcd) es
      inferInstanceAs (Decidable (e.CanEmit etcd ∧ CanEmit (e.apply etcd) es))

/-- Some event puts the key. -/
def PutsKey (es : List KvEvent) (key : String) : Prop := ∃ rev value, .put rev key value ∈ es

/-- The callback runs on every event. -/
def deliver (w : WatchMaster) (es : List KvEvent) : WatchMaster :=
  es.foldl (fun w e => w.watchCallback e.toWatch) w

theorem canEmit_append {etcd : Etcd} {es fs : List KvEvent} :
    CanEmit etcd (es ++ fs) ↔ CanEmit etcd es ∧ CanEmit (applyEvents etcd es) fs := by
  induction es generalizing etcd with
  | nil => simp [CanEmit, applyEvents]
  | cons e es ih => simp only [List.cons_append, CanEmit, ih, and_assoc]; rfl

/-! ### The consumer -/

/-- `update_entity` on a map from paths to value sets: for every type its dead keys, then for every
type its new entries. -/
def updateEntityMap (types : List Mark) (copy : String → Option ValueSet)
    (addPool delPool : Option (Dict Mark Pool)) : String → Option ValueSet :=
  let dropped := match delPool with
    | none => copy
    | some del => types.foldl (fun c m => match del.lookup m with
        | none => c
        | some p => delKeys p.keys c) copy
  match addPool with
  | none => dropped
  | some add => types.foldl (fun c m => match add.lookup m with
      | none => c
      | some p => addEntries p.items c) dropped

/-- The entity keys that etcd holds, with their parsed values. -/
def entityMap (etcd : Etcd) (key : String) : Option ValueSet :=
  match parseKey key with
  | none => none
  | some .cmd => none
  | some mark => (etcd key).map (valueSet mark)

/-- A node: its watch master, the store it follows and its copy. -/
structure Replica where
  wm : WatchMaster
  etcd : Etcd
  copy : String → Option ValueSet

/-- One window: the events are delivered, then the pools are drained and applied. -/
def Replica.window (types : List Mark) (s : Replica) (es : List KvEvent) : Replica :=
  let drained := (deliver s.wm es).readRemoteIncrementalKvdata
  { wm := drained.1
    etcd := applyEvents s.etcd es
    copy := updateEntityMap types s.copy drained.2.addPool drained.2.delPool }

/-- After every drain the copy is etcd's entity map. -/
def Converges (types : List Mark) : Replica → List (List KvEvent) → Prop
  | _, [] => True
  | s, es :: ws =>
      (s.window types es).copy = entityMap (s.window types es).etcd ∧
        Converges types (s.window types es) ws

/-- No window puts an entity key that etcd holds when the window begins and no longer holds when
it ends. -/
def Mergeable : Etcd → List (List KvEvent) → Prop
  | _, [] => True
  | etcd, es :: ws =>
      (∀ key mark, parseKey key = some mark → mark ≠ .cmd → etcd key ≠ none →
        applyEvents etcd es key = none → ¬ PutsKey es key) ∧
        Mergeable (applyEvents etcd es) ws

/-! ### What an update writes -/

section update
variable {types : List Mark}

theorem foldl_delKeys (g : Dict Mark Pool) (copy : String → Option ValueSet) :
    types.foldl (fun c m => match g.lookup m with
      | none => c
      | some p => delKeys p.keys c) copy =
    delKeys (types.flatMap (fun m => match g.lookup m with
      | none => []
      | some p => p.keys)) copy := by
  induction types generalizing copy with
  | nil => rfl
  | cons m types ih =>
      rw [List.foldl_cons, ih, List.flatMap_cons]
      cases g.lookup m with
      | none => rfl
      | some p =>
          funext k
          simp only [delKeys_apply, List.mem_append]
          by_cases h : k ∈ p.keys <;> simp [h]

theorem foldl_addEntries (g : Dict Mark Pool) (copy : String → Option ValueSet) :
    types.foldl (fun c m => match g.lookup m with
      | none => c
      | some p => addEntries p.items c) copy =
    addEntries (types.flatMap (fun m => match g.lookup m with
      | none => []
      | some p => p.items)) copy := by
  induction types generalizing copy with
  | nil => rfl
  | cons m types ih =>
      rw [List.foldl_cons, ih, List.flatMap_cons]
      cases g.lookup m with
      | none => rfl
      | some p => exact (addEntries_append _ _ _).symm

theorem mem_flatMap_keys {pool : Pool} {k : String} :
    k ∈ types.flatMap (fun m => match (dispatchPool pool).lookup m with
      | none => []
      | some p => p.keys) ↔ ∃ v, pool.lookup k = some v ∧ v.mark ∈ types := by
  simp only [List.mem_flatMap]
  constructor
  · rintro ⟨m, hm, hk⟩
    cases hp : (dispatchPool pool).lookup m with
    | none => rw [hp] at hk; cases hk
    | some p =>
        rw [hp] at hk
        obtain ⟨v, hv⟩ := Dict.mem_keys_iff.mp hk
        obtain ⟨hv, rfl⟩ := (Dict.lookupIn_groupBy ValueSet.mark pool m k v).mp
          (show Dict.lookupIn (dispatchPool pool) m k = some v by
            rw [Dict.lookupIn, hp, Option.bind_some, hv])
        exact ⟨v, hv, hm⟩
  · rintro ⟨v, hv, hm⟩
    have hin := (Dict.lookupIn_groupBy ValueSet.mark pool v.mark k v).mpr ⟨hv, rfl⟩
    refine ⟨v.mark, hm, ?_⟩
    obtain ⟨p, hp, hpk⟩ := Option.bind_eq_some_iff.mp hin
    rw [dispatchPool, hp]
    exact Dict.mem_keys_iff.mpr ⟨v, hpk⟩

theorem mem_flatMap_items {pool : Pool} {k : String} {v : ValueSet} :
    (k, v) ∈ types.flatMap (fun m => match (dispatchPool pool).lookup m with
      | none => []
      | some p => p.items) ↔ pool.lookup k = some v ∧ v.mark ∈ types := by
  simp only [List.mem_flatMap]
  constructor
  · rintro ⟨m, hm, hk⟩
    cases hp : (dispatchPool pool).lookup m with
    | none => rw [hp] at hk; cases hk
    | some p =>
        rw [hp] at hk
        obtain ⟨hv, rfl⟩ := (Dict.lookupIn_groupBy ValueSet.mark pool m k v).mp
          (show Dict.lookupIn (dispatchPool pool) m k = some v by
            rw [Dict.lookupIn, hp, Option.bind_some, Dict.mem_items.mp hk])
        exact ⟨hv, hm⟩
  · rintro ⟨hv, hm⟩
    have hin := (Dict.lookupIn_groupBy ValueSet.mark pool v.mark k v).mpr ⟨hv, rfl⟩
    refine ⟨v.mark, hm, ?_⟩
    obtain ⟨p, hp, hpk⟩ := Option.bind_eq_some_iff.mp hin
    rw [dispatchPool, hp]
    exact Dict.mem_items.mpr hpk

/-- An entry of the add pool is set. -/
theorem updateEntityMap_of_add {add del : Pool} {copy : String → Option ValueSet} {k : String}
    {v : ValueSet} (hv : add.lookup k = some v) (hm : v.mark ∈ types) :
    updateEntityMap types copy (some (dispatchPool add)) (some (dispatchPool del)) k = some v := by
  simp only [updateEntityMap, foldl_addEntries]
  obtain ⟨v', hmem, hv'⟩ := addEntries_of_mem (mem_flatMap_items.mpr ⟨hv, hm⟩) _
  rw [hv', ← hv, (mem_flatMap_items.mp hmem).1]

/-- A key of the delete pool is dropped unless it is in the add pool. -/
theorem updateEntityMap_of_del {add del : Pool} {copy : String → Option ValueSet} {k : String}
    {v : ValueSet} (hadd : ∀ v, add.lookup k = some v → v.mark ∉ types)
    (hv : del.lookup k = some v) (hm : v.mark ∈ types) :
    updateEntityMap types copy (some (dispatchPool add)) (some (dispatchPool del)) k = none := by
  simp only [updateEntityMap, foldl_addEntries, foldl_delKeys]
  rw [addEntries_of_not_mem, delKeys_apply, if_pos (mem_flatMap_keys.mpr ⟨v, hv, hm⟩)]
  intro w hw
  obtain ⟨h, hwm⟩ := mem_flatMap_items.mp hw
  exact hadd w h hwm

/-- A key of neither pool is left alone. -/
theorem updateEntityMap_of_neither {add del : Pool} {copy : String → Option ValueSet} {k : String}
    (hadd : ∀ v, add.lookup k = some v → v.mark ∉ types)
    (hdel : ∀ v, del.lookup k = some v → v.mark ∉ types) :
    updateEntityMap types copy (some (dispatchPool add)) (some (dispatchPool del)) k = copy k := by
  simp only [updateEntityMap, foldl_addEntries, foldl_delKeys]
  rw [addEntries_of_not_mem, delKeys_apply, if_neg]
  · intro h
    obtain ⟨v, hv, hm⟩ := mem_flatMap_keys.mp h
    exact hdel v hv hm
  · intro w hw
    obtain ⟨h, hwm⟩ := mem_flatMap_items.mp hw
    exact hadd w h hwm

end update

/-! ### What the pools know of a key -/

/-- The standing of a key in a window that began with the store `etcd₀` and has seen `es`. -/
structure KeyInv (etcd₀ : Etcd) (es : List KvEvent) (add del : Pool) (key : String) : Prop where
  added : ∀ v, add.lookup key = some v → PutsKey es key ∧ del.lookup key = none ∧
    parseKey key = some v.mark ∧ (applyEvents etcd₀ es key).map (valueSet v.mark) = some v
  deleted : ∀ v, del.lookup key = some v → ¬ PutsKey es key ∧
    parseKey key = some v.mark ∧ applyEvents etcd₀ es key = none
  unrecorded : parseKey key ≠ none → add.lookup key = none → del.lookup key = none →
    ¬ PutsKey es key ∧ applyEvents etcd₀ es key = etcd₀ key ∨
      PutsKey es key ∧ applyEvents etcd₀ es key = none

/-- The pools are open and know every key. -/
def PoolsInv (etcd₀ : Etcd) (es : List KvEvent) (w : WatchMaster) : Prop :=
  w.watchCanceled = false ∧ ∃ add del, w.entityAddPool = some add ∧ w.entityDelPool = some del ∧
    ∀ key, KeyInv etcd₀ es add del key

theorem putsKey_append {es fs : List KvEvent} {key : String} :
    PutsKey (es ++ fs) key ↔ PutsKey es key ∨ PutsKey fs key := by
  simp only [PutsKey, List.mem_append, exists_or]

theorem putsKey_put {rev : ℤ} {key value k : String} :
    PutsKey [.put rev key value] k ↔ k = key := by
  simp [PutsKey]

theorem not_putsKey_delete {rev : ℤ} {key k : String} : ¬ PutsKey [.delete rev key] k := by
  simp [PutsKey]

theorem applyEvents_append {etcd : Etcd} {es fs : List KvEvent} :
    applyEvents etcd (es ++ fs) = applyEvents (applyEvents etcd es) fs := List.foldl_append

section step
variable {etcd₀ : Etcd} {es : List KvEvent} {add del : Pool} {key : String}

/-- An event on another key changes nothing for this one. -/
theorem KeyInv.of_ne {e : KvEvent} {add' del' : Pool} (h : KeyInv etcd₀ es add del key)
    (hput : ¬ PutsKey [e] key) (hval : applyEvents etcd₀ (es ++ [e]) key = applyEvents etcd₀ es key)
    (hadd : add'.lookup key = add.lookup key) (hdel : del'.lookup key = del.lookup key) :
    KeyInv etcd₀ (es ++ [e]) add' del' key := by
  have hputs : PutsKey (es ++ [e]) key ↔ PutsKey es key := by rw [putsKey_append]; simp [hput]
  exact ⟨by rw [hadd, hdel, hputs, hval]; exact h.added,
    by rw [hdel, hputs, hval]; exact h.deleted,
    by rw [hadd, hdel, hputs, hval]; exact h.unrecorded⟩

/-- A put is recorded with its value. -/
theorem KeyInv.put {rev : ℤ} {k value : String} {mark : Mark} (hk : parseKey k = some mark)
    (h : KeyInv etcd₀ es add del key) :
    KeyInv etcd₀ (es ++ [.put rev k value]) (recordPut k value mark add del).1
      (recordPut k value mark add del).2 key := by
  have hdel : (recordPut k value mark add del).2.lookup key =
      if key = k then none else del.lookup key := by
    unfold recordPut
    split_ifs with h1 h2 h2
    · subst h2; simp
    · simp [h2]
    · subst h2; exact AList.lookup_eq_none.mpr h1
    · rfl
  have hadd : (recordPut k value mark add del).1.lookup key =
      if key = k then some (valueSet mark value) else add.lookup key := Dict.lookup_insert_eq ..
  by_cases hkey : key = k
  · subst hkey
    rw [if_pos rfl] at hadd hdel
    have hval : applyEvents etcd₀ (es ++ [.put rev key value]) key = some value := by
      rw [applyEvents_append]; exact Function.update_self ..
    refine ⟨fun v hv => ?_, fun v hv => ?_, fun _ hnone => ?_⟩
    · rw [hadd] at hv
      obtain rfl := Option.some.inj hv
      exact ⟨putsKey_append.mpr (Or.inr (putsKey_put.mpr rfl)), hdel, hk, by rw [hval]; rfl⟩
    · rw [hdel] at hv; cases hv
    · rw [hadd] at hnone; cases hnone
  · rw [if_neg hkey] at hadd hdel
    refine h.of_ne (fun hp => hkey (putsKey_put.mp hp)) ?_ hadd hdel
    rw [applyEvents_append]
    exact Function.update_of_ne hkey ..

/-- A delete takes back a recorded put or is recorded itself. -/
theorem KeyInv.delete {rev : ℤ} {k : String} {mark : Mark} (hk : parseKey k = some mark)
    (hemit : applyEvents etcd₀ es k ≠ none) (h : KeyInv etcd₀ es add del key) :
    KeyInv etcd₀ (es ++ [.delete rev k]) (recordDelete k mark add del).1
      (recordDelete k mark add del).2 key := by
  have hputs : PutsKey (es ++ [.delete rev k]) key ↔ PutsKey es key := by
    rw [putsKey_append]; simp [not_putsKey_delete]
  by_cases hkey : key = k
  · subst hkey
    have hval : applyEvents etcd₀ (es ++ [.delete rev key]) key = none := by
      rw [applyEvents_append]; exact Function.update_self ..
    by_cases hadd : key ∈ add
    · -- a pending put is cancelled and nothing is recorded
      obtain ⟨v, hv⟩ := Option.isSome_iff_exists.mp (AList.lookup_isSome.mpr hadd)
      obtain ⟨hput, hdel, _, _⟩ := h.added v hv
      rw [recordDelete, if_pos hadd]
      refine ⟨fun w hw => ?_, fun w hw => ?_, fun _ _ _ => Or.inr ⟨hputs.mpr hput, hval⟩⟩
      · rw [Dict.lookup_erase_eq, if_pos rfl] at hw; cases hw
      · rw [hdel] at hw; cases hw
    · rw [recordDelete, if_neg hadd]
      have hnone := AList.lookup_eq_none.mpr hadd
      have hnp : ¬ PutsKey es key := by
        cases hdel : del.lookup key with
        | some v => exact (h.deleted v hdel).1
        | none =>
            rcases h.unrecorded (by simp [hk]) hnone hdel with h1 | h1
            · exact h1.1
            · exact absurd h1.2 hemit
      refine ⟨fun w hw => ?_, fun w hw => ?_, fun _ _ hn => ?_⟩
      · rw [hnone] at hw; cases hw
      · rw [Dict.lookup_insert_eq, if_pos rfl] at hw
        obtain rfl := Option.some.inj hw
        exact ⟨fun hp => hnp (hputs.mp hp), hk, hval⟩
      · rw [Dict.lookup_insert_eq, if_pos rfl] at hn; cases hn
  · have hadd : (recordDelete k mark add del).1.lookup key = add.lookup key := by
      unfold recordDelete
      split_ifs
      · rw [Dict.lookup_erase_eq, if_neg hkey]
      · rfl
    have hdel : (recordDelete k mark add del).2.lookup key = del.lookup key := by
      unfold recordDelete
      split_ifs
      · rfl
      · rw [Dict.lookup_insert_eq, if_neg hkey]
    refine h.of_ne not_putsKey_delete ?_ hadd hdel
    rw [applyEvents_append]
    exact Function.update_of_ne hkey ..

/-- An event on a key of unknown type is ignored. -/
theorem KeyInv.unknown {e : KvEvent} {k : String} (hk : parseKey k = none)
    (hval : ∀ j, j ≠ k → e.apply (applyEvents etcd₀ es) j = applyEvents etcd₀ es j)
    (hput : ∀ j, PutsKey [e] j → j = k) (h : KeyInv etcd₀ es add del key) :
    KeyInv etcd₀ (es ++ [e]) add del key := by
  by_cases hkey : key = k
  · subst hkey
    refine ⟨fun v hv => ?_, fun v hv => ?_, fun hn => absurd hk hn⟩
    · exact absurd (h.added v hv).2.2.1 (by simp [hk])
    · exact absurd (h.deleted v hv).2.1 (by simp [hk])
  · refine h.of_ne (fun hp => hkey (hput key hp)) ?_ rfl rfl
    rw [applyEvents_append]
    exact hval key hkey

end step

/-- The callback keeps the standing of every key. -/
theorem PoolsInv.step {etcd₀ : Etcd} {es : List KvEvent} {w : WatchMaster} {e : KvEvent}
    (h : PoolsInv etcd₀ es w) (hemit : e.CanEmit (applyEvents etcd₀ es)) :
    PoolsInv etcd₀ (es ++ [e]) (w.watchCallback e.toWatch) := by
  obtain ⟨hwatch, add, del, hadd, hdel, hkeys⟩ := h
  cases e with
  | put rev k value =>
      cases hk : parseKey k with
      | none =>
          simp only [KvEvent.toWatch, watchCallback, hwatch, Bool.false_eq_true, if_false, hk]
          exact ⟨rfl, add, del, hadd, hdel, fun key => (hkeys key).unknown hk
            (fun j hj => Function.update_of_ne hj ..) (fun j hj => putsKey_put.mp hj)⟩
      | some mark =>
          simp only [KvEvent.toWatch, watchCallback, hwatch, Bool.false_eq_true, if_false, hk,
            record, hadd, hdel]
          exact ⟨rfl, _, _, rfl, rfl, fun key => (hkeys key).put hk⟩
  | delete rev k =>
      cases hk : parseKey k with
      | none =>
          simp only [KvEvent.toWatch, watchCallback, hwatch, Bool.false_eq_true, if_false, hk]
          exact ⟨rfl, add, del, hadd, hdel, fun key => (hkeys key).unknown hk
            (fun j hj => Function.update_of_ne hj ..) (fun j hj => absurd hj not_putsKey_delete)⟩
      | some mark =>
          simp only [KvEvent.toWatch, watchCallback, hwatch, Bool.false_eq_true, if_false, hk,
            record, hadd, hdel]
          exact ⟨rfl, _, _, rfl, rfl, fun key => (hkeys key).delete hk hemit⟩

theorem PoolsInv.deliver {etcd₀ : Etcd} {es fs : List KvEvent} {w : WatchMaster}
    (h : PoolsInv etcd₀ es w) (hemit : CanEmit (applyEvents etcd₀ es) fs) :
    PoolsInv etcd₀ (es ++ fs) (deliver w fs) := by
  induction fs generalizing es w with
  | nil => rw [List.append_nil]; exact h
  | cons e fs ih =>
      have hstep := h.step hemit.1
      have := ih hstep (by rw [applyEvents_append]; exact hemit.2)
      rwa [List.append_assoc] at this

/-! ### Windows -/

theorem entityMap_of_entity {etcd : Etcd} {key : String} {mark : Mark}
    (hk : parseKey key = some mark) (hm : mark ≠ .cmd) :
    entityMap etcd key = (etcd key).map (valueSet mark) := by
  cases mark <;> first | exact absurd rfl hm | simp only [entityMap, hk]

theorem entityMap_of_not_entity {etcd : Etcd} {key : String}
    (h : ¬ ∃ mark, parseKey key = some mark ∧ mark ≠ .cmd) : entityMap etcd key = none := by
  cases hk : parseKey key with
  | none => simp only [entityMap, hk]
  | some mark =>
      have hm : mark = .cmd := by
        by_contra hm
        exact h ⟨mark, hk, hm⟩
      subst hm
      simp only [entityMap, hk]

section window
variable {types : List Mark} (htypes : ∀ m, m ∈ types ↔ m ≠ .cmd) {s : Replica}
include htypes

/-- Where the copy agreed with etcd when the window began, it agrees when the window ends iff the
key was not put and lost. -/
theorem window_copy_iff (hw : PoolsInv s.etcd [] s.wm) {es : List KvEvent}
    (hemit : CanEmit s.etcd es) (key : String) (hcopy : s.copy key = entityMap s.etcd key) :
    (s.window types es).copy key = entityMap (s.window types es).etcd key ↔
      ∀ mark, parseKey key = some mark → mark ≠ .cmd → s.etcd key ≠ none →
        applyEvents s.etcd es key = none → ¬ PutsKey es key := by
  obtain ⟨_, add, del, hadd, hdel, hkeys⟩ := hw.deliver hemit
  have hinv := hkeys key
  rw [List.nil_append] at hinv
  simp only [Replica.window, readRemoteIncrementalKvdata, hadd, hdel, Option.map_some]
  by_cases hent : ∃ mark, parseKey key = some mark ∧ mark ≠ .cmd
  · obtain ⟨mark, hk, hm⟩ := hent
    have hmark : ∀ v : ValueSet, parseKey key = some v.mark → v.mark ∈ types := by
      intro v hv
      rw [hk, Option.some.injEq] at hv
      exact (htypes v.mark).mpr (hv ▸ hm)
    have hrhs : (∀ mark, parseKey key = some mark → mark ≠ .cmd → s.etcd key ≠ none →
        applyEvents s.etcd es key = none → ¬ PutsKey es key) ↔
        (s.etcd key ≠ none → applyEvents s.etcd es key = none → ¬ PutsKey es key) :=
      ⟨fun h => h mark hk hm, fun h _ _ _ => h⟩
    rw [hrhs, entityMap_of_entity hk hm]
    cases ha : add.lookup key with
    | some v =>
        -- a recorded put arrives with the value that etcd holds
        obtain ⟨_, _, hv, hval⟩ := hinv.added v ha
        obtain rfl : mark = v.mark := by rw [hk, Option.some.injEq] at hv; exact hv
        rw [updateEntityMap_of_add ha (hmark v hv), hval]
        refine ⟨fun _ _ hnone => ?_, fun _ => rfl⟩
        rw [hnone] at hval; cases hval
    | none =>
        have hadd' : ∀ v, add.lookup key = some v → v.mark ∉ types := by rw [ha]; exact nofun
        cases hd : del.lookup key with
        | some v =>
            obtain ⟨hput, hv, hnone⟩ := hinv.deleted v hd
            rw [updateEntityMap_of_del hadd' hd (hmark v hv), hnone]
            exact ⟨fun _ _ _ => hput, fun _ => rfl⟩
        | none =>
            rw [updateEntityMap_of_neither hadd' (by rw [hd]; exact nofun), hcopy,
              entityMap_of_entity hk hm]
            rcases hinv.unrecorded (by simp [hk]) ha hd with ⟨hput, hsame⟩ | ⟨hput, hnone⟩
            · rw [hsame]
              exact ⟨fun _ _ _ => hput, fun _ => rfl⟩
            · -- put and lost: the copy keeps what it had
              rw [hnone, Option.map_none, Option.map_eq_none_iff]
              constructor
              · exact fun h hne => absurd h hne
              · intro h
                by_contra hne
                exact h hne rfl hput
  · -- a key that no entity type owns is neither in the map nor written by the update
    rw [entityMap_of_not_entity hent]
    have hmark : ∀ v : ValueSet, parseKey key = some v.mark → v.mark ∉ types :=
      fun v hv hm => hent ⟨v.mark, hv, (htypes v.mark).mp hm⟩
    rw [updateEntityMap_of_neither (fun v hv => hmark v (hinv.added v hv).2.2.1)
      (fun v hv => hmark v (hinv.deleted v hv).2.1), hcopy, entityMap_of_not_entity hent]
    exact ⟨fun _ mark hk hm => absurd ⟨mark, hk, hm⟩ hent, fun _ => rfl⟩

/-- **Convergence of the replica**: a node whose copy agrees with etcd and whose pools are empty
agrees with etcd after every drain iff no window puts a key that it found and that it loses. -/
theorem replica_converges_iff (hwatch : s.wm.watchCanceled = false)
    (hadd : s.wm.entityAddPool = some ∅) (hdel : s.wm.entityDelPool = some ∅)
    (hcopy : s.copy = entityMap s.etcd) (ws : List (List KvEvent))
    (hemit : CanEmit s.etcd ws.flatten) : Converges types s ws ↔ Mergeable s.etcd ws := by
  induction ws generalizing s with
  | nil => exact Iff.rfl
  | cons es ws ih =>
      obtain ⟨hes, hws⟩ := canEmit_append.mp (List.flatten_cons ▸ hemit)
      have hinv : PoolsInv s.etcd [] s.wm := by
        refine ⟨hwatch, ∅, ∅, hadd, hdel, fun key => ⟨nofun, nofun, fun _ _ _ => Or.inl ?_⟩⟩
        exact ⟨(by rintro ⟨_, _, h⟩; cases h), rfl⟩
      have hfirst : (s.window types es).copy = entityMap (s.window types es).etcd ↔
          ∀ key mark, parseKey key = some mark → mark ≠ .cmd → s.etcd key ≠ none →
            applyEvents s.etcd es key = none → ¬ PutsKey es key := by
        rw [funext_iff]
        exact forall_congr' fun key =>
          window_copy_iff htypes hinv hes key (congrFun hcopy key)
      have hopen : (s.window types es).wm.watchCanceled = false := (hinv.deliver hes).1
      simp only [Converges, Mergeable, hfirst]
      refine and_congr_right fun hmerge => ?_
      exact ih hopen rfl rfl (hfirst.mpr hmerge) hws

end window

/-- The entity types, in some order. -/
def entityMarks : List Mark := [.LS, .LR, .lsp, .lrp, .lsr, .lnat, .chassis]

/-- A node that watches an etcd with one switch and has read it. -/
def oneSwitch : Replica where
  wm :=
    { systemId := some "node"
      lastVer := 7
      readRemoteFunc := .incremental
      watchCanceled := false
      entityAddPool := some ∅
      entityDelPool := some ∅
      watchIdHash := fun k => if k = .entityView then some ⟨0, true⟩ else none }
  etcd := fun k => if k = "tuplenet/entity_view/LS/sw" then some "id=1" else none
  copy := entityMap (fun k => if k = "tuplenet/entity_view/LS/sw" then some "id=1" else none)

/-- The switch is deleted in one window and made again in the next. -/
theorem oneSwitch_recreated :
    Converges entityMarks oneSwitch
        [[.delete 8 "tuplenet/entity_view/LS/sw"], [.put 9 "tuplenet/entity_view/LS/sw" "id=2"]] ↔
      Mergeable oneSwitch.etcd
        [[.delete 8 "tuplenet/entity_view/LS/sw"], [.put 9 "tuplenet/entity_view/LS/sw" "id=2"]] :=
  replica_converges_iff (fun m => by cases m <;> decide) rfl rfl rfl rfl _ (by decide)

/-- An update and a delete of the switch in one window: etcd has no switch, the copy keeps it. -/
theorem oneSwitch_updated_then_deleted :
    CanEmit oneSwitch.etcd [.put 8 "tuplenet/entity_view/LS/sw" "id=2",
        .delete 9 "tuplenet/entity_view/LS/sw"] ∧
      ¬ Converges entityMarks oneSwitch [[.put 8 "tuplenet/entity_view/LS/sw" "id=2",
        .delete 9 "tuplenet/entity_view/LS/sw"]] := by
  refine ⟨by decide, fun h => ?_⟩
  have hkey := congrArg Option.isSome (congrFun h.1 "tuplenet/entity_view/LS/sw")
  revert hkey
  decide

end TupleNet
