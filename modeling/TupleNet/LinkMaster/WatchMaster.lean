import TupleNet.Lib.Dict
import TupleNet.Lib.Text
import Mathlib.Data.Int.Order.Basic

/-! # The watch master

`link_master.py` keeps a local copy of etcd up to date.  `watchCallback` runs in the thread of the
etcd client and files every event into one of two pools, keyed by path; the reader takes the pools
in `readRemoteIncrementalKvdata`, and reads the whole prefix instead when it is told to
(`ReadFunc.entire`).

A value set is a dictionary with the reserved key `TYPE`; here the type is the field `mark` and the
other keys are in `kv`.  A pool that Python holds as `None` is `none`. -/

namespace TupleNet

open Text

/-! ### Keys and values -/

/-- The members of `entity_type_list`. -/
inductive Mark where
  | lsp
  | lrp
  | lsr
  | lnat
  | chassis
  | LS
  | LR
  | cmd
deriving DecidableEq, Repr

/-- The directory name of a type. -/
def Mark.name : Mark → String
  | lsp => "lsp"
  | lrp => "lrp"
  | lsr => "lsr"
  | lnat => "lnat"
  | chassis => "chassis"
  | LS => "LS"
  | LR => "LR"
  | cmd => "cmd"

/-- `entity_type_list`. -/
def entityTypeList : List Mark := [.lsp, .lrp, .lsr, .lnat, .chassis, .LS, .LR, .cmd]

/-- The type with a given directory name. -/
def Mark.ofName (s : String) : Option Mark := entityTypeList.find? (fun m => m.name = s)

/-- `parse_key`: the parent directory of a key is its type. -/
def parseKey (key : String) : Option Mark :=
  match (split '/' key).reverse with
  | _ :: parent :: _ => Mark.ofName parent
  | _ => none

/-- A parsed value with its type. -/
structure ValueSet where
  mark : Mark
  kv : Dict String String

/-- The loop of `parse_value`: pieces without `=` are skipped, a later key replaces an earlier
one. -/
def parseValue (s : String) : Dict String String :=
  (split ',' s).foldl (fun kvSet kv => match split1 '=' kv with
    | none => kvSet
    | some (key, value) => kvSet.insert key value) ∅

/-- The name under which a value set keeps its type. -/
def ENTITY_TYPE : String := "TYPE"

/-- A parsed value whose `TYPE` entry has been overwritten by the type of its key. -/
def valueSet (mark : Mark) (value : String) : ValueSet :=
  { mark := mark, kv := (parseValue value).erase ENTITY_TYPE }

/-- The text of some properties. -/
def kvText (kvs : List (String × String)) : String :=
  ",".intercalate (kvs.map (fun kv => kv.1 ++ "=" ++ kv.2))

theorem toList_field (k v : String) : (k ++ "=" ++ v).toList = k.toList ++ '=' :: v.toList := by
  simp

/-- `parse_value` with its loop written over pairs. -/
theorem parseValue_eq (s : String) : parseValue s = (split ',' s).foldl
    (fun kvSet kv => (split1 '=' kv).elim kvSet (fun kv => kvSet.insert kv.1 kv.2)) ∅ := by
  unfold parseValue
  congr 1
  funext kvSet kv
  cases split1 '=' kv <;> rfl

section loop
variable {β : Type} (f : β → String × String → β)

/-- A loop over the properties that a text has been made of. -/
theorem foldl_kvText {kvs : List (String × String)}
    (h : ∀ kv ∈ kvs, '=' ∉ kv.1.toList ∧ ',' ∉ kv.1.toList ∧ ',' ∉ kv.2.toList) (b : β) :
    (split ',' (kvText kvs)).foldl (fun b p => (split1 '=' p).elim b (f b)) b = kvs.foldl f b := by
  have hsplit1 : ∀ kv ∈ kvs, split1 '=' (kv.1 ++ "=" ++ kv.2) = some (kv.1, kv.2) := by
    intro kv hkv
    rw [split1, toList_field, splitChars1_append_cons (h kv hkv).1, Option.map_some,
      String.ofList_toList, String.ofList_toList]
  have hfold : ∀ (l : List (String × String)) (b : β), (∀ kv ∈ l, kv ∈ kvs) →
      (l.map (fun kv => kv.1 ++ "=" ++ kv.2)).foldl (fun b p => (split1 '=' p).elim b (f b)) b =
      l.foldl f b := by
    intro l
    induction l with
    | nil => exact fun _ _ => rfl
    | cons kv l ih =>
        intro b hl
        simp only [List.map_cons, List.foldl_cons, hsplit1 kv (hl kv List.mem_cons_self),
          Option.elim_some]
        exact ih _ fun kv' hkv' => hl kv' (List.mem_cons_of_mem _ hkv')
  cases kvs with
  | nil => rfl
  | cons kv kvs =>
      rw [kvText, show "," = String.singleton ',' from rfl, split_intercalate]
      · exact hfold _ _ fun _ hkv => hkv
      · intro p hp
        obtain ⟨kv', hkv', rfl⟩ := List.mem_map.mp hp
        obtain ⟨_, hk, hv⟩ := h kv' hkv'
        rw [toList_field]
        simp [hk, hv]
      · simp

/-- What such a loop keeps over any text, when no value with a comma is ever read. -/
theorem foldl_split_preserves {P : β → Prop}
    (hf : ∀ b kv, ',' ∉ kv.2.toList → P b → P (f b kv)) (s : String) (b : β) (hb : P b) :
    P ((split ',' s).foldl (fun b p => (split1 '=' p).elim b (f b)) b) := by
  have hall : ∀ p ∈ split ',' s, ',' ∉ p.toList := by
    intro p hp
    obtain ⟨q, hq, rfl⟩ := List.mem_map.mp hp
    rw [String.toList_ofList]
    exact not_mem_of_mem_splitChars hq
  generalize split ',' s = l at hall
  induction l generalizing b with
  | nil => exact hb
  | cons p l ih =>
      refine ih _ ?_ (fun q hq => hall q (List.mem_cons_of_mem _ hq))
      dsimp only
      cases hp : split1 '=' p with
      | none => exact hb
      | some kv =>
          refine hf b kv ?_ hb
          obtain ⟨q, hq, rfl⟩ := Option.map_eq_some_iff.mp hp
          have hno := hall p List.mem_cons_self
          rw [splitChars1_eq_some hq] at hno
          simp only [String.toList_ofList]
          exact fun hmem => hno (List.mem_append_right _ (List.mem_cons_of_mem _ hmem))

end loop

/-- Properties are read back from their text. -/
theorem parseValue_kvText {kvs : List (String × String)}
    (h : ∀ kv ∈ kvs, '=' ∉ kv.1.toList ∧ ',' ∉ kv.1.toList ∧ ',' ∉ kv.2.toList) :
    parseValue (kvText kvs) = kvs.foldl (fun kvSet kv => kvSet.insert kv.1 kv.2) ∅ := by
  rw [parseValue_eq, foldl_kvText _ h]

/-- A property that has been read contains no comma. -/
theorem not_mem_of_lookup_parseValue {s k v : String} (h : (parseValue s).lookup k = some v) :
    ',' ∉ v.toList := by
  rw [parseValue_eq] at h
  refine foldl_split_preserves
    (P := fun d : Dict String String => ∀ k v, d.lookup k = some v → ',' ∉ v.toList) _ ?_ s ∅ ?_ k v
    h
  · intro d kv hkv hd k v hv
    rw [Dict.lookup_insert_eq] at hv
    split_ifs at hv with hk
    · obtain rfl := Option.some.inj hv
      exact hkv
    · exact hd k v hv
  · intro k v hv
    rw [AList.lookup_empty] at hv
    cases hv

/-- Paths with their value sets. -/
abbrev Pool := Dict String ValueSet

/-- `dispatch_pool` of one pool: the entries by type. -/
def dispatchPool (pool : Pool) : Dict Mark Pool := Dict.groupBy ValueSet.mark pool

/-! ### The state -/

/-- The two methods that `read_remote_func` can be. -/
inductive ReadFunc where
  | entire
  | incremental
deriving DecidableEq, Repr

/-- The two key ranges that are watched: `entity_view/` and `communicate/push/<system_id>`. -/
inductive WatchKey where
  | entityView
  | commuPush
deriving DecidableEq, Repr

/-- An entry of `watch_id_hash`; `status` is false where Python holds `None`. -/
structure WatchInfo where
  watchId : ℕ
  status : Bool
deriving DecidableEq, Repr

/-- The fields of `WatchMaster` that its reading methods use. -/
structure WatchMaster where
  systemId : Option String
  lastVer : ℤ
  readRemoteFunc : ReadFunc
  watchCanceled : Bool
  entityAddPool : Option Pool
  entityDelPool : Option Pool
  watchIdHash : WatchKey → Option WatchInfo

/-- What a watch hands to its callback. -/
inductive WatchEvent where
  | put (modRevision : ℤ) (key value : String)
  | delete (modRevision : ℤ) (key : String)
  | compacted (compactedRevision : ℤ)
  | rpcError
deriving DecidableEq, Repr

namespace WatchMaster

/-- The fields after `__init__`; the two pools do not exist yet. -/
def init (systemId : Option String) : WatchMaster where
  systemId := systemId
  lastVer := -1
  readRemoteFunc := .entire
  watchCanceled := true
  entityAddPool := none
  entityDelPool := none
  watchIdHash _ := none

/-- `_disable_all_watches`. -/
def disableAllWatches (w : WatchMaster) : WatchMaster :=
  { w with
    watchIdHash := fun k => (w.watchIdHash k).map (fun i => { i with status := false })
    watchCanceled := true }

/-- `_init_entity_pool`. -/
def initEntityPool (w : WatchMaster) : WatchMaster :=
  { w with entityAddPool := some ∅, entityDelPool := some ∅ }

/-- A delete event in the pools: it takes back a pending put, else it is pending itself. -/
def recordDelete (key : String) (mark : Mark) (add del : Pool) : Pool × Pool :=
  if key ∈ add then (add.erase key, del)
  else (add, del.insert key { mark := mark, kv := ∅ })

/-- A put event in the pools: it takes back a pending delete and is pending itself. -/
def recordPut (key value : String) (mark : Mark) (add del : Pool) : Pool × Pool :=
  (add.insert key (valueSet mark value), if key ∈ del then del.erase key else del)

/-- File an operation on a key of known type.  With pools that are `None` the callback raises and
only `last_ver` has changed. -/
def record (op : Pool → Pool → Pool × Pool) (w : WatchMaster) : WatchMaster :=
  match w.entityAddPool, w.entityDelPool with
  | some add, some del =>
      { w with entityAddPool := some (op add del).1, entityDelPool := some (op add del).2 }
  | _, _ => w

/-- `watch_callback`. -/
def watchCallback (w : WatchMaster) (event : WatchEvent) : WatchMaster :=
  if w.watchCanceled then w
  else match event with
    | .compacted compactedRevision =>
        -- the data of this period are abandoned, the next read is an entire one
        disableAllWatches
          { w with
            lastVer := compactedRevision
            readRemoteFunc := .entire
            entityAddPool := none
            entityDelPool := none }
    | .rpcError => disableAllWatches w
    | .delete modRevision key =>
        let w := { w with lastVer := max modRevision w.lastVer }
        match parseKey key with
        | none => w
        | some mark => w.record (recordDelete key mark)
    | .put modRevision key value =>
        let w := { w with lastVer := max modRevision w.lastVer }
        match parseKey key with
        | none => w
        | some mark => w.record (recordPut key value mark)

/-- What a read returns: `(data_type, add_pool, del_pool)`. -/
structure ReadResult where
  dataType : Option Bool
  addPool : Option (Dict Mark Pool)
  delPool : Option (Dict Mark Pool)

/-- `read_remote_incremental_kvdata`. -/
def readRemoteIncrementalKvdata (w : WatchMaster) : WatchMaster × ReadResult :=
  (w.initEntityPool,
    { dataType := some false
      addPool := w.entityAddPool.map dispatchPool
      delPool := w.entityDelPool.map dispatchPool })

/-- A key of etcd with its metadata. -/
structure KvMeta where
  key : String
  value : String
  modRevision : ℤ
deriving DecidableEq, Repr

/-- How reading a prefix can go.  `get_prefix` is a generator: apart from a call that raises there
is an iteration that raises, after any number of items. -/
inductive PrefixRead where
  | callRaises
  | iterationRaises (before : List KvMeta)
  | items (data : List KvMeta)

/-- The items that a read gives in the end. -/
def PrefixRead.data : PrefixRead → List KvMeta
  | callRaises => []
  | iterationRaises _ => []
  | items data => data

/-- The entries of a prefix whose type is known. -/
def entirePool (data : List KvMeta) : Pool :=
  data.foldl (fun addPool kv => match parseKey kv.key with
    | none => addPool
    | some mark => addPool.insert kv.key (valueSet mark kv.value)) ∅

/-- `read_remote_entire_kvdata`; without a result it raises. -/
def readRemoteEntireKvdata (read : PrefixRead) (w : WatchMaster) :
    WatchMaster × Option ReadResult :=
  match read with
  | .callRaises => (w, some { dataType := none, addPool := none, delPool := none })
  | .iterationRaises _ => (w, none)
  | .items data =>
      let version := data.foldl (fun version kv => max kv.modRevision version) (-1)
      ({ w with lastVer := max version w.lastVer },
        some { dataType := some true
               addPool := some (dispatchPool (entirePool data))
               delPool := none })

/-- The watch of a range is in `watch_id_hash` with a status. -/
def InService (w : WatchMaster) (key : WatchKey) : Prop :=
  (w.watchIdHash key).any (fun i => i.status)

instance (w : WatchMaster) (key : WatchKey) : Decidable (w.InService key) :=
  inferInstanceAs (Decidable (_ = _))

/-- `_add_watch`.  `watchId` is what `add_watch_callback` returns, `none` if it raises. -/
def addWatch (key : WatchKey) (init : WatchMaster → WatchMaster) (watchId : Option ℕ)
    (w : WatchMaster) : WatchMaster :=
  if w.InService key then w
  else
    let w := init w
    match watchId with
    | none => w
    | some i =>
        { w with
          watchCanceled := false
          watchIdHash := fun k => if k = key then some ⟨i, true⟩ else w.watchIdHash k }

/-- `_run_entity_watch`; etcd is asked for the events from `last_ver + 1` on. -/
def runEntityWatch (watchId : Option ℕ) (w : WatchMaster) : WatchMaster :=
  w.addWatch .entityView initEntityPool watchId

/-- `_run_communicate_watch`. -/
def runCommunicateWatch (watchId : Option ℕ) (w : WatchMaster) : WatchMaster :=
  if w.systemId.isSome then w.addWatch .commuPush id watchId else w

/-- The last lines of `read_remote_kvdata`: without data the next read is an entire one. -/
def scheduleRead (gotData : Bool) (w : WatchMaster) : WatchMaster :=
  { w with readRemoteFunc := if gotData then .incremental else .entire }

end WatchMaster

end TupleNet
