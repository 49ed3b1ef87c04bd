import TupleNet.Lib.Unanswered
import TupleNet.Control.DeletePlan

/-! # When a Delete succeeds

`Controller.Delete` of any devices by a client that runs alone, on a store that may not answer.  If
it removes none of the bitmaps that it changes, it can succeed exactly when the addresses of the
ports can be read and all the keys are stored that its transaction demands (`delete_ok_iff`); what
it has then done to the records is `delete_ok_effect`. -/

namespace TupleNet.Control

open TxnStore

/-- `IPv4ToU32` does not panic on the address of a port. -/
def Device.Addressed : Device → Prop
  | switchPort p => (iPv4ToU32 p.ip).isSome
  | routerPort p => (iPv4ToU32 p.ip).isSome
  | _ => True

instance : DecidablePred Device.Addressed := fun dev => by
  cases dev <;> unfold Device.Addressed <;> infer_instance

/-- What a `Delete` of these devices needs in order to commit. -/
structure Committable (db : Store Stored) (recursive : Bool) (devs : List Device) : Prop where
  addressed : ∀ dev ∈ devs, dev.Addressed
  keys : ∀ dev ∈ devs, ∀ key ∈ deleteKeys recursive dev, db key ≠ none
  maps : ∀ dev ∈ devs, ∀ key b, dev.bit = some (key, b) → db key ≠ none

/-- The text of a bitmap as `getIDMap` reads it. -/
def mapText (db : Store Stored) (key : String) : String := ((db key).map Stored.raw).getD ""

/-- What a `Delete` has collected after the devices `devs`, from the bitmaps of this store. -/
structure Collected (codec : BitmapCodec) (recursive : Bool) (db : Store Stored) (st : TxnState)
    (devs : List Device) : Prop where
  plan : DeletePlan codec recursive st devs
  oldVal : ∀ key e, st.idMaps.lookup key = some e → e.oldVal = mapText db key
  used : ∀ key e, st.idMaps.lookup key = some e → ∃ dev ∈ devs, ∃ b, dev.bit = some (key, b)

section collect
variable {codec : BitmapCodec} {order : List (String × MapEntry) → List (String × MapEntry)}
  {recursive : Bool} {db db' : Store Stored}

theorem Collected.empty : Collected codec recursive db .empty [] where
  plan := DeletePlan.empty
  oldVal := by simp [TxnState.empty]
  used := by simp [TxnState.empty]

section extend
variable {st : TxnState} {devs : List Device} {dev : Device}
  (h : Collected codec recursive db st devs)
include h

theorem Collected.remove_plain (hdev : dev.bit = none) : Collected codec recursive db
    ((deleteKeys recursive dev).foldl (fun st key => st.remove recursive key) st)
    (devs ++ [dev]) := by
  have hmaps := (foldl_remove recursive (deleteKeys recursive dev) st).2.2
  refine ⟨h.plan.remove_plain hdev, fun key e he => ?_, fun key e he => ?_⟩
  · rw [hmaps] at he
    exact h.oldVal key e he
  · rw [hmaps] at he
    obtain ⟨d, hd, hb⟩ := h.used key e he
    exact ⟨d, List.mem_append_left _ hd, hb⟩

theorem Collected.remove_bit {key : String} {e : MapEntry} {b : ℕ} (he : Current codec st key e)
    (htext : e.oldVal = mapText db key) (hdev : dev.bit = some (key, b)) :
    Collected codec recursive db
      ((deleteKeys recursive dev).foldl (fun st key => st.remove recursive key)
        (st.setMap key ⟨e.m.erase b, e.oldVal⟩))
      (devs ++ [dev]) := by
  have hmaps := (foldl_remove recursive (deleteKeys recursive dev)
    (st.setMap key ⟨e.m.erase b, e.oldVal⟩)).2.2
  have hlookup : ∀ k, (st.setMap key ⟨e.m.erase b, e.oldVal⟩).idMaps.lookup k =
      if k = key then some ⟨e.m.erase b, e.oldVal⟩ else st.idMaps.lookup k :=
    fun k => Dict.lookup_insert_eq _ _ _ _
  refine ⟨h.plan.remove_bit he hdev, fun k e' hk => ?_, fun k e' hk => ?_⟩
  · rw [hmaps, hlookup] at hk
    split_ifs at hk with hkey
    · rw [← Option.some.inj hk, hkey]
      exact htext
    · exact h.oldVal k e' hk
  · rw [hmaps, hlookup] at hk
    split_ifs at hk with hkey
    · exact ⟨dev, List.mem_append_right _ List.mem_cons_self, b, hkey ▸ hdev⟩
    · obtain ⟨d, hd, hb⟩ := h.used k e' hk
      exact ⟨d, List.mem_append_left _ hd, hb⟩

/-- A bitmap that is needed is the local copy or is read, if the store answers. -/
theorem Collected.idMapFor_ok (key : String) : ∃ e, Current codec st key e ∧
    e.oldVal = mapText db key ∧ ∀ (next : MapEntry → Client) (db' : Store Stored),
      (idMapFor codec key st next).Ends Stored.raw db (db', .ok) ↔
        (next e).Ends Stored.raw db (db', .ok) := by
  unfold idMapFor
  cases hlookup : st.idMaps.lookup key with
  | some e => exact ⟨e, Or.inl hlookup, h.oldVal key e hlookup, fun next db' => Iff.rfl⟩
  | none =>
      refine ⟨⟨codec.fromBase64 (mapText db key), mapText db key⟩, Or.inr ⟨hlookup, rfl⟩, rfl,
        fun next db' => or_iff_left fun hfail => ?_⟩
      cases (Prod.mk.inj hfail).2

end extend

variable (order) in
/-- One round of the loop of `Delete`. -/
theorem Collected.deleteLoop_cons_ok {st : TxnState} {done : List Device}
    (h : Collected codec recursive db st done) {dev : Device} (hdev : dev.Addressed) :
    ∃ st', Collected codec recursive db st' (done ++ [dev]) ∧ ∀ devs db',
      (deleteLoop codec order recursive (dev :: devs) st).Ends Stored.raw db (db', .ok) ↔
        (deleteLoop codec order recursive devs st').Ends Stored.raw db (db', .ok) := by
  cases dev with
  | switch s =>
      obtain ⟨e, he, htext, hends⟩ := h.idMapFor_ok deviceIDsPath
      exact ⟨_, h.remove_bit he htext rfl, fun devs db' => hends _ db'⟩
  | router r =>
      obtain ⟨e, he, htext, hends⟩ := h.idMapFor_ok deviceIDsPath
      exact ⟨_, h.remove_bit he htext rfl, fun devs db' => hends _ db'⟩
  | switchPort p =>
      obtain ⟨x, hx⟩ := Option.isSome_iff_exists.mp hdev
      obtain ⟨e, he, htext, hends⟩ := h.idMapFor_ok (switchIPBookPath p.owner)
      have hbit : (Device.switchPort p).bit = some (switchIPBookPath p.owner, masked x) := by
        rw [Device.bit, hx]
        rfl
      refine ⟨_, h.remove_bit he htext hbit, fun devs db' => (hends _ db').trans ?_⟩
      rw [hx]
      rfl
  | routerPort p =>
      obtain ⟨x, hx⟩ := Option.isSome_iff_exists.mp hdev
      obtain ⟨e, he, htext, hends⟩ := h.idMapFor_ok (routerIPBookPath p.owner)
      have hbit : (Device.routerPort p).bit = some (routerIPBookPath p.owner, masked x) := by
        rw [Device.bit, hx]
        rfl
      refine ⟨_, h.remove_bit he htext hbit, fun devs db' => (hends _ db').trans ?_⟩
      rw [hx]
      rfl
  | chassis c => exact ⟨_, h.remove_plain rfl, fun devs db' => Iff.rfl⟩
  | staticRoute r => exact ⟨_, h.remove_plain rfl, fun devs db' => Iff.rfl⟩
  | nat n => exact ⟨_, h.remove_plain rfl, fun devs db' => Iff.rfl⟩

/-- `Delete` does not get past a port whose address cannot be read. -/
theorem Collected.addressed_of_ok {st : TxnState} {done : List Device}
    (h : Collected codec recursive db st done) {dev : Device} {devs : List Device}
    (hends : (deleteLoop codec order recursive (dev :: devs) st).Ends Stored.raw db (db', .ok)) :
    dev.Addressed := by
  have hport : ∀ (key ip : String) (next : TxnState → Client),
      (returnIP codec key ip st next).Ends Stored.raw db (db', .ok) → (iPv4ToU32 ip).isSome := by
    intro key ip next hends
    obtain ⟨e, -, -, hiff⟩ := h.idMapFor_ok key
    have hends := (hiff _ db').mp hends
    cases hip : iPv4ToU32 ip with
    | none =>
        rw [hip] at hends
        cases (Prod.mk.inj hends).2
    | some x => rfl
  cases dev with
  | switchPort p =>
      rw [deleteLoop] at hends
      exact hport _ _ _ hends
  | routerPort p =>
      rw [deleteLoop] at hends
      exact hport _ _ _ hends
  | switch s => trivial
  | router r => trivial
  | chassis c => trivial
  | staticRoute r => trivial
  | nat n => trivial

theorem commit_ok {t : Txn Stored} : (commit t).Ends Stored.raw db (db', .ok) ↔
    t.Accepted ∧ t.Holds Stored.raw db ∧ db' = t.apply db := by
  simp only [commit, Prog.Ends, Prod.mk.injEq, reduceCtorEq, and_false, or_false, false_or,
    and_true]

variable (order) in
/-- The loop of `Delete` collects all devices and commits. -/
theorem Collected.deleteLoop_ok {st : TxnState} {done devs : List Device}
    (h : Collected codec recursive db st done) (hdevs : ∀ dev ∈ devs, dev.Addressed) :
    ∃ st', Collected codec recursive db st' (done ++ devs) ∧ ∀ db',
      (deleteLoop codec order recursive devs st).Ends Stored.raw db (db', .ok) ↔
        (deleteTxn codec order st').Accepted ∧ (deleteTxn codec order st').Holds Stored.raw db ∧
          db' = (deleteTxn codec order st').apply db := by
  induction devs generalizing st done with
  | nil => exact ⟨st, by rwa [List.append_nil], fun db' => commit_ok⟩
  | cons dev devs ih =>
      obtain ⟨hdev, hdevs⟩ := List.forall_mem_cons.mp hdevs
      obtain ⟨st₁, h₁, hstep⟩ := h.deleteLoop_cons_ok order hdev
      obtain ⟨st', h', hloop⟩ := ih h₁ hdevs
      rw [List.append_assoc] at h'
      exact ⟨st', h', fun db' => (hstep devs db').trans (hloop db')⟩

theorem Collected.all_addressed {st : TxnState} {done devs : List Device}
    (h : Collected codec recursive db st done)
    (hends : (deleteLoop codec order recursive devs st).Ends Stored.raw db (db', .ok)) :
    ∀ dev ∈ devs, dev.Addressed := by
  induction devs generalizing st done with
  | nil => simp
  | cons dev devs ih =>
      have hdev := h.addressed_of_ok hends
      obtain ⟨st₁, h₁, hstep⟩ := h.deleteLoop_cons_ok order hdev
      exact List.forall_mem_cons.mpr ⟨hdev, ih h₁ ((hstep devs db').mp hends)⟩

/-! ### The transaction -/

section transaction
variable {st : TxnState} {devs : List Device} (h : Collected codec recursive db st devs)
  (horder : ∀ l, (order l).Perm l)

/-- Each bitmap is put once at most. -/
theorem putKeys_deleteOps (l : List (String × MapEntry)) :
    (putKeys (l.flatMap (deleteOps codec))).Sublist (l.map Prod.fst) := by
  induction l with
  | nil => exact List.Sublist.refl _
  | cons x l ih =>
      have hsplit : putKeys ((x :: l).flatMap (deleteOps codec)) =
          putKeys (deleteOps codec x) ++ putKeys (l.flatMap (deleteOps codec)) := by
        rw [List.flatMap_cons, putKeys, List.filterMap_append, putKeys, putKeys]
      rw [hsplit, List.map_cons]
      unfold deleteOps
      split_ifs
      · exact ih.cons _
      · exact ih.cons_cons _
      · exact ih.cons _

include horder in
theorem nodup_order : ((order st.idMaps.items).map Prod.fst).Nodup :=
  ((horder _).map Prod.fst).nodup_iff.mpr (Dict.nodup_items_fst _)

include h horder

/-- The transaction touches no key twice if it removes no bitmap that it changes. -/
theorem Collected.accepted (hkept : ∀ dev ∈ devs, ∀ key b, dev.bit = some (key, b) →
    ¬ Removed recursive devs key) : (deleteTxn codec order st).Accepted := by
  constructor
  · rw [deleteTxn, h.plan.ops, putKeys_removeOps]
    exact (nodup_order horder).sublist (putKeys_deleteOps _)
  · intro key hput o ho hdel
    obtain ⟨v, hv⟩ := mem_putKeys.mp hput
    obtain ⟨e, he, -⟩ := h.plan.of_put horder hv
    obtain ⟨dev, hdev, b, hb⟩ := h.used key e he
    rcases h.plan.of_deletes horder ho hdel with hremoved | ⟨e', he', hempty⟩
    · exact hkept dev hdev key b hb hremoved
    · -- an empty bitmap is not put
      rcases (h.plan.mem_ops horder).mp hv with ⟨_, _, k, _, hv⟩ | ⟨k, e₁, he₁, hv⟩
      · cases recursive <;> simp [removeOps] at hv
      · unfold deleteOps at hv
        split_ifs at hv with hcard
        · cases List.mem_singleton.mp hv
        · obtain ⟨rfl, -⟩ := Op.put.inj (List.mem_singleton.mp hv)
          obtain rfl := Option.some.inj (he'.symm.trans he₁)
          exact hcard (Finset.card_eq_zero.mpr hempty)
        · cases hv

/-- The comparisons hold when the keys and the bitmaps are stored. -/
theorem Collected.holds_iff : (deleteTxn codec order st).Holds Stored.raw db ↔
    (∀ dev ∈ devs, ∀ key ∈ deleteKeys recursive dev, db key ≠ none) ∧
      ∀ dev ∈ devs, ∀ key b, dev.bit = some (key, b) → db key ≠ none := by
  unfold Txn.Holds
  simp only [h.plan.mem_cmps horder]
  constructor
  · intro hall
    refine ⟨fun dev hdev key hkey => hall (.keyExists key) (Or.inl ⟨dev, hdev, key, hkey, rfl⟩),
      fun dev hdev key b hb hnone => ?_⟩
    obtain ⟨e, he⟩ := h.plan.read dev hdev key b hb
    have hvalue := hall (.valueIs key e.oldVal) (Or.inr ⟨key, e, he, rfl⟩)
    rw [Cmp.Holds, hnone] at hvalue
    cases hvalue
  · rintro ⟨hkeys, hmaps⟩ c (⟨dev, hdev, key, hkey, rfl⟩ | ⟨key, e, he, rfl⟩)
    · exact hkeys dev hdev key hkey
    · obtain ⟨dev, hdev, b, hb⟩ := h.used key e he
      obtain ⟨v, hv⟩ := Option.ne_none_iff_exists'.mp (hmaps dev hdev key b hb)
      rw [Cmp.Holds, h.oldVal key e he, mapText, hv]
      rfl

end transaction

/-! ### The outcome -/

variable {devs : List Device} (horder : ∀ l, (order l).Perm l)
include horder

/-- **Delete succeeds** in some run exactly when the store has what its transaction demands. -/
theorem delete_ok_iff (hkept : ∀ dev ∈ devs, ∀ key b, dev.bit = some (key, b) →
    ¬ Removed recursive devs key) :
    (∃ db', (delete codec order recursive devs).Ends Stored.raw db (db', .ok)) ↔
      Committable db recursive devs := by
  constructor
  · rintro ⟨db', hends⟩
    have hempty : Collected codec recursive db .empty [] := Collected.empty
    have haddr := hempty.all_addressed hends
    obtain ⟨st, hst, hiff⟩ := hempty.deleteLoop_ok order haddr
    obtain ⟨hkeys, hmaps⟩ := (hst.holds_iff horder).mp ((hiff db').mp hends).2.1
    exact ⟨haddr, hkeys, hmaps⟩
  · intro hcom
    have hempty : Collected codec recursive db .empty [] := Collected.empty
    obtain ⟨st, hst, hiff⟩ := hempty.deleteLoop_ok order hcom.addressed
    exact ⟨_, (hiff _).mpr ⟨hst.accepted horder hkept,
      (hst.holds_iff horder).mpr ⟨hcom.keys, hcom.maps⟩,
      rfl⟩⟩

/-- A `Delete` that has succeeded has removed the keys of its devices and no other record. -/
theorem delete_ok_effect
    (hends : (delete codec order recursive devs).Ends Stored.raw db (db', .ok)) :
    (∀ key, Removed recursive devs key → db' key = none) ∧
      ∀ key, ¬ IsMapKey key → ¬ Removed recursive devs key → db' key = db key := by
  have hempty : Collected codec recursive db .empty [] := Collected.empty
  obtain ⟨st, hst, hiff⟩ := hempty.deleteLoop_ok order
    (hempty.all_addressed hends)
  obtain ⟨hacc, -, rfl⟩ := (hiff db').mp hends
  exact ⟨fun key hkey => hst.plan.apply_of_removed horder hacc hkey db,
    fun key hkey hkept => hst.plan.apply_of_kept horder hkey hkept db⟩

end collect

end TupleNet.Control
