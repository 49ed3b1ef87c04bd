import TupleNet.Control.SaveConcurrent

/-! # The transaction of a Delete

`DeletePlan` says what a `Delete` of some devices has collected: the keys that it removes and, for
every bitmap that it has read, the bitmap without the bits of these devices.  The devices are copies
that somebody has read before, so a committed `Delete` keeps the store consistent when the records
that it removes still occupy the bits of the copies (`DeleteTxn.sound`, `DeleteTxn.clears`). -/

namespace TupleNet.Control

open TxnStore

/-- Every device is stored under its own key. -/
def WellStored (db : Store Stored) : Prop := ∀ key dev, deviceAt db key = some dev → dev.path = key

/-- The keys that `Delete` removes for a device. -/
def deleteKeys (recursive : Bool) : Device → List String
  | .switch s => ownKeys recursive (switchPath s.name) (switchIPBookPath s.name)
  | .router r => ownKeys recursive (routerPath r.name) (routerIPBookPath r.name)
  | dev => [dev.path]

theorem path_mem_deleteKeys (recursive : Bool) (dev : Device) :
    dev.path ∈ deleteKeys recursive dev := by
  cases dev <;> exact List.mem_cons_self

theorem mem_deleteKeys_false {dev : Device} {key : String} :
    key ∈ deleteKeys false dev ↔ key = dev.path := by
  cases dev <;> exact List.mem_singleton

/-- The operations for a key. -/
def removeOps (recursive : Bool) (key : String) : List (Op Stored) :=
  (if recursive then [.deletePrefix (key ++ "/")] else []) ++ [.delete key]

/-- A `Delete` of these devices removes the key with them. -/
def Removed (recursive : Bool) (devs : List Device) (key : String) : Prop :=
  ∃ dev ∈ devs, ∃ k ∈ deleteKeys recursive dev, ∃ o ∈ removeOps recursive k, o.Deletes key

theorem mem_removeOps {recursive : Bool} {k key : String} :
    (∃ o ∈ removeOps recursive k, o.Deletes key) ↔
      k = key ∨ recursive = true ∧ (k ++ "/").toList <+: key.toList := by
  cases recursive with
  | false => simp [removeOps, Op.Deletes]
  | true => simp [removeOps, Op.Deletes, or_comm]

theorem putKeys_removeOps (recursive : Bool) (keys : List String) (ops : List (Op Stored)) :
    putKeys (keys.flatMap (removeOps recursive) ++ ops) = putKeys ops := by
  induction keys with
  | nil => rfl
  | cons key keys ih =>
      rw [List.flatMap_cons, List.append_assoc]
      cases recursive <;> exact ih

theorem Removed.of_path {recursive : Bool} {devs : List Device} {dev : Device} (h : dev ∈ devs) :
    Removed recursive devs dev.path :=
  ⟨dev, h, dev.path, path_mem_deleteKeys recursive dev, mem_removeOps.mpr (Or.inl rfl)⟩

theorem removed_false {devs : List Device} {key : String} :
    Removed false devs key ↔ ∃ dev ∈ devs, dev.path = key := by
  constructor
  · rintro ⟨dev, hdev, k, hk, ho⟩
    obtain rfl := mem_deleteKeys_false.mp hk
    rcases mem_removeOps.mp ho with heq | ⟨hfalse, _⟩
    · exact ⟨dev, hdev, heq⟩
    · cases hfalse
  · rintro ⟨dev, hdev, rfl⟩
    exact Removed.of_path hdev

/-! ### A book goes only with its ports -/

/-- A text and what lies below it. -/
def Within (s o : String) : Prop := o = s ∨ (s ++ "/").toList <+: o.toList

theorem within_of_append {pre s o : String}
    (h : pre ++ s = pre ++ o ∨ (pre ++ s ++ "/").toList <+: (pre ++ o).toList) : Within s o := by
  simp only [String.toList_append, List.append_assoc] at h
  refine h.imp (fun h => ?_) (fun h => ?_)
  · have hlist := congrArg String.toList h
    simp only [String.toList_append] at hlist
    exact (String.toList_inj.mp (List.append_cancel_left hlist)).symm
  · rw [String.toList_append]
    exact (List.prefix_append_right_inj _).mp h

theorem Within.below {s o rest : String} (h : Within s o) (pre : String)
    (hrest : "/".toList <+: rest.toList) :
    (pre ++ s ++ "/").toList <+: (pre ++ o ++ rest).toList := by
  simp only [String.toList_append, List.append_assoc]
  refine (List.prefix_append_right_inj _).mpr ?_
  rcases h with rfl | h
  · exact (List.prefix_append_right_inj _).mpr hrest
  · rw [String.toList_append] at h
    exact h.trans (List.prefix_append _ _)

/-- The start of a text that is deleted with a key is that of the key. -/
theorem start_of_deletes {k key : String} {n : ℕ} {c : Char}
    (h : k = key ∨ (k ++ "/").toList <+: key.toList) (hk : k.toList[n]? = some c) :
    key.toList[n]? = some c := by
  rcases h with rfl | ⟨rest, h⟩
  · exact hk
  · obtain ⟨hlen, _⟩ := List.getElem?_eq_some_iff.mp hk
    rw [← h, String.toList_append, List.append_assoc, List.getElem?_append_left hlen, hk]

/-- A map key is deleted only with the book of a switch or of a router. -/
theorem Removed.book {recursive : Bool} {devs : List Device} {key : String}
    (h : Removed recursive devs key) (hkey : IsMapKey key) :
    recursive = true ∧ ∃ k,
      ((∃ s, .switch s ∈ devs ∧ k = switchIPBookPath s.name) ∨
        ∃ r, .router r ∈ devs ∧ k = routerIPBookPath r.name) ∧
      (k = key ∨ (k ++ "/").toList <+: key.toList) := by
  obtain ⟨dev, hdev, k, hk, ho⟩ := h
  have hdel : k = key ∨ (k ++ "/").toList <+: key.toList :=
    (mem_removeOps.mp ho).imp id And.right
  -- the key of a device starts otherwise
  have hpath : k ≠ dev.path :=
    fun heq => hkey.second_ne (start_of_deletes hdel (heq ▸ dev.path_second))
  cases recursive with
  | false => exact absurd (mem_deleteKeys_false.mp hk) hpath
  | true =>
      refine ⟨rfl, k, ?_, hdel⟩
      cases dev with
      | switch s =>
          rcases List.mem_cons.mp hk with hk | hk
          · exact absurd hk hpath
          · exact Or.inl ⟨s, hdev, List.mem_singleton.mp hk⟩
      | router r =>
          rcases List.mem_cons.mp hk with hk | hk
          · exact absurd hk hpath
          · exact Or.inr ⟨r, hdev, List.mem_singleton.mp hk⟩
      | switchPort p => exact absurd (List.mem_singleton.mp hk) hpath
      | routerPort p => exact absurd (List.mem_singleton.mp hk) hpath
      | chassis c => exact absurd (List.mem_singleton.mp hk) hpath
      | staticRoute r => exact absurd (List.mem_singleton.mp hk) hpath
      | nat n => exact absurd (List.mem_singleton.mp hk) hpath

theorem switchIPBookPath_start (s : String) : (switchIPBookPath s).toList[10]? = some 'S' ∧
    (switchIPBookPath s).toList[1]? = some 'i' :=
  ⟨start_append (by decide) s, start_append (by decide) s⟩

theorem routerIPBookPath_start (r : String) : (routerIPBookPath r).toList[10]? = some 'R' ∧
    (routerIPBookPath r).toList[1]? = some 'i' :=
  ⟨start_append (by decide) r, start_append (by decide) r⟩

/-- The owners of the bits of a book. -/
theorem Device.owner_of_bit {dev : Device} {key : String} {b : ℕ} (h : dev.bit = some (key, b))
    (hkey : key.toList[1]? = some 'i') :
    (∃ p, dev = .switchPort p ∧ key = switchIPBookPath p.owner) ∨
      ∃ p, dev = .routerPort p ∧ key = routerIPBookPath p.owner := by
  have hids : deviceIDsPath ≠ key := by
    rintro rfl
    exact absurd hkey (by decide)
  cases dev with
  | switch s => exact absurd (Prod.mk.inj (Option.some.inj h)).1 hids
  | router r => exact absurd (Prod.mk.inj (Option.some.inj h)).1 hids
  | switchPort p =>
      obtain ⟨x, _, hx⟩ := Option.map_eq_some_iff.mp h
      exact Or.inl ⟨p, rfl, (Prod.mk.inj hx).1.symm⟩
  | routerPort p =>
      obtain ⟨x, _, hx⟩ := Option.map_eq_some_iff.mp h
      exact Or.inr ⟨p, rfl, (Prod.mk.inj hx).1.symm⟩
  | chassis c => cases h
  | staticRoute r => cases h
  | nat n => cases h

/-- A `Delete` that removes a book removes every device with a bit in it. -/
theorem Removed.covers {recursive : Bool} {devs : List Device} {key : String}
    (h : Removed recursive devs key) {dev : Device} {b : ℕ} (hb : dev.bit = some (key, b)) :
    Removed recursive devs dev.path := by
  obtain ⟨rfl, k, hk, hdel⟩ := h.book (Device.bit_isMapKey hb)
  have hslash : ∀ a rest : String, "/".toList <+: a.toList → "/".toList <+: (a ++ rest).toList :=
    fun a rest ha => by
      rw [String.toList_append]
      exact ha.trans (List.prefix_append _ _)
  rcases hk with ⟨s, hs, rfl⟩ | ⟨r, hr, rfl⟩
  · obtain ⟨hS, hi⟩ := switchIPBookPath_start s.name
    rcases Device.owner_of_bit hb (start_of_deletes hdel hi) with ⟨p, rfl, rfl⟩ | ⟨p, _, rfl⟩
    · have hwithin : Within s.name p.owner := within_of_append hdel
      refine ⟨.switch s, hs, switchPath s.name, List.mem_cons_self, mem_removeOps.mpr ?_⟩
      refine Or.inr ⟨rfl, ?_⟩
      have hbelow := hwithin.below "/entity_view/LS/" (hslash "/lsp/" p.name (by decide))
      rwa [← String.append_assoc] at hbelow
    · have hR := (routerIPBookPath_start p.owner).1
      rw [start_of_deletes hdel hS] at hR
      cases hR
  · obtain ⟨hR, hi⟩ := routerIPBookPath_start r.name
    rcases Device.owner_of_bit hb (start_of_deletes hdel hi) with ⟨p, _, rfl⟩ | ⟨p, rfl, rfl⟩
    · have hS := (switchIPBookPath_start p.owner).1
      rw [start_of_deletes hdel hR] at hS
      cases hS
    · have hwithin : Within r.name p.owner := within_of_append hdel
      refine ⟨.router r, hr, routerPath r.name, List.mem_cons_self, mem_removeOps.mpr ?_⟩
      refine Or.inr ⟨rfl, ?_⟩
      have hbelow := hwithin.below "/entity_view/LR/" (hslash "/lrp/" p.name (by decide))
      rwa [← String.append_assoc] at hbelow

/-- What a `Delete` has collected after the devices `devs`. -/
structure DeletePlan (codec : BitmapCodec) (recursive : Bool) (st : TxnState) (devs : List Device) :
    Prop where
  cmps : st.cmps = (devs.flatMap (deleteKeys recursive)).map (fun key => .keyExists key)
  ops : st.ops = (devs.flatMap (deleteKeys recursive)).flatMap (removeOps recursive)
  isMapKey : ∀ key e, st.idMaps.lookup key = some e → IsMapKey key
  mem_iff : ∀ key e, st.idMaps.lookup key = some e → ∀ b,
    b ∈ e.m ↔ b ∈ codec.fromBase64 e.oldVal ∧ ∀ dev ∈ devs, dev.bit ≠ some (key, b)
  read : ∀ dev ∈ devs, ∀ key b, dev.bit = some (key, b) → ∃ e, st.idMaps.lookup key = some e

section plan
variable {codec : BitmapCodec} {recursive : Bool}

theorem DeletePlan.empty : DeletePlan codec recursive .empty [] where
  cmps := rfl
  ops := rfl
  isMapKey := by simp [TxnState.empty]
  mem_iff := by simp [TxnState.empty]
  read := by simp

/-- The comparisons and the operations of several keys. -/
theorem foldl_remove (recursive : Bool) (keys : List String) (st : TxnState) :
    (keys.foldl (fun st key => st.remove recursive key) st).cmps =
        st.cmps ++ keys.map (fun key => .keyExists key) ∧
      (keys.foldl (fun st key => st.remove recursive key) st).ops =
        st.ops ++ keys.flatMap (removeOps recursive) ∧
      (keys.foldl (fun st key => st.remove recursive key) st).idMaps = st.idMaps := by
  induction keys generalizing st with
  | nil => simp
  | cons key keys ih =>
      obtain ⟨hcmps, hops, hmaps⟩ := ih (st.remove recursive key)
      rw [List.foldl_cons, hcmps, hops, hmaps]
      simp [TxnState.remove, removeOps]

section extend
variable {st : TxnState} {devs : List Device} (h : DeletePlan codec recursive st devs)
include h

/-- A device without a bit. -/
theorem DeletePlan.remove_plain {dev : Device} (hdev : dev.bit = none) :
    DeletePlan codec recursive
      ((deleteKeys recursive dev).foldl (fun st key => st.remove recursive key) st)
      (devs ++ [dev]) := by
  obtain ⟨hcmps, hops, hmaps⟩ := foldl_remove recursive (deleteKeys recursive dev) st
  refine ⟨?_, ?_, fun key e he => ?_, fun key e he b => ?_, fun d hd key b hb => ?_⟩
  · rw [hcmps, h.cmps]
    simp
  · rw [hops, h.ops]
    simp
  · rw [hmaps] at he
    exact h.isMapKey key e he
  · rw [hmaps] at he
    rw [h.mem_iff key e he]
    simp [hdev, or_imp, forall_and]
  · rw [hmaps]
    rcases List.mem_append.mp hd with hd | hd
    · exact h.read d hd key b hb
    · rw [List.mem_singleton.mp hd, hdev] at hb
      cases hb

/-- A device whose bit is taken out of the current copy of its bitmap. -/
theorem DeletePlan.remove_bit {key : String} {e : MapEntry} (he : Current codec st key e)
    {dev : Device} {b : ℕ} (hdev : dev.bit = some (key, b)) :
    DeletePlan codec recursive
      ((deleteKeys recursive dev).foldl (fun st key => st.remove recursive key)
        (st.setMap key ⟨e.m.erase b, e.oldVal⟩))
      (devs ++ [dev]) := by
  obtain ⟨hcmps, hops, hmaps⟩ := foldl_remove recursive (deleteKeys recursive dev)
    (st.setMap key ⟨e.m.erase b, e.oldVal⟩)
  have hlookup : ∀ k, (st.setMap key ⟨e.m.erase b, e.oldVal⟩).idMaps.lookup k =
      if k = key then some ⟨e.m.erase b, e.oldVal⟩ else st.idMaps.lookup k :=
    fun k => Dict.lookup_insert_eq _ _ _ _
  have hcurrent : ∀ x, x ∈ e.m ↔
      x ∈ codec.fromBase64 e.oldVal ∧ ∀ d ∈ devs, d.bit ≠ some (key, x) := by
    intro x
    rcases he with he | ⟨he, hm⟩
    · exact h.mem_iff key e he x
    · -- the bitmap has just been read, so no device before has a bit in it
      refine hm ▸ (and_iff_left fun d hd hx => ?_).symm
      obtain ⟨e', he'⟩ := h.read d hd key x hx
      rw [he] at he'
      cases he'
  refine ⟨?_, ?_, fun k e' hk => ?_, fun k e' hk x => ?_, fun d hd k x hx => ?_⟩
  · rw [hcmps]
    simp [TxnState.setMap, h.cmps]
  · rw [hops]
    simp [TxnState.setMap, h.ops]
  · rw [hmaps, hlookup] at hk
    split_ifs at hk with hkey
    · exact hkey ▸ Device.bit_isMapKey hdev
    · exact h.isMapKey k e' hk
  · rw [hmaps, hlookup] at hk
    simp only [List.mem_append, List.mem_singleton, or_imp, forall_and, forall_eq]
    split_ifs at hk with hkey
    · obtain rfl := Option.some.inj hk
      rw [Finset.mem_erase, hcurrent, hkey, hdev, ne_eq, ne_eq, Option.some.injEq, Prod.mk.injEq]
      tauto
    · rw [h.mem_iff k e' hk]
      have hne : dev.bit ≠ some (k, x) := by
        rw [hdev]
        exact fun heq => hkey (Prod.mk.inj (Option.some.inj heq)).1.symm
      tauto
  · rw [hmaps, hlookup]
    split_ifs with hkey
    · exact ⟨_, rfl⟩
    · rcases List.mem_append.mp hd with hd | hd
      · exact h.read d hd k x hx
      · rw [List.mem_singleton.mp hd, hdev] at hx
        exact absurd (Prod.mk.inj (Option.some.inj hx)).1.symm hkey

end extend

/-! ### Every transaction of a `Delete` is a plan -/

variable (codec recursive) in
/-- A transaction of a `Delete` of these copies. -/
def DeleteTxn (copies : List Device) (t : Txn Stored) : Prop :=
  ∃ order : List (String × MapEntry) → List (String × MapEntry), (∀ l, (order l).Perm l) ∧
    ∃ st, DeletePlan codec recursive st copies ∧ t = deleteTxn codec order st

variable {order : List (String × MapEntry) → List (String × MapEntry)}

theorem returnID_issues {G : Txn Stored → Prop} {id : ℕ} {st : TxnState}
    {next : TxnState → Client}
    (h : ∀ e, Current codec st deviceIDsPath e →
      (next (st.setMap deviceIDsPath ⟨e.m.erase id, e.oldVal⟩)).Issues G) :
    (returnID codec id st next).Issues G :=
  idMapFor_issues fun e he => h e he

theorem returnIP_issues {G : Txn Stored → Prop} {key ip : String} {st : TxnState}
    {next : TxnState → Client}
    (h : ∀ e x, Current codec st key e → iPv4ToU32 ip = some x →
      (next (st.setMap key ⟨e.m.erase (masked x), e.oldVal⟩)).Issues G) :
    (returnIP codec key ip st next).Issues G := by
  refine idMapFor_issues fun e he => ?_
  split
  · trivial
  · next x hx => exact h e x he hx

theorem deleteLoop_issues (horder : ∀ l, (order l).Perm l) {devs : List Device} {st : TxnState}
    {done : List Device} (h : DeletePlan codec recursive st done) :
    (deleteLoop codec order recursive devs st).Issues
      (DeleteTxn codec recursive (done ++ devs)) := by
  induction devs generalizing st done with
  | nil =>
      rw [List.append_nil]
      refine ⟨⟨order, horder, st, h, rfl⟩, fun r => ?_⟩
      cases r <;> trivial
  | cons dev devs ih =>
      have happend : done ++ dev :: devs = (done ++ [dev]) ++ devs := by simp
      rw [happend]
      -- the plan after this device
      have hplain : dev.bit = none → DeletePlan codec recursive
          ((deleteKeys recursive dev).foldl (fun st key => st.remove recursive key) st)
          (done ++ [dev]) := fun hdev => h.remove_plain hdev
      have hbit : ∀ key e b, Current codec st key e → dev.bit = some (key, b) →
          DeletePlan codec recursive
            ((deleteKeys recursive dev).foldl (fun st key => st.remove recursive key)
              (st.setMap key ⟨e.m.erase b, e.oldVal⟩))
            (done ++ [dev]) := fun key e b he hdev => h.remove_bit he hdev
      cases dev with
      | switch s =>
          rw [deleteLoop]
          refine returnID_issues fun e he => ?_
          exact ih (hbit deviceIDsPath e s.id he rfl)
      | router r =>
          rw [deleteLoop]
          refine returnID_issues fun e he => ?_
          exact ih (hbit deviceIDsPath e r.id he rfl)
      | switchPort p =>
          rw [deleteLoop]
          refine returnIP_issues fun e x he hx => ?_
          have hp : (Device.switchPort p).bit = some (switchIPBookPath p.owner, masked x) := by
            rw [Device.bit, hx]
            rfl
          exact ih (hbit _ e (masked x) he hp)
      | routerPort p =>
          rw [deleteLoop]
          refine returnIP_issues fun e x he hx => ?_
          have hp : (Device.routerPort p).bit = some (routerIPBookPath p.owner, masked x) := by
            rw [Device.bit, hx]
            rfl
          exact ih (hbit _ e (masked x) he hp)
      | chassis c => exact ih (hplain rfl)
      | staticRoute r => exact ih (hplain rfl)
      | nat n => exact ih (hplain rfl)

theorem delete_issues (horder : ∀ l, (order l).Perm l) (copies : List Device) :
    (delete codec order recursive copies).Issues (DeleteTxn codec recursive copies) :=
  deleteLoop_issues horder DeletePlan.empty

/-! ### What a committed `Delete` does to the store -/

/-- The record stored at the key of a copy, if any, occupies the bit of the copy. -/
def Holds (db : Store Stored) (copy : Device) : Prop :=
  db copy.path = none ∨ ∃ dev, deviceAt db copy.path = some dev ∧ dev.bit = copy.bit

section effect
variable {st : TxnState} {copies : List Device} (h : DeletePlan codec recursive st copies)
  (horder : ∀ l, (order l).Perm l) {db : Store Stored}
include h horder

theorem DeletePlan.mem_cmps {c : Cmp} : c ∈ (deleteTxn codec order st).cmps ↔
    (∃ dev ∈ copies, ∃ k ∈ deleteKeys recursive dev, c = .keyExists k) ∨
      ∃ key e, st.idMaps.lookup key = some e ∧ c = .valueIs key e.oldVal := by
  simp only [deleteTxn, h.cmps, List.mem_append, List.mem_map, List.mem_flatMap, Prod.exists,
    mem_order horder, eq_comm (b := c)]
  constructor
  · rintro (⟨k, ⟨dev, hdev, hk⟩, rfl⟩ | hmap)
    · exact Or.inl ⟨dev, hdev, k, hk, rfl⟩
    · exact Or.inr hmap
  · rintro (⟨dev, hdev, k, hk, rfl⟩ | hmap)
    · exact Or.inl ⟨k, ⟨dev, hdev, hk⟩, rfl⟩
    · exact Or.inr hmap

theorem DeletePlan.mem_ops {o : Op Stored} : o ∈ (deleteTxn codec order st).ops ↔
    (∃ dev ∈ copies, ∃ k ∈ deleteKeys recursive dev, o ∈ removeOps recursive k) ∨
      ∃ key e, st.idMaps.lookup key = some e ∧ o ∈ deleteOps codec (key, e) := by
  simp only [deleteTxn, h.ops, List.mem_append, List.mem_flatMap, Prod.exists, mem_order horder]
  constructor
  · rintro (⟨k, ⟨dev, hdev, hk⟩, ho⟩ | hmap)
    · exact Or.inl ⟨dev, hdev, k, hk, ho⟩
    · exact Or.inr hmap
  · rintro (⟨dev, hdev, k, hk, ho⟩ | hmap)
    · exact Or.inl ⟨k, ⟨dev, hdev, hk⟩, ho⟩
    · exact Or.inr hmap

/-- What is put is the text of a bitmap. -/
theorem DeletePlan.of_put {key : String} {v : Stored}
    (hv : .put key v ∈ (deleteTxn codec order st).ops) :
    ∃ e, st.idMaps.lookup key = some e ∧ v = .ofText (codec.toBase64 e.m) := by
  rcases (h.mem_ops horder).mp hv with ⟨dev, _, k, _, ho⟩ | ⟨k, e, he, ho⟩
  · cases recursive <;> simp [removeOps] at ho
  · unfold deleteOps at ho
    split_ifs at ho with h1 h2
    · cases List.mem_singleton.mp ho
    · obtain ⟨rfl, rfl⟩ := Op.put.inj (List.mem_singleton.mp ho)
      exact ⟨e, he, rfl⟩
    · cases ho

/-- A key is deleted with the devices, or it is that of an emptied bitmap. -/
theorem DeletePlan.of_deletes {key : String} {o : Op Stored}
    (ho : o ∈ (deleteTxn codec order st).ops) (hdel : o.Deletes key) :
    Removed recursive copies key ∨ ∃ e, st.idMaps.lookup key = some e ∧ e.m = ∅ := by
  rcases (h.mem_ops horder).mp ho with ⟨dev, hdev, k, hk, ho⟩ | ⟨k, e, he, ho⟩
  · exact Or.inl ⟨dev, hdev, k, hk, o, ho, hdel⟩
  · unfold deleteOps at ho
    split_ifs at ho with h1 h2
    · rw [List.mem_singleton.mp ho] at hdel
      obtain rfl : k = key := hdel
      exact Or.inr ⟨e, he, Finset.card_eq_zero.mp h1⟩
    · rw [List.mem_singleton.mp ho] at hdel
      exact hdel.elim
    · cases ho

theorem DeletePlan.deletes_of_removed {key : String} (hkey : Removed recursive copies key) :
    ∃ o ∈ (deleteTxn codec order st).ops, o.Deletes key := by
  obtain ⟨dev, hdev, k, hk, o, ho, hdel⟩ := hkey
  exact ⟨o, (h.mem_ops horder).mpr (Or.inl ⟨dev, hdev, k, hk, ho⟩), hdel⟩

variable (hacc : (deleteTxn codec order st).Accepted)
include hacc

theorem DeletePlan.apply_of_removed {key : String} (hkey : Removed recursive copies key)
    (db : Store Stored) : (deleteTxn codec order st).apply db key = none := by
  obtain ⟨o, ho, hdel⟩ := h.deletes_of_removed horder hkey
  exact applyOps_of_delete (fun hput => hacc.2 key hput o ho hdel) ⟨o, ho, hdel⟩ db

omit hacc in
/-- A key of a record that is not removed keeps its value. -/
theorem DeletePlan.apply_of_kept {key : String} (hkey : ¬ IsMapKey key)
    (hkept : ¬ Removed recursive copies key) (db : Store Stored) :
    (deleteTxn codec order st).apply db key = db key := by
  refine applyOps_of_untouched (fun o ho hdel => ?_) (fun hput => ?_) db
  · rcases h.of_deletes horder ho hdel with hremoved | ⟨e, he, _⟩
    · exact hkept hremoved
    · exact hkey (h.isMapKey key e he)
  · obtain ⟨v, hv⟩ := mem_putKeys.mp hput
    obtain ⟨e, he, _⟩ := h.of_put horder hv
    exact hkey (h.isMapKey key e he)

/-- A device that is still stored was stored before and has not been removed. -/
theorem DeletePlan.deviceAt_apply {key : String} {dev : Device}
    (hdev : deviceAt ((deleteTxn codec order st).apply db) key = some dev) :
    deviceAt db key = some dev ∧ ¬ Removed recursive copies key := by
  obtain ⟨v, hv, hvdev⟩ := Option.bind_eq_some_iff.mp hdev
  constructor
  · rcases applyOps_eq_some hv with hold | hput
    · exact Option.bind_eq_some_iff.mpr ⟨v, hold, hvdev⟩
    · obtain ⟨e, _, rfl⟩ := h.of_put horder hput
      cases hvdev
  · intro hremoved
    rw [h.apply_of_removed horder hacc hremoved db] at hv
    cases hv

variable (hholds : (deleteTxn codec order st).Holds Stored.raw db)
include hholds

omit hacc in
theorem DeletePlan.stored {dev : Device} (hdev : dev ∈ copies) : db dev.path ≠ none :=
  hholds (.keyExists dev.path) ((h.mem_cmps horder).mpr
    (Or.inl ⟨dev, hdev, dev.path, path_mem_deleteKeys recursive dev, rfl⟩))

omit hacc in
/-- The bitmap is stored as it was read. -/
theorem DeletePlan.value_before {key : String} {e : MapEntry}
    (he : st.idMaps.lookup key = some e) : (db key).map Stored.raw = some e.oldVal :=
  hholds (.valueIs key e.oldVal) ((h.mem_cmps horder).mpr (Or.inr ⟨key, e, he, rfl⟩))

omit hacc in
theorem DeletePlan.bits_before {key : String} {e : MapEntry}
    (he : st.idMaps.lookup key = some e) : bits codec db key = codec.fromBase64 e.oldVal := by
  rw [bits, h.value_before horder hholds he]
  rfl

/-- Afterwards a bitmap that has not been removed holds the bits of no copy and all others. -/
theorem DeletePlan.bits_after {key : String} {e : MapEntry} (he : st.idMaps.lookup key = some e)
    (hkept : ¬ Removed recursive copies key) :
    bits codec ((deleteTxn codec order st).apply db) key = e.m := by
  have hsmall : ∀ x ∈ e.m, x < 2 ^ 32 :=
    fun x hx => codec.fromBase64_lt _ x ((h.mem_iff key e he x).mp hx).1
  have hcodec := codec.fromBase64_toBase64 e.m hsmall
  have hmem : ∀ o ∈ deleteOps codec (key, e), o ∈ (deleteTxn codec order st).ops :=
    fun o ho => (h.mem_ops horder).mpr (Or.inr ⟨key, e, he, ho⟩)
  by_cases hempty : e.m.card = 0
  · -- the key goes with the last bit
    have ho : .delete key ∈ (deleteTxn codec order st).ops := hmem _ (by simp [deleteOps, hempty])
    have hnone : (deleteTxn codec order st).apply db key = none :=
      applyOps_of_delete (fun hput => hacc.2 key hput _ ho rfl) ⟨_, ho, rfl⟩ db
    rw [bits, hnone, Finset.card_eq_zero.mp hempty]
    exact codec.fromBase64_empty
  · by_cases hsame : codec.toBase64 e.m = e.oldVal
    · have hput : key ∉ putKeys (deleteTxn codec order st).ops := by
        intro hput
        obtain ⟨v, hv⟩ := mem_putKeys.mp hput
        rcases (h.mem_ops horder).mp hv with ⟨dev, _, k, _, ho⟩ | ⟨k, e', he', ho⟩
        · cases recursive <;> simp [removeOps] at ho
        · have hk : k = key := by
            unfold deleteOps at ho
            split_ifs at ho
            · cases List.mem_singleton.mp ho
            · exact (Op.put.inj (List.mem_singleton.mp ho)).1.symm
            · cases ho
          subst hk
          obtain rfl := Option.some.inj (he.symm.trans he')
          simp [deleteOps, hempty, hsame] at ho
      have hdel : ∀ o ∈ (deleteTxn codec order st).ops, ¬ o.Deletes key := by
        intro o ho hdel
        rcases h.of_deletes horder ho hdel with hremoved | ⟨e', he', hnil⟩
        · exact hkept hremoved
        · obtain rfl := Option.some.inj (he.symm.trans he')
          exact hempty (Finset.card_eq_zero.mpr hnil)
      have huntouched := applyOps_of_untouched hdel hput db
      rw [bits, Txn.apply, huntouched, h.value_before horder hholds he]
      exact hsame ▸ hcodec
    · have hput : .put key (.ofText (codec.toBase64 e.m)) ∈ (deleteTxn codec order st).ops :=
        hmem _ (by simp [deleteOps, hempty, hsame])
      rw [bits, Txn.apply_of_put hacc hput db]
      exact hcodec

/-- The bits of a map that has not been removed: those of before but the ones of the copies. -/
theorem DeletePlan.mem_bits_after {key : String}
    (hkept : ¬ Removed recursive copies key) {b : ℕ} :
    b ∈ bits codec ((deleteTxn codec order st).apply db) key ↔
      b ∈ bits codec db key ∧ ∀ copy ∈ copies, copy.bit ≠ some (key, b) := by
  cases he : st.idMaps.lookup key with
  | some e =>
      rw [h.bits_after horder hacc hholds he hkept, h.bits_before horder hholds he]
      exact h.mem_iff key e he b
  | none =>
      -- no copy has a bit in a map that was not read
      have hput : key ∉ putKeys (deleteTxn codec order st).ops := by
        intro hput
        obtain ⟨v, hv⟩ := mem_putKeys.mp hput
        obtain ⟨e, he', _⟩ := h.of_put horder hv
        rw [he] at he'
        cases he'
      have hdel : ∀ o ∈ (deleteTxn codec order st).ops, ¬ o.Deletes key := by
        intro o ho hdel
        rcases h.of_deletes horder ho hdel with hremoved | ⟨e, he', _⟩
        · exact hkept hremoved
        · rw [he] at he'
          cases he'
      have huntouched := applyOps_of_untouched hdel hput db
      have hsame : bits codec ((deleteTxn codec order st).apply db) key = bits codec db key := by
        rw [bits, bits, Txn.apply, huntouched]
      rw [hsame]
      refine (and_iff_left fun copy hcopy hbit => ?_).symm
      obtain ⟨e, he'⟩ := h.read copy hcopy key b hbit
      rw [he] at he'
      cases he'

end effect

/-- What the transaction of a `Delete` does to a consistent store when its copies still hold. -/
theorem DeleteTxn.sound {copies : List Device} {t : Txn Stored}
    (ht : DeleteTxn codec recursive copies t) {db : Store Stored} (hacc : t.Accepted)
    (hholds : t.Holds Stored.raw db) (hdb : Consistent codec db) (hwell : WellStored db)
    (hcopies : ∀ copy ∈ copies, Holds db copy) :
    Consistent codec (t.apply db) := by
  obtain ⟨order, horder, st, h, rfl⟩ := ht
  -- the record at the key of a copy
  have hrecord : ∀ copy ∈ copies, ∃ dev, deviceAt db copy.path = some dev ∧ dev.bit = copy.bit :=
    fun copy hcopy => (hcopies copy hcopy).resolve_left (h.stored horder hholds hcopy)
  refine ⟨fun key dev book b hdev hb => ?_, fun key key' dev dev' hdev hdev' hne => ?_⟩
  · obtain ⟨hold, hkept⟩ := h.deviceAt_apply horder hacc hdev
    have hpath : dev.path = key := hwell key dev hold
    have hbook : ¬ Removed recursive copies book := fun hr => hkept (hpath ▸ hr.covers hb)
    rw [h.mem_bits_after horder hacc hholds hbook]
    refine ⟨hdb.recorded key dev book b hold hb, fun copy hcopy hcopybit => ?_⟩
    obtain ⟨dev', hdev', hbit'⟩ := hrecord copy hcopy
    have hne : copy.path ≠ key := fun heq => hkept (heq ▸ Removed.of_path hcopy)
    exact hdb.distinct copy.path key dev' dev hdev' hold hne (book, b) (hbit'.trans hcopybit) hb
  · exact hdb.distinct key key' dev dev' (h.deviceAt_apply horder hacc hdev).1
      (h.deviceAt_apply horder hacc hdev').1 hne

theorem DeleteTxn.wellStored {copies : List Device} {t : Txn Stored}
    (ht : DeleteTxn codec recursive copies t) {db : Store Stored} (hacc : t.Accepted)
    (hwell : WellStored db) : WellStored (t.apply db) := by
  obtain ⟨order, horder, st, h, rfl⟩ := ht
  exact fun key dev hdev => hwell key dev (h.deviceAt_apply horder hacc hdev).1

/-- A committed `Delete` removes the record of a copy that still holds. -/
theorem DeleteTxn.removes {copies : List Device} {t : Txn Stored}
    (ht : DeleteTxn codec recursive copies t) {db : Store Stored} (hacc : t.Accepted)
    (hholds : t.Holds Stored.raw db) {copy : Device} (hcopy : Holds db copy)
    (hmem : copy ∈ copies) :
    (∃ dev, deviceAt db copy.path = some dev ∧ dev.bit = copy.bit) ∧
      t.apply db copy.path = none := by
  obtain ⟨order, horder, st, h, rfl⟩ := ht
  exact ⟨hcopy.resolve_left (h.stored horder hholds hmem),
    h.apply_of_removed horder hacc (Removed.of_path hmem) db⟩

/-- What a `Delete` without `recursive` clears are the bits of the records that it removes. -/
theorem DeleteTxn.clears {copies : List Device} {t : Txn Stored}
    (ht : DeleteTxn codec false copies t) {db : Store Stored} (hacc : t.Accepted)
    (hholds : t.Holds Stored.raw db) (hdb : Consistent codec db) (hwell : WellStored db)
    (hcopies : ∀ copy ∈ copies, Holds db copy) {book : String} (hbook : IsMapKey book) (b : ℕ) :
    b ∈ bits codec db book ∧ b ∉ bits codec (t.apply db) book ↔
      ∃ key dev, deviceAt db key = some dev ∧ t.apply db key = none ∧ dev.bit = some (book, b) := by
  obtain ⟨order, horder, st, h, rfl⟩ := ht
  have hkept : ¬ Removed false copies book := by
    intro hremoved
    obtain ⟨dev, _, rfl⟩ := removed_false.mp hremoved
    exact dev.path_not_map hbook
  rw [h.mem_bits_after horder hacc hholds hkept]
  constructor
  · rintro ⟨hb, hgone⟩
    simp only [hb, true_and, not_forall, not_not] at hgone
    obtain ⟨copy, hcopy, hbit⟩ := hgone
    obtain ⟨dev, hdev, hdevbit⟩ :=
      (hcopies copy hcopy).resolve_left (h.stored horder hholds hcopy)
    exact ⟨copy.path, dev, hdev, h.apply_of_removed horder hacc (Removed.of_path hcopy) db,
      hdevbit.trans hbit⟩
  · rintro ⟨key, dev, hdev, hgone, hbit⟩
    have hmem := hdb.recorded key dev book b hdev hbit
    refine ⟨hmem, fun hstill => ?_⟩
    -- the key is that of a copy, whose bit is the one of the record
    obtain ⟨v, hv, _⟩ := Option.bind_eq_some_iff.mp hdev
    have hdeleted : ∃ o ∈ (deleteTxn codec order st).ops, o.Deletes key := by
      by_contra hno
      have hput : key ∉ putKeys (deleteTxn codec order st).ops := by
        intro hput
        obtain ⟨w, hw⟩ := mem_putKeys.mp hput
        rw [Txn.apply_of_put hacc hw db] at hgone
        cases hgone
      have huntouched := applyOps_of_untouched (fun o ho hd => hno ⟨o, ho, hd⟩) hput db
      rw [← Txn.apply, hgone, hv] at huntouched
      cases huntouched
    obtain ⟨o, ho, hdel⟩ := hdeleted
    rcases h.of_deletes horder ho hdel with hremoved | ⟨e, he, _⟩
    · obtain ⟨copy, hcopy, rfl⟩ := removed_false.mp hremoved
      obtain ⟨dev', hdev', hbit'⟩ :=
        (hcopies copy hcopy).resolve_left (h.stored horder hholds hcopy)
      obtain rfl := Option.some.inj (hdev.symm.trans hdev')
      exact hstill.2 copy hcopy (hbit'.symm.trans hbit)
    · have hpath := hwell key dev hdev
      exact dev.path_not_map (hpath ▸ h.isMapKey key e he)

/-! ### Copies of other clients -/

section others
variable {t : Txn Stored} {db : Store Stored} (hacc : t.Accepted)
include hacc

/-- The copy of another client still holds when its key is not stored anew with other bits. -/
theorem SaveTxn.holds (ht : SaveTxn codec t) {copy : Device}
    (hput : ∀ dev, .put copy.path (.ofDevice dev) ∈ t.ops → dev.bit = copy.bit)
    (hcopy : Holds db copy) : Holds (t.apply db) copy := by
  obtain ⟨order, horder, st, saved, h, rfl⟩ := ht
  unfold Holds deviceAt
  rcases h.apply_cases horder hacc db copy.path with ⟨v, hv, happ⟩ | ⟨_, happ⟩
  · rw [happ]
    rcases h.of_put horder hv with ⟨dev, _, _, rfl⟩ | ⟨e, he, _⟩
    · exact Or.inr ⟨dev, rfl, hput dev hv⟩
    · exact absurd (h.isMapKey _ e he) copy.path_not_map
  · rw [happ]
    exact hcopy

theorem SaveTxn.wellStored (ht : SaveTxn codec t) (hdb : WellStored db) :
    WellStored (t.apply db) := by
  obtain ⟨order, horder, st, saved, h, rfl⟩ := ht
  intro key dev hdev
  rcases h.deviceAt_apply horder hacc hdev with ⟨_, hkey⟩ | hold
  · exact hkey.symm
  · exact hdb key dev hold

theorem DeleteTxn.holds {copies : List Device} (ht : DeleteTxn codec recursive copies t)
    {copy : Device} (hcopy : Holds db copy) : Holds (t.apply db) copy := by
  obtain ⟨order, horder, st, h, rfl⟩ := ht
  cases hafter : (deleteTxn codec order st).apply db copy.path with
  | none => exact Or.inl hafter
  | some v =>
      rcases applyOps_eq_some hafter with hbefore | hput
      · rcases hcopy with hnone | hdev
        · rw [hnone] at hbefore
          cases hbefore
        · refine Or.inr ?_
          unfold deviceAt at hdev ⊢
          rw [hafter, ← hbefore]
          exact hdev
      · obtain ⟨e, he, _⟩ := h.of_put horder hput
        exact absurd (h.isMapKey _ e he) copy.path_not_map

end others

end plan

end TupleNet.Control
