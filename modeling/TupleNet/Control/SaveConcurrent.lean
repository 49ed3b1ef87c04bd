import TupleNet.Control.Controller

/-! # Saves that run side by side

Any number of clients call `Save` on fresh devices.  `Consistent` says that a store records every
id and every address in its bitmap and that no two stored devices occupy the same bit.  The
transaction of a `Save` carries its own argument (`Plan`): the bits of its devices are distinct and
absent from the texts that were read, and the comparisons make sure that these texts are still
stored.  So every transaction that is committed keeps the store consistent, whatever happened
between the reads and the commit. -/

namespace TupleNet.Control

open TxnStore StepMachine

/-- A device as the constructors make it: the id of a switch or a router is not yet known. -/
def Device.Fresh : Device → Prop
  | switch s => s.id = 0
  | router r => r.id = 0
  | _ => True

/-- The bitmap that a store holds under a key; a missing one counts as empty. -/
def bits (codec : BitmapCodec) (db : Store Stored) (key : String) : IDMap :=
  codec.fromBase64 (((db key).map Stored.raw).getD "")

/-- The device stored under a key. -/
def deviceAt (db : Store Stored) (key : String) : Option Device := (db key).bind Stored.device

/-- Two devices do not occupy the same bit. -/
def Device.Apart (dev dev' : Device) : Prop := ∀ x, dev.bit = some x → dev'.bit ≠ some x

instance : Std.Symm Device.Apart := ⟨fun _ _ h x hx hx' => h x hx' hx⟩

/-- Every stored device has its bit set and no two have the same bit. -/
structure Consistent (codec : BitmapCodec) (db : Store Stored) : Prop where
  recorded : ∀ key dev book b, deviceAt db key = some dev → dev.bit = some (book, b) →
    b ∈ bits codec db book
  distinct : ∀ key key' dev dev', deviceAt db key = some dev → deviceAt db key' = some dev' →
    key ≠ key' → dev.Apart dev'

section plan
variable (codec : BitmapCodec)

/-- What a `Save` has collected after the devices `saved`. -/
structure Plan (st : TxnState) (saved : List Device) : Prop where
  cmps : st.cmps = saved.map (fun dev => .keyMissing dev.path)
  ops : st.ops = saved.map (fun dev => .put dev.path (.ofDevice dev))
  isMapKey : ∀ key e, st.idMaps.lookup key = some e → IsMapKey key
  grown : ∀ key e, st.idMaps.lookup key = some e → codec.fromBase64 e.oldVal ⊆ e.m
  small : ∀ key e, st.idMaps.lookup key = some e → ∀ x ∈ e.m, x < 2 ^ 32
  taken : ∀ dev ∈ saved, ∀ book b, dev.bit = some (book, b) →
    ∃ e, st.idMaps.lookup book = some e ∧ b ∈ e.m ∧ b ∉ codec.fromBase64 e.oldVal
  distinct : saved.Pairwise Device.Apart

/-- The entry is the local copy of the bitmap or has just been read. -/
def Current (st : TxnState) (key : String) (e : MapEntry) : Prop :=
  st.idMaps.lookup key = some e ∨ st.idMaps.lookup key = none ∧ e.m = codec.fromBase64 e.oldVal

variable {codec}

theorem idMapFor_issues {G : Txn Stored → Prop} {key : String} {st : TxnState}
    {next : MapEntry → Client} (h : ∀ e, Current codec st key e → (next e).Issues G) :
    (idMapFor codec key st next).Issues G := by
  unfold idMapFor
  split
  · next e he => exact h e (Or.inl he)
  · next he =>
      intro answer
      cases answer with
      | none => trivial
      | some value => exact h _ (Or.inr ⟨he, rfl⟩)

theorem Plan.empty : Plan codec .empty [] where
  cmps := rfl
  ops := rfl
  isMapKey := by simp [TxnState.empty]
  grown := by simp [TxnState.empty]
  small := by simp [TxnState.empty]
  taken := by simp
  distinct := List.Pairwise.nil

section extend
variable {st : TxnState} {saved : List Device} (h : Plan codec st saved)
include h

theorem Plan.create_cmps (dev : Device) : (st.create dev).cmps =
    (saved ++ [dev]).map (fun dev => .keyMissing dev.path) := by
  simp [TxnState.create, h.cmps]

theorem Plan.create_ops (dev : Device) : (st.create dev).ops =
    (saved ++ [dev]).map (fun dev => .put dev.path (.ofDevice dev)) := by
  simp [TxnState.create, h.ops]

/-- A device without a bit. -/
theorem Plan.create_plain {dev : Device} (hdev : dev.bit = none) :
    Plan codec (st.create dev) (saved ++ [dev]) where
  cmps := h.create_cmps dev
  ops := h.create_ops dev
  isMapKey := h.isMapKey
  grown := h.grown
  small := h.small
  taken := by
    intro d hd book b hb
    rcases List.mem_append.mp hd with hd | hd
    · exact h.taken d hd book b hb
    · rw [List.mem_singleton.mp hd, hdev] at hb
      cases hb
  distinct := by
    refine List.pairwise_append.mpr ⟨h.distinct, List.pairwise_singleton _ _, ?_⟩
    intro d _ d' hd' x _
    rw [List.mem_singleton.mp hd', hdev]
    nofun

/-- The bit of a saved device is in the current copy of its bitmap and not in the old one. -/
theorem Plan.mem_current {key : String} {e : MapEntry} (he : Current codec st key e)
    {dev : Device} (hd : dev ∈ saved) {b : ℕ} (hb : dev.bit = some (key, b)) :
    b ∈ e.m ∧ b ∉ codec.fromBase64 e.oldVal := by
  obtain ⟨e', he', hmem⟩ := h.taken dev hd key b hb
  rcases he with he | ⟨he, _⟩
  · obtain rfl := Option.some.inj (he'.symm.trans he)
    exact hmem
  · rw [he] at he'
    cases he'

/-- A device whose bit is free in the current copy of its bitmap. -/
theorem Plan.create_bit {key : String} {e : MapEntry} (he : Current codec st key e) {dev : Device}
    {b : ℕ} (hdev : dev.bit = some (key, b)) (hfree : b ∉ e.m) (hb : b < 2 ^ 32) :
    Plan codec ((st.setMap key ⟨insert b e.m, e.oldVal⟩).create dev) (saved ++ [dev]) := by
  have hlookup : ∀ k, ((st.setMap key ⟨insert b e.m, e.oldVal⟩).create dev).idMaps.lookup k =
      if k = key then some ⟨insert b e.m, e.oldVal⟩ else st.idMaps.lookup k :=
    fun k => Dict.lookup_insert_eq _ _ _ _
  have hgrown : codec.fromBase64 e.oldVal ⊆ e.m := by
    rcases he with he | ⟨_, he⟩
    · exact h.grown key e he
    · exact he.ge
  have hsmall : ∀ x ∈ e.m, x < 2 ^ 32 := by
    rcases he with he | ⟨_, he⟩
    · exact h.small key e he
    · exact he ▸ codec.fromBase64_lt _
  refine ⟨h.create_cmps dev, h.create_ops dev, fun k e' hk => ?_, fun k e' hk => ?_,
    fun k e' hk => ?_, fun d hd book b' hb' => ?_, ?_⟩
  · rw [hlookup] at hk
    split_ifs at hk with hkey
    · exact hkey ▸ Device.bit_isMapKey hdev
    · exact h.isMapKey k e' hk
  · rw [hlookup] at hk
    split_ifs at hk with hkey
    · obtain rfl := Option.some.inj hk
      exact hgrown.trans (Finset.subset_insert b e.m)
    · exact h.grown k e' hk
  · rw [hlookup] at hk
    split_ifs at hk with hkey
    · obtain rfl := Option.some.inj hk
      intro x hx
      rcases Finset.mem_insert.mp hx with rfl | hx
      · exact hb
      · exact hsmall x hx
    · exact h.small k e' hk
  · rw [hlookup]
    rcases List.mem_append.mp hd with hd | hd
    · split_ifs with hkey
      · obtain ⟨h1, h2⟩ := h.mem_current he hd (hkey ▸ hb')
        exact ⟨_, rfl, Finset.mem_insert_of_mem h1, h2⟩
      · exact h.taken d hd book b' hb'
    · rw [List.mem_singleton.mp hd, hdev] at hb'
      obtain ⟨rfl, rfl⟩ := Prod.mk.inj (Option.some.inj hb')
      rw [if_pos rfl]
      exact ⟨_, rfl, Finset.mem_insert_self b e.m, fun hold => hfree (hgrown hold)⟩
  · refine List.pairwise_append.mpr ⟨h.distinct, List.pairwise_singleton _ _, ?_⟩
    intro d hd d' hd' x hx hx'
    rw [List.mem_singleton.mp hd', hdev] at hx'
    obtain rfl := Option.some.inj hx'
    exact hfree (h.mem_current he hd hx).1

end extend

/-! ### Every transaction of a `Save` is a plan -/

variable (codec) in
/-- A transaction of `Save`. -/
def SaveTxn (t : Txn Stored) : Prop :=
  ∃ order : List (String × MapEntry) → List (String × MapEntry), (∀ l, (order l).Perm l) ∧
    ∃ st saved, Plan codec st saved ∧ t = saveTxn codec order st

variable {order : List (String × MapEntry) → List (String × MapEntry)}

theorem allocateID_issues {G : Txn Stored → Prop} {st : TxnState} {next : ℕ → TxnState → Client}
    (h : ∀ e id, Current codec st deviceIDsPath e → id ∉ e.m → id < 2 ^ 32 →
      (next id (st.setMap deviceIDsPath ⟨insert id e.m, e.oldVal⟩)).Issues G) :
    (allocateID codec st next).Issues G := by
  refine idMapFor_issues fun e he => ?_
  split
  · trivial
  · next id m hid =>
      obtain ⟨h1, h2, rfl⟩ := nextID_eq_some hid
      exact h e id he h1 (by omega)

theorem markIPUsed_issues {G : Txn Stored → Prop} {key ip : String} {st : TxnState}
    {next : TxnState → Client}
    (h : ∀ e x, Current codec st key e → iPv4ToU32 ip = some x → masked x ∉ e.m →
      masked x < 2 ^ 32 → (next (st.setMap key ⟨insert (masked x) e.m, e.oldVal⟩)).Issues G) :
    (markIPUsed codec key ip st next).Issues G := by
  refine idMapFor_issues fun e he => ?_
  split
  · trivial
  · next x hx =>
      split
      · trivial
      · next m hm =>
          obtain ⟨h1, rfl⟩ := occupyMasked_eq_some hm
          have h2 := masked_lt x
          exact h e x he hx h1 (by omega)

theorem saveLoop_issues (horder : ∀ l, (order l).Perm l) {devs : List Device}
    (hfresh : ∀ dev ∈ devs, dev.Fresh) {st : TxnState} {saved : List Device}
    (h : Plan codec st saved) : (saveLoop codec order devs st).Issues (SaveTxn codec) := by
  induction devs generalizing st saved with
  | nil =>
      refine ⟨⟨order, horder, st, saved, h, rfl⟩, fun r => ?_⟩
      cases r <;> trivial
  | cons dev devs ih =>
      have hrest : ∀ d ∈ devs, d.Fresh := fun d hd => hfresh d (List.mem_cons_of_mem _ hd)
      have hdev : dev.Fresh := hfresh dev List.mem_cons_self
      cases dev with
      | switch s =>
          rw [saveLoop, if_pos (show s.id = 0 from hdev)]
          exact allocateID_issues fun e id he h1 h2 => ih hrest (h.create_bit he rfl h1 h2)
      | router r =>
          rw [saveLoop, if_pos (show r.id = 0 from hdev)]
          exact allocateID_issues fun e id he h1 h2 => ih hrest (h.create_bit he rfl h1 h2)
      | switchPort p =>
          refine markIPUsed_issues fun e x he hx h1 h2 => ih hrest (h.create_bit he ?_ h1 h2)
          simp [Device.bit, hx]
      | routerPort p =>
          refine markIPUsed_issues fun e x he hx h1 h2 => ih hrest (h.create_bit he ?_ h1 h2)
          simp [Device.bit, hx]
      | chassis c => exact ih hrest (h.create_plain rfl)
      | staticRoute r => exact ih hrest (h.create_plain rfl)
      | nat n => exact ih hrest (h.create_plain rfl)

theorem save_issues (horder : ∀ l, (order l).Perm l) {devs : List Device}
    (hfresh : ∀ dev ∈ devs, dev.Fresh) : (save codec order devs).Issues (SaveTxn codec) :=
  saveLoop_issues horder hfresh Plan.empty

/-! ### What a committed `Save` does to the store -/

theorem mem_order (horder : ∀ l, (order l).Perm l) {st : TxnState} {key : String} {e : MapEntry} :
    (key, e) ∈ order st.idMaps.items ↔ st.idMaps.lookup key = some e :=
  (horder _).mem_iff.trans Dict.mem_items

theorem mem_saveOps {o : Op Stored} {key : String} {e : MapEntry} :
    o ∈ saveOps codec (key, e) ↔
      o = .put key (.ofText (codec.toBase64 e.m)) ∧
        (e.oldVal = "" ∨ codec.toBase64 e.m ≠ e.oldVal) := by
  simp only [saveOps]
  split_ifs with h
  · simp [h]
  · simp [h]

section effect
variable {st : TxnState} {saved : List Device} (h : Plan codec st saved)
  (horder : ∀ l, (order l).Perm l) {db : Store Stored}
include h horder

theorem Plan.mem_cmps {c : Cmp} : c ∈ (saveTxn codec order st).cmps ↔
    (∃ dev ∈ saved, c = .keyMissing dev.path) ∨
      ∃ key e, st.idMaps.lookup key = some e ∧ c = saveCmp (key, e) := by
  simp only [saveTxn, h.cmps, List.mem_append, List.mem_map, Prod.exists, mem_order horder,
    eq_comm (b := c)]

theorem Plan.mem_ops {o : Op Stored} : o ∈ (saveTxn codec order st).ops ↔
    (∃ dev ∈ saved, o = .put dev.path (.ofDevice dev)) ∨
      ∃ key e, st.idMaps.lookup key = some e ∧ o = .put key (.ofText (codec.toBase64 e.m)) ∧
        (e.oldVal = "" ∨ codec.toBase64 e.m ≠ e.oldVal) := by
  simp only [saveTxn, h.ops, List.mem_append, List.mem_map, List.mem_flatMap, Prod.exists,
    mem_order horder, mem_saveOps, eq_comm (b := o)]

theorem Plan.not_deletes {o : Op Stored} (ho : o ∈ (saveTxn codec order st).ops) (key : String) :
    ¬ o.Deletes key := by
  rcases (h.mem_ops horder).mp ho with ⟨dev, _, rfl⟩ | ⟨k, e, _, rfl, _⟩
  · exact id
  · exact id

/-- A key is put, or it keeps its value. -/
theorem Plan.apply_cases (hacc : (saveTxn codec order st).Accepted) (db : Store Stored)
    (key : String) :
    (∃ v, .put key v ∈ (saveTxn codec order st).ops ∧
        (saveTxn codec order st).apply db key = some v) ∨
      key ∉ putKeys (saveTxn codec order st).ops ∧
        (saveTxn codec order st).apply db key = db key := by
  by_cases hput : key ∈ putKeys (saveTxn codec order st).ops
  · obtain ⟨v, hv⟩ := mem_putKeys.mp hput
    exact Or.inl ⟨v, hv, Txn.apply_of_put hacc hv db⟩
  · exact Or.inr ⟨hput, applyOps_of_untouched (fun o ho => h.not_deletes horder ho key) hput db⟩

/-- What a put of the transaction writes. -/
theorem Plan.of_put {key : String} {v : Stored} (hv : .put key v ∈ (saveTxn codec order st).ops) :
    (∃ dev ∈ saved, key = dev.path ∧ v = .ofDevice dev) ∨
      ∃ e, st.idMaps.lookup key = some e ∧ v = .ofText (codec.toBase64 e.m) := by
  rcases (h.mem_ops horder).mp hv with ⟨dev, hdev, heq⟩ | ⟨k, e, he, heq, _⟩
  · obtain ⟨rfl, rfl⟩ := Op.put.inj heq
    exact Or.inl ⟨dev, hdev, rfl, rfl⟩
  · obtain ⟨rfl, rfl⟩ := Op.put.inj heq
    exact Or.inr ⟨e, he, rfl⟩

/-- A stored device has just been saved or was there before. -/
theorem Plan.deviceAt_apply (hacc : (saveTxn codec order st).Accepted) {key : String} {dev : Device}
    (hdev : deviceAt ((saveTxn codec order st).apply db) key = some dev) :
    dev ∈ saved ∧ key = dev.path ∨ deviceAt db key = some dev := by
  rw [deviceAt] at hdev
  rcases h.apply_cases horder hacc db key with ⟨v, hv, happ⟩ | ⟨_, happ⟩
  · rw [happ] at hdev
    rcases h.of_put horder hv with ⟨dev', hdev', hkey, rfl⟩ | ⟨e, _, rfl⟩
    · obtain rfl := Option.some.inj hdev
      exact Or.inl ⟨hdev', hkey⟩
    · cases hdev
  · rw [happ] at hdev
    exact Or.inr hdev

section holds
variable (hholds : (saveTxn codec order st).Holds Stored.raw db)
include hholds

/-- No key of a saved device was stored. -/
theorem Plan.missing {dev : Device} (hdev : dev ∈ saved) : db dev.path = none :=
  hholds (.keyMissing dev.path) ((h.mem_cmps horder).mpr (Or.inl ⟨dev, hdev, rfl⟩))

/-- The bitmap is stored as it was read. -/
theorem Plan.bits_before {key : String} {e : MapEntry} (he : st.idMaps.lookup key = some e) :
    bits codec db key = codec.fromBase64 e.oldVal := by
  have hc := hholds (saveCmp (key, e)) ((h.mem_cmps horder).mpr (Or.inr ⟨key, e, he, rfl⟩))
  unfold saveCmp at hc
  unfold bits
  split_ifs at hc with hold
  · have hmissing : db key = none := hc
    rw [hmissing, hold]
    rfl
  · have hvalue : (db key).map Stored.raw = some e.oldVal := hc
    rw [hvalue]
    rfl

/-- A device that was stored and one that is saved do not share a bit. -/
theorem Plan.old_apart (hdb : Consistent codec db) {key : String} {old dev : Device}
    (hold : deviceAt db key = some old) (hdev : dev ∈ saved) : old.Apart dev := by
  intro x hx hx'
  obtain ⟨e, he, _, hfree⟩ := h.taken dev hdev x.1 x.2 hx'
  have hmem := hdb.recorded key old x.1 x.2 hold hx
  rw [h.bits_before horder hholds he] at hmem
  exact hfree hmem

variable (hacc : (saveTxn codec order st).Accepted)
include hacc

/-- Afterwards the bitmap is the one that `Save` has computed. -/
theorem Plan.bits_after {key : String} {e : MapEntry} (he : st.idMaps.lookup key = some e) :
    bits codec ((saveTxn codec order st).apply db) key = e.m := by
  have hcodec := codec.fromBase64_toBase64 e.m (h.small key e he)
  rcases h.apply_cases horder hacc db key with ⟨v, hv, happ⟩ | ⟨hno, happ⟩
  · rcases h.of_put horder hv with ⟨dev, _, hkey, _⟩ | ⟨e', he', rfl⟩
    · exact absurd (hkey ▸ h.isMapKey key e he) dev.path_not_map
    · obtain rfl := Option.some.inj (he'.symm.trans he)
      rw [bits, happ]
      exact hcodec
  · -- nothing was put because the text has not changed
    have hsame : codec.toBase64 e.m = e.oldVal := by
      by_contra hne
      exact hno (mem_putKeys.mpr
        ⟨_, (h.mem_ops horder).mpr (Or.inr ⟨key, e, he, rfl, Or.inr hne⟩)⟩)
    have hbefore := h.bits_before horder hholds he
    rw [bits] at hbefore ⊢
    rw [happ, hbefore, ← hsame, hcodec]

/-- No bit of a bitmap gets lost. -/
theorem Plan.bits_mono {key : String} (hkey : IsMapKey key) :
    bits codec db key ⊆ bits codec ((saveTxn codec order st).apply db) key := by
  cases he : st.idMaps.lookup key with
  | some e =>
      rw [h.bits_before horder hholds he, h.bits_after horder hholds hacc he]
      exact h.grown key e he
  | none =>
      rcases h.apply_cases horder hacc db key with ⟨v, hv, _⟩ | ⟨_, happ⟩
      · rcases h.of_put horder hv with ⟨dev, _, rfl, _⟩ | ⟨e, he', _⟩
        · exact absurd hkey dev.path_not_map
        · rw [he] at he'
          cases he'
      · rw [bits, bits, happ]

/-- A stored key keeps its value unless it is the key of a bitmap. -/
theorem Plan.not_overwritten {key : String} {v : Stored} (hv : db key = some v)
    (hkey : ¬ IsMapKey key) : (saveTxn codec order st).apply db key = some v := by
  rcases h.apply_cases horder hacc db key with ⟨v', hv', _⟩ | ⟨_, happ⟩
  · rcases h.of_put horder hv' with ⟨dev, hdev, rfl, _⟩ | ⟨e, he, _⟩
    · rw [h.missing horder hholds hdev] at hv
      cases hv
    · exact absurd (h.isMapKey key e he) hkey
  · rw [happ, hv]

theorem Plan.consistent (hdb : Consistent codec db) :
    Consistent codec ((saveTxn codec order st).apply db) where
  recorded := by
    intro key dev book b hdev hb
    rcases h.deviceAt_apply horder hacc hdev with ⟨hsaved, _⟩ | hold
    · obtain ⟨e, he, hmem, _⟩ := h.taken dev hsaved book b hb
      rw [h.bits_after horder hholds hacc he]
      exact hmem
    · exact h.bits_mono horder hholds hacc (Device.bit_isMapKey hb)
        (hdb.recorded key dev book b hold hb)
  distinct := by
    intro key key' dev dev' hdev hdev' hne
    rcases h.deviceAt_apply horder hacc hdev with ⟨h1, hk⟩ | h1 <;>
      rcases h.deviceAt_apply horder hacc hdev' with ⟨h2, hk'⟩ | h2
    · have hne' : dev ≠ dev' := fun heq => hne (by rw [hk, hk', heq])
      exact h.distinct.forall h1 h2 hne'
    · exact Std.Symm.symm _ _ (h.old_apart horder hholds hdb h2 h1)
    · exact h.old_apart horder hholds hdb h1 h2
    · exact hdb.distinct key key' dev dev' h1 h2 hne

end holds

end effect

/-! ### Any number of clients -/

/-- What the transaction of a `Save` does to a consistent store. -/
theorem SaveTxn.sound {t : Txn Stored} (ht : SaveTxn codec t) {db : Store Stored}
    (hacc : t.Accepted) (hholds : t.Holds Stored.raw db) (hdb : Consistent codec db) :
    Consistent codec (t.apply db) ∧
      (∀ key v, db key = some v → ¬ IsMapKey key → t.apply db key = some v) ∧
      ∀ key, IsMapKey key → bits codec db key ⊆ bits codec (t.apply db) key := by
  obtain ⟨order, horder, st, saved, h, rfl⟩ := ht
  exact ⟨h.consistent horder hholds hacc hdb,
    fun key v hv hkey => h.not_overwritten horder hholds hacc hv hkey,
    fun key hkey => h.bits_mono horder hholds hacc hkey⟩

end plan

section clients
variable {codec : BitmapCodec} {order : ℕ → List (String × MapEntry) → List (String × MapEntry)}
  {db : Store Stored} {devs : ℕ → List Device} {s : System Stored Outcome} {as : List (ℕ × Bool)}

/-- The clients `i`, each of them with a `Save` of `devs i`. -/
def saves (codec : BitmapCodec)
    (order : ℕ → List (String × MapEntry) → List (String × MapEntry)) (devs : ℕ → List Device)
    (i : ℕ) : Client :=
  save codec (order i) (devs i)

theorem saves_run (horder : ∀ i l, (order i l).Perm l) (hfresh : ∀ i, ∀ dev ∈ devs i, dev.Fresh)
    (hdb : Consistent codec db)
    (hrun : run (System.step Stored.raw) (System.start db (saves codec order devs)) as = some s) :
    (∀ i, (s.prog i).Issues (SaveTxn codec)) ∧ Consistent codec s.db :=
  System.run_store_invariant (fun _ _ hdb ht hacc hholds => (ht.sound hacc hholds hdb).1)
    (fun i => save_issues (horder i) (hfresh i)) hdb hrun

/-- **Concurrent saves**: in every interleaving the store stays consistent, no key but those of the
bitmaps is overwritten, the bitmaps only grow, and a client that has not ended well has changed
nothing. -/
theorem saves_sound (horder : ∀ i l, (order i l).Perm l)
    (hfresh : ∀ i, ∀ dev ∈ devs i, dev.Fresh) (hdb : Consistent codec db)
    (hrun : run (System.step Stored.raw) (System.start db (saves codec order devs)) as = some s) :
    Consistent codec s.db ∧
    (∀ a s', System.step Stored.raw s a = some s' →
      (∀ key v, s.db key = some v → ¬ IsMapKey key → s'.db key = some v) ∧
      ∀ key, IsMapKey key → bits codec s.db key ⊆ bits codec s'.db key) ∧
    ∀ as₁ a as₂ s₁ s₂, as = as₁ ++ a :: as₂ →
      run (System.step Stored.raw) (System.start db (saves codec order devs)) as₁ = some s₁ →
      System.step Stored.raw s₁ a = some s₂ → s.prog a.1 ≠ .ret .ok → s₂.db = s₁.db := by
  obtain ⟨hissues, hcons⟩ := saves_run horder hfresh hdb hrun
  refine ⟨hcons, fun a s' hstep => ?_, ?_⟩
  · rcases System.step_db (hissues a.1) hstep with ⟨heq, _⟩ | ⟨t, ht, hacc, hholds, heq, _⟩
    · rw [heq]
      exact ⟨fun key v hv _ => hv, fun key _ => Finset.Subset.refl _⟩
    · rw [heq]
      exact (ht.sound hacc hholds hcons).2
  · rintro as₁ a as₂ s₁ s₂ rfl hrun₁ hstep hres
    obtain ⟨t₁, h₁, h₂⟩ := (run_append _).mp hrun
    obtain ⟨t₂, h₂, h₃⟩ := (run_cons_eq_some _).mp h₂
    obtain rfl := Option.some.inj (h₁.symm.trans hrun₁)
    obtain rfl := Option.some.inj (h₂.symm.trans hstep)
    refine System.run_unchanged (Q := (· = .ok)) (fun i => save_oneCommit (devs i)) hrun₁ hstep h₃
      ?_
    rintro r hr rfl
    exact hres hr

end clients

/-! ### Two clients and one switch -/

/-- A store with the switch `a`. -/
def oneSwitchStore : Store Stored := fun key =>
  if key = deviceIDsPath then some (.ofText "OjAAAAEAAAAAAAAAEAAAAAEA")
  else if key = switchPath "a" then some (.ofDevice (.switch ⟨"a", 1⟩))
  else none

theorem oneSwitchStore_deviceAt {key : String} {dev : Device}
    (h : deviceAt oneSwitchStore key = some dev) :
    key = switchPath "a" ∧ dev = .switch ⟨"a", 1⟩ := by
  unfold deviceAt oneSwitchStore at h
  split_ifs at h with h1 h2
  · cases h
  · exact ⟨h2, (Option.some.inj h).symm⟩
  · cases h

theorem oneSwitchStore_consistent : Consistent sampleCodec oneSwitchStore where
  recorded := by
    intro key dev book b hdev hb
    obtain ⟨_, rfl⟩ := oneSwitchStore_deviceAt hdev
    obtain ⟨rfl, rfl⟩ := Prod.mk.inj (Option.some.inj hb)
    decide
  distinct := by
    intro key key' dev dev' hdev hdev' hne
    exact absurd ((oneSwitchStore_deviceAt hdev).1.trans (oneSwitchStore_deviceAt hdev').1.symm) hne

/-- One client saves a switch with a port, another one a switch. -/
def twoSaves : ℕ → List Device
  | 0 => [.switch ⟨"b", 0⟩, .switchPort ⟨"b", "p", "10.0.0.1", "02:00:0a:00:00:01", "", ""⟩]
  | 1 => [.switch ⟨"c", 0⟩]
  | _ => []

theorem twoSaves_fresh (i : ℕ) : ∀ dev ∈ twoSaves i, dev.Fresh := by
  match i with
  | 0 => simp [twoSaves, Device.Fresh]
  | 1 => simp [twoSaves, Device.Fresh]
  | _ + 2 => simp [twoSaves]

/-- Both read the ids before the first one commits. -/
def twoSavesSteps : List (ℕ × Bool) := [(0, true), (1, true), (0, true), (0, true), (1, true)]

/-- The first `n` of these steps. -/
def twoSavesRun (n : ℕ) : Option (System Stored Outcome) :=
  run (System.step Stored.raw)
    (System.start oneSwitchStore (saves sampleCodec (fun _ l => l) twoSaves))
    (twoSavesSteps.take n)

theorem saves_sound_twoSaves : ∃ s, twoSavesRun 5 = some s ∧ Consistent sampleCodec s.db ∧
    bits sampleCodec s.db deviceIDsPath = {1, 2} ∧
    deviceAt s.db (switchPath "b") = some (.switch ⟨"b", 2⟩) ∧ s.db (switchPath "c") = none := by
  obtain ⟨s, hs⟩ := Option.isSome_iff_exists.mp
    (show (twoSavesRun 5).isSome from by decide +kernel)
  have hstored : ∀ s ∈ twoSavesRun 5, bits sampleCodec s.db deviceIDsPath = {1, 2} ∧
      deviceAt s.db (switchPath "b") = some (.switch ⟨"b", 2⟩) ∧
      s.db (switchPath "c") = none := by decide +kernel
  exact ⟨s, hs, (saves_sound (fun _ l => List.Perm.refl l) twoSaves_fresh
    oneSwitchStore_consistent hs).1, hstored s hs⟩

/-- A `Save` does overwrite stored keys: those of the bitmaps. -/
theorem saves_overwrite_bitmap : ¬ ∀ (codec : BitmapCodec)
    (order : ℕ → List (String × MapEntry) → List (String × MapEntry)) (db : Store Stored)
    (devs : ℕ → List Device) (as : List (ℕ × Bool)) (s s' : System Stored Outcome) (a : ℕ × Bool),
    (∀ i l, (order i l).Perm l) → (∀ i, ∀ dev ∈ devs i, dev.Fresh) → Consistent codec db →
    run (System.step Stored.raw) (System.start db (saves codec order devs)) as = some s →
    System.step Stored.raw s a = some s' →
    ∀ key v, s.db key = some v → s'.db key = some v := by
  intro h
  obtain ⟨s', hs'⟩ := Option.isSome_iff_exists.mp
    (show (twoSavesRun 4).isSome from by decide +kernel)
  obtain ⟨s, hs, hlast⟩ := (run_append _).mp
    (show run _ _ (twoSavesSteps.take 3 ++ [(0, true)]) = some s' from hs')
  obtain ⟨s₁, hstep, hend⟩ := (run_cons_eq_some _).mp hlast
  obtain rfl := Option.some.inj hend
  have hbefore : ∀ s ∈ twoSavesRun 3, s.db deviceIDsPath =
      some (.ofText "OjAAAAEAAAAAAAAAEAAAAAEA") := by decide +kernel
  have hafter : ∀ s ∈ twoSavesRun 4, s.db deviceIDsPath ≠
      some (.ofText "OjAAAAEAAAAAAAAAEAAAAAEA") := by decide +kernel
  exact hafter s₁ hs' (h sampleCodec (fun _ l => l) oneSwitchStore twoSaves _ s s₁ (0, true)
    (fun _ l => List.Perm.refl l) twoSaves_fresh oneSwitchStore_consistent hs hstep
    deviceIDsPath _ (hbefore s hs))

end TupleNet.Control
