import TupleNet.Control.Ownership
import TupleNet.Control.PortAllocation

/-! # Rebuilding the bitmaps

`SyncDeviceID` and `RebuildIPBooks` read a bitmap, list the devices, and write the bitmap of what
they have listed by a compare-and-swap on its old text.  `Upkeep` runs one such call among clients
that save and delete devices.  The comparison says that the text is the old one, not that it has
always been: when other clients change the bitmap and change it back, a device that was saved in
between may be missing in what is written.  If no transaction gives the bitmap the old text back
after a listing, or stores a device of a listed kind without a change of the bitmap, every write is
complete (`rebuilt_complete`). -/

namespace TupleNet.Control

open TxnStore StepMachine

/-! ### What is listed -/

/-- The devices of a listing; the loop over the Go map of `getKVs` runs in some order. -/
def getDevices (visit : List (String × String) → List (String × String)) (s : KeyedStore Stored)
    (l : Listing) : List Device :=
  (visit (listed s l)).map (fun kv => unmarshalTuplenet kv.2 (l.struct kv.1))

/-- A device is stored as it has been saved. -/
def Saved (db : Store Stored) (dev : Device) : Prop := db dev.path = some (.ofDevice dev)

instance (db : Store Stored) (dev : Device) : Decidable (Saved db dev) :=
  inferInstanceAs (Decidable (_ = _))

/-- A listing finds the device and reads its bit. -/
def Device.Seen (dev : Device) : Prop :=
  '/' ∉ dev.name.toList ∧ (unmarshalTuplenet (marshalTuplenet dev) dev.fresh).bit = dev.bit

instance : DecidablePred Device.Seen := fun _ => inferInstanceAs (Decidable (_ ∧ _))

/-! ### The bitmaps that are written -/

/-- The address of a port. -/
def Device.ip : Device → String
  | switchPort p => p.ip
  | routerPort p => p.ip
  | _ => ""

/-- The loop of `RebuildIPBooks` over the ports of a device: an error when a bit is set already. -/
def occupyPorts : List Device → IDMap → Except Outcome IDMap
  | [], m => .ok m
  | p :: ports, m => match iPv4ToU32 p.ip with
      | none => .error .panic
      | some x => match occupyMasked m x with
          | none => .error .error
          | some m => occupyPorts ports m

/-- The comparison of a write: the key has the old text, or is missing if that is empty. -/
def casCmp (key oldVal : String) : Cmp :=
  if oldVal = "" then .keyMissing key else .valueIs key oldVal

/-- The transaction of a write. -/
def casTxn (key oldVal newVal : String) : Txn Stored where
  cmps := [casCmp key oldVal]
  ops := [.put key (.ofText newVal)]

/-! ### What the lists and the bitmaps contain -/

section contents
variable {visit : List (String × String) → List (String × String)} {s : KeyedStore Stored}
  {l : Listing}

theorem Listing.struct_name (dev : Device) : dev.listing.struct dev.name = dev.fresh := by
  cases dev <;> rfl

/-- A device that can be seen is in the list of its kind with its bit. -/
theorem exists_getDevices (hvisit : ∀ l, (visit l).Perm l) {dev : Device} (hdev : Saved s.db dev)
    (hseen : dev.Seen) (hl : dev.listing = l) : ∃ d ∈ getDevices visit s l, d.bit = dev.bit := by
  subst hl
  obtain ⟨hname, hbit⟩ := hseen
  have hrange : (dev.path, marshalTuplenet dev) ∈ s.range Stored.raw dev.listing.path := by
    rw [KeyedStore.mem_range, hdev, dev.path_eq_listing, String.toList_append]
    exact ⟨List.prefix_append _ _, rfl⟩
  have hlisted : (dev.name, marshalTuplenet dev) ∈ listed s dev.listing := by
    refine List.mem_filterMap.mpr ⟨_, hrange, ?_⟩
    rw [dev.listed_iff.mpr hname, Option.map_some]
  refine ⟨_, List.mem_map.mpr ⟨_, (hvisit _).mem_iff.mpr hlisted, rfl⟩, ?_⟩
  rw [Listing.struct_name, hbit]

theorem Device.sized_setField (key value : String) {dev : Device} (h : dev.Sized) :
    (dev.setField key value).Sized := by
  have hmod : ∀ n w : ℕ, n % 2 ^ w < 2 ^ w := fun n w => Nat.mod_lt n (Nat.two_pow_pos w)
  cases dev <;> simp only [setField, Sized] at h ⊢ <;> split_ifs <;>
    first | exact h | exact hmod _ _

theorem getDevices_sized {d : Device} (h : d ∈ getDevices visit s l) : d.Sized := by
  obtain ⟨kv, _, rfl⟩ := List.mem_map.mp h
  have hstruct : (l.struct kv.1).Sized := by
    cases l <;> first | trivial | exact Nat.two_pow_pos _
  rw [Device.unmarshal_eq]
  exact foldl_split_preserves (P := Device.Sized) _ (fun d kv _ hd => d.sized_setField _ _ hd) kv.2
    _ hstruct

theorem mem_occupyIDs {devs : List Device} {b : ℕ} :
    b ∈ occupyIDs devs ↔ ∃ d ∈ devs, d.id = b := by
  have hfold : ∀ m : IDMap, b ∈ devs.foldl (fun m dev => insert dev.id m) m ↔
      b ∈ m ∨ ∃ d ∈ devs, d.id = b := by
    induction devs with
    | nil => simp
    | cons d devs ih =>
        intro m
        rw [List.foldl_cons, ih, Finset.mem_insert, List.exists_mem_cons_iff, eq_comm, or_assoc,
          or_left_comm]
  rw [occupyIDs, hfold]
  simp

theorem occupyPorts_eq_ok {ports : List Device} {m m' : IDMap} (h : occupyPorts ports m = .ok m')
    (b : ℕ) : b ∈ m' ↔ b ∈ m ∨ ∃ p ∈ ports, ∃ x, iPv4ToU32 p.ip = some x ∧ masked x = b := by
  induction ports generalizing m with
  | nil =>
      rw [occupyPorts] at h
      rw [Except.ok.inj h]
      simp
  | cons p ports ih =>
      rw [occupyPorts] at h
      cases hx : iPv4ToU32 p.ip with
      | none => simp [hx] at h
      | some x =>
          simp only [hx] at h
          cases hm : occupyMasked m x with
          | none => simp [hm] at h
          | some m₁ =>
              simp only [hm] at h
              obtain ⟨_, rfl⟩ := occupyMasked_eq_some hm
              rw [ih h, Finset.mem_insert, List.exists_mem_cons_iff, hx]
              simp only [Option.some.injEq, exists_eq_left', or_left_comm, or_assoc,
                eq_comm (a := b)]

/-- The devices of the bitmap of ids. -/
theorem Device.of_bit_ids {dev : Device} {b : ℕ} (h : dev.bit = some (deviceIDsPath, b)) :
    (dev.listing = .getRouters ∨ dev.listing = .getSwitches) ∧ dev.id = b := by
  have hbook : ∀ {x : Option ℕ} {book : String}, book.toList[1]? = some 'i' →
      x.map (fun x => (book, masked x)) ≠ some (deviceIDsPath, b) := by
    intro x book hbook heq
    obtain ⟨_, _, hx⟩ := Option.map_eq_some_iff.mp heq
    rw [(Prod.mk.inj hx).1] at hbook
    exact absurd hbook (by decide)
  cases dev with
  | switch s => exact ⟨Or.inr rfl, (Prod.mk.inj (Option.some.inj h)).2⟩
  | router r => exact ⟨Or.inl rfl, (Prod.mk.inj (Option.some.inj h)).2⟩
  | switchPort p => exact absurd h (hbook (switchIPBookPath_start p.owner).2)
  | routerPort p => exact absurd h (hbook (routerIPBookPath_start p.owner).2)
  | chassis c => cases h
  | staticRoute r => cases h
  | nat n => cases h

theorem Device.id_lt {dev : Device} (h : dev.Sized) : dev.id < 2 ^ 32 := by
  cases dev <;> first | exact h | exact Nat.two_pow_pos _

end contents

/-! ### The calls -/

/-- What the two loops of `RebuildIPBooks` go over. -/
inductive OwnerKind where
  | routers
  | switches
deriving DecidableEq, Repr

namespace OwnerKind

def listing : OwnerKind → Listing
  | routers => .getRouters
  | switches => .getSwitches

def ipBookPath : OwnerKind → String → String
  | routers => routerIPBookPath
  | switches => switchIPBookPath

def ports : OwnerKind → String → Listing
  | routers => .getRouterPorts
  | switches => .getSwitchPorts

/-- The devices of a book. -/
theorem of_bit_book {kind : OwnerKind} {owner : String} {dev : Device} {b : ℕ}
    (h : dev.bit = some (kind.ipBookPath owner, b)) :
    dev.listing = kind.ports owner ∧ ∃ x, iPv4ToU32 dev.ip = some x ∧ masked x = b := by
  have hkey : (kind.ipBookPath owner).toList[1]? = some 'i' := by
    cases kind with
    | routers => exact (routerIPBookPath_start owner).2
    | switches => exact (switchIPBookPath_start owner).2
  have hip : ∀ {x : Option ℕ} {book : String}, x.map (fun x => (book, masked x)) =
      some (kind.ipBookPath owner, b) → ∃ y, x = some y ∧ masked y = b := by
    intro x book hx
    obtain ⟨y, hy, heq⟩ := Option.map_eq_some_iff.mp hx
    exact ⟨y, hy, (Prod.mk.inj heq).2⟩
  rcases Device.owner_of_bit h hkey with ⟨p, rfl, hbook⟩ | ⟨p, rfl, hbook⟩
  · refine ⟨?_, hip h⟩
    cases kind with
    | routers =>
        have hR := (routerIPBookPath_start owner).1
        rw [ipBookPath] at hbook
        rw [hbook, (switchIPBookPath_start p.owner).1] at hR
        cases hR
    | switches => rw [ports, switchIPBookPath_inj hbook]; rfl
  · refine ⟨?_, hip h⟩
    cases kind with
    | routers =>
        have hlist := congrArg String.toList hbook
        simp only [ipBookPath, routerIPBookPath, String.toList_append] at hlist
        rw [ports, String.toList_inj.mp (List.append_cancel_left hlist)]
        rfl
    | switches =>
        have hS := (switchIPBookPath_start owner).1
        rw [ipBookPath] at hbook
        rw [hbook, (routerIPBookPath_start p.owner).1] at hS
        cases hS

end OwnerKind

/-- What the call does next, with its local variables. -/
inductive RebuildStage where
  /-- `SyncDeviceID` reads the bitmap of ids. -/
  | readIDs (forceSync : Bool)
  | getRouters (val : String)
  | getSwitches (val : String) (routers : List Device)
  /-- `RebuildIPBooks` lists the routers or the switches. -/
  | getOwners (kind : OwnerKind)
  /-- The books of the owner and of the remaining ones are to be rebuilt. -/
  | readBook (kind : OwnerKind) (owner : String) (rest : List String)
  | getPorts (kind : OwnerKind) (owner : String) (rest : List String) (oldVal : String)
  /-- Write a bitmap that has been made of these listings and go on. -/
  | write (key oldVal newVal : String) (lists : List (Listing × List Device)) (next : RebuildStage)
  | returned (r : Outcome)

namespace RebuildStage

/-- A bitmap in the making, once devices have been listed for it: its old text and the listings. -/
structure Draft where
  key : String
  oldVal : String
  lists : List (Listing × List Device)

def draft : RebuildStage → Option Draft
  | getSwitches val routers => some ⟨deviceIDsPath, val, [(.getRouters, routers)]⟩
  | write key oldVal _ lists _ => some ⟨key, oldVal, lists⟩
  | _ => none

/-- The transaction that is issued next. -/
def nextWrite : RebuildStage → Option (Txn Stored)
  | write key oldVal newVal _ _ => some (casTxn key oldVal newVal)
  | _ => none

/-- The listing that is made next for a bitmap. -/
def nextListing : RebuildStage → Option Listing
  | getRouters _ => some .getRouters
  | getSwitches _ _ => some .getSwitches
  | getPorts kind owner _ _ => some (kind.ports owner)
  | _ => none

theorem nextWrite_eq_some {stage : RebuildStage} {t : Txn Stored} (h : stage.nextWrite = some t) :
    ∃ key oldVal newVal lists next, stage = write key oldVal newVal lists next ∧
      t = casTxn key oldVal newVal := by
  cases stage with
  | write key oldVal newVal lists next =>
      exact ⟨key, oldVal, newVal, lists, next, rfl, (Option.some.inj h).symm⟩
  | readIDs _ => cases h
  | getRouters _ => cases h
  | getSwitches _ _ => cases h
  | getOwners _ => cases h
  | readBook _ _ _ => cases h
  | getPorts _ _ _ _ => cases h
  | returned _ => cases h

end RebuildStage

/-- The calls. -/
inductive RebuildCall where
  | syncDeviceID (forceSync : Bool)
  | rebuildIPBooks
deriving DecidableEq, Repr

/-- How a call begins. -/
def RebuildCall.stage : RebuildCall → RebuildStage
  | syncDeviceID forceSync => .readIDs forceSync
  | rebuildIPBooks => .getOwners .routers

/-- What another client does. -/
inductive Work where
  | save (devs : List Device)
  | delete (recursive : Bool) (devs : List Device)

/-- The devices that are deleted. -/
def Work.copies : Work → List Device
  | save _ => []
  | delete _ devs => devs

/-- The other clients with the store, and the call. -/
structure Upkeep where
  sys : RangeSystem Stored Outcome
  stage : RebuildStage

/-- The next book, or the next loop. -/
def nextBook (kind : OwnerKind) : List String → RebuildStage
  | owner :: rest => .readBook kind owner rest
  | [] => match kind with
      | .routers => .getOwners .switches
      | .switches => .returned .ok

namespace Upkeep

section machine
variable (codec : BitmapCodec) (order : ℕ → List (String × MapEntry) → List (String × MapEntry))
  (visit : List (String × String) → List (String × String))

/-- Nobody has moved yet. -/
def start (s : KeyedStore Stored) (call : RebuildCall) (jobs : ℕ → Work) : Upkeep where
  sys :=
    { store := s
      prog := fun i => match jobs i with
        | .save devs => .ofProg (save codec (order i) devs)
        | .delete recursive devs => .ofProg (delete codec (order i) recursive devs) }
  stage := call.stage

def enter (s : Upkeep) (stage : RebuildStage) : Upkeep := { s with stage := stage }

/-- One read, one listing or one transaction of the call. -/
def rebuildStep (s : Upkeep) (answer : Bool) : Option Upkeep :=
  match s.stage with
  | .readIDs forceSync =>
      if answer then
        let val := rawAt s.sys.store.db deviceIDsPath
        if val ≠ "" ∧ forceSync = false then some (s.enter (.returned .ok))
        else some (s.enter (.getRouters val))
      else some (s.enter (.returned .error))
  | .getRouters val =>
      if answer then some (s.enter (.getSwitches val (getDevices visit s.sys.store .getRouters)))
      else some (s.enter (.returned .error))
  | .getSwitches val routers =>
      if answer then
        let switches := getDevices visit s.sys.store .getSwitches
        some (s.enter (.write deviceIDsPath val (codec.toBase64 (occupyIDs (routers ++ switches)))
          [(.getRouters, routers), (.getSwitches, switches)] (.returned .ok)))
      else some (s.enter (.returned .error))
  | .getOwners kind =>
      if answer then
        some (s.enter (nextBook kind ((getDevices visit s.sys.store kind.listing).map Device.name)))
      else some (s.enter (.returned .error))
  | .readBook kind owner rest =>
      -- the error of this read is ignored
      let oldVal := if answer then rawAt s.sys.store.db (kind.ipBookPath owner) else ""
      some (s.enter (.getPorts kind owner rest oldVal))
  | .getPorts kind owner rest oldVal =>
      if answer then
        let ports := getDevices visit s.sys.store (kind.ports owner)
        match occupyPorts ports ∅ with
        | .error r => some (s.enter (.returned r))
        | .ok ipBook =>
            let newVal := codec.toBase64 ipBook
            if newVal ≠ oldVal then
              some (s.enter (.write (kind.ipBookPath owner) oldVal newVal
                [(kind.ports owner, ports)] (nextBook kind rest)))
            else some (s.enter (nextBook kind rest))
      else some (s.enter (.returned .error))
  | .write key oldVal newVal _ next =>
      let t := casTxn key oldVal newVal
      if answer ∧ t.Holds Stored.raw s.sys.store.db then
        some { s.enter next with sys := { s.sys with store := s.sys.store.commit t } }
      else some (s.enter (.returned .error))
  | .returned _ => none

/-- One step of the call, or of another client. -/
def step (s : Upkeep) (a : Option ℕ × Bool) : Option Upkeep :=
  match a.1 with
  | none => rebuildStep codec visit s a.2
  | some i => (RangeSystem.step Stored.raw s.sys (i, a.2)).map (fun sys => { s with sys := sys })

end machine

/-! ### Complete writes -/

/-- The call commits this transaction if it moves now and gets an answer. -/
def Writes (s : Upkeep) (t : Txn Stored) : Prop :=
  s.stage.nextWrite = some t ∧ t.Holds Stored.raw s.sys.store.db

/-- A bitmap that is put has the bit of every stored device that belongs to it. -/
def Complete (codec : BitmapCodec) (db : Store Stored) (t : Txn Stored) : Prop :=
  ∀ key v, .put key v ∈ t.ops → ∀ dev b, Saved db dev → dev.bit = some (key, b) →
    b ∈ codec.fromBase64 v.raw

/-- A `Delete` that commits deletes what is stored. -/
def DeletesCurrent (jobs : ℕ → Work) (s : Upkeep) (a : Option ℕ × Bool) : Prop :=
  ∀ i ∈ a.1, ∀ _t ∈ s.sys.committed Stored.raw (i, a.2), ∀ dev ∈ (jobs i).copies,
    Saved s.sys.store.db dev

instance (jobs : ℕ → Work) (s : Upkeep) (a : Option ℕ × Bool) :
    Decidable (DeletesCurrent jobs s a) :=
  inferInstanceAs (Decidable (∀ i ∈ a.1, ∀ _t ∈ _, _))

/-- The device that an operation stores. -/
def stores : Op Stored → Option Device
  | .put _ v => v.device
  | _ => none

/-- The bitmap has the old text after a transaction only if it has had it before. -/
def NotRestored (g : RebuildStage.Draft) (db : Store Stored) (t : Txn Stored) : Prop :=
  (casCmp g.key g.oldVal).Holds Stored.raw (t.apply db) → (casCmp g.key g.oldVal).Holds Stored.raw
  db

instance (g : RebuildStage.Draft) (db : Store Stored) (t : Txn Stored) :
    Decidable (NotRestored g db t) := inferInstanceAs (Decidable (_ → _))

/-- A transaction stores a device of the bitmap and of a listed kind only if the bitmap has another
text afterwards. -/
def Marked (g : RebuildStage.Draft) (db : Store Stored) (t : Txn Stored) : Prop :=
  (casCmp g.key g.oldVal).Holds Stored.raw (t.apply db) →
    ∀ o ∈ t.ops, ∀ dev ∈ stores o, dev.bit.map Prod.fst = some g.key →
      ∀ l ∈ g.lists, dev.listing ≠ l.1

instance (g : RebuildStage.Draft) (db : Store Stored) (t : Txn Stored) :
    Decidable (Marked g db t) :=
  inferInstanceAs (Decidable (_ → ∀ o ∈ t.ops, ∀ dev ∈ stores o, _ → ∀ l ∈ g.lists, _))

/-- Every stored device of a kind is seen by a listing of this kind. -/
def AllSeen (s : KeyedStore Stored) (l : Listing) : Prop :=
  ∀ key ∈ s.keys, ∀ dev ∈ deviceAt s.db key, dev.listing = l → dev.Seen

instance (s : KeyedStore Stored) (l : Listing) : Decidable (AllSeen s l) :=
  inferInstanceAs (Decidable (∀ key ∈ s.keys, ∀ dev ∈ deviceAt s.db key, _ → _))

/-- No client gives the bitmap its old text back after a listing. -/
def Unrestored (s : Upkeep) (a : Option ℕ × Bool) : Prop :=
  ∀ i ∈ a.1, ∀ t ∈ s.sys.committed Stored.raw (i, a.2), ∀ g ∈ s.stage.draft,
    NotRestored g s.sys.store.db t

instance (s : Upkeep) (a : Option ℕ × Bool) : Decidable (s.Unrestored a) :=
  inferInstanceAs (Decidable (∀ i ∈ a.1, ∀ t ∈ _, ∀ g ∈ s.stage.draft, _))

/-- No client stores a device of a listed kind without a change of the bitmap. -/
def AllMarked (s : Upkeep) (a : Option ℕ × Bool) : Prop :=
  ∀ i ∈ a.1, ∀ t ∈ s.sys.committed Stored.raw (i, a.2), ∀ g ∈ s.stage.draft,
    Marked g s.sys.store.db t

instance (s : Upkeep) (a : Option ℕ × Bool) : Decidable (s.AllMarked a) :=
  inferInstanceAs (Decidable (∀ i ∈ a.1, ∀ t ∈ _, ∀ g ∈ s.stage.draft, _))

/-- The call lists devices that can be seen. -/
def ListsSeen (s : Upkeep) (a : Option ℕ × Bool) : Prop :=
  a.1 = none → ∀ l ∈ s.stage.nextListing, AllSeen s.sys.store l

instance (s : Upkeep) (a : Option ℕ × Bool) : Decidable (s.ListsSeen a) :=
  inferInstanceAs (Decidable (_ → ∀ l ∈ _, _))

/-- What another client does to the bitmap is noticed, and the call lists devices that can be
seen. -/
def Calm (s : Upkeep) (a : Option ℕ × Bool) : Prop := s.Unrestored a ∧ s.AllMarked a ∧ s.ListsSeen a

instance (s : Upkeep) (a : Option ℕ × Bool) : Decidable (s.Calm a) :=
  inferInstanceAs (Decidable (_ ∧ _ ∧ _))

/-! ### One step -/

section step
variable {codec : BitmapCodec} {visit : List (String × String) → List (String × String)}

/-- What holds in every state of a calm run: while the bitmap has its old text, the lists contain
the bit of every stored device of their kinds, and a bitmap that is about to be written contains
what the lists contain. -/
structure Sound (codec : BitmapCodec) (s : Upkeep) : Prop where
  seen : ∀ g ∈ s.stage.draft, (casCmp g.key g.oldVal).Holds Stored.raw s.sys.store.db →
    ∀ l ∈ g.lists, ∀ dev, Saved s.sys.store.db dev → dev.bit.map Prod.fst = some g.key →
      dev.listing = l.1 → ∃ d ∈ l.2, d.bit = dev.bit
  sized : ∀ g ∈ s.stage.draft, ∀ l ∈ g.lists, ∀ d ∈ l.2, d.Sized
  written : ∀ key oldVal newVal lists next, s.stage = .write key oldVal newVal lists next →
    next.draft = none ∧ ∀ (dev : Device) (b : ℕ), dev.bit = some (key, b) →
      ∃ l ∈ lists, dev.listing = l.1 ∧
        ∀ d ∈ l.2, d.bit = some (key, b) → b ∈ codec.fromBase64 newVal

theorem Sound.of_none {s : Upkeep} (h : s.stage.draft = none) : Sound codec s where
  seen := by
    intro g hg
    rw [h] at hg
    cases hg
  sized := by
    intro g hg
    rw [h] at hg
    cases hg
  written := by
    intro key oldVal newVal lists next hstage
    rw [hstage] at h
    cases h

theorem nextBook_draft (kind : OwnerKind) (names : List String) :
    (nextBook kind names).draft = none := by
  cases names with
  | nil => cases kind <;> rfl
  | cons owner rest => rfl

theorem AllSeen.exists_getDevices {s : KeyedStore Stored} {l : Listing} (h : AllSeen s l)
    (hvisit : ∀ l, (visit l).Perm l) {dev : Device} (hdev : Saved s.db dev) (hl : dev.listing = l) :
    ∃ d ∈ getDevices visit s l, d.bit = dev.bit := by
  have hkey : dev.path ∈ s.keys := s.covers _ (by rw [hdev]; exact Option.some_ne_none _)
  exact TupleNet.Control.exists_getDevices hvisit hdev
    (h _ hkey dev (deviceAt_of_eq hdev) hl) hl

/-- The bitmap of ids is made of both lists. -/
theorem Sound.ids {s : Upkeep} {val : String} {routers : List Device} (h : Sound codec s)
    (hstage : s.stage = .getSwitches val routers) (hvisit : ∀ l, (visit l).Perm l)
    (hseen : AllSeen s.sys.store .getSwitches) :
    Sound codec (s.enter (.write deviceIDsPath val
      (codec.toBase64 (occupyIDs (routers ++ getDevices visit s.sys.store .getSwitches)))
      [(.getRouters, routers), (.getSwitches, getDevices visit s.sys.store .getSwitches)]
      (.returned .ok))) := by
  have hdraft : ⟨deviceIDsPath, val, [(.getRouters, routers)]⟩ ∈ s.stage.draft := by
    rw [hstage]
    rfl
  have hsized : ∀ d ∈ routers ++ getDevices visit s.sys.store .getSwitches, d.Sized := by
    intro d hd
    rcases List.mem_append.mp hd with hd | hd
    · exact h.sized _ hdraft _ List.mem_cons_self d hd
    · exact getDevices_sized hd
  refine ⟨fun g hg hholds l hl dev hdev hkey hkind => ?_, fun g hg l hl d hd => ?_,
    fun key oldVal newVal lists next hwrite => ?_⟩
  · obtain rfl := Option.some.inj hg
    rcases List.mem_cons.mp hl with rfl | hl
    · exact h.seen _ hdraft hholds _ List.mem_cons_self dev hdev hkey hkind
    · obtain rfl := List.mem_singleton.mp hl
      exact hseen.exists_getDevices hvisit hdev hkind
  · obtain rfl := Option.some.inj hg
    rcases List.mem_cons.mp hl with rfl | hl
    · exact hsized d (List.mem_append_left _ hd)
    · obtain rfl := List.mem_singleton.mp hl
      exact hsized d (List.mem_append_right _ hd)
  · obtain ⟨rfl, rfl, rfl, rfl, rfl⟩ := RebuildStage.write.inj hwrite
    refine ⟨rfl, fun dev b hbit => ?_⟩
    have hmem : ∀ d ∈ routers ++ getDevices visit s.sys.store .getSwitches,
        d.bit = some (deviceIDsPath, b) → b ∈ codec.fromBase64 (codec.toBase64
          (occupyIDs (routers ++ getDevices visit s.sys.store .getSwitches))) := by
      intro d hd hdbit
      rw [codec.fromBase64_toBase64]
      · exact mem_occupyIDs.mpr ⟨d, hd, (Device.of_bit_ids hdbit).2⟩
      · intro x hx
        obtain ⟨d', hd', rfl⟩ := mem_occupyIDs.mp hx
        exact Device.id_lt (hsized d' hd')
    rcases (Device.of_bit_ids hbit).1 with hkind | hkind
    · exact ⟨_, List.mem_cons_self, hkind, fun d hd => hmem d (List.mem_append_left _ hd)⟩
    · exact ⟨_, List.mem_cons_of_mem _ List.mem_cons_self, hkind,
        fun d hd => hmem d (List.mem_append_right _ hd)⟩

/-- A book is made of the ports of its owner. -/
theorem Sound.book {s : Upkeep} {kind : OwnerKind} {owner oldVal : String} {ipBook : IDMap}
    (hvisit : ∀ l, (visit l).Perm l) (hseen : AllSeen s.sys.store (kind.ports owner))
    (hbook : occupyPorts (getDevices visit s.sys.store (kind.ports owner)) ∅ = .ok ipBook)
    {next : RebuildStage} (hnext : next.draft = none) :
    Sound codec (s.enter (.write (kind.ipBookPath owner) oldVal (codec.toBase64 ipBook)
      [(kind.ports owner, getDevices visit s.sys.store (kind.ports owner))] next)) := by
  refine ⟨fun g hg _ l hl dev hdev _ hkind => ?_, fun g hg l hl d hd => ?_,
    fun key oldVal newVal lists next hwrite => ?_⟩
  · obtain rfl := Option.some.inj hg
    obtain rfl := List.mem_singleton.mp hl
    exact hseen.exists_getDevices hvisit hdev hkind
  · obtain rfl := Option.some.inj hg
    obtain rfl := List.mem_singleton.mp hl
    exact getDevices_sized hd
  · obtain ⟨rfl, rfl, rfl, rfl, rfl⟩ := RebuildStage.write.inj hwrite
    refine ⟨hnext, fun dev b hbit => ⟨_, List.mem_cons_self, (OwnerKind.of_bit_book hbit).1, ?_⟩⟩
    intro d hd hdbit
    rw [codec.fromBase64_toBase64]
    · exact (occupyPorts_eq_ok hbook b).mpr
        (Or.inr ⟨d, hd, (OwnerKind.of_bit_book hdbit).2⟩)
    · intro x hx
      rcases (occupyPorts_eq_ok hbook x).mp hx with hx | ⟨_, _, y, _, rfl⟩
      · cases hx
      · have hlt := masked_lt y
        omega

/-- A step of the call. -/
theorem Sound.rebuildStep {s s' : Upkeep} {answer : Bool} (h : Sound codec s)
    (hvisit : ∀ l, (visit l).Perm l) (hseen : ∀ l ∈ s.stage.nextListing, AllSeen s.sys.store l)
    (hstep : Upkeep.rebuildStep codec visit s answer = some s') : Sound codec s' := by
  unfold Upkeep.rebuildStep at hstep
  cases hstage : s.stage with
  | readIDs forceSync =>
      simp only [hstage] at hstep
      split_ifs at hstep <;> obtain rfl := Option.some.inj hstep <;> exact .of_none rfl
  | getRouters val =>
      simp only [hstage] at hstep
      split_ifs at hstep
      · obtain rfl := Option.some.inj hstep
        have hrouters : AllSeen s.sys.store .getRouters := hseen _ (by rw [hstage]; rfl)
        refine ⟨fun g hg _ l hl dev hdev _ hkind => ?_, fun g hg l hl d hd => ?_,
          fun key oldVal newVal lists next hwrite => by cases hwrite⟩
        · obtain rfl := Option.some.inj hg
          obtain rfl := List.mem_singleton.mp hl
          exact hrouters.exists_getDevices hvisit hdev hkind
        · obtain rfl := Option.some.inj hg
          obtain rfl := List.mem_singleton.mp hl
          exact getDevices_sized hd
      · obtain rfl := Option.some.inj hstep
        exact .of_none rfl
  | getSwitches val routers =>
      simp only [hstage] at hstep
      split_ifs at hstep
      · obtain rfl := Option.some.inj hstep
        exact h.ids hstage hvisit (hseen _ (by rw [hstage]; rfl))
      · obtain rfl := Option.some.inj hstep
        exact .of_none rfl
  | getOwners kind =>
      simp only [hstage] at hstep
      split_ifs at hstep
      · obtain rfl := Option.some.inj hstep
        exact .of_none (nextBook_draft kind _)
      · obtain rfl := Option.some.inj hstep
        exact .of_none rfl
  | readBook kind owner rest =>
      simp only [hstage] at hstep
      obtain rfl := Option.some.inj hstep
      exact .of_none rfl
  | getPorts kind owner rest oldVal =>
      simp only [hstage] at hstep
      split_ifs at hstep
      · cases hbook : occupyPorts (getDevices visit s.sys.store (kind.ports owner)) ∅ with
        | error r =>
            simp only [hbook] at hstep
            obtain rfl := Option.some.inj hstep
            exact .of_none rfl
        | ok ipBook =>
            simp only [hbook] at hstep
            split_ifs at hstep
            · obtain rfl := Option.some.inj hstep
              exact .book hvisit (hseen _ (by rw [hstage]; rfl)) hbook (nextBook_draft kind rest)
            · obtain rfl := Option.some.inj hstep
              exact .of_none (nextBook_draft kind rest)
      · obtain rfl := Option.some.inj hstep
        exact .of_none rfl
  | write key oldVal newVal lists next =>
      simp only [hstage] at hstep
      split_ifs at hstep
      · obtain rfl := Option.some.inj hstep
        exact .of_none (h.written _ _ _ _ _ hstage).1
      · obtain rfl := Option.some.inj hstep
        exact .of_none rfl
  | returned r =>
      simp only [hstage] at hstep
      cases hstep

/-- A transaction of another client. -/
theorem Sound.other {s : Upkeep} (h : Sound codec s) {sys : RangeSystem Stored Outcome}
    {a : Option ℕ × Bool} {i : ℕ} (hi : i ∈ a.1) (hrestored : s.Unrestored a)
    (hmarked : s.AllMarked a) (hstep : RangeSystem.step Stored.raw s.sys (i, a.2) = some sys) :
    Sound codec { s with sys := sys } := by
  refine ⟨fun g hg hholds l hl dev hdev hkey hkind => ?_, h.sized, h.written⟩
  dsimp only at hholds hdev
  rcases RangeSystem.step_cases Stored.raw hstep with ⟨t, hcommits, hstore⟩ | ⟨_, hstore⟩
  · rw [hstore] at hholds hdev
    have ht := (RangeSystem.mem_committed Stored.raw).mpr hcommits
    have hbefore := hrestored i hi t ht g hg hholds
    -- the device was stored before
    rcases applyOps_eq_some hdev with hold | hput
    · exact h.seen g hg hbefore l hl dev hold hkey hkind
    · exact absurd hkind (hmarked i hi t ht g hg hholds _ hput dev rfl hkey l hl)
  · rw [hstore] at hholds hdev
    exact h.seen g hg hholds l hl dev hdev hkey hkind

theorem Sound.step {s s' : Upkeep} {a : Option ℕ × Bool} (h : Sound codec s)
    (hvisit : ∀ l, (visit l).Perm l) (hcalm : s.Calm a)
    (hstep : Upkeep.step codec visit s a = some s') : Sound codec s' := by
  obtain ⟨mover, answer⟩ := a
  obtain ⟨hrestored, hmarked, hlists⟩ := hcalm
  cases mover with
  | none => exact h.rebuildStep hvisit (hlists rfl) hstep
  | some i =>
      obtain ⟨sys, hsys, rfl⟩ := Option.map_eq_some_iff.mp hstep
      exact h.other rfl hrestored hmarked hsys

theorem rebuildStep_prog {s s' : Upkeep} {answer : Bool}
    (h : Upkeep.rebuildStep codec visit s answer = some s') : s'.sys.prog = s.sys.prog := by
  unfold Upkeep.rebuildStep at h
  cases hstage : s.stage <;> simp only [hstage] at h
  case getPorts kind owner rest oldVal =>
    split_ifs at h
    · cases hbook : occupyPorts (getDevices visit s.sys.store (kind.ports owner)) ∅ <;>
        simp only [hbook] at h
      · obtain rfl := Option.some.inj h
        rfl
      · split_ifs at h <;> obtain rfl := Option.some.inj h <;> rfl
    · obtain rfl := Option.some.inj h
      rfl
  case readBook => obtain rfl := Option.some.inj h; rfl
  case returned => cases h
  all_goals split_ifs at h <;> obtain rfl := Option.some.inj h <;> rfl

theorem Sound.complete {s : Upkeep} (h : Sound codec s) {t : Txn Stored} (ht : s.Writes t) :
    Complete codec s.sys.store.db t := by
  obtain ⟨hnext, hholds⟩ := ht
  obtain ⟨key, oldVal, newVal, lists, next, hstage, rfl⟩ := RebuildStage.nextWrite_eq_some hnext
  intro book v hput dev b hdev hbit
  obtain ⟨rfl, rfl⟩ := Op.put.inj (List.mem_singleton.mp hput)
  have hdraft : ⟨book, oldVal, lists⟩ ∈ s.stage.draft := by
    rw [hstage]
    rfl
  obtain ⟨_, hwritten⟩ := h.written _ _ _ _ _ hstage
  obtain ⟨l, hl, hkind, hmem⟩ := hwritten dev b hbit
  have hguard := hholds (casCmp book oldVal) List.mem_cons_self
  obtain ⟨d, hd, hdbit⟩ := h.seen _ hdraft hguard l hl dev hdev (by rw [hbit]; rfl) hkind
  exact hmem d hd (hdbit.trans hbit)

end step

/-! ### Runs -/

/-- **Complete writes**: in a calm run, a bitmap that the call writes has the bit of every device
that is stored at this moment and belongs to it. -/
theorem rebuilt_complete {codec : BitmapCodec}
    {order : ℕ → List (String × MapEntry) → List (String × MapEntry)}
    {visit : List (String × String) → List (String × String)} (hvisit : ∀ l, (visit l).Perm l)
    {store : KeyedStore Stored} {call : RebuildCall} {jobs : ℕ → Work}
    {as : List (Option ℕ × Bool)} {s : Upkeep}
    (hcalm : Meets (step codec visit) Calm (start codec order store call jobs) as)
    (hrun : run (step codec visit) (start codec order store call jobs) as = some s)
    {t : Txn Stored} (ht : s.Writes t) : Complete codec s.sys.store.db t := by
  have hstart : Sound codec (start codec order store call jobs) := by
    refine .of_none ?_
    cases call <;> rfl
  exact (run_invariant (step codec visit) (fun _ _ _ hok h hs => h.step hvisit hok hs) hcalm hstart
    hrun).complete ht

/-! ### Devices without an id -/

section fresh
variable {codec : BitmapCodec} {t : Txn Stored} {db : Store Stored} {g : RebuildStage.Draft}

theorem bits_of_casCmp {key val : String} (h : (casCmp key val).Holds Stored.raw db) :
    bits codec db key = codec.fromBase64 val := by
  unfold casCmp at h
  unfold bits
  split_ifs at h with hval
  · have hmissing : db key = none := h
    rw [hmissing, hval]
    rfl
  · have hvalue : (db key).map Stored.raw = some val := h
    rw [hvalue]
    rfl

/-- A `Save` of a fresh device sets a bit that was free. -/
theorem marked_of_save (ht : SaveTxn codec t) (hacc : t.Accepted) (hholds : t.Holds Stored.raw db)
    (hrestored : NotRestored g db t) : Marked g db t := by
  obtain ⟨order, horder, st, saved, h, rfl⟩ := ht
  intro hafter o ho dev hdev hkey
  exfalso
  have hsaved : dev ∈ saved := by
    rcases (h.mem_ops horder).mp ho with ⟨d, hd, rfl⟩ | ⟨key, e, _, rfl, _⟩
    · rwa [← Option.some.inj hdev]
    · cases hdev
  obtain ⟨⟨book, b⟩, hbit, rfl⟩ := Option.map_eq_some_iff.mp hkey
  obtain ⟨e, he, hmem, hfree⟩ := h.taken dev hsaved g.key b hbit
  have hsame : bits codec db g.key = bits codec ((saveTxn codec order st).apply db) g.key := by
    rw [bits_of_casCmp (hrestored hafter), bits_of_casCmp hafter]
  rw [h.bits_before horder hholds he, h.bits_after horder hholds hacc he] at hsame
  exact hfree (hsame ▸ hmem)

theorem marked_of_delete {recursive : Bool} {copies : List Device}
    (ht : DeleteTxn codec recursive copies t) : Marked g db t := by
  obtain ⟨order, horder, st, h, rfl⟩ := ht
  intro _ o ho dev hdev
  cases o with
  | put key v =>
      obtain ⟨e, _, rfl⟩ := h.of_put horder ho
      cases hdev
  | delete key => cases hdev
  | deletePrefix pre => cases hdev

/-- The transactions of the other clients. -/
def WorkTxn (codec : BitmapCodec) (t : Txn Stored) : Prop :=
  SaveTxn codec t ∨ ∃ recursive copies, DeleteTxn codec recursive copies t

theorem start_workTxn {order : ℕ → List (String × MapEntry) → List (String × MapEntry)}
    (horder : ∀ i l, (order i l).Perm l) {jobs : ℕ → Work}
    (hfresh : ∀ i devs, jobs i = .save devs → ∀ dev ∈ devs, dev.Fresh) (store : KeyedStore Stored)
    (call : RebuildCall) (i : ℕ) :
    ((start codec order store call jobs).sys.prog i).Issues (WorkTxn codec) := by
  simp only [start]
  cases hjob : jobs i with
  | save devs =>
      exact RangeProg.issues_ofProg
        ((save_issues (horder i) (hfresh i devs hjob)).mono fun _ h => Or.inl h)
  | delete recursive devs =>
      exact RangeProg.issues_ofProg
        ((delete_issues (horder i) devs).mono fun _ h => Or.inr ⟨recursive, devs, h⟩)

/-- **When the constructors make the devices** that are saved, a write is complete if the bitmap
never gets its old text back. -/
theorem rebuilt_complete_of_fresh
    {order : ℕ → List (String × MapEntry) → List (String × MapEntry)}
    {visit : List (String × String) → List (String × String)} (horder : ∀ i l, (order i l).Perm l)
    (hvisit : ∀ l, (visit l).Perm l) {store : KeyedStore Stored} {call : RebuildCall}
    {jobs : ℕ → Work} (hfresh : ∀ i devs, jobs i = .save devs → ∀ dev ∈ devs, dev.Fresh)
    {as : List (Option ℕ × Bool)} {s : Upkeep}
    (hok : Meets (step codec visit) (fun s a => s.Unrestored a ∧ s.ListsSeen a)
      (start codec order store call jobs) as)
    (hrun : run (step codec visit) (start codec order store call jobs) as = some s)
    (ht : s.Writes t) : Complete codec s.sys.store.db t := by
  have hstep : ∀ (s : Upkeep) (a : Option ℕ × Bool) (s' : Upkeep),
      s.Unrestored a ∧ s.ListsSeen a → Sound codec s ∧
      (∀ i, (s.sys.prog i).Issues (WorkTxn codec)) →
      step codec visit s a = some s' →
      Sound codec s' ∧ ∀ i, (s'.sys.prog i).Issues (WorkTxn codec) := by
    rintro s ⟨mover, answer⟩ s' ⟨hrestored, hlists⟩ ⟨hsound, hissues⟩ hs
    have hmarked : s.AllMarked (mover, answer) := by
      intro i hi t ht g hg
      have hcommits := (RangeSystem.mem_committed Stored.raw).mp ht
      rcases hcommits.issued Stored.raw (hissues i) with hsave | ⟨recursive, copies, hdelete⟩
      · exact marked_of_save hsave hcommits.2.2.1 hcommits.2.2.2 (hrestored i hi t ht g hg)
      · exact marked_of_delete hdelete
    refine ⟨hsound.step hvisit ⟨hrestored, hmarked, hlists⟩ hs, ?_⟩
    cases mover with
    | none => rw [rebuildStep_prog hs]; exact hissues
    | some i =>
        obtain ⟨sys, hsys, rfl⟩ := Option.map_eq_some_iff.mp hs
        exact RangeSystem.step_issues Stored.raw (G := fun _ => WorkTxn codec) hissues hsys
  have hstart : Sound codec (start codec order store call jobs) := by
    refine .of_none ?_
    cases call <;> rfl
  exact (run_invariant (step codec visit) hstep hok
    ⟨hstart, start_workTxn horder hfresh store call⟩ hrun).1.complete ht

end fresh

/-! ### The id of a deleted switch goes to a router -/

/-- One client deletes the switch `a` and another one saves the router `r`. -/
def switchAndRouter : ℕ → Work
  | 1 => .delete false [.switch ⟨"a", 1⟩]
  | 2 => .save [.router ⟨"r", 0, ""⟩]
  | _ => .save []

/-- `SyncDeviceID(true)` among these clients, on a store with the switch `a`. -/
def syncRun (as : List (Option ℕ × Bool)) : Option Upkeep :=
  run (step sampleCodec id)
    (start sampleCodec (fun _ l => l) switchKeys (.syncDeviceID true) switchAndRouter) as

/-- One client saves the router `r` and another one a port of the switch `a`. -/
def routerAndPort : ℕ → Work
  | 1 => .save [.router ⟨"r", 0, ""⟩]
  | 2 => .save [.switchPort ⟨"a", "p", "10.0.0.1", "f2:01:0a:00:00:01", "", ""⟩]
  | _ => .save []

/-- The router is saved before the call begins, and the port between its listings. -/
def saved : List (Option ℕ × Bool) :=
  [(some 1, true), (some 1, true), (none, true), (some 2, true), (none, true), (some 2, true),
    (none, true)]

/-- `SyncDeviceID(true)` among these clients. -/
def savedRun : Option Upkeep :=
  run (step sampleCodec id)
    (start sampleCodec (fun _ l => l) switchKeys (.syncDeviceID true) routerAndPort) saved

theorem rebuilt_complete_saved : ∃ s t, savedRun = some s ∧ s.stage.nextWrite = some t ∧
    Saved s.sys.store.db (.router ⟨"r", 2, ""⟩) ∧
    (s.sys.store.db (switchPortPath "a" "p")).isSome ∧ Complete sampleCodec s.sys.store.db t := by
  obtain ⟨s, hs⟩ := Option.isSome_iff_exists.mp (show savedRun.isSome from by decide +kernel)
  have hwrite : ∀ s ∈ savedRun, s.stage.nextWrite.isSome ∧
      Saved s.sys.store.db (.router ⟨"r", 2, ""⟩) ∧
      (s.sys.store.db (switchPortPath "a" "p")).isSome ∧
      ∀ t ∈ s.stage.nextWrite, t.Holds Stored.raw s.sys.store.db := by decide +kernel
  obtain ⟨hsome, hrouter, hport, hholds⟩ := hwrite s hs
  obtain ⟨t, ht⟩ := Option.isSome_iff_exists.mp hsome
  exact ⟨s, t, hs, ht, hrouter, hport, rebuilt_complete (fun _ => List.Perm.refl _)
    (by decide +kernel) hs ⟨ht, hholds t ht⟩⟩

/-- The switch is deleted and the router is saved after the routers and before the switches have
been listed. -/
def reused : List (Option ℕ × Bool) :=
  [(none, true), (none, true), (some 1, true), (some 1, true), (some 2, true), (some 2, true),
    (none, true)]

/-- The bitmap that is written is empty. -/
theorem not_complete_reused : ¬ ∀ (codec : BitmapCodec)
    (order : ℕ → List (String × MapEntry) → List (String × MapEntry))
    (visit : List (String × String) → List (String × String)) (store : KeyedStore Stored)
    (call : RebuildCall) (jobs : ℕ → Work) (as : List (Option ℕ × Bool)) (s : Upkeep)
    (t : Txn Stored),
    (∀ i l, (order i l).Perm l) → (∀ l, (visit l).Perm l) →
    Consistent codec store.db → WellStored store.db → call ≠ .syncDeviceID false →
    (∀ i devs, jobs i = .save devs → ∀ dev ∈ devs, dev.Fresh) →
    Meets (step codec visit) (DeletesCurrent jobs) (start codec order store call jobs) as →
    run (step codec visit) (start codec order store call jobs) as = some s →
    s.Writes t → Complete codec s.sys.store.db t := by
  intro h
  obtain ⟨s, hs⟩ := Option.isSome_iff_exists.mp
    (show (syncRun reused).isSome from by decide +kernel)
  have hwrite : ∀ s ∈ syncRun reused, s.stage.nextWrite.isSome ∧
      Saved s.sys.store.db (.router ⟨"r", 1, ""⟩) ∧
      ∀ t ∈ s.stage.nextWrite, t.Holds Stored.raw s.sys.store.db ∧
        .put deviceIDsPath (.ofText "0") ∈ t.ops := by decide +kernel
  have hfresh : ∀ i devs, switchAndRouter i = .save devs → ∀ dev ∈ devs, dev.Fresh := by
    intro i devs hi dev hdev
    match i with
    | 0 => obtain rfl := Work.save.inj hi; cases hdev
    | 1 => cases hi
    | 2 => obtain rfl := Work.save.inj hi; rw [List.mem_singleton.mp hdev]; rfl
    | _ + 3 => obtain rfl := Work.save.inj hi; cases hdev
  obtain ⟨hsome, hrouter, hnext⟩ := hwrite s hs
  obtain ⟨t, ht⟩ := Option.isSome_iff_exists.mp hsome
  obtain ⟨hholds, hput⟩ := hnext t ht
  have hmem := h sampleCodec (fun _ l => l) id switchKeys (.syncDeviceID true) switchAndRouter
    reused s
    t (fun _ l => List.Perm.refl l) (fun l => List.Perm.refl l) oneSwitchStore_consistent
    switchKeys_wellStored (by decide) hfresh (by decide +kernel) hs ⟨ht, hholds⟩
    deviceIDsPath _ hput _ 1 hrouter rfl
  exact absurd hmem (by decide +kernel)

end Upkeep

end TupleNet.Control
