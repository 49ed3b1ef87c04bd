import TupleNet.Control.DeletePlan
import TupleNet.Control.PortAddress

/-! # Ports that are saved with an address of a subnet

`SaveSwitchPort` reads the ip book of a switch, takes a free number, reads the book again to choose
between two comparisons, and commits; after a failed transaction it starts again.  `PortCluster`
runs any number of such clients and of clients that delete a port.  The book written by a commit is
the one of the first read and the new number, so a commit keeps the books exact iff no other one has
removed a book that was not empty in between and the number is the one in the new address
(`Orderly`, `books_exact_iff`). -/

namespace TupleNet.Control

open TxnStore StepMachine

/-- The arguments of `SaveSwitchPort`; the address of `sp` is not used. -/
structure SaveCall where
  sp : SwitchPort
  cip : String
  cprefixLen : ℕ
deriving DecidableEq, Repr

/-- What a client does. -/
inductive PortJob where
  | save (call : SaveCall)
  /-- `Delete(false, p)`. -/
  | delete (p : SwitchPort)
deriving DecidableEq, Repr

/-- Where `SaveSwitchPort` is. -/
inductive SaveStage where
  /-- `GetSwitch` comes next. -/
  | getSwitch
  /-- The first read of the book comes next. -/
  | readBook
  /-- The second read of the book comes next. -/
  | recheck (a : Allocation)
  /-- The transaction comes next; `missing` when the second read has given no text. -/
  | commit (a : Allocation) (missing : Bool)
  | returned (r : Outcome)
  /-- It searches for a free number forever. -/
  | loops
deriving DecidableEq, Repr

/-- The allocation of a stage. -/
def SaveStage.allocation? : SaveStage → Option Allocation
  | .recheck a => some a
  | .commit a _ => some a
  | _ => none

/-- The local variables of `SaveSwitchPort`. -/
structure Saver where
  prevIP : String
  stage : SaveStage
deriving DecidableEq, Repr

/-- `sp` with its new address. -/
def SaveCall.portAt (call : SaveCall) (ip : String) : SwitchPort :=
  { call.sp with ip := ip, mac := (macFromIP ip).getD "" }

/-- The transaction of `SaveSwitchPort`. -/
def SaveCall.txn (call : SaveCall) (a : Allocation) (missing : Bool) : Txn Stored :=
  let dev := Device.switchPort (call.portAt a.ip)
  let key := switchIPBookPath call.sp.owner
  { cmps := [.keyMissing dev.path, if missing then .keyMissing key else .valueIs key a.oldVal]
    ops := [.put dev.path (.ofDevice dev), .put key (.ofText a.newVal)] }

/-- The clients on one store. -/
structure PortCluster where
  /-- The store and the programs of the clients that delete. -/
  sys : System Stored Outcome
  saver : ℕ → Saver

/-- The text of a key; a missing one gives the empty text. -/
def rawAt (db : Store Stored) (key : String) : String := ((db key).map Stored.raw).getD ""

namespace PortCluster

section machine
variable (codec : BitmapCodec) (order : ℕ → List (String × MapEntry) → List (String × MapEntry))
  (jobs : ℕ → PortJob)

/-- Nobody has moved yet. -/
def start (db : Store Stored) : PortCluster where
  sys := .start db (fun i => match jobs i with
    | .save _ => .ret .error
    | .delete p => delete codec (order i) false [.switchPort p])
  saver := fun _ => ⟨"", .getSwitch⟩

/-- A client goes on. -/
def enter (s : PortCluster) (i : ℕ) (v : Saver) : PortCluster :=
  { s with saver := Function.update s.saver i v }

/-- One step of `SaveSwitchPort`: a read or the transaction; `answers` when etcd does. -/
def saveStep (call : SaveCall) (s : PortCluster) (i : ℕ) (answers : Bool) : Option PortCluster :=
  let v := s.saver i
  let key := switchIPBookPath call.sp.owner
  match v.stage with
  | .getSwitch =>
      if answers ∧ (s.sys.db (switchPath call.sp.owner)).isSome then
        some (s.enter i { v with stage := .readBook })
      else some (s.enter i { v with stage := .returned .error })
  | .readBook =>
      if answers then
        match allocSwitchPortIP codec (rawAt s.sys.db key) call.cip call.cprefixLen with
        | .got a => some (s.enter i { v with stage := .recheck a })
        | .error => some (s.enter i { v with stage := .returned .error })
        | .panic => some (s.enter i { v with stage := .returned .panic })
        | .loops => some (s.enter i { v with stage := .loops })
      else some (s.enter i { v with stage := .returned .error })
  | .recheck a =>
      if answers ∧ v.prevIP ≠ a.ip then
        some (s.enter i ⟨a.ip, .commit a (rawAt s.sys.db key = "")⟩)
      else some (s.enter i { v with stage := .returned .error })
  | .commit a missing =>
      let t := call.txn a missing
      if answers ∧ t.Accepted ∧ t.Holds Stored.raw s.sys.db then
        some { s.enter i { v with stage := .returned .ok } with
          sys := { s.sys with db := t.apply s.sys.db, log := s.sys.log ++ [(i, t)] } }
      else some (s.enter i { v with stage := .getSwitch })
  | .returned _ => none
  | .loops => none

/-- One step of one client. -/
def step (s : PortCluster) (a : ℕ × Bool) : Option PortCluster :=
  match jobs a.1 with
  | .save call => saveStep codec call s a.1 a.2
  | .delete _ => (System.step Stored.raw s.sys a).map (fun sys => { s with sys := sys })

/-- A `Delete` that commits removes the very record that it was called with. -/
def StillStored (s : PortCluster) (a : ℕ × Bool) : Prop :=
  ∀ p t next, jobs a.1 = .delete p → s.sys.prog a.1 = .txn t next → a.2 = true → t.Accepted →
    t.Holds Stored.raw s.sys.db →
    deviceAt s.sys.db (switchPortPath p.owner p.name) = some (.switchPort p)

/-- A `SaveSwitchPort` that is about to commit: if the book is missing, its first read gave an empty
one, and there is room for the address in the book. -/
def Orderly (s : PortCluster) (a : ℕ × Bool) : Prop :=
  ∀ call al missing, jobs a.1 = .save call → (s.saver a.1).stage = .commit al missing →
    a.2 = true → (call.txn al missing).Accepted → (call.txn al missing).Holds Stored.raw s.sys.db →
    (s.sys.db (switchIPBookPath call.sp.owner) = none → codec.fromBase64 al.oldVal = ∅) ∧
      ∀ x, iPv4ToU32 call.cip = some x →
        Roomy (bits codec s.sys.db (switchIPBookPath call.sp.owner)) (networkOf x call.cprefixLen)

instance (jobs : ℕ → PortJob) (s : PortCluster) : DecidablePred (StillStored jobs s) := fun a => by
  unfold StillStored
  cases jobs a.1 with
  | save call => exact isTrue (by simp)
  | delete p =>
      cases s.sys.prog a.1 with
      | ret r => exact isTrue (by simp)
      | get key next => exact isTrue (by simp)
      | txn t next =>
          exact decidable_of_iff (a.2 = true → t.Accepted → t.Holds Stored.raw s.sys.db →
            deviceAt s.sys.db (switchPortPath p.owner p.name) = some (.switchPort p)) (by simp)

instance (codec : BitmapCodec) (jobs : ℕ → PortJob) (s : PortCluster) :
    DecidablePred (Orderly codec jobs s) := fun a => by
  unfold Orderly
  cases jobs a.1 with
  | delete p => exact isTrue (by simp)
  | save call =>
      cases (s.saver a.1).stage with
      | commit al missing =>
          exact decidable_of_iff (a.2 = true → (call.txn al missing).Accepted →
            (call.txn al missing).Holds Stored.raw s.sys.db →
            (s.sys.db (switchIPBookPath call.sp.owner) = none → codec.fromBase64 al.oldVal = ∅) ∧
              ∀ x ∈ iPv4ToU32 call.cip,
                Roomy (bits codec s.sys.db (switchIPBookPath call.sp.owner))
                  (networkOf x call.cprefixLen)) (by simp)
      | getSwitch => exact isTrue (by simp)
      | readBook => exact isTrue (by simp)
      | recheck al => exact isTrue (by simp)
      | returned r => exact isTrue (by simp)
      | loops => exact isTrue (by simp)

end machine

end PortCluster

/-- The ip book of every switch holds exactly the bits of its stored ports, and these are
different. -/
structure BooksExact (codec : BitmapCodec) (db : Store Stored) : Prop where
  mem_iff : ∀ o b, b ∈ bits codec db (switchIPBookPath o) ↔
    ∃ key dev, deviceAt db key = some dev ∧ dev.bit = some (switchIPBookPath o, b)
  distinct : ∀ key key' dev dev' o b, deviceAt db key = some dev → deviceAt db key' = some dev' →
    key ≠ key' → dev.bit = some (switchIPBookPath o, b) →
    dev'.bit ≠ some (switchIPBookPath o, b)

/-! ### What an allocation says -/

section alloc
variable {codec : BitmapCodec}

/-- The number that was taken, the texts of the book without and with it, and the address. -/
theorem allocSwitchPortIP_eq_got {value cip : String} {cprefixLen : ℕ} {a : Allocation}
    (h : allocSwitchPortIP codec value cip cprefixLen = .got a) :
    ∃ x id, iPv4ToU32 cip = some x ∧ id ∉ codec.fromBase64 value ∧
      codec.fromBase64 a.oldVal = codec.fromBase64 value ∧
      codec.fromBase64 a.newVal = insert id (codec.fromBase64 value) ∧
      (iPv4ToU32 a.ip).map masked = some (masked (networkOf x cprefixLen ||| id)) ∧
      (masked (networkOf x cprefixLen ||| id) = id ↔
        Roomy (codec.fromBase64 value) (networkOf x cprefixLen)) := by
  unfold allocSwitchPortIP at h
  simp only at h
  split at h
  · cases h
  · next x hx =>
      split at h
      · cases h
      · next id m hid =>
          split_ifs at h with hmax
          obtain rfl := AllocResult.got.inj h
          have hlt := codec.fromBase64_lt value
          obtain ⟨id', hfree, heq⟩ := Option.map_eq_some_iff.mp hid
          obtain ⟨rfl, rfl⟩ := Prod.mk.inj heq
          obtain ⟨hnew, hsmall, _⟩ := freeFrom_eq_some hfree (Nat.mod_lt _ (by decide))
          refine ⟨x, id', hx, hnew, codec.fromBase64_toBase64 _ hlt,
            codec.fromBase64_toBase64 _ fun y hy => ?_, masked_u32ToIPv4 _,
            masked_or_iff_roomy hid (not_le.mp hmax)⟩
          rcases Finset.mem_insert.mp hy with rfl | hy
          · omega
          · exact hlt y hy

end alloc

/-! ### A committed `SaveSwitchPort` -/

section commit
variable {codec : BitmapCodec} {call : SaveCall} {a : Allocation} {missing : Bool}
  {db : Store Stored}

theorem book_ne_path (o : String) (dev : Device) : switchIPBookPath o ≠ dev.path :=
  fun h => dev.path_not_map (h ▸ Or.inr ⟨o, Or.inl rfl⟩)

theorem switchIPBookPath_inj {o o' : String} (h : switchIPBookPath o = switchIPBookPath o') :
    o = o' := by
  have hlist := congrArg String.toList h
  simp only [switchIPBookPath, String.toList_append] at hlist
  exact String.toList_inj.mp (List.append_cancel_left hlist)

/-- The store after the transaction. -/
theorem SaveCall.apply_txn (key : String) : (call.txn a missing).apply db key =
    if key = switchIPBookPath call.sp.owner then some (.ofText a.newVal)
    else if key = (Device.switchPort (call.portAt a.ip)).path then
      some (.ofDevice (.switchPort (call.portAt a.ip)))
    else db key := by
  simp only [Txn.apply, SaveCall.txn, applyOps, Op.apply, Function.update_apply]

variable (hwell : WellStored db)
include hwell

variable (missing) in
theorem SaveCall.deviceAt_apply (hnone : db (Device.switchPort (call.portAt a.ip)).path = none)
    (key : String) (dev : Device) :
    deviceAt ((call.txn a missing).apply db) key = some dev ↔
      key = (Device.switchPort (call.portAt a.ip)).path ∧ dev = .switchPort (call.portAt a.ip) ∨
        deviceAt db key = some dev := by
  unfold deviceAt
  rw [SaveCall.apply_txn]
  split_ifs with hbook hpath
  · -- no device is stored under the key of a book
    constructor
    · intro h
      cases h
    · rintro (⟨heq, _⟩ | hdev)
      · exact absurd (hbook.symm.trans heq) (book_ne_path _ _)
      · have hkey := hwell key dev hdev
        exact absurd (hbook.symm.trans hkey.symm) (book_ne_path _ _)
  · rw [hpath, hnone]
    simp [Stored.ofDevice, eq_comm]
  · simp [hpath]

variable (missing) in
theorem SaveCall.wellStored (hnone : db (Device.switchPort (call.portAt a.ip)).path = none) :
    WellStored ((call.txn a missing).apply db) := by
  intro key dev hdev
  rcases (SaveCall.deviceAt_apply missing hwell hnone key dev).mp hdev with ⟨rfl, rfl⟩ | hold
  · rfl
  · exact hwell key dev hold

omit hwell in
/-- What the comparisons say. -/
theorem SaveCall.holds_txn (h : (call.txn a missing).Holds Stored.raw db) :
    db (Device.switchPort (call.portAt a.ip)).path = none ∧
      (missing = true ∧ db (switchIPBookPath call.sp.owner) = none ∨
        missing = false ∧
          (db (switchIPBookPath call.sp.owner)).map Stored.raw = some a.oldVal) := by
  have hpath := h (.keyMissing (Device.switchPort (call.portAt a.ip)).path) (by simp [SaveCall.txn])
  refine ⟨hpath, ?_⟩
  cases missing with
  | true =>
      have hbook := h (.keyMissing (switchIPBookPath call.sp.owner)) (by simp [SaveCall.txn])
      exact Or.inl ⟨rfl, hbook⟩
  | false =>
      have hbook := h (.valueIs (switchIPBookPath call.sp.owner) a.oldVal) (by simp [SaveCall.txn])
      exact Or.inr ⟨rfl, hbook⟩

omit hwell in
theorem SaveCall.bits_apply (o : String) : bits codec ((call.txn a missing).apply db)
    (switchIPBookPath o) = if o = call.sp.owner then codec.fromBase64 a.newVal
      else bits codec db (switchIPBookPath o) := by
  unfold bits
  rw [SaveCall.apply_txn]
  by_cases ho : o = call.sp.owner
  · rw [ho, if_pos rfl, if_pos rfl]
    rfl
  · rw [if_neg ho, if_neg (fun h => ho (switchIPBookPath_inj h)), if_neg (book_ne_path o _)]

variable (codec) in
omit hwell in
/-- What the store has for the book: nothing, or the book of the first read. -/
theorem SaveCall.bits_before (hholds : (call.txn a missing).Holds Stored.raw db) :
    db (switchIPBookPath call.sp.owner) = none ∧
        bits codec db (switchIPBookPath call.sp.owner) = ∅ ∨
      db (switchIPBookPath call.sp.owner) ≠ none ∧
        bits codec db (switchIPBookPath call.sp.owner) = codec.fromBase64 a.oldVal := by
  obtain ⟨_, ⟨_, hbook⟩ | ⟨_, hbook⟩⟩ := SaveCall.holds_txn hholds
  · refine Or.inl ⟨hbook, ?_⟩
    rw [bits, hbook]
    exact codec.fromBase64_empty
  · refine Or.inr ⟨fun hnone => ?_, ?_⟩
    · rw [hnone] at hbook
      cases hbook
    · rw [bits, hbook]
      rfl

/-- The books are exact afterwards iff the number that was taken is the one of the address and the
book in the store is the one that was read. -/
theorem SaveCall.booksExact_iff (hnone : db (Device.switchPort (call.portAt a.ip)).path = none)
    (hdb : BooksExact codec db) {m : IDMap} {id n : ℕ} (hid : id ∉ m)
    (hnew : codec.fromBase64 a.newVal = insert id m)
    (hbit : (Device.switchPort (call.portAt a.ip)).bit =
      some (switchIPBookPath call.sp.owner, n))
    (hbook : bits codec db (switchIPBookPath call.sp.owner) = ∅ ∨
      bits codec db (switchIPBookPath call.sp.owner) = m) :
    BooksExact codec ((call.txn a missing).apply db) ↔
      n = id ∧ bits codec db (switchIPBookPath call.sp.owner) = m := by
  have hdevs := SaveCall.deviceAt_apply missing hwell hnone
  constructor
  · intro h
    have hmem : ∀ b, b ∈ insert id m ↔
        b = n ∨ b ∈ bits codec db (switchIPBookPath call.sp.owner) := by
      intro b
      have hafter := h.mem_iff call.sp.owner b
      rw [SaveCall.bits_apply, if_pos rfl, hnew] at hafter
      rw [hafter, hdb.mem_iff]
      constructor
      · rintro ⟨key, dev, hdev, hb⟩
        rcases (hdevs key dev).mp hdev with ⟨_, rfl⟩ | hdev
        · rw [hbit] at hb
          exact Or.inl (Prod.mk.inj (Option.some.inj hb)).2.symm
        · exact Or.inr ⟨key, dev, hdev, hb⟩
      · rintro (rfl | ⟨key, dev, hdev, hb⟩)
        · exact ⟨_, _, (hdevs _ _).mpr (Or.inl ⟨rfl, rfl⟩), hbit⟩
        · exact ⟨key, dev, (hdevs key dev).mpr (Or.inr hdev), hb⟩
    rcases hbook with hempty | hsame
    · rw [hempty] at hmem ⊢
      have hn : id = n := by simpa using (hmem id).mp (Finset.mem_insert_self id m)
      refine ⟨hn.symm, ?_⟩
      by_contra hne
      obtain ⟨y, hy⟩ := Finset.nonempty_iff_ne_empty.mpr (Ne.symm hne)
      have hyn : y = n := by simpa using (hmem y).mp (Finset.mem_insert_of_mem hy)
      exact hid (hn ▸ hyn ▸ hy)
    · rw [hsame] at hmem
      rcases (hmem id).mp (Finset.mem_insert_self id m) with hn | hn
      · exact ⟨hn.symm, hsame⟩
      · exact absurd hn hid
  · rintro ⟨rfl, hsame⟩
    have hother : ∀ key dev, deviceAt db key = some dev →
        dev.bit ≠ some (switchIPBookPath call.sp.owner, n) := by
      intro key dev hdev hb
      have hn := (hdb.mem_iff call.sp.owner n).mpr ⟨key, dev, hdev, hb⟩
      rw [hsame] at hn
      exact hid hn
    refine ⟨fun o b => ?_, fun key key' dev dev' o b hdev hdev' hne hb hb' => ?_⟩
    · rw [SaveCall.bits_apply]
      have hold := hdb.mem_iff o b
      split_ifs with ho
      · subst ho
        rw [hnew, Finset.mem_insert, ← hsame, hold]
        constructor
        · rintro (rfl | ⟨key, dev, hdev, hb⟩)
          · exact ⟨_, _, (hdevs _ _).mpr (Or.inl ⟨rfl, rfl⟩), hbit⟩
          · exact ⟨key, dev, (hdevs key dev).mpr (Or.inr hdev), hb⟩
        · rintro ⟨key, dev, hdev, hb⟩
          rcases (hdevs key dev).mp hdev with ⟨_, rfl⟩ | hdev
          · rw [hbit] at hb
            exact Or.inl (Prod.mk.inj (Option.some.inj hb)).2.symm
          · exact Or.inr ⟨key, dev, hdev, hb⟩
      · rw [hold]
        constructor
        · rintro ⟨key, dev, hdev, hb⟩
          exact ⟨key, dev, (hdevs key dev).mpr (Or.inr hdev), hb⟩
        · rintro ⟨key, dev, hdev, hb⟩
          rcases (hdevs key dev).mp hdev with ⟨_, rfl⟩ | hdev
          · rw [hbit] at hb
            exact absurd (switchIPBookPath_inj (Prod.mk.inj (Option.some.inj hb)).1).symm ho
          · exact ⟨key, dev, hdev, hb⟩
    · rcases (hdevs key dev).mp hdev with ⟨hk, rfl⟩ | hdev <;>
        rcases (hdevs key' dev').mp hdev' with ⟨hk', rfl⟩ | hdev'
      · exact hne (hk.trans hk'.symm)
      · rw [hbit] at hb
        exact hother key' dev' hdev' (hb'.trans hb.symm)
      · rw [hbit] at hb'
        exact hother key dev hdev (hb.trans hb'.symm)
      · exact hdb.distinct key key' dev dev' o b hdev hdev' hne hb hb'

/-- **The commit of a `SaveSwitchPort`** keeps the books exact iff it is orderly. -/
theorem SaveCall.exact_iff {value : String}
    (halloc : allocSwitchPortIP codec value call.cip call.cprefixLen = .got a)
    (hholds : (call.txn a missing).Holds Stored.raw db) (hdb : BooksExact codec db) :
    BooksExact codec ((call.txn a missing).apply db) ↔
      (db (switchIPBookPath call.sp.owner) = none → codec.fromBase64 a.oldVal = ∅) ∧
        ∀ x, iPv4ToU32 call.cip = some x →
          Roomy (bits codec db (switchIPBookPath call.sp.owner)) (networkOf x call.cprefixLen) := by
  obtain ⟨x, id, hx, hid, hold, hnew, hip, hroom⟩ := allocSwitchPortIP_eq_got halloc
  have hnone := (SaveCall.holds_txn hholds).1
  have hbook := SaveCall.bits_before codec hholds
  have hbit : (Device.switchPort (call.portAt a.ip)).bit =
      some (switchIPBookPath call.sp.owner, masked (networkOf x call.cprefixLen ||| id)) := by
    obtain ⟨y, hy, hmasked⟩ := Option.map_eq_some_iff.mp hip
    have hy' : iPv4ToU32 (call.portAt a.ip).ip = some y := hy
    rw [Device.bit, hy', Option.map_some, hmasked]
    rfl
  rw [hold] at hbook ⊢
  rw [SaveCall.booksExact_iff hwell hnone hdb hid hnew hbit (hbook.imp And.right And.right)]
  constructor
  · rintro ⟨hn, hsame⟩
    refine ⟨fun hmissing => ?_, fun y hy => ?_⟩
    · rcases hbook with ⟨_, hempty⟩ | ⟨hstored, _⟩
      · exact hsame.symm.trans hempty
      · exact absurd hmissing hstored
    · obtain rfl := Option.some.inj (hx.symm.trans hy)
      rw [hsame]
      exact hroom.mp hn
  · rintro ⟨hmissing, hroomy⟩
    have hsame : bits codec db (switchIPBookPath call.sp.owner) = codec.fromBase64 value := by
      rcases hbook with ⟨hno, hempty⟩ | ⟨_, hsame⟩
      · rw [hempty, hmissing hno]
      · exact hsame
    have hroomy := hroomy x hx
    rw [hsame] at hroomy
    exact ⟨hroom.mpr hroomy, hsame⟩

end commit

/-! ### A committed `Delete` -/

/-- A `Delete` of a port that is still stored keeps the books exact. -/
theorem DeleteTxn.booksExact {codec : BitmapCodec} {p : SwitchPort} {t : Txn Stored}
    (ht : DeleteTxn codec false [.switchPort p] t) {db : Store Stored} (hacc : t.Accepted)
    (hholds : t.Holds Stored.raw db) (hwell : WellStored db) (hdb : BooksExact codec db)
    (hp : deviceAt db (switchPortPath p.owner p.name) = some (.switchPort p)) :
    BooksExact codec (t.apply db) := by
  obtain ⟨order, horder, st, h, rfl⟩ := ht
  have hremoved : ∀ key, Removed false [.switchPort p] key ↔
      switchPortPath p.owner p.name = key := by
    intro key
    rw [removed_false]
    simp [Device.path]
  have hdevs : ∀ key dev, deviceAt ((deleteTxn codec order st).apply db) key = some dev ↔
      deviceAt db key = some dev ∧ switchPortPath p.owner p.name ≠ key := by
    intro key dev
    constructor
    · intro hdev
      obtain ⟨hold, hkept⟩ := h.deviceAt_apply horder hacc hdev
      exact ⟨hold, fun heq => hkept ((hremoved key).mpr heq)⟩
    · rintro ⟨hdev, hne⟩
      have hkey : ¬ IsMapKey key := hwell key dev hdev ▸ dev.path_not_map
      have hkept : ¬ Removed false [.switchPort p] key := fun hr => hne ((hremoved key).mp hr)
      rw [deviceAt, h.apply_of_kept horder hkey hkept]
      exact hdev
  refine ⟨fun o b => ?_, fun key key' dev dev' o b hdev hdev' hne => ?_⟩
  · have hkept : ¬ Removed false [.switchPort p] (switchIPBookPath o) :=
      fun hr => book_ne_path o (.switchPort p) ((hremoved _).mp hr).symm
    rw [h.mem_bits_after horder hacc hholds hkept, hdb.mem_iff]
    simp only [List.mem_singleton, forall_eq]
    constructor
    · rintro ⟨⟨key, dev, hdev, hb⟩, hother⟩
      refine ⟨key, dev, (hdevs key dev).mpr ⟨hdev, ?_⟩, hb⟩
      rintro rfl
      obtain rfl := Option.some.inj (hp.symm.trans hdev)
      exact hother hb
    · rintro ⟨key, dev, hdev, hb⟩
      obtain ⟨hold, hne⟩ := (hdevs key dev).mp hdev
      exact ⟨⟨key, dev, hold, hb⟩, hdb.distinct key _ dev _ o b hold hp hne.symm hb⟩
  · exact hdb.distinct key key' dev dev' o b ((hdevs key dev).mp hdev).1
      ((hdevs key' dev').mp hdev').1 hne

/-! ### All clients -/

namespace PortCluster

section machine
variable {codec : BitmapCodec} {order : ℕ → List (String × MapEntry) → List (String × MapEntry)}
  {jobs : ℕ → PortJob}

/-- One step of `SaveSwitchPort` leaves the store alone or commits. -/
theorem saveStep_cases {call : SaveCall} {s s' : PortCluster} {i : ℕ} {answers : Bool}
    (h : saveStep codec call s i answers = some s') :
    (∃ v, s' = s.enter i v ∧ (∀ al missing, answers = true →
        (s.saver i).stage = .commit al missing → (call.txn al missing).Accepted →
          ¬ (call.txn al missing).Holds Stored.raw s.sys.db) ∧
      ∀ al, v.stage.allocation? = some al → (s.saver i).stage.allocation? = some al ∨
        ∃ value, allocSwitchPortIP codec value call.cip call.cprefixLen = .got al) ∨
    ∃ al missing, (s.saver i).stage = .commit al missing ∧ answers = true ∧
      (call.txn al missing).Accepted ∧ (call.txn al missing).Holds Stored.raw s.sys.db ∧
      s' = { s.enter i { s.saver i with stage := .returned .ok } with
        sys := { s.sys with
          db := (call.txn al missing).apply s.sys.db
          log := s.sys.log ++ [(i, call.txn al missing)] } } := by
  unfold saveStep at h
  simp only at h
  cases hstage : (s.saver i).stage with
  | getSwitch =>
      rw [hstage] at h
      simp only at h
      split_ifs at h
      · exact Or.inl ⟨_, (Option.some.inj h).symm, by simp, by simp [SaveStage.allocation?]⟩
      · exact Or.inl ⟨_, (Option.some.inj h).symm, by simp, by simp [SaveStage.allocation?]⟩
  | readBook =>
      rw [hstage] at h
      simp only at h
      split_ifs at h
      · cases halloc : allocSwitchPortIP codec
            (rawAt s.sys.db (switchIPBookPath call.sp.owner)) call.cip call.cprefixLen with
        | got a =>
            rw [halloc] at h
            refine Or.inl ⟨_, (Option.some.inj h).symm, by simp, fun al hal => Or.inr ?_⟩
            obtain rfl := Option.some.inj hal
            exact ⟨_, halloc⟩
        | error =>
            rw [halloc] at h
            exact Or.inl ⟨_, (Option.some.inj h).symm, by simp, by simp [SaveStage.allocation?]⟩
        | panic =>
            rw [halloc] at h
            exact Or.inl ⟨_, (Option.some.inj h).symm, by simp, by simp [SaveStage.allocation?]⟩
        | loops =>
            rw [halloc] at h
            exact Or.inl ⟨_, (Option.some.inj h).symm, by simp, by simp [SaveStage.allocation?]⟩
      · exact Or.inl ⟨_, (Option.some.inj h).symm, by simp, by simp [SaveStage.allocation?]⟩
  | recheck a =>
      rw [hstage] at h
      simp only at h
      split_ifs at h
      · exact Or.inl ⟨_, (Option.some.inj h).symm, by simp, fun al hal => Or.inl hal⟩
      · exact Or.inl ⟨_, (Option.some.inj h).symm, by simp, by simp [SaveStage.allocation?]⟩
  | commit a missing =>
      rw [hstage] at h
      simp only at h
      split_ifs at h with hcommit
      · obtain ⟨hanswers, hacc, hholds⟩ := hcommit
        exact Or.inr ⟨a, missing, rfl, hanswers, hacc, hholds, (Option.some.inj h).symm⟩
      · refine Or.inl ⟨_, (Option.some.inj h).symm, ?_, by simp [SaveStage.allocation?]⟩
        rintro al missing' hanswers heq hacc hholds
        obtain ⟨rfl, rfl⟩ := SaveStage.commit.inj heq
        exact hcommit ⟨hanswers, hacc, hholds⟩
  | returned r => rw [hstage] at h; cases h
  | loops => rw [hstage] at h; cases h

/-- What holds in every state: records under their own keys, allocations from some text of the book,
and deletes of the port only. -/
structure Wf (codec : BitmapCodec) (jobs : ℕ → PortJob) (s : PortCluster) : Prop where
  wellStored : WellStored s.sys.db
  allocated : ∀ i call a, jobs i = .save call → (s.saver i).stage.allocation? = some a →
    ∃ value, allocSwitchPortIP codec value call.cip call.cprefixLen = .got a
  deletes : ∀ i p, jobs i = .delete p →
    (s.sys.prog i).Issues (DeleteTxn codec false [.switchPort p])

theorem start_wf (horder : ∀ i l, (order i l).Perm l) {db : Store Stored} (hwell : WellStored db) :
    Wf codec jobs (start codec order jobs db) where
  wellStored := hwell
  allocated := by
    intro i call a _ ha
    cases ha
  deletes := by
    intro i p hp
    have hprog : (start codec order jobs db).sys.prog i =
        delete codec (order i) false [.switchPort p] := by
      simp [start, System.start, hp]
    rw [hprog]
    exact delete_issues (horder i) [.switchPort p]

theorem enter_saver (s : PortCluster) (i j : ℕ) (v : Saver) :
    (s.enter i v).saver j = if j = i then v else s.saver j := Function.update_apply ..

/-- What a delete may still issue. -/
def MayIssue (codec : BitmapCodec) (jobs : ℕ → PortJob) (i : ℕ) (t : Txn Stored) : Prop :=
  ∀ p, jobs i = .delete p → DeleteTxn codec false [.switchPort p] t

theorem Wf.mayIssue {s : PortCluster} (h : Wf codec jobs s) (i : ℕ) :
    (s.sys.prog i).Issues (MayIssue codec jobs i) := by
  cases hjob : jobs i with
  | save call =>
      refine Prog.issues_of_forall (fun t p hp => ?_) _
      rw [hjob] at hp
      cases hp
  | delete p =>
      refine (h.deletes i p hjob).mono fun t ht p' hp' => ?_
      obtain rfl := PortJob.delete.inj (hjob.symm.trans hp')
      exact ht

/-- A step of a client that deletes. -/
theorem Wf.deleteStep {s : PortCluster} (h : Wf codec jobs s) {a : ℕ × Bool} {p : SwitchPort}
    (hjob : jobs a.1 = .delete p) {sys : System Stored Outcome}
    (hsys : System.step Stored.raw s.sys a = some sys) :
    Wf codec jobs { s with sys := sys } ∧
      (StillStored jobs s a → BooksExact codec s.sys.db → BooksExact codec sys.db) := by
  have hissues := System.step_issues h.mayIssue hsys
  have hdb : sys.db = s.sys.db ∨ ∃ t next, s.sys.prog a.1 = .txn t next ∧ a.2 = true ∧
      t.Accepted ∧ t.Holds Stored.raw s.sys.db ∧ sys.db = t.apply s.sys.db := by
    cases hprog : s.sys.prog a.1 with
    | ret r => simp [System.step, hprog] at hsys
    | get key next =>
        simp only [System.step, hprog, Option.some.injEq] at hsys
        exact Or.inl (hsys ▸ rfl)
    | txn t next =>
        simp only [System.step, hprog] at hsys
        split_ifs at hsys with h1 h2
        · exact Or.inl (Option.some.inj hsys ▸ rfl)
        · obtain ⟨hanswers, hacc⟩ := not_or.mp h1
          refine Or.inr ⟨t, next, rfl, ?_, not_not.mp hacc, h2, Option.some.inj hsys ▸ rfl⟩
          simpa using hanswers
        · exact Or.inl (Option.some.inj hsys ▸ rfl)
  have hdeletes : ∀ i p, jobs i = .delete p →
      (sys.prog i).Issues (DeleteTxn codec false [.switchPort p]) :=
    fun i p hp => (hissues i).mono fun t ht => ht p hp
  rcases hdb with hsame | ⟨t, next, hprog, hanswers, hacc, hholds, happly⟩
  · rw [hsame]
    exact ⟨⟨hsame ▸ h.wellStored, h.allocated, hdeletes⟩, fun _ hdb => hdb⟩
  · have ht := h.deletes a.1 p hjob
    rw [hprog] at ht
    refine ⟨⟨?_, h.allocated, hdeletes⟩, fun hstill hdb => ?_⟩
    · rw [happly]
      exact ht.1.wellStored hacc h.wellStored
    · rw [happly]
      exact ht.1.booksExact hacc hholds h.wellStored hdb
        (hstill p t next hjob hprog hanswers hacc hholds)

theorem Wf.step {s s' : PortCluster} (h : Wf codec jobs s) {a : ℕ × Bool}
    (hstep : step codec jobs s a = some s') : Wf codec jobs s' := by
  unfold PortCluster.step at hstep
  split at hstep
  · next call hjob =>
      have halloc : ∀ v : Saver, (∀ al, v.stage.allocation? = some al →
          (s.saver a.1).stage.allocation? = some al ∨
            ∃ value, allocSwitchPortIP codec value call.cip call.cprefixLen = .got al) →
          ∀ i call a', jobs i = .save call →
            ((s.enter a.1 v).saver i).stage.allocation? = some a' →
            ∃ value, allocSwitchPortIP codec value call.cip call.cprefixLen = .got a' := by
        intro v hv i call' a' hjob' ha'
        rw [enter_saver] at ha'
        split_ifs at ha' with hi
        · subst hi
          obtain rfl := PortJob.save.inj (hjob.symm.trans hjob')
          rcases hv a' ha' with hold | hnew
          · exact h.allocated a.1 call a' hjob hold
          · exact hnew
        · exact h.allocated i call' a' hjob' ha'
      rcases saveStep_cases hstep with ⟨v, rfl, _, hv⟩ | ⟨al, missing, hstage, _, hacc, hholds, rfl⟩
      · exact ⟨h.wellStored, halloc v hv, h.deletes⟩
      · refine ⟨?_, halloc _ (by simp [SaveStage.allocation?]), h.deletes⟩
        exact SaveCall.wellStored missing h.wellStored (SaveCall.holds_txn hholds).1
  · next p hjob =>
      obtain ⟨sys, hsys, rfl⟩ := Option.map_eq_some_iff.mp hstep
      exact (h.deleteStep hjob hsys).1

/-- A step from a state with exact books leads to one with exact books iff it is orderly. -/
theorem Wf.step_exact_iff {s s' : PortCluster} (h : Wf codec jobs s) {a : ℕ × Bool}
    (hstill : StillStored jobs s a) (hdb : BooksExact codec s.sys.db)
    (hstep : PortCluster.step codec jobs s a = some s') :
    BooksExact codec s'.sys.db ↔ Orderly codec jobs s a := by
  unfold PortCluster.step at hstep
  split at hstep
  · next call hjob =>
      rcases saveStep_cases hstep with ⟨v, rfl, hno, _⟩ |
        ⟨al, missing, hstage, hanswers, hacc, hholds, rfl⟩
      · refine ⟨fun _ call' al missing hjob' hstage hanswers hacc hholds => ?_, fun _ => hdb⟩
        obtain rfl := PortJob.save.inj (hjob.symm.trans hjob')
        exact absurd hholds (hno al missing hanswers hstage hacc)
      · obtain ⟨value, hvalue⟩ := h.allocated a.1 call al hjob (by rw [hstage]; rfl)
        have hiff := SaveCall.exact_iff h.wellStored hvalue hholds hdb
        constructor
        · intro hexact call' al' missing' hjob' hstage' _ _ _
          obtain rfl := PortJob.save.inj (hjob.symm.trans hjob')
          obtain ⟨rfl, rfl⟩ := SaveStage.commit.inj (hstage.symm.trans hstage')
          exact hiff.mp hexact
        · intro horderly
          exact hiff.mpr (horderly call al missing hjob hstage hanswers hacc hholds)
  · next p hjob =>
      obtain ⟨sys, hsys, rfl⟩ := Option.map_eq_some_iff.mp hstep
      refine ⟨fun _ call al missing hjob' => ?_, fun _ => (h.deleteStep hjob hsys).2 hstill hdb⟩
      rw [hjob] at hjob'
      cases hjob'

/-- **Exact books**: in a run in which every `Delete` that commits removes the record that it was
called with, the books are exact after every step iff every step is orderly. -/
theorem books_exact_iff (horder : ∀ i l, (order i l).Perm l) {db : Store Stored}
    (hwell : WellStored db) (hdb : BooksExact codec db) {as : List (ℕ × Bool)}
    (hstill : Meets (PortCluster.step codec jobs) (StillStored jobs) (start codec order jobs db) as)
    (hrun : (run (PortCluster.step codec jobs) (start codec order jobs db) as).isSome) :
    (∀ bs, bs <+: as → ∀ s, run (PortCluster.step codec jobs) (start codec order jobs db) bs = some
      s →
        BooksExact codec s.sys.db) ↔
      Meets (PortCluster.step codec jobs) (Orderly codec jobs) (start codec order jobs db) as :=
  forall_prefix_iff_meets (PortCluster.step codec jobs) (fun _ _ _ _ h hstep => h.step hstep)
    (fun _ _ _ hstill h hdb hstep => h.step_exact_iff hstill hdb hstep)
    (start_wf horder hwell) hdb hstill hrun

end machine

/-! ### One port is saved while another one is deleted -/

def portP : SwitchPort := ⟨"a", "p", "10.0.0.2", "f2:01:0a:00:00:02", "", ""⟩

/-- One client saves a port `q` in the subnet `10.0.0.0/24`, the others delete the port `p`. -/
def twoJobs : ℕ → PortJob
  | 0 => .save ⟨⟨"a", "q", "", "", "", ""⟩, "10.0.0.0", 24⟩
  | _ => .delete portP

/-- A store with the switch `a` and its port `p`. -/
def onePortStore : Store Stored := fun key =>
  if key = switchIPBookPath "a" then some (.ofText "001")
  else if key = switchPath "a" then some (.ofDevice (.switch ⟨"a", 1⟩))
  else if key = switchPortPath "a" "p" then some (.ofDevice (.switchPort portP))
  else none

theorem onePortStore_deviceAt {key : String} {dev : Device}
    (h : deviceAt onePortStore key = some dev) :
    key = switchPath "a" ∧ dev = .switch ⟨"a", 1⟩ ∨
      key = switchPortPath "a" "p" ∧ dev = .switchPort portP := by
  unfold deviceAt onePortStore at h
  split_ifs at h with h1 h2 h3
  · cases h
  · exact Or.inl ⟨h2, (Option.some.inj h).symm⟩
  · exact Or.inr ⟨h3, (Option.some.inj h).symm⟩
  · cases h

theorem onePortStore_wellStored : WellStored onePortStore := by
  intro key dev hdev
  rcases onePortStore_deviceAt hdev with ⟨rfl, rfl⟩ | ⟨rfl, rfl⟩
  · rfl
  · rfl

theorem onePortStore_bit {key o : String} {dev : Device} {b : ℕ}
    (hdev : deviceAt onePortStore key = some dev) (hb : dev.bit = some (switchIPBookPath o, b)) :
    key = switchPortPath "a" "p" ∧ o = "a" ∧ b = 2 := by
  rcases onePortStore_deviceAt hdev with ⟨rfl, rfl⟩ | ⟨rfl, rfl⟩
  · have hkey := congrArg String.toList (Prod.mk.inj (Option.some.inj hb)).1
    have hi := (switchIPBookPath_start o).2
    rw [← hkey] at hi
    exact absurd hi (by decide)
  · have hport : (Device.switchPort portP).bit = some (switchIPBookPath "a", 2) := by decide
    rw [hport] at hb
    obtain ⟨hkey, rfl⟩ := Prod.mk.inj (Option.some.inj hb)
    exact ⟨rfl, (switchIPBookPath_inj hkey).symm, rfl⟩

theorem onePortStore_exact : BooksExact sampleCodec onePortStore where
  mem_iff := by
    intro o b
    by_cases ho : o = "a"
    · subst ho
      have hbits : bits sampleCodec onePortStore (switchIPBookPath "a") = {2} := by decide
      rw [hbits, Finset.mem_singleton]
      constructor
      · rintro rfl
        exact ⟨switchPortPath "a" "p", .switchPort portP, by decide, by decide⟩
      · rintro ⟨key, dev, hdev, hb⟩
        exact (onePortStore_bit hdev hb).2.2
    · have hnone : onePortStore (switchIPBookPath o) = none := by
        have hs : switchIPBookPath o ≠ switchPath "a" := book_ne_path o (.switch ⟨"a", 1⟩)
        have hp : switchIPBookPath o ≠ switchPortPath "a" "p" := book_ne_path o (.switchPort portP)
        have hb : switchIPBookPath o ≠ switchIPBookPath "a" := fun h => ho (switchIPBookPath_inj h)
        rw [onePortStore, if_neg hb, if_neg hs, if_neg hp]
      have hbits : bits sampleCodec onePortStore (switchIPBookPath o) = ∅ := by
        rw [bits, hnone]
        exact sampleCodec.fromBase64_empty
      rw [hbits]
      constructor
      · intro hb
        cases hb
      · rintro ⟨key, dev, hdev, hb⟩
        exact absurd (onePortStore_bit hdev hb).2.1 ho
  distinct := by
    intro key key' dev dev' o b hdev hdev' hne hb hb'
    exact hne ((onePortStore_bit hdev hb).1.trans (onePortStore_bit hdev' hb').1.symm)

/-- These clients on this store. -/
def twoJobsStart : PortCluster := start sampleCodec (fun _ l => l) twoJobs onePortStore

/-- The port is saved and then the other one deleted. -/
def inTurn : List (ℕ × Bool) := [(0, true), (0, true), (0, true), (0, true), (1, true), (1, true)]

theorem books_exact_iff_inTurn : ∃ s,
    run (PortCluster.step sampleCodec twoJobs) twoJobsStart inTurn = some s ∧
      BooksExact sampleCodec s.sys.db := by
  have hstill : Meets (PortCluster.step sampleCodec twoJobs) (StillStored twoJobs) twoJobsStart
      inTurn := by decide +kernel
  have horderly : Meets (PortCluster.step sampleCodec twoJobs) (Orderly sampleCodec twoJobs)
      twoJobsStart inTurn := by decide +kernel
  have hrun : (run (PortCluster.step sampleCodec twoJobs) twoJobsStart inTurn).isSome := by
    decide +kernel
  obtain ⟨s, hs⟩ := Option.isSome_iff_exists.mp hrun
  exact ⟨s, hs, (books_exact_iff (fun _ l => List.Perm.refl l) onePortStore_wellStored
    onePortStore_exact hstill hrun).mpr horderly inTurn (List.prefix_refl inTurn) s hs⟩

/-- The other port is deleted, and the book with it, between the two reads. -/
def bookGone : List (ℕ × Bool) := [(0, true), (0, true), (1, true), (1, true), (0, true), (0, true)]

/-- The book written afterwards holds the number of the deleted port. -/
theorem books_not_exact_bookGone : ¬ ∀ (codec : BitmapCodec)
    (order : ℕ → List (String × MapEntry) → List (String × MapEntry)) (jobs : ℕ → PortJob)
    (db : Store Stored) (as : List (ℕ × Bool)) (s : PortCluster),
    (∀ i l, (order i l).Perm l) → WellStored db → BooksExact codec db →
    Meets (PortCluster.step codec jobs) (StillStored jobs) (start codec order jobs db) as →
    run (PortCluster.step codec jobs) (start codec order jobs db) as = some s →
    BooksExact codec s.sys.db := by
  intro h
  have hstill : Meets (PortCluster.step sampleCodec twoJobs) (StillStored twoJobs) twoJobsStart
      bookGone := by decide +kernel
  have hrun : (run (PortCluster.step sampleCodec twoJobs) twoJobsStart bookGone).isSome := by
    decide +kernel
  have hdisorder : ¬ Meets (PortCluster.step sampleCodec twoJobs) (Orderly sampleCodec twoJobs)
      twoJobsStart bookGone := by decide +kernel
  have hiff := forall_prefix_iff_meets (PortCluster.step sampleCodec twoJobs)
    (fun _ _ _ _ h hstep => h.step hstep)
    (fun _ _ _ hstill h hdb hstep => h.step_exact_iff hstill hdb hstep)
    (start_wf (fun _ l => List.Perm.refl l) onePortStore_wellStored) onePortStore_exact hstill hrun
  refine hdisorder (hiff.mp fun bs hbs s hs => ?_)
  obtain ⟨cs, hcs⟩ := hbs
  have hprefix : Meets (PortCluster.step sampleCodec twoJobs) (StillStored twoJobs) twoJobsStart
      bs := meets_append _ (hcs ▸ hstill)
  exact h sampleCodec (fun _ l => l) twoJobs onePortStore bs s (fun _ l => List.Perm.refl l)
    onePortStore_wellStored onePortStore_exact hprefix hs

end PortCluster

end TupleNet.Control
