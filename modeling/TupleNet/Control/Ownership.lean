import TupleNet.Control.OrphanGuard

/-! # Adding below a device that somebody deletes

The add commands read the owner of what they add and then call `Save`; the delete commands list what
lies below the device and then call `Delete`.  No transaction compares what these reads gave.  So
the records keep an owner, in every interleaving, exactly as long as the owner that an add has read
is still stored when it commits, and a delete that leaves what lies below the device alone commits
when no record is left there (`noOrphan_run_iff`). -/

namespace TupleNet.Control

open TxnStore StepMachine

/-- Switches and routers own records. -/
def Device.IsOwner : Device → Prop
  | switch _ => True
  | router _ => True
  | _ => False

instance : DecidablePred Device.IsOwner
  | .switch _ => isTrue trivial
  | .router _ => isTrue trivial
  | .switchPort _ => isFalse id
  | .routerPort _ => isFalse id
  | .chassis _ => isFalse id
  | .staticRoute _ => isFalse id
  | .nat _ => isFalse id

/-- A device below the key of a switch or a router: a port, a static route or a NAT rule. -/
def Device.IsRecord (dev : Device) : Prop := dev.owner?.isSome

instance (dev : Device) : Decidable dev.IsRecord := inferInstanceAs (Decidable (_ = true))

/-- The key is that of a stored switch or router above another key. -/
def OwnerAt (db : Store Stored) (key o : String) : Prop :=
  Below o key ∧ ∃ dev, deviceAt db o = some dev ∧ dev.IsOwner

/-- Every stored record lies below the key of a stored switch or router. -/
def NoOrphan (db : Store Stored) : Prop :=
  ∀ key dev, deviceAt db key = some dev → dev.IsRecord → ∃ o, OwnerAt db key o

/-- What the transaction of a command has to find: an owner above each record that it puts, be it
stored or put with it, and, where it deletes a key but not what lies below it, another owner above
each record there. -/
structure Careful (db : Store Stored) (t : Txn Stored) : Prop where
  added : ∀ key dev, .put key (.ofDevice dev) ∈ t.ops → dev.IsRecord →
    ∃ o, OwnerAt db key o ∨
      Below o key ∧ ∃ owner, Device.IsOwner owner ∧ .put o (.ofDevice owner) ∈ t.ops
  deleted : ∀ p, .delete p ∈ t.ops → .deletePrefix (p ++ "/") ∉ t.ops →
    ∀ key dev, deviceAt db key = some dev → dev.IsRecord → Below p key →
      ∃ o ≠ p, OwnerAt db key o

/-! ### A committed `Save` -/

theorem deviceAt_of_eq {db : Store Stored} {key : String} {dev : Device}
    (h : db key = some (.ofDevice dev)) : deviceAt db key = some dev := by
  rw [deviceAt, h]
  rfl

section save
variable {codec : BitmapCodec} {t : Txn Stored} {db : Store Stored}

theorem SaveTxn.noOrphan_iff (ht : SaveTxn codec t) (hacc : t.Accepted)
    (hholds : t.Holds Stored.raw db) (hwell : WellStored db) (hdb : NoOrphan db) :
    NoOrphan (t.apply db) ↔ Careful db t := by
  obtain ⟨order, horder, st, saved, h, rfl⟩ := ht
  have hput : ∀ dev ∈ saved, .put dev.path (.ofDevice dev) ∈ (saveTxn codec order st).ops :=
    fun dev hdev => (h.mem_ops horder).mpr (Or.inl ⟨dev, hdev, rfl⟩)
  constructor
  · intro hafter
    refine ⟨fun key dev hdev hrecord => ?_, fun p hp => absurd rfl (h.not_deletes horder hp p)⟩
    have hstored := deviceAt_of_eq (Txn.apply_of_put hacc hdev db)
    obtain ⟨o, hbelow, owner, howner, hisOwner⟩ := hafter key dev hstored hrecord
    refine ⟨o, ?_⟩
    rcases h.deviceAt_apply horder hacc howner with ⟨hsaved, rfl⟩ | hold
    · exact Or.inr ⟨hbelow, owner, hisOwner, hput owner hsaved⟩
    · exact Or.inl ⟨hbelow, owner, hold, hisOwner⟩
  · intro hcareful key dev hdev hrecord
    -- a stored owner is not overwritten
    have hkept : ∀ o, OwnerAt db key o → OwnerAt ((saveTxn codec order st).apply db) key o := by
      rintro o ⟨hbelow, owner, howner, hisOwner⟩
      obtain ⟨v, hv, hvdev⟩ := Option.bind_eq_some_iff.mp howner
      have hmap : ¬ IsMapKey o := by
        rw [← hwell o owner howner]
        exact owner.path_not_map
      have hstill := h.not_overwritten horder hholds hacc hv hmap
      exact ⟨hbelow, owner, by rw [deviceAt, hstill]; exact hvdev, hisOwner⟩
    rcases h.deviceAt_apply horder hacc hdev with ⟨hsaved, rfl⟩ | hold
    · obtain ⟨o, ho | ⟨hbelow, owner, hisOwner, hownerPut⟩⟩ :=
        hcareful.added dev.path dev (hput dev hsaved) hrecord
      · exact ⟨o, hkept o ho⟩
      · exact ⟨o, hbelow, owner, deviceAt_of_eq (Txn.apply_of_put hacc hownerPut db), hisOwner⟩
    · obtain ⟨o, ho⟩ := hdb key dev hold hrecord
      exact ⟨o, hkept o ho⟩

end save

/-! ### A committed `Delete` of a switch or a router -/

theorem Below.trans {a b key : String} (h : Below a b) (h' : Below b key) : Below a key := by
  unfold Below at h h' ⊢
  rw [String.toList_append] at h'
  exact h.trans ((List.prefix_append _ _).trans h')

theorem Below.irrefl {key : String} : ¬ Below key key := by
  intro h
  have hlen := List.IsPrefix.length_le h
  rw [String.toList_append, List.length_append] at hlen
  exact absurd hlen (by simp)

/-- Nothing is stored below the key of a bitmap. -/
theorem IsMapKey.not_below {p : String} (h : IsMapKey p) (dev : Device) : ¬ Below p dev.path := by
  have hsecond : ∃ c, p.toList[1]? = some c := by
    rcases h with rfl | ⟨name, rfl | rfl⟩
    · exact ⟨'g', by decide⟩
    · exact ⟨'i', start_append (by decide) name⟩
    · exact ⟨'i', start_append (by decide) name⟩
  obtain ⟨c, hc⟩ := hsecond
  intro hbelow
  have hdev := start_of_deletes (Or.inr hbelow) hc
  rw [dev.path_second] at hdev
  exact h.second_ne (hc.trans hdev.symm)

section delete
variable {codec : BitmapCodec} {recursive : Bool} {dev : Device} {book : String} {id : ℕ}
  {t : Txn Stored} {db : Store Stored}

section plan
variable {order : List (String × MapEntry) → List (String × MapEntry)} {st : TxnState}
  {copies : List Device} (h : DeletePlan codec recursive st copies) (horder : ∀ l, (order l).Perm l)
include h horder

/-- A key that is deleted without what lies below it is that of a bitmap, or that of a device and
the delete is not recursive. -/
theorem DeletePlan.of_delete {p : String} (hp : .delete p ∈ (deleteTxn codec order st).ops)
    (hno : .deletePrefix (p ++ "/") ∉ (deleteTxn codec order st).ops) :
    IsMapKey p ∨ recursive = false ∧ ∃ dev ∈ copies, p = dev.path := by
  rcases (h.mem_ops horder).mp hp with ⟨dev, hdev, k, hk, ho⟩ | ⟨k, e, he, ho⟩
  · have hkp : p = k := by simpa [removeOps] using ho
    subst hkp
    cases recursive with
    | false => exact Or.inr ⟨rfl, dev, hdev, mem_deleteKeys_false.mp hk⟩
    | true =>
        refine absurd ((h.mem_ops horder).mpr (Or.inl ⟨dev, hdev, p, hk, ?_⟩)) hno
        exact List.mem_append_left _ (List.mem_singleton_self _)
  · have hkp : p = k := by
      unfold deleteOps at ho
      split_ifs at ho with h1 h2
      · exact Op.delete.inj (List.mem_singleton.mp ho)
      · cases List.mem_singleton.mp ho
      · cases ho
    exact Or.inl (hkp ▸ h.isMapKey k e he)

/-- A prefix is deleted only by a recursive delete. -/
theorem DeletePlan.of_deletePrefix {p : String}
    (hp : .deletePrefix p ∈ (deleteTxn codec order st).ops) : recursive = true := by
  rcases (h.mem_ops horder).mp hp with ⟨_, _, k, _, ho⟩ | ⟨k, e, _, ho⟩
  · cases recursive with
    | true => rfl
    | false => simp [removeOps] at ho
  · unfold deleteOps at ho
    split_ifs at ho with h1 h2
    · cases List.mem_singleton.mp ho
    · cases List.mem_singleton.mp ho
    · cases ho

/-- A stored device that is not removed stays. -/
theorem DeletePlan.deviceAt_kept (hwell : WellStored db) {key : String} {d : Device}
    (hd : deviceAt db key = some d) (hkept : ¬ Removed recursive copies key) :
    deviceAt ((deleteTxn codec order st).apply db) key = some d := by
  have hmap : ¬ IsMapKey key := by
    rw [← hwell key d hd]
    exact d.path_not_map
  rw [deviceAt, h.apply_of_kept horder hmap hkept db]
  exact hd

end plan

/-- Of the stored devices a delete removes its own and, when it is recursive, those below it. -/
theorem Owner.removed_stored_iff (h : Owner dev book id) (hwell : WellStored db) {key : String}
    {d : Device} (hd : deviceAt db key = some d) :
    Removed recursive [dev] key ↔ key = dev.path ∨ recursive = true ∧ Below dev.path key := by
  rw [← hwell key d hd]
  cases recursive with
  | false =>
      rw [removed_false]
      simp [eq_comm]
  | true =>
      have hbook : ¬ Within book d.path := by
        intro hwithin
        have hi := h.second.2 hwithin
        rw [d.path_second] at hi
        exact absurd hi (by decide)
      rw [h.removed_iff, or_iff_left hbook]
      simp [Within, Below]

/-- A record that has an owner afterwards has had one that is not deleted. -/
theorem DeleteTxn.careful (howner : Owner dev book id) (ht : DeleteTxn codec recursive [dev] t)
    (hacc : t.Accepted) (hwell : WellStored db) (hafter : NoOrphan (t.apply db)) :
    Careful db t := by
  obtain ⟨order, horder, st, h, rfl⟩ := ht
  refine ⟨fun key d hd _ => ?_, fun p hp hno key d hd hrecord hbelow => ?_⟩
  · obtain ⟨e, _, heq⟩ := h.of_put horder hd
    exact absurd (congrArg Stored.device heq) (Option.some_ne_none d)
  · rcases h.of_delete horder hp hno with hmap | ⟨rfl, dev', hdev', rfl⟩
    · rw [← hwell key d hd] at hbelow
      exact absurd hbelow (hmap.not_below d)
    · obtain rfl := List.mem_singleton.mp hdev'
      have hkept : ¬ Removed false [dev'] key := by
        rw [howner.removed_stored_iff hwell hd]
        rintro (rfl | ⟨hfalse, _⟩)
        · exact hbelow.irrefl
        · cases hfalse
      obtain ⟨o, hbelow', owner, hstored, hisOwner⟩ :=
        hafter key d (h.deviceAt_kept horder hwell hd hkept) hrecord
      obtain ⟨hold, hno'⟩ := h.deviceAt_apply horder hacc hstored
      refine ⟨o, ?_, hbelow', owner, hold, hisOwner⟩
      rintro rfl
      exact hno' (Removed.of_path (List.mem_singleton_self dev'))

/-- A record that is left behind keeps its owner, or the delete has found another one. -/
theorem DeleteTxn.noOrphan (howner : Owner dev book id) (ht : DeleteTxn codec recursive [dev] t)
    (hacc : t.Accepted) (hwell : WellStored db) (hdb : NoOrphan db) (hcareful : Careful db t) :
    NoOrphan (t.apply db) := by
  obtain ⟨order, horder, st, h, rfl⟩ := ht
  intro key d hd hrecord
  obtain ⟨hd, hnot⟩ := h.deviceAt_apply horder hacc hd
  obtain ⟨o, hbelow, owner, hstored, hisOwner⟩ := hdb key d hd hrecord
  by_cases ho : Removed recursive [dev] o
  · rw [howner.removed_stored_iff hwell hd, not_or] at hnot
    have hremoved := (howner.removed_stored_iff hwell hstored).mp ho
    -- a recursive delete of an owner above the record deletes the record too
    have hfalse : recursive = false := by
      by_contra htrue
      refine hnot.2 ⟨Bool.eq_true_of_not_eq_false htrue, ?_⟩
      rcases hremoved with rfl | ⟨_, habove⟩
      · exact hbelow
      · exact habove.trans hbelow
    subst hfalse
    have hpath : o = dev.path := by simpa using hremoved
    have hdelete : .delete dev.path ∈ (deleteTxn codec order st).ops :=
      (h.mem_ops horder).mpr (Or.inl ⟨dev, List.mem_singleton_self dev, dev.path,
        path_mem_deleteKeys false dev, List.mem_singleton_self _⟩)
    have hprefix : .deletePrefix (dev.path ++ "/") ∉ (deleteTxn codec order st).ops :=
      fun hmem => Bool.noConfusion (h.of_deletePrefix horder hmem)
    obtain ⟨o', hne, hbelow', owner', hstored', hisOwner'⟩ :=
      hcareful.deleted dev.path hdelete hprefix key d hd hrecord (hpath ▸ hbelow)
    refine ⟨o', hbelow', owner', h.deviceAt_kept horder hwell hstored' ?_, hisOwner'⟩
    rw [howner.removed_stored_iff hwell hstored']
    simpa using hne
  · exact ⟨o, hbelow, owner, h.deviceAt_kept horder hwell hstored ho, hisOwner⟩

end delete

/-! ### Commands side by side -/

/-- What a client does. -/
inductive Job where
  | command (cmd : Tpctl.AddCommand)
  | request (req : Api.AddRequest)
  | link (route switchName cidr : String)
  | delete (cmd : DelCommand) (recursive : Bool)

/-- A transaction that puts one text under a key that is not one of a device. -/
def TextTxn (t : Txn Stored) : Prop :=
  ∃ key text, key.toList[1]? ≠ some 'e' ∧ t.ops = [.put key (.ofText text)]

/-- A transaction of an add command or of a delete command. -/
def FrontTxn (codec : BitmapCodec) (t : Txn Stored) : Prop :=
  SaveTxn codec t ∨
    (∃ recursive dev book id, Owner dev book id ∧ DeleteTxn codec recursive [dev] t) ∨ TextTxn t

section jobs
variable {codec : BitmapCodec}
  {order : List (String × MapEntry) → List (String × MapEntry)}

def Job.prog (codec : BitmapCodec)
    (order : List (String × MapEntry) → List (String × MapEntry)) : Job → FrontEnd
  | command cmd => cmd.prog codec order
  | request req => req.prog codec order
  | link route switchName cidr => Api.linkSwitchProg codec order route switchName cidr
  | delete cmd recursive => cmd.prog codec order recursive

/-- A text is no device, and no device is stored where it is put. -/
theorem TextTxn.deviceAt_apply {t : Txn Stored} (ht : TextTxn t) {db : Store Stored}
    (hwell : WellStored db) (key : String) : deviceAt (t.apply db) key = deviceAt db key := by
  obtain ⟨k, text, hk, hops⟩ := ht
  rw [deviceAt, Txn.apply, hops]
  by_cases hkey : key = k
  · subst hkey
    have hput : applyOps [.put key (.ofText text)] db key = some (.ofText text) :=
      Function.update_self ..
    rw [hput]
    cases hdev : deviceAt db key with
    | none => rfl
    | some dev => exact absurd (hwell key dev hdev ▸ dev.path_second) hk
  · have hput : applyOps [.put k (.ofText text)] db key = db key := Function.update_of_ne hkey ..
    rw [hput]
    rfl

theorem TextTxn.careful {t : Txn Stored} (ht : TextTxn t) (db : Store Stored) : Careful db t := by
  obtain ⟨k, text, _, hops⟩ := ht
  refine ⟨fun key dev hdev _ => ?_, fun p hp => ?_⟩
  · rw [hops] at hdev
    obtain ⟨_, hv⟩ := Op.put.inj (List.mem_singleton.mp hdev)
    exact absurd (congrArg Stored.device hv) (Option.some_ne_none dev)
  · rw [hops] at hp
    cases List.mem_singleton.mp hp

theorem FrontTxn.noOrphan_iff {t : Txn Stored} (ht : FrontTxn codec t) {db : Store Stored}
    (hacc : t.Accepted) (hholds : t.Holds Stored.raw db) (hwell : WellStored db)
    (hdb : NoOrphan db) : NoOrphan (t.apply db) ↔ Careful db t := by
  rcases ht with ht | ⟨recursive, dev, book, id, howner, ht⟩ | ht
  · exact ht.noOrphan_iff hacc hholds hwell hdb
  · exact ⟨ht.careful howner hacc hwell, ht.noOrphan howner hacc hwell hdb⟩
  · refine iff_of_true ?_ (ht.careful db)
    simp only [NoOrphan, OwnerAt, ht.deviceAt_apply hwell]
    exact hdb

theorem FrontTxn.wellStored {t : Txn Stored} (ht : FrontTxn codec t) {db : Store Stored}
    (hacc : t.Accepted) (hwell : WellStored db) : WellStored (t.apply db) := by
  rcases ht with ht | ⟨recursive, dev, book, id, _, ht⟩ | ht
  · exact ht.wellStored hacc hwell
  · exact ht.wellStored hacc hwell
  · simp only [WellStored, ht.deviceAt_apply hwell]
    exact hwell

/-! ### The transactions of a command -/

section issues
variable {G : Txn Stored → Prop}

theorem getKV_issues {key : String} {next : String → FrontEnd} (h : ∀ text, (next text).Issues G) :
    (getKV key next).Issues G := by
  intro answer
  rcases answer with _ | _ | text
  · trivial
  · trivial
  · exact h text

theorem getKVs_issues {l : Listing} {next : List (String × String) → FrontEnd}
    (h : ∀ kvs, (next kvs).Issues G) : (getKVs l next).Issues G := by
  intro answer
  cases answer with
  | none => trivial
  | some kvs => exact h _

theorem getAll_issues {next : FrontEnd} (h : next.Issues G) (keys : List String) :
    (getAll keys next).Issues G := by
  induction keys with
  | nil => exact h
  | cons key keys ih => exact getKV_issues fun _ => ih

theorem unlessFound_issues {found next : FrontEnd} (hfound : found.Issues G) (h : next.Issues G)
    (keys : List String) : (unlessFound found keys next).Issues G := by
  induction keys with
  | nil => exact h
  | cons key keys ih =>
      intro answer
      rcases answer with _ | _ | text
      · trivial
      · exact ih
      · exact hfound

theorem readEach_issues {next : FrontEnd} (h : next.Issues G) (keys : List String) :
    (readEach keys next).Issues G := by
  induction keys with
  | nil => exact h
  | cons key keys ih =>
      intro answer
      rcases answer with _ | _
      · trivial
      · exact ih

theorem putThen_issues {c : Cmp} {key text : String} {next : FrontEnd} (h : next.Issues G)
    (hput : G ⟨[c], [.put key (.ofText text)]⟩) : (putThen c key text next).Issues G := by
  refine ⟨hput, fun answer => ?_⟩
  cases answer with
  | succeeded => exact h
  | failed => trivial
  | error => trivial

end issues

/-- Connecting puts the bitmap of ids and the version. -/
theorem connect_frontTxn {next : FrontEnd} (h : next.Issues (FrontTxn codec)) :
    (connect codec next).Issues (FrontTxn codec) := by
  have hids : ∀ c text, FrontTxn codec ⟨[c], [.put deviceIDsPath (.ofText text)]⟩ :=
    fun c text => Or.inr (Or.inr ⟨deviceIDsPath, text, by decide, rfl⟩)
  have hversion : ∀ c text, FrontTxn codec ⟨[c], [.put versionPath (.ofText text)]⟩ :=
    fun c text => Or.inr (Or.inr ⟨versionPath, text, by decide, rfl⟩)
  have hcheck : (checkVersion next).Issues (FrontTxn codec) := by
    intro answer
    rcases answer with _ | _ | v
    · trivial
    · exact putThen_issues h (hversion _ _)
    · dsimp only
      split_ifs
      · trivial
      · exact putThen_issues h (hversion _ _)
      · exact h
  intro answer
  cases answer with
  | none => trivial
  | some value =>
      dsimp only
      split_ifs
      · exact hcheck
      · exact getKVs_issues fun routers => getKVs_issues fun switches =>
          putThen_issues hcheck (hids _ _)

theorem save_frontTxn (horder : ∀ l, (order l).Perm l) {devs : List Device}
    (hfresh : ∀ dev ∈ devs, dev.Fresh) :
    (RangeProg.ofProg (save codec order devs)).Issues (FrontTxn codec) :=
  RangeProg.issues_ofProg ((save_issues horder hfresh).mono fun _ ht => Or.inl ht)

theorem deleteDevice_frontTxn (horder : ∀ l, (order l).Perm l) (used recursive : Bool)
    {dev : Device} {book : String} {id : ℕ} (howner : Owner dev book id) :
    (deleteDevice codec order used recursive dev).Issues (FrontTxn codec) := by
  have hdelete : ∀ r, (RangeProg.ofProg (delete codec order r [dev])).Issues (FrontTxn codec) :=
    fun r => RangeProg.issues_ofProg ((delete_issues horder [dev]).mono
      fun _ ht => Or.inr (Or.inl ⟨r, dev, book, id, howner, ht⟩))
  unfold deleteDevice
  split_ifs
  · exact hdelete true
  · trivial
  · exact hdelete false

/-- The constructors leave the id of a switch or a router to `Save`. -/
theorem Tpctl.AddCommand.devices_fresh {cmd : AddCommand} {devs : List Device}
    (h : cmd.devices = some devs) : ∀ dev ∈ devs, dev.Fresh := by
  cases cmd <;>
    simp only [devices, addSwitch, addRouter, addSwitchPort, addPatchPort, addRouterPort,
      addStaticRoute, addNAT, linkSwitch, Option.bind_eq_bind, Option.bind_eq_some_iff,
      Option.some.injEq] at h
  case switch => obtain ⟨_, _, rfl⟩ := h; simp [Device.Fresh]
  case router => obtain ⟨_, _, rfl⟩ := h; simp [Device.Fresh]
  case switchPort => obtain ⟨_, _, _, _, _, _, rfl⟩ := h; simp [Device.Fresh]
  case patchPort => obtain ⟨_, _, rfl⟩ := h; simp [Device.Fresh]
  case routerPort => obtain ⟨_, _, _, _, _, _, rfl⟩ := h; simp [Device.Fresh]
  case staticRoute => obtain ⟨_, _, _, _, _, _, rfl⟩ := h; simp [Device.Fresh]
  case nat => obtain ⟨_, _, _, _, _, _, _, _, rfl⟩ := h; simp [Device.Fresh]
  case link => obtain ⟨_, _, _, _, rfl⟩ := h; simp [Device.Fresh]

theorem Api.AddRequest.device_fresh {req : AddRequest} {dev : Device} (h : req.device = some dev) :
    dev.Fresh := by
  cases req <;>
    simp only [device, addSwitch, addRoute, addSwitchPort, addPatchPort, addRouterPort,
      addStaticRoute, addNAT, Option.bind_eq_bind, Option.bind_eq_some_iff, Option.some.injEq] at h
  case switch => obtain ⟨_, _, rfl⟩ := h; rfl
  case route => obtain ⟨_, _, rfl⟩ := h; rfl
  case switchPort => obtain ⟨_, _, _, _, _, _, _, _, rfl⟩ := h; trivial
  case patchPort => obtain ⟨_, _, rfl⟩ := h; trivial
  case routerPort => obtain ⟨_, _, _, _, _, _, rfl⟩ := h; trivial
  case staticRoute => obtain ⟨_, _, _, _, _, _, rfl⟩ := h; trivial
  case nat => obtain ⟨_, _, _, _, _, _, _, _, rfl⟩ := h; trivial

theorem Tpctl.AddCommand.prog_frontTxn (horder : ∀ l, (order l).Perm l) (cmd : AddCommand) :
    (cmd.prog codec order).Issues (FrontTxn codec) := by
  refine connect_frontTxn ?_
  cases hdevs : cmd.devices with
  | none => trivial
  | some devs =>
      have hsave : (RangeProg.ofProg (save codec order devs)).Issues (FrontTxn codec) :=
        save_frontTxn horder (devices_fresh hdevs)
      have hfound : (RangeProg.ret .error : FrontEnd).Issues (FrontTxn codec) := trivial
      exact getAll_issues (unlessFound_issues hfound hsave _) _

theorem Api.AddRequest.prog_frontTxn (horder : ∀ l, (order l).Perm l) (req : AddRequest) :
    (req.prog codec order).Issues (FrontTxn codec) := by
  unfold prog
  cases hdev : req.device with
  | none => trivial
  | some dev =>
      have hsave : (RangeProg.ofProg (save codec order [dev])).Issues (FrontTxn codec) := by
        refine save_frontTxn horder fun d hd => ?_
        rw [List.mem_singleton.mp hd]
        exact device_fresh hdev
      have hfound : (req.whenFound (.ofProg (save codec order [dev]))).Issues (FrontTxn codec) := by
        cases req with
        | patchPort _ _ _ _ => trivial
        | nat _ _ _ _ _ => trivial
        | switch _ => exact hsave
        | route _ _ => exact hsave
        | switchPort _ _ _ _ _ => exact hsave
        | routerPort _ _ _ _ _ => exact hsave
        | staticRoute _ _ _ _ _ => exact hsave
      exact getAll_issues (unlessFound_issues hfound hsave _) _

theorem DelCommand.prog_frontTxn (horder : ∀ l, (order l).Perm l) (cmd : DelCommand)
    (recursive : Bool) : (cmd.prog codec order recursive).Issues (FrontTxn codec) := by
  have hbody : (cmd.body codec order recursive).Issues (FrontTxn codec) := by
    have hdelete : ∀ used text, (deleteDevice codec order used recursive
        (cmd.device text)).Issues (FrontTxn codec) := by
      intro used text
      obtain ⟨book, id, howner, _⟩ := cmd.device_owner text
      exact deleteDevice_frontTxn horder used recursive howner
    cases cmd with
    | tpctlSwitch name => exact getKV_issues fun text => getKVs_issues fun _ => hdelete _ text
    | tpctlRouter name =>
        exact getKV_issues fun text => getKVs_issues fun _ => getKVs_issues fun _ => hdelete _ text
    | apiSwitch name => exact getKV_issues fun text => getKVs_issues fun _ => hdelete _ text
    | apiRouter name =>
        exact getKV_issues fun text => getKVs_issues fun _ => getKVs_issues fun _ => hdelete _ text
  cases cmd with
  | tpctlSwitch name => exact connect_frontTxn hbody
  | tpctlRouter name => exact connect_frontTxn hbody
  | apiSwitch name =>
      rw [prog, Api.delSwitch]
      split_ifs
      · trivial
      · exact hbody
  | apiRouter name =>
      rw [prog, Api.delRouter]
      split_ifs
      · trivial
      · exact hbody

/-- The ports of a link are fresh. -/
theorem Api.linkSwitchProg_frontTxn (horder : ∀ l, (order l).Perm l)
    (route switchName cidr : String) :
    (Api.linkSwitchProg codec order route switchName cidr).Issues (FrontTxn codec) := by
  unfold Api.linkSwitchProg
  cases hdevs : Api.linkSwitch route switchName cidr with
  | none => trivial
  | some devs =>
      refine getAll_issues (readEach_issues (save_frontTxn horder fun dev hdev => ?_) _) _
      obtain ⟨_, _, hlink⟩ := Option.bind_eq_some_iff.mp hdevs
      have hlinked : (Tpctl.AddCommand.link route switchName cidr).devices = some devs := hlink
      exact Tpctl.AddCommand.devices_fresh hlinked dev hdev

theorem Job.prog_frontTxn (horder : ∀ l, (order l).Perm l) (job : Job) :
    (job.prog codec order).Issues (FrontTxn codec) := by
  cases job with
  | command cmd => exact cmd.prog_frontTxn horder
  | request req => exact req.prog_frontTxn horder
  | link route switchName cidr => exact Api.linkSwitchProg_frontTxn horder route switchName cidr
  | delete cmd recursive => exact cmd.prog_frontTxn horder recursive

end jobs

/-- The commands of the clients on one store. -/
def startJobs (codec : BitmapCodec)
    (order : ℕ → List (String × MapEntry) → List (String × MapEntry)) (s : KeyedStore Stored)
    (jobs : ℕ → Job) : RangeSystem Stored Outcome where
  store := s
  prog := fun i => (jobs i).prog codec (order i)

/-- **No record without an owner**: in an interleaving of adds and deletes every record has an owner
at every moment iff every transaction that is committed finds what it has to find. -/
theorem noOrphan_run_iff {codec : BitmapCodec}
    {order : ℕ → List (String × MapEntry) → List (String × MapEntry)}
    (horder : ∀ i l, (order i l).Perm l) {s : KeyedStore Stored} (hwell : WellStored s.db)
    (hdb : NoOrphan s.db) (jobs : ℕ → Job) {as : List (ℕ × Bool)}
    (hrun : (run (RangeSystem.step Stored.raw) (startJobs codec order s jobs) as).isSome) :
    (∀ bs, bs <+: as → ∀ s', run (RangeSystem.step Stored.raw) (startJobs codec order s jobs) bs =
        some s' → NoOrphan s'.store.db) ↔
      Meets (RangeSystem.step Stored.raw)
        (fun s' a => ∀ t, s'.Commits Stored.raw a t → Careful s'.store.db t)
        (startJobs codec order s jobs) as :=
  RangeSystem.forall_prefix_iff_commits (G := FrontTxn codec)
    (fun _ _ hwell ht hacc _ => ht.wellStored hacc hwell)
    (fun _ _ hwell hdb ht hacc hholds => ht.noOrphan_iff hacc hholds hwell hdb)
    (fun i => (jobs i).prog_frontTxn (horder i)) hwell hdb hrun

/-! ### A port and the switch below which it is added -/

/-- The switch `a`. -/
def switchKeys : KeyedStore Stored where
  db := oneSwitchStore
  keys := [deviceIDsPath, switchPath "a"]
  covers := by
    intro key h
    by_contra hno
    simp only [List.mem_cons, List.not_mem_nil, or_false, not_or] at hno
    simp only [oneSwitchStore, hno, if_false, ne_eq, not_true_eq_false] at h

theorem switchKeys_wellStored : WellStored switchKeys.db := by
  intro key dev hdev
  obtain ⟨rfl, rfl⟩ := oneSwitchStore_deviceAt hdev
  rfl

theorem switchKeys_noOrphan : NoOrphan switchKeys.db := by
  intro key dev hdev hrecord
  obtain ⟨_, rfl⟩ := oneSwitchStore_deviceAt hdev
  exact absurd hrecord (by decide)

/-- One client adds a port to the switch and another one deletes the switch if it finds no port; the
others are refused their names. -/
def portAndDelete : ℕ → Job
  | 0 => .command (.switchPort "a" "p" "10.0.0.1" "" "")
  | 1 => .delete (.tpctlSwitch "a") false
  | _ => .command (.switch "")

def portRun (as : List (ℕ × Bool)) : Option (RangeSystem Stored Outcome) :=
  run (RangeSystem.step Stored.raw) (startJobs sampleCodec (fun _ l => l) switchKeys portAndDelete)
  as

/-- The first client connects and adds the port, then the second one connects and finds it. -/
def earlyAdd : List (ℕ × Bool) := List.replicate 7 (0, true) ++ List.replicate 4 (1, true)

/-- The port as it is saved. -/
def savedPort : Device := .switchPort ⟨"a", "p", "10.0.0.1", "f2:01:0a:00:00:01", "", ""⟩

/-- The transaction that puts the port and its bit while the switch is stored. -/
def PutsPort (s : RangeSystem Stored Outcome) (t : Txn Stored) : Prop :=
  t.ops = [.put savedPort.path (.ofDevice savedPort),
      .put (switchIPBookPath "a") (.ofText (sampleCodec.toBase64 {1}))] ∧
    deviceAt s.store.db (switchPath "a") = some (.switch ⟨"a", 1⟩)

instance (s : RangeSystem Stored Outcome) (t : Txn Stored) : Decidable (PutsPort s t) :=
  inferInstanceAs (Decidable (_ ∧ _))

theorem PutsPort.careful {s : RangeSystem Stored Outcome} {t : Txn Stored} (h : PutsPort s t) :
    Careful s.store.db t := by
  obtain ⟨hops, hswitch⟩ := h
  refine ⟨fun key dev hdev _ => ?_, fun p hp => ?_⟩
  · rw [hops] at hdev
    rcases List.mem_cons.mp hdev with heq | heq
    · obtain ⟨rfl, _⟩ := Op.put.inj heq
      exact ⟨switchPath "a", Or.inl ⟨by decide, _, hswitch, trivial⟩⟩
    · obtain ⟨_, hv⟩ := Op.put.inj (List.mem_singleton.mp heq)
      exact absurd (congrArg Stored.device hv) (Option.some_ne_none dev)
  · rw [hops] at hp
    simp at hp

theorem noOrphan_earlyAdd : (portRun earlyAdd).isSome ∧ ∀ bs, bs <+: earlyAdd → ∀ s,
    portRun bs = some s → NoOrphan s.store.db := by
  have hrun : (portRun earlyAdd).isSome := by decide +kernel
  have hputs : Meets (RangeSystem.step Stored.raw)
      (fun s a => ∀ t ∈ s.pending a.1, PutsPort s t ∨
        t.ops = [.put versionPath (.ofText currentVersion)])
      (startJobs sampleCodec (fun _ l => l) switchKeys portAndDelete) earlyAdd := by decide +kernel
  refine ⟨hrun, (noOrphan_run_iff (fun _ l => List.Perm.refl l) switchKeys_wellStored
    switchKeys_noOrphan portAndDelete hrun).mpr ?_⟩
  refine hputs.mono _ fun s a h t ht => ?_
  rcases h t (ht.pending Stored.raw) with hput | hops
  · exact hput.careful
  · exact TextTxn.careful ⟨versionPath, currentVersion, by decide, hops⟩ s.store.db

/-- The switch is deleted after the first client has read it and before that one commits. -/
def lateAdd : List (ℕ × Bool) :=
  List.replicate 5 (0, true) ++ List.replicate 6 (1, true) ++ List.replicate 2 (0, true)

/-- The port has no owner. -/
theorem not_noOrphan_lateAdd : ¬ ∀ (codec : BitmapCodec)
    (order : ℕ → List (String × MapEntry) → List (String × MapEntry)) (s : KeyedStore Stored)
    (jobs : ℕ → Job) (as : List (ℕ × Bool)) (s' : RangeSystem Stored Outcome),
    (∀ i l, (order i l).Perm l) → WellStored s.db → NoOrphan s.db →
    run (RangeSystem.step Stored.raw) (startJobs codec order s jobs) as = some s' →
    NoOrphan s'.store.db := by
  intro h
  obtain ⟨s, hs⟩ := Option.isSome_iff_exists.mp
    (show (portRun lateAdd).isSome from by decide +kernel)
  have hport : ∀ s ∈ portRun lateAdd, deviceAt s.store.db savedPort.path = some savedPort := by
    decide +kernel
  have hnone : ∀ s ∈ portRun lateAdd, ∀ o ∈ s.store.keys, ∀ dev ∈ deviceAt s.store.db o,
      ¬ dev.IsOwner := by decide +kernel
  have hafter : NoOrphan s.store.db := h sampleCodec (fun _ l => l) switchKeys portAndDelete lateAdd
    s
    (fun _ l => List.Perm.refl l) switchKeys_wellStored switchKeys_noOrphan hs
  obtain ⟨o, _, dev, hdev, howner⟩ := hafter savedPort.path savedPort (hport s hs) (by decide)
  refine hnone s hs o (s.store.covers o fun hmissing => ?_) dev hdev howner
  rw [deviceAt, hmissing] at hdev
  cases hdev

end TupleNet.Control
