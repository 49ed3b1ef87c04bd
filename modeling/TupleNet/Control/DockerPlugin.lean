import TupleNet.Control.DeleteOutcome
import TupleNet.Control.RecordText
import Mathlib.Data.Set.List

/-! # Deletes of the docker plugin

`deleteEndpoint` and `deleteNetwork` of `tpcnm`: lookups by key, each of which finds its device,
does not find it or fails otherwise, and then `Controller.Delete` of what was found.  A device that
was not found is a nil pointer; both handlers count only other errors as errors and pass the pointer
on, and `Delete`, whose `IsValid` lets a typed nil pass, crashes on it.

After a delete that has succeeded the device is gone and its owner still stored, so the next call
always gets a nil pointer (`nil_after_ok`).  Hence a request is safe to repeat only as long as it
never succeeds (`safeToRepeat_iff`). -/

namespace TupleNet.Control.Tpcnm

open TxnStore

/-! ### The handlers -/

/-- How a lookup fails: with `ErrKeyNotFound` as its cause, or otherwise. -/
inductive GetError where
  | keyNotFound
  | other
deriving DecidableEq, Repr

/-- What a handler does after its lookups: a reply, or `Controller.Delete` of pointers, where `none`
is a nil one. -/
inductive Call where
  | reply (o : Outcome)
  | delete (recursive : Bool) (ptrs : List (Option Device))
deriving DecidableEq, Repr

abbrev Lookups := Prog Stored Call

/-- `getKV` and `UnmarshalTuplenet` into a new device. -/
def getDevice (key : String) (dev : Device) (next : Except GetError Device → Lookups) : Lookups :=
  .get key (fun answer => match answer with
    | some (some text) => next (.ok (unmarshalTuplenet text dev))
    | some none => next (.error .keyNotFound)
    | none => next (.error .other))

def getSwitch (name : String) : (Except GetError Device → Lookups) → Lookups :=
  getDevice (switchPath name) (.switch ⟨name, 0⟩)

def getSwitchPort (s portName : String) : (Except GetError Device → Lookups) → Lookups :=
  getDevice (switchPortPath s portName) (.switchPort ⟨s, portName, "", "", "", ""⟩)

def getRouter (name : String) : (Except GetError Device → Lookups) → Lookups :=
  getDevice (routerPath name) (.router ⟨name, 0, ""⟩)

def getRouterPort (r portName : String) : (Except GetError Device → Lookups) → Lookups :=
  getDevice (routerPortPath r portName) (.routerPort ⟨r, portName, "", 0, "", ""⟩)

/-- `if err != nil`. -/
def unlessError (found : Except GetError Device) (next : Device → Lookups) : Lookups :=
  match found with
  | .ok dev => next dev
  | .error _ => .ret (.reply .error)

/-- `if err != nil && errors.Cause(err) != etcd3.ErrKeyNotFound`. -/
def unlessOtherError (found : Except GetError Device) (next : Option Device → Lookups) : Lookups :=
  match found with
  | .ok dev => next (some dev)
  | .error .keyNotFound => next none
  | .error .other => .ret (.reply .error)

def portNameByPeer (name : String) : String := "to_" ++ name

/-- The lookups of `deleteEndpoint`. -/
def deleteEndpoint (networkID endpointID : String) : Lookups :=
  if endpointID = "" then .ret (.reply .error)
  else
    getSwitch networkID (fun swtch => unlessError swtch (fun _ =>
      getSwitchPort networkID endpointID (fun sport => unlessOtherError sport (fun sport =>
        .ret (.delete false [sport])))))

/-- The lookups of `deleteNetwork`. -/
def deleteNetwork (egressRouterName networkID : String) : Lookups :=
  getSwitch networkID (fun swtch => unlessOtherError swtch (fun swtch =>
    if egressRouterName = "" then .ret (.delete true [swtch])
    else
      getRouter egressRouterName (fun router => unlessError router (fun _ =>
        getRouterPort egressRouterName (portNameByPeer networkID) (fun rport =>
          unlessOtherError rport (fun rport => .ret (.delete true [swtch, rport])))))))

/-- A request that is decoded. -/
inductive DeleteReq where
  | endpoint (networkID endpointID : String)
  | network (networkID : String)
deriving DecidableEq, Repr

namespace DeleteReq

def lookups (egressRouterName : String) : DeleteReq → Lookups
  | endpoint networkID endpointID => deleteEndpoint networkID endpointID
  | network networkID => deleteNetwork egressRouterName networkID

def recursive : DeleteReq → Bool
  | endpoint _ _ => false
  | network _ => true

end DeleteReq

section programs
variable (codec : BitmapCodec) (order : List (String × MapEntry) → List (String × MapEntry))

/-- A round of the loop of `Delete`. -/
def deleteDev (recursive : Bool) (dev : Device) (st : TxnState) (next : TxnState → Client) :
    Client :=
  let goOn (keys : List String) (st : TxnState) : Client :=
    next (keys.foldl (fun st key => st.remove recursive key) st)
  match dev with
  | .switch s =>
      returnID codec s.id st
        (goOn (ownKeys recursive (switchPath s.name) (switchIPBookPath s.name)))
  | .router r =>
      returnID codec r.id st
        (goOn (ownKeys recursive (routerPath r.name) (routerIPBookPath r.name)))
  | .switchPort p => returnIP codec (switchIPBookPath p.owner) p.ip st (goOn [dev.path])
  | .routerPort p => returnIP codec (routerIPBookPath p.owner) p.ip st (goOn [dev.path])
  | .chassis _ => goOn [dev.path] st
  | .staticRoute _ => goOn [dev.path] st
  | .nat _ => goOn [dev.path] st

/-- The loop of `Delete` over pointers; every branch of the type switch dereferences its own. -/
def deletePtrsLoop (recursive : Bool) : List (Option Device) → TxnState → Client
  | [], st => commit (deleteTxn codec order st)
  | none :: _, _ => .ret .panic
  | some dev :: ptrs, st =>
      deleteDev codec recursive dev st (fun st => deletePtrsLoop recursive ptrs st)

/-- `Controller.Delete` of pointers. -/
def deletePtrs (recursive : Bool) (ptrs : List (Option Device)) : Client :=
  deletePtrsLoop codec order recursive ptrs .empty

def Call.prog : Call → Client
  | reply o => .ret o
  | delete recursive ptrs => deletePtrs codec order recursive ptrs

/-- A handler; the result `ok` is a reply without an error. -/
def DeleteReq.prog (egressRouterName : String) (req : DeleteReq) : Client :=
  (req.lookups egressRouterName).bind (Call.prog codec order)

/-- Both handlers are as they should be on this store: only devices that are stored are passed to
`Delete`, and a call that has succeeded can be repeated, which changes nothing. -/
structure SafeToRepeat (egressRouterName : String) (db : Store Stored) (req : DeleteReq) :
    Prop where
  found : ∀ db' recursive ptrs,
    (req.lookups egressRouterName).Ends Stored.raw db (db', .delete recursive ptrs) →
      ∀ ptr ∈ ptrs, ∃ dev, ptr = some dev ∧ db dev.path ≠ none
  again : ∀ db', (req.prog codec order egressRouterName).Ends Stored.raw db (db', .ok) →
    ∀ db'' o, (req.prog codec order egressRouterName).Ends Stored.raw db' (db'', o) →
      o ≠ .panic ∧ db'' = db'

end programs

/-- On devices it is the loop of `Delete`. -/
theorem deletePtrs_map_some (codec : BitmapCodec)
    (order : List (String × MapEntry) → List (String × MapEntry)) (recursive : Bool)
    (devs : List Device) :
    deletePtrs codec order recursive (devs.map some) = delete codec order recursive devs := by
  unfold deletePtrs delete
  generalize TxnState.empty = st
  induction devs generalizing st with
  | nil => rfl
  | cons dev devs ih =>
      rw [List.map_cons, deletePtrsLoop]
      cases dev <;> simp only [deleteDev, deleteLoop, ih]

/-! ### What the lookups find -/

/-- The device that is read from a key. -/
def deviceOf (db : Store Stored) (key : String) (dev : Device) : Option Device :=
  (db key).map (fun v => unmarshalTuplenet v.raw dev)

def switchOf (db : Store Stored) (name : String) : Option Device :=
  deviceOf db (switchPath name) (.switch ⟨name, 0⟩)

def switchPortOf (db : Store Stored) (s portName : String) : Option Device :=
  deviceOf db (switchPortPath s portName) (.switchPort ⟨s, portName, "", "", "", ""⟩)

def routerOf (db : Store Stored) (name : String) : Option Device :=
  deviceOf db (routerPath name) (.router ⟨name, 0, ""⟩)

def routerPortOf (db : Store Stored) (r portName : String) : Option Device :=
  deviceOf db (routerPortPath r portName) (.routerPort ⟨r, portName, "", 0, "", ""⟩)

namespace DeleteReq
variable (egressRouterName : String) (db : Store Stored)

/-- The handler gets as far as `Delete`, if the store answers. -/
def Reaches : DeleteReq → Prop
  | endpoint networkID endpointID => endpointID ≠ "" ∧ (switchOf db networkID).isSome
  | network _ => egressRouterName = "" ∨ (routerOf db egressRouterName).isSome

/-- The pointers that it passes then. -/
def ptrs : DeleteReq → List (Option Device)
  | endpoint networkID endpointID => [switchPortOf db networkID endpointID]
  | network networkID =>
      switchOf db networkID :: if egressRouterName = "" then []
        else [routerPortOf db egressRouterName (portNameByPeer networkID)]

/-- The request does no harm: it ends before `Delete`, or everything is found and `Delete` cannot
commit. -/
def Harmless : DeleteReq → Prop
  | endpoint networkID endpointID =>
      endpointID = "" ∨ switchOf db networkID = none ∨
        ∃ sport, switchPortOf db networkID endpointID = some sport ∧ ¬ Committable db false [sport]
  | network networkID =>
      if egressRouterName = "" then
        ∃ swtch, switchOf db networkID = some swtch ∧ ¬ Committable db true [swtch]
      else
        routerOf db egressRouterName = none ∨
          ∃ swtch rport, switchOf db networkID = some swtch ∧
            routerPortOf db egressRouterName (portNameByPeer networkID) = some rport ∧
              ¬ Committable db true [swtch, rport]

end DeleteReq

/-- The names of switches and routers have different parents. -/
theorem switchPath_start (s : String) : (switchPath s).toList[14]? = some 'S' :=
  start_append (by decide) s

theorem routerPath_start (r : String) : (routerPath r).toList[14]? = some 'R' :=
  start_append (by decide) r

/-- A key that is deleted with another one is not shorter. -/
theorem length_of_deletes {k key : String} (h : k = key ∨ (k ++ "/").toList <+: key.toList) :
    k.toList.length ≤ key.toList.length := by
  rcases h with rfl | h
  · exact Nat.le_refl _
  · have hlen := h.length_le
    rw [String.toList_append, List.length_append] at hlen
    omega

section lookups
variable {egressRouterName : String} {db db' : Store Stored} {req : DeleteReq} {c : Call}

theorem ret_ends {o : Call} :
    (Prog.ret o : Lookups).Ends Stored.raw db (db', c) ↔ db' = db ∧ c = o := by
  rw [Prog.Ends, Prod.mk.injEq]

/-- A lookup whose device may be missing: what is stored goes on, or another error is replied. -/
theorem getDevice_unlessOtherError_ends {key : String} {dev : Device}
    {next : Option Device → Lookups} :
    (getDevice key dev (fun found => unlessOtherError found next)).Ends Stored.raw db (db', c) ↔
      (next (deviceOf db key dev)).Ends Stored.raw db (db', c) ∨
        db' = db ∧ c = .reply .error := by
  have hother : (unlessOtherError (.error .other) next).Ends Stored.raw db (db', c) ↔
      db' = db ∧ c = .reply .error := ret_ends
  rw [← hother]
  unfold getDevice deviceOf
  cases h : db key <;> simp [Prog.Ends, h, unlessOtherError]

/-- A lookup whose device has to be there. -/
theorem getDevice_unlessError_ends {key : String} {dev : Device} {next : Device → Lookups} :
    (getDevice key dev (fun found => unlessError found next)).Ends Stored.raw db (db', c) ↔
      (∃ d, deviceOf db key dev = some d ∧ (next d).Ends Stored.raw db (db', c)) ∨
        db' = db ∧ c = .reply .error := by
  have hother : (unlessError (.error .other) next).Ends Stored.raw db (db', c) ↔
      db' = db ∧ c = .reply .error := ret_ends
  rw [← hother]
  unfold getDevice deviceOf
  cases h : db key <;> simp [Prog.Ends, h, unlessError]

/-- The lookups end in a reply that tells an error, or in `Delete` of what they have found. -/
theorem lookups_ends (h : (req.lookups egressRouterName).Ends Stored.raw db (db', c)) : db' = db ∧
    (c = .reply .error ∨
      req.Reaches egressRouterName db ∧
      c = .delete req.recursive (req.ptrs egressRouterName db)) := by
  cases req with
  | endpoint networkID endpointID =>
      rw [DeleteReq.lookups, deleteEndpoint] at h
      split_ifs at h with hid
      · exact ⟨(ret_ends.mp h).1, Or.inl (ret_ends.mp h).2⟩
      · rcases getDevice_unlessError_ends.mp h with ⟨swtch, hswtch, h⟩ | ⟨hdb, hc⟩
        · have hreaches : (DeleteReq.endpoint networkID endpointID).Reaches egressRouterName db :=
            ⟨hid, Option.isSome_iff_exists.mpr ⟨swtch, hswtch⟩⟩
          rcases getDevice_unlessOtherError_ends.mp h with h | ⟨hdb, hc⟩
          · exact ⟨(ret_ends.mp h).1, Or.inr ⟨hreaches, (ret_ends.mp h).2⟩⟩
          · exact ⟨hdb, Or.inl hc⟩
        · exact ⟨hdb, Or.inl hc⟩
  | network networkID =>
      rcases getDevice_unlessOtherError_ends.mp h with h | ⟨hdb, hc⟩
      · rw [DeleteReq.ptrs, DeleteReq.Reaches]
        split_ifs at h ⊢ with hegress
        · exact ⟨(ret_ends.mp h).1, Or.inr ⟨Or.inl hegress, (ret_ends.mp h).2⟩⟩
        · rcases getDevice_unlessError_ends.mp h with ⟨router, hrouter, h⟩ | ⟨hdb, hc⟩
          · rcases getDevice_unlessOtherError_ends.mp h with h | ⟨hdb, hc⟩
            · exact ⟨(ret_ends.mp h).1, Or.inr
                ⟨Or.inr (Option.isSome_iff_exists.mpr ⟨router, hrouter⟩), (ret_ends.mp h).2⟩⟩
            · exact ⟨hdb, Or.inl hc⟩
          · exact ⟨hdb, Or.inl hc⟩
      · exact ⟨hdb, Or.inl hc⟩

theorem lookups_ends_delete (h : req.Reaches egressRouterName db) :
    (req.lookups egressRouterName).Ends Stored.raw db
      (db, .delete req.recursive (req.ptrs egressRouterName db)) := by
  cases req with
  | endpoint networkID endpointID =>
      obtain ⟨hid, hswtch⟩ := h
      obtain ⟨swtch, hswtch⟩ := Option.isSome_iff_exists.mp hswtch
      rw [DeleteReq.lookups, deleteEndpoint, if_neg hid]
      refine getDevice_unlessError_ends.mpr (Or.inl ⟨swtch, hswtch, ?_⟩)
      exact getDevice_unlessOtherError_ends.mpr (Or.inl rfl)
  | network networkID =>
      refine getDevice_unlessOtherError_ends.mpr (Or.inl ?_)
      rw [DeleteReq.ptrs]
      split_ifs with hegress
      · rfl
      · obtain ⟨router, hrouter⟩ := Option.isSome_iff_exists.mp (h.resolve_left hegress)
        refine getDevice_unlessError_ends.mpr (Or.inl ⟨router, hrouter, ?_⟩)
        exact getDevice_unlessOtherError_ends.mpr (Or.inl rfl)

/-- A handler succeeds with its call of `Delete`. -/
theorem prog_ends_ok {codec : BitmapCodec}
    {order : List (String × MapEntry) → List (String × MapEntry)} :
    (req.prog codec order egressRouterName).Ends Stored.raw db (db', .ok) ↔
      req.Reaches egressRouterName db ∧
        (deletePtrs codec order req.recursive (req.ptrs egressRouterName db)).Ends Stored.raw db
          (db', .ok) := by
  rw [DeleteReq.prog, Prog.ends_bind]
  constructor
  · rintro ⟨db₁, c, hlookups, hcall⟩
    obtain ⟨rfl, rfl | ⟨hreaches, rfl⟩⟩ := lookups_ends hlookups
    · cases (Prod.mk.inj hcall).2
    · exact ⟨hreaches, hcall⟩
  · rintro ⟨hreaches, hcall⟩
    exact ⟨db, _, lookups_ends_delete hreaches, hcall⟩

/-! ### What is passed to `Delete` -/

theorem fresh_path (dev : Device) : dev.fresh.path = dev.path := by
  cases dev <;> rfl

theorem deviceOf_eq_none {key : String} {dev : Device} : deviceOf db key dev = none ↔
    db key = none :=
  Option.map_eq_none_iff

theorem deviceOf_isSome {key : String} {dev : Device} :
    (deviceOf db key dev).isSome = (db key).isSome := Option.isSome_map

/-- A device that is found is stored under its key. -/
theorem path_of_deviceOf {key : String} {dev d : Device} (hkey : dev.path = key)
    (h : deviceOf db key dev = some d) : d.path = key ∧ db d.path ≠ none := by
  obtain ⟨v, hv, rfl⟩ := Option.map_eq_some_iff.mp h
  have hpath : (unmarshalTuplenet v.raw dev).path = key := by
    rw [← fresh_path, Device.fresh_unmarshal, fresh_path, hkey]
  rw [hpath, hv]
  exact ⟨rfl, Option.some_ne_none v⟩

theorem path_of_switchOf {name : String} {dev : Device} (h : switchOf db name = some dev) :
    dev.path = switchPath name ∧ db dev.path ≠ none := path_of_deviceOf rfl h

theorem path_of_switchPortOf {s name : String} {dev : Device}
    (h : switchPortOf db s name = some dev) :
    dev.path = switchPortPath s name ∧ db dev.path ≠ none := path_of_deviceOf rfl h

theorem path_of_routerPortOf {r name : String} {dev : Device}
    (h : routerPortOf db r name = some dev) :
    dev.path = routerPortPath r name ∧ db dev.path ≠ none := path_of_deviceOf rfl h

theorem switch_of_switchOf {name : String} {dev : Device} (h : switchOf db name = some dev) :
    ∃ s : Switch, dev = .switch s ∧ s.name = name := by
  obtain ⟨v, -, rfl⟩ := Option.map_eq_some_iff.mp h
  have hfresh := Device.fresh_unmarshal v.raw (.switch ⟨name, 0⟩)
  cases hdev : unmarshalTuplenet v.raw (.switch ⟨name, 0⟩) with
  | switch s =>
      rw [hdev] at hfresh
      exact ⟨s, rfl, congrArg Switch.name (Device.switch.inj hfresh)⟩
  | router r => rw [hdev] at hfresh; cases hfresh
  | switchPort p => rw [hdev] at hfresh; cases hfresh
  | routerPort p => rw [hdev] at hfresh; cases hfresh
  | chassis c => rw [hdev] at hfresh; cases hfresh
  | staticRoute r => rw [hdev] at hfresh; cases hfresh
  | nat n => rw [hdev] at hfresh; cases hfresh

theorem routerPort_of_routerPortOf {r name : String} {dev : Device}
    (h : routerPortOf db r name = some dev) :
    ∃ p : RouterPort, dev = .routerPort p ∧ p.owner = r := by
  obtain ⟨v, -, rfl⟩ := Option.map_eq_some_iff.mp h
  have hfresh := Device.fresh_unmarshal v.raw (.routerPort ⟨r, name, "", 0, "", ""⟩)
  cases hdev : unmarshalTuplenet v.raw (.routerPort ⟨r, name, "", 0, "", ""⟩) with
  | routerPort p =>
      rw [hdev] at hfresh
      exact ⟨p, rfl, congrArg RouterPort.owner (Device.routerPort.inj hfresh)⟩
  | switch s => rw [hdev] at hfresh; cases hfresh
  | router r => rw [hdev] at hfresh; cases hfresh
  | switchPort p => rw [hdev] at hfresh; cases hfresh
  | chassis c => rw [hdev] at hfresh; cases hfresh
  | staticRoute r => rw [hdev] at hfresh; cases hfresh
  | nat n => rw [hdev] at hfresh; cases hfresh

/-- The pointers that are not nil point to stored devices. -/
theorem stored_of_mem_ptrs {dev : Device} (h : some dev ∈ req.ptrs egressRouterName db) :
    db dev.path ≠ none := by
  cases req with
  | endpoint networkID endpointID =>
      exact (path_of_switchPortOf (List.mem_singleton.mp h).symm).2
  | network networkID =>
      rcases List.mem_cons.mp h with h | h
      · exact (path_of_switchOf h.symm).2
      · split_ifs at h
        · cases h
        · exact (path_of_routerPortOf (List.mem_singleton.mp h).symm).2

theorem kind_of_mem_ptrs {networkID : String} {dev : Device}
    (h : some dev ∈ (DeleteReq.network networkID).ptrs egressRouterName db) :
    (∃ s : Switch, dev = .switch s ∧ s.name = networkID) ∨
      ∃ p : RouterPort, dev = .routerPort p ∧ p.owner = egressRouterName := by
  rcases List.mem_cons.mp h with h | h
  · exact Or.inl (switch_of_switchOf h.symm)
  · split_ifs at h
    · cases h
    · exact Or.inr (routerPort_of_routerPortOf (List.mem_singleton.mp h).symm)

variable {devs : List Device} (hptrs : req.ptrs egressRouterName db = devs.map some)
include hptrs

theorem mem_ptrs {dev : Device} (h : dev ∈ devs) : some dev ∈ req.ptrs egressRouterName db := by
  rw [hptrs]
  exact List.mem_map_of_mem h

/-- `Delete` removes no bitmap that it changes. -/
theorem maps_kept {dev : Device} (hdev : dev ∈ devs) {key : String} {b : ℕ}
    (hb : dev.bit = some (key, b)) : ¬ Removed req.recursive devs key := by
  intro hremoved
  have hmap := Device.bit_isMapKey hb
  cases req with
  | endpoint networkID endpointID =>
      obtain ⟨d, -, rfl⟩ := removed_false.mp hremoved
      exact d.path_not_map hmap
  | network networkID =>
      obtain ⟨-, k, ⟨s, -, rfl⟩ | ⟨r, hr, rfl⟩, hdel⟩ := hremoved.book hmap
      · obtain ⟨hS, hi⟩ := switchIPBookPath_start s.name
        rcases kind_of_mem_ptrs (mem_ptrs hptrs hdev) with ⟨s', rfl, -⟩ | ⟨p, rfl, -⟩
        · obtain ⟨rfl, -⟩ := Prod.mk.inj (Option.some.inj hb)
          exact absurd (start_of_deletes hdel hi) (by decide)
        · obtain ⟨x, -, hx⟩ := Option.map_eq_some_iff.mp hb
          obtain ⟨rfl, -⟩ := Prod.mk.inj hx
          have hR := (routerIPBookPath_start p.owner).1
          rw [start_of_deletes hdel hS] at hR
          cases hR
      · rcases kind_of_mem_ptrs (mem_ptrs hptrs hr) with ⟨s, hs, -⟩ | ⟨p, hp, -⟩
        · cases hs
        · cases hp

/-! ### After a delete -/

variable {codec : BitmapCodec} {order : List (String × MapEntry) → List (String × MapEntry)}
  (horder : ∀ l, (order l).Perm l)
  (hends : (delete codec order req.recursive devs).Ends Stored.raw db (db', .ok))
include horder hends

/-- The device of the first pointer is gone. -/
theorem head_nil_after_ok : ∃ rest, req.ptrs egressRouterName db' = none :: rest := by
  have hgone : ∀ dev ∈ devs, db' dev.path = none :=
    fun dev hdev => (delete_ok_effect horder hends).1 _ (Removed.of_path hdev)
  cases req with
  | endpoint networkID endpointID =>
      obtain ⟨dev, _, rfl, hdev, -⟩ := List.map_eq_cons_iff.mp hptrs.symm
      have hnone := hgone dev List.mem_cons_self
      rw [(path_of_switchPortOf hdev.symm).1] at hnone
      exact ⟨[], congrArg (· :: []) (deviceOf_eq_none.mpr hnone)⟩
  | network networkID =>
      obtain ⟨dev, _, rfl, hdev, -⟩ := List.map_eq_cons_iff.mp hptrs.symm
      have hnone := hgone dev List.mem_cons_self
      rw [(path_of_switchOf hdev.symm).1] at hnone
      exact ⟨_, congrArg (· :: _) (deviceOf_eq_none.mpr hnone)⟩

/-- The owner is still stored, so the next call gets to `Delete` again. -/
theorem reaches_after_ok (hreaches : req.Reaches egressRouterName db) :
    req.Reaches egressRouterName db' := by
  have hkept : ∀ dev : Device, ¬ Removed req.recursive devs dev.path → db' dev.path = db dev.path :=
    fun dev h => (delete_ok_effect horder hends).2 _ dev.path_not_map h
  cases req with
  | endpoint networkID endpointID =>
      obtain ⟨hid, hswtch⟩ := hreaches
      have hsame := hkept (.switch ⟨networkID, 0⟩) (by
        intro hremoved
        obtain ⟨dev, hdev, hpath⟩ := removed_false.mp hremoved
        have hport := List.mem_singleton.mp (mem_ptrs hptrs hdev)
        rw [(path_of_switchPortOf hport.symm).1] at hpath
        have hlen := congrArg (fun s : String => s.toList.length) hpath
        simp only [Device.path, switchPortPath, String.toList_append, List.length_append] at hlen
        have hmark : "/lsp/".toList.length = 5 := by decide
        omega)
      refine ⟨hid, ?_⟩
      rw [switchOf, deviceOf_isSome] at hswtch ⊢
      exact (congrArg Option.isSome hsame).trans hswtch
  | network networkID =>
      refine hreaches.imp id fun hrouter => ?_
      have hsame := hkept (.router ⟨egressRouterName, 0, ""⟩) (by
        rintro ⟨dev, hdev, k, hk, hdel⟩
        have hdel := (mem_removeOps.mp hdel).imp id And.right
        rcases kind_of_mem_ptrs (mem_ptrs hptrs hdev) with ⟨s, rfl, -⟩ | ⟨p, rfl, howner⟩
        · rcases List.mem_cons.mp hk with rfl | hk
          · exact absurd (start_of_deletes hdel (switchPath_start s.name))
              (by rw [Device.path, routerPath_start]; decide)
          · rw [List.mem_singleton.mp hk] at hdel
            exact absurd (start_of_deletes hdel (switchIPBookPath_start s.name).2)
              (by rw [Device.path_second]; decide)
        · rw [List.mem_singleton.mp hk, Device.path, Device.path, routerPortPath, howner] at hdel
          have hlen := length_of_deletes hdel
          simp only [String.toList_append, List.length_append] at hlen
          have hmark : "/lrp/".toList.length = 5 := by decide
          omega)
      rw [routerOf, deviceOf_isSome] at hrouter ⊢
      exact (congrArg Option.isSome hsame).trans hrouter

end lookups

/-! ### The condition -/

section condition
variable {egressRouterName : String} {db : Store Stored} {req : DeleteReq}

/-- A request is harmless if it does not get to `Delete`, or `Delete` cannot commit what was
found. -/
theorem harmless_iff : req.Harmless egressRouterName db ↔
    (req.Reaches egressRouterName db → ∃ devs, req.ptrs egressRouterName db = devs.map some ∧
      ¬ Committable db req.recursive devs) := by
  cases req with
  | endpoint networkID endpointID =>
      constructor
      · rintro (hid | hnone | ⟨sport, hsport, hno⟩) ⟨hne, hswtch⟩
        · exact absurd hid hne
        · rw [hnone] at hswtch
          cases hswtch
        · exact ⟨[sport], congrArg (· :: []) hsport, hno⟩
      · intro h
        by_cases hid : endpointID = ""
        · exact Or.inl hid
        · refine Or.inr ((switchOf db networkID).eq_none_or_eq_some.imp id ?_)
          rintro ⟨swtch, hswtch⟩
          obtain ⟨devs, hptrs, hno⟩ := h ⟨hid, Option.isSome_iff_exists.mpr ⟨swtch, hswtch⟩⟩
          obtain ⟨sport, _, rfl, hsport, hrest⟩ := List.map_eq_cons_iff.mp hptrs.symm
          obtain rfl := List.map_eq_nil_iff.mp hrest
          exact ⟨sport, hsport.symm, hno⟩
  | network networkID =>
      rw [DeleteReq.Harmless, DeleteReq.ptrs, DeleteReq.Reaches]
      by_cases hegress : egressRouterName = ""
      · rw [if_pos hegress, if_pos hegress]
        constructor
        · rintro ⟨swtch, hswtch, hno⟩ -
          exact ⟨[swtch], congrArg (· :: []) hswtch, hno⟩
        · intro h
          obtain ⟨devs, hptrs, hno⟩ := h (Or.inl hegress)
          obtain ⟨swtch, _, rfl, hswtch, hrest⟩ := List.map_eq_cons_iff.mp hptrs.symm
          obtain rfl := List.map_eq_nil_iff.mp hrest
          exact ⟨swtch, hswtch.symm, hno⟩
      · rw [if_neg hegress, if_neg hegress]
        constructor
        · rintro (hnone | ⟨swtch, rport, hswtch, hrport, hno⟩) hreaches
          · have hrouter := hreaches.resolve_left hegress
            rw [hnone] at hrouter
            cases hrouter
          · refine ⟨[swtch, rport], ?_, hno⟩
            rw [hswtch, hrport]
            rfl
        · intro h
          refine (routerOf db egressRouterName).eq_none_or_eq_some.imp id ?_
          rintro ⟨router, hrouter⟩
          obtain ⟨devs, hptrs, hno⟩ := h (Or.inr (Option.isSome_iff_exists.mpr ⟨router, hrouter⟩))
          obtain ⟨swtch, _, rfl, hswtch, hrest⟩ := List.map_eq_cons_iff.mp hptrs.symm
          obtain ⟨rport, _, rfl, hrport, hrest⟩ := List.map_eq_cons_iff.mp hrest
          obtain rfl := List.map_eq_nil_iff.mp hrest
          exact ⟨swtch, rport, hswtch.symm, hrport.symm, hno⟩

end condition

/-- **Safe to repeat**: a request is, exactly when the lookups keep it from `Delete`, or when all is
found and `Delete` cannot commit. -/
theorem safeToRepeat_iff {codec : BitmapCodec}
    {order : List (String × MapEntry) → List (String × MapEntry)} (horder : ∀ l, (order l).Perm l)
    (egressRouterName : String) (db : Store Stored) (req : DeleteReq) :
    SafeToRepeat codec order egressRouterName db req ↔ req.Harmless egressRouterName db := by
  rw [harmless_iff]
  constructor
  · intro hsafe hreaches
    have hfound := hsafe.found _ _ _ (lookups_ends_delete hreaches)
    have hrange : req.ptrs egressRouterName db ∈ Set.range (List.map some) := by
      rw [Set.range_list_map]
      intro ptr hptr
      obtain ⟨dev, rfl, -⟩ := hfound ptr hptr
      exact ⟨dev, rfl⟩
    obtain ⟨devs, hdevs⟩ := hrange
    have hptrs := hdevs.symm
    refine ⟨devs, hptrs, fun hcom => ?_⟩
    obtain ⟨db', hends⟩ := (delete_ok_iff horder (fun dev hdev key b hb =>
      maps_kept hptrs hdev hb)).mpr hcom
    have hok : (req.prog codec order egressRouterName).Ends Stored.raw db (db', .ok) := by
      rw [prog_ends_ok, hptrs, deletePtrs_map_some]
      exact ⟨hreaches, hends⟩
    obtain ⟨rest, hnil⟩ := head_nil_after_ok hptrs horder hends
    have hpanic : (req.prog codec order egressRouterName).Ends Stored.raw db' (db', .panic) := by
      refine Prog.ends_bind.mpr ⟨db', _, lookups_ends_delete
        (reaches_after_ok hptrs horder hends hreaches), ?_⟩
      rw [hnil]
      rfl
    exact (hsafe.again db' hok db' .panic hpanic).1 rfl
  · intro hharmless
    refine ⟨fun db' recursive ptrs hends ptr hptr => ?_, fun db' hok => ?_⟩
    · obtain ⟨-, hcall | ⟨hreaches, hcall⟩⟩ := lookups_ends hends
      · cases hcall
      · obtain ⟨rfl, rfl⟩ := Call.delete.inj hcall
        obtain ⟨devs, hptrs, -⟩ := hharmless hreaches
        have hmem := hptr
        rw [hptrs] at hmem
        obtain ⟨dev, -, rfl⟩ := List.mem_map.mp hmem
        exact ⟨dev, rfl, stored_of_mem_ptrs hptr⟩
    · obtain ⟨hreaches, hends⟩ := prog_ends_ok.mp hok
      obtain ⟨devs, hptrs, hno⟩ := hharmless hreaches
      rw [hptrs, deletePtrs_map_some] at hends
      exact absurd ((delete_ok_iff horder (fun dev hdev key b hb =>
        maps_kept hptrs hdev hb)).mp ⟨db', hends⟩) hno

/-- A switch with a port, after two calls of `Save`. -/
def onePortStore : Store Stored :=
  ((save sampleCodec id [.switchPort ⟨"n", "e", "10.0.0.1", "f2:01:0a:00:00:01", "", ""⟩]).exec
    Stored.raw ((save sampleCodec id [.switch ⟨"n", 0⟩]).exec Stored.raw fun _ => none).1).1

/-- The same without the `ip` book of the switch. -/
def noBookStore : Store Stored := fun key =>
  if key = switchIPBookPath "n" then none else onePortStore key

/-- The port is stored, but `Delete` cannot commit: the handler replies an error both times. -/
theorem safeToRepeat_noBook : (noBookStore (switchPortPath "n" "e")).isSome ∧
    SafeToRepeat sampleCodec id "" noBookStore (.endpoint "n" "e") := by
  have hport : switchPortOf noBookStore "n" "e" =
      some (.switchPort ⟨"n", "e", "10.0.0.1", "f2:01:0a:00:00:01", "", ""⟩) := by decide +kernel
  have hbit : (Device.switchPort ⟨"n", "e", "10.0.0.1", "f2:01:0a:00:00:01", "", ""⟩).bit.map
      Prod.fst = some (switchIPBookPath "n") := by decide +kernel
  refine ⟨by decide +kernel, (safeToRepeat_iff (fun _ => List.Perm.refl _) "" noBookStore
    (.endpoint "n" "e")).mpr (Or.inr (Or.inr ⟨_, hport, fun hcom => ?_⟩))⟩
  obtain ⟨⟨key, b⟩, hb, rfl⟩ := Option.map_eq_some_iff.mp hbit
  exact hcom.maps _ (List.mem_singleton_self _) _ b hb (if_pos rfl)

/-! ### The same request twice -/

theorem not_safeToRepeat_of_exec {codec : BitmapCodec}
    {order : List (String × MapEntry) → List (String × MapEntry)} {egressRouterName : String}
    {db : Store Stored} {req : DeleteReq}
    (hok : ((req.prog codec order egressRouterName).exec Stored.raw db).2 = .ok)
    (hpanic : ((req.prog codec order egressRouterName).exec Stored.raw
      ((req.prog codec order egressRouterName).exec Stored.raw db).1).2 = .panic) :
    ¬ SafeToRepeat codec order egressRouterName db req := by
  intro hsafe
  have hfirst := (req.prog codec order egressRouterName).ends_exec Stored.raw db
  rw [← Prod.mk.eta (p := (req.prog codec order egressRouterName).exec Stored.raw db), hok]
    at hfirst
  exact (hsafe.again _ hfirst _ _ (Prog.ends_exec _ _ _)).1 hpanic

/-- The first `deleteEndpoint` deletes the port, the second one crashes. -/
theorem not_safeToRepeat_onePort : ¬ ∀ (codec : BitmapCodec)
    (order : List (String × MapEntry) → List (String × MapEntry)), (∀ l, (order l).Perm l) →
    ∀ egressRouterName db req, SafeToRepeat codec order egressRouterName db req := by
  intro hall
  refine not_safeToRepeat_of_exec ?_ ?_ (hall sampleCodec id (fun _ => List.Perm.refl _) ""
    onePortStore (.endpoint "n" "e"))
  · decide +kernel
  · decide +kernel

end TupleNet.Control.Tpcnm
