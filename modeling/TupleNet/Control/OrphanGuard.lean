import TupleNet.Control.FrontEnd
import TupleNet.Control.RecursiveDelete

/-! # Deletes that are not recursive

Without the recursive flag a device that is in use is not to be deleted.  The commands look for
ports, those of a router also for static routes, and only for such with a name that can be listed.
So with no other client running a delete that reports success leaves nothing below the device
exactly when the device has no other keys below it (`neverOrphans_iff`); a NAT rule is left behind.
Connecting writes nothing below a device (`exec_connect`). -/

namespace TupleNet.Control

open TxnStore

/-- A key lies below another one. -/
def Below (path key : String) : Prop := (path ++ "/").toList <+: key.toList

instance (path key : String) : Decidable (Below path key) := inferInstanceAs (Decidable (_ <+: _))

/-- A listing finds something. -/
def Finds (db : Store Stored) (l : Listing) : Prop :=
  ∃ name : String, '/' ∉ name.toList ∧ db (l.path ++ name) ≠ none

/-- The device is in use as far as the command looks. -/
def DelCommand.InUse (db : Store Stored) (cmd : DelCommand) : Prop := ∃ l ∈ cmd.listings, Finds db l

/-- `NewController` fails: the bitmap of ids is the empty text, or the version is a higher one. -/
def TurnsAway (db : Store Stored) : Prop :=
  (db deviceIDsPath).map Stored.raw = some "" ∨
    ∃ v ∈ (db versionPath).map Stored.raw, currentVersion < v

/-- A command fails whatever it is to delete: tpctl cannot connect, or for the API, which has
connected long ago, there is no bitmap of ids. -/
def DelCommand.Unready (db : Store Stored) : DelCommand → Prop
  | tpctlSwitch _ => TurnsAway db
  | tpctlRouter _ => TurnsAway db
  | apiSwitch _ => db deviceIDsPath = none
  | apiRouter _ => db deviceIDsPath = none

/-- If the delete reports success, nothing has been stored below the device, and nothing is. -/
def NeverOrphans (codec : BitmapCodec)
    (order : List (String × MapEntry) → List (String × MapEntry)) (s : KeyedStore Stored)
    (cmd : DelCommand) : Prop :=
  ((cmd.prog codec order false).exec Stored.raw s).2 = .ok →
    (∀ key, Below cmd.path key → s.db key = none) ∧
      ∀ key, Below cmd.path key →
        ((cmd.prog codec order false).exec Stored.raw s).1.db key = none

section exec
variable {codec : BitmapCodec} {order : List (String × MapEntry) → List (String × MapEntry)}
  {s : KeyedStore Stored}

/-! ### What the reads give -/

theorem exec_getKV {key : String} {v : Stored} (h : s.db key = some v) (next : String → FrontEnd) :
    (getKV key next).exec Stored.raw s = (next v.raw).exec Stored.raw s := by
  rw [getKV, RangeProg.exec, h]
  rfl

theorem exec_getKV_missing {key : String} (h : s.db key = none) (next : String → FrontEnd) :
    (getKV key next).exec Stored.raw s = (s, .error) := by
  rw [getKV, RangeProg.exec, h]
  rfl

/-- The names and texts that a listing gives. -/
def listed (s : KeyedStore Stored) (l : Listing) : List (String × String) :=
  (s.range Stored.raw l.path).filterMap (fun kv =>
    (nameIn l.path kv.1).map (fun name => (name, kv.2)))

theorem exec_getKVs (l : Listing) (next : List (String × String) → FrontEnd) :
    (getKVs l next).exec Stored.raw s = (next (listed s l)).exec Stored.raw s := rfl

theorem listed_ne_nil_iff (l : Listing) : listed s l ≠ [] ↔ Finds s.db l := by
  constructor
  · intro hne
    obtain ⟨_, hkv⟩ := List.exists_mem_of_ne_nil _ hne
    obtain ⟨⟨key, text⟩, hrange, hname⟩ := List.mem_filterMap.mp hkv
    obtain ⟨name, hname, _⟩ := Option.map_eq_some_iff.mp hname
    obtain ⟨rfl, hslash⟩ := nameIn_eq_some.mp hname
    obtain ⟨_, htext⟩ := (KeyedStore.mem_range Stored.raw).mp hrange
    refine ⟨name, hslash, fun hnone => ?_⟩
    rw [hnone] at htext
    cases htext
  · rintro ⟨name, hslash, hstored⟩
    obtain ⟨v, hv⟩ := Option.ne_none_iff_exists'.mp hstored
    have hrange : (l.path ++ name, v.raw) ∈ s.range Stored.raw l.path := by
      rw [KeyedStore.mem_range, hv, String.toList_append]
      exact ⟨List.prefix_append _ _, rfl⟩
    refine List.ne_nil_of_mem (a := (name, v.raw)) (List.mem_filterMap.mpr ⟨_, hrange, ?_⟩)
    rw [nameIn_eq_some.mpr ⟨rfl, hslash⟩, Option.map_some]

/-! ### What a delete command does -/

theorem exec_deleteDevice_used (dev : Device) {used : Bool} (h : used = true) :
    (deleteDevice codec order used false dev).exec Stored.raw s = (s, .error) := by
  rw [deleteDevice, if_pos h]
  rfl

theorem exec_deleteDevice_unused (dev : Device) {used : Bool} (h : used = false) :
    (deleteDevice codec order used false dev).exec Stored.raw s =
      (RangeProg.ofProg (delete codec order false [dev])).exec Stored.raw s := by
  rw [deleteDevice, h]
  rfl

theorem exec_deleteSwitch {name : String} {v : Stored} (h : s.db (switchPath name) = some v) :
    (deleteSwitch codec order name false).exec Stored.raw s =
      (deleteDevice codec order (listed s (.getSwitchPorts name) ≠ []) false
        (unmarshalTuplenet v.raw (.switch ⟨name, 0⟩))).exec Stored.raw s := by
  rw [deleteSwitch, exec_getKV h, exec_getKVs]

theorem exec_deleteRouter {name : String} {v : Stored} (h : s.db (routerPath name) = some v) :
    (deleteRouter codec order name false).exec Stored.raw s =
      (deleteDevice codec order (listed s (.getRouterPorts name) ≠ [] ∨
          listed s (.getRouterStaticRoutes name) ≠ []) false
        (unmarshalTuplenet v.raw (.router ⟨name, 0, ""⟩))).exec Stored.raw s := by
  rw [deleteRouter, exec_getKV h, exec_getKVs, exec_getKVs]

/-- What a delete does once it has read the device. -/
theorem DelCommand.exec_body (cmd : DelCommand) {v : Stored} (hv : s.db cmd.path = some v) :
    ∃ used : Bool, (used = true ↔ cmd.InUse s.db) ∧
      (cmd.body codec order false).exec Stored.raw s =
        (deleteDevice codec order used false (cmd.device v.raw)).exec Stored.raw s := by
  have htwo : ∀ l l' : Listing, (∃ x ∈ [l, l'], Finds s.db x) ↔ Finds s.db l ∨ Finds s.db l' := by
    simp
  have hone : ∀ l : Listing, (∃ x ∈ [l], Finds s.db x) ↔ Finds s.db l := by simp
  have hswitch : ∀ name : String,
      decide (listed s (.getSwitchPorts name) ≠ []) = true ↔ Finds s.db (.getSwitchPorts name) := by
    intro name
    rw [decide_eq_true_iff, listed_ne_nil_iff]
  have hrouter : ∀ name : String, decide (listed s (.getRouterPorts name) ≠ [] ∨
      listed s (.getRouterStaticRoutes name) ≠ []) = true ↔
        Finds s.db (.getRouterPorts name) ∨ Finds s.db (.getRouterStaticRoutes name) := by
    intro name
    rw [decide_eq_true_iff, listed_ne_nil_iff, listed_ne_nil_iff]
  cases cmd with
  | tpctlSwitch name => exact ⟨_, (hswitch name).trans (hone _).symm, exec_deleteSwitch hv⟩
  | tpctlRouter name => exact ⟨_, (hrouter name).trans (htwo _ _).symm, exec_deleteRouter hv⟩
  | apiSwitch name => exact ⟨_, (hswitch name).trans (hone _).symm, exec_deleteSwitch hv⟩
  | apiRouter name => exact ⟨_, (hrouter name).trans (htwo _ _).symm, exec_deleteRouter hv⟩

/-- A delete that does not find its device fails. -/
theorem DelCommand.exec_body_missing (cmd : DelCommand) (h : s.db cmd.path = none) :
    (cmd.body codec order false).exec Stored.raw s = (s, .error) := by
  have hswitch : ∀ name : String, s.db (switchPath name) = none →
      (deleteSwitch codec order name false).exec Stored.raw s = (s, .error) := by
    intro name hnone
    rw [deleteSwitch, exec_getKV_missing hnone]
  have hrouter : ∀ name : String, s.db (routerPath name) = none →
      (deleteRouter codec order name false).exec Stored.raw s = (s, .error) := by
    intro name hnone
    rw [deleteRouter, exec_getKV_missing hnone]
  cases cmd with
  | tpctlSwitch name => exact hswitch name h
  | tpctlRouter name => exact hrouter name h
  | apiSwitch name => exact hswitch name h
  | apiRouter name => exact hrouter name h

/-- The device of a command is a switch or a router under the key of the command. -/
theorem DelCommand.device_owner (cmd : DelCommand) (text : String) :
    ∃ book id, Owner (cmd.device text) book id ∧ (cmd.device text).path = cmd.path := by
  have hswitch : ∀ name : String, ∃ book id,
      Owner (unmarshalTuplenet text (.switch ⟨name, 0⟩)) book id ∧
        (unmarshalTuplenet text (.switch ⟨name, 0⟩)).path = switchPath name := by
    intro name
    have hfresh := Device.fresh_unmarshal text (.switch ⟨name, 0⟩)
    cases hdev : unmarshalTuplenet text (.switch ⟨name, 0⟩) <;> rw [hdev] at hfresh <;>
      simp only [Device.fresh, reduceCtorEq, Device.switch.injEq, Switch.mk.injEq, and_true]
        at hfresh
    next s => exact ⟨_, _, .switch s, congrArg switchPath hfresh⟩
  have hrouter : ∀ name : String, ∃ book id,
      Owner (unmarshalTuplenet text (.router ⟨name, 0, ""⟩)) book id ∧
        (unmarshalTuplenet text (.router ⟨name, 0, ""⟩)).path = routerPath name := by
    intro name
    have hfresh := Device.fresh_unmarshal text (.router ⟨name, 0, ""⟩)
    cases hdev : unmarshalTuplenet text (.router ⟨name, 0, ""⟩) <;> rw [hdev] at hfresh <;>
      simp only [Device.fresh, reduceCtorEq, Device.router.injEq, Router.mk.injEq, and_true]
        at hfresh
    next r => exact ⟨_, _, .router r, congrArg routerPath hfresh⟩
  cases cmd with
  | tpctlSwitch name => exact hswitch name
  | tpctlRouter name => exact hrouter name
  | apiSwitch name => exact hswitch name
  | apiRouter name => exact hrouter name

/-! ### The transaction -/

theorem DelCommand.path_second (cmd : DelCommand) : cmd.path.toList[1]? = some 'e' := by
  cases cmd with
  | tpctlSwitch name => exact switchPath_second name
  | tpctlRouter name => exact routerPath_second name
  | apiSwitch name => exact switchPath_second name
  | apiRouter name => exact routerPath_second name

theorem Below.second {path key : String} (h : Below path key) (hpath : path.toList[1]? = some 'e') :
    key.toList[1]? = some 'e' := start_of_deletes (Or.inr h) hpath

/-- A delete that is not recursive leaves everything below the device as it is. -/
theorem Owner.apply_below {dev : Device} {book : String} {id : ℕ} (h : Owner dev book id)
    (horder : ∀ l, (order l).Perm l) {db : Store Stored} {key : String}
    (hkey : Below dev.path key) :
    (deleteTxn codec order (deleteStateFor false codec db dev id)).apply db key = db key := by
  have hplan : DeletePlan codec false (deleteStateFor false codec db dev id) [dev] :=
    h.deletePlanFor
  refine hplan.apply_of_kept horder (fun hmap => ?_) (fun hremoved => ?_) db
  · exact hmap.second_ne (hkey.second dev.path_second)
  · obtain ⟨d, hd, rfl⟩ := removed_false.mp hremoved
    rw [List.mem_singleton.mp hd] at hkey
    have hlen := List.IsPrefix.length_le hkey
    rw [String.toList_append, List.length_append] at hlen
    exact absurd hlen (by simp)

/-- When a delete without its preliminaries reports success, and what lies below the device then. -/
theorem DelCommand.exec_body_ok (cmd : DelCommand) (horder : ∀ l, (order l).Perm l) :
    (((cmd.body codec order false).exec Stored.raw s).2 = .ok ↔
        s.db cmd.path ≠ none ∧ ¬ cmd.InUse s.db ∧ s.db deviceIDsPath ≠ none) ∧
      ∀ key, Below cmd.path key →
        ((cmd.body codec order false).exec Stored.raw s).1.db key = s.db key := by
  cases hstored : s.db cmd.path with
  | none =>
      rw [cmd.exec_body_missing hstored]
      exact ⟨iff_of_false (fun h => by cases h) fun h => h.1 rfl, fun _ _ => rfl⟩
  | some v =>
      have hbody : ∃ used : Bool, (used = true ↔ cmd.InUse s.db) ∧
          (cmd.body codec order false).exec Stored.raw s =
            (deleteDevice codec order used false (cmd.device v.raw)).exec Stored.raw s :=
        cmd.exec_body hstored
      obtain ⟨used, hused, hexec⟩ := hbody
      rw [hexec]
      by_cases huse : cmd.InUse s.db
      · rw [exec_deleteDevice_used _ (hused.mpr huse)]
        exact ⟨iff_of_false (fun h => by cases h) (fun h => h.2.1 huse), fun _ _ => rfl⟩
      · rw [exec_deleteDevice_unused _ (Bool.eq_false_iff.mpr (mt hused.mp huse))]
        obtain ⟨book, id, howner, hpath⟩ := cmd.device_owner v.raw
        obtain ⟨hdb, hres⟩ := RangeProg.exec_ofProg Stored.raw (delete codec order false
          [cmd.device v.raw]) s
        rw [hdb, hres, howner.exec_deleteFor false codec order s.db]
        dsimp only
        have hholds : (deleteTxn codec order (deleteStateFor false codec s.db (cmd.device v.raw)
            id)).Holds Stored.raw s.db ↔ s.db deviceIDsPath ≠ none := by
          rw [howner.holds_iffFor horder, and_iff_right]
          intro k hk
          rw [mem_deleteKeys_false.mp hk, hpath, hstored]
          exact Option.some_ne_none v
        split_ifs with hcommit
        · refine ⟨iff_of_true rfl ⟨Option.some_ne_none v, huse, hholds.mp hcommit.2⟩,
            fun key hkey => ?_⟩
          exact howner.apply_below horder (hpath ▸ hkey)
        · refine ⟨iff_of_false (fun h => by cases h) fun h => ?_, fun _ _ => rfl⟩
          exact hcommit ⟨howner.acceptedFor horder, hholds.mpr h.2.2⟩

/-! ### Connecting -/

/-- The store after the transaction of `putThen`. -/
def putStore (s : KeyedStore Stored) (c : Cmp) (key text : String) : KeyedStore Stored :=
  s.commit ⟨[c], [.put key (.ofText text)]⟩

theorem putStore_self {c : Cmp} {key text : String} :
    (putStore s c key text).db key = some (.ofText text) := Function.update_self ..

theorem putStore_of_ne {c : Cmp} {key text k : String} (h : k ≠ key) :
    (putStore s c key text).db k = s.db k := Function.update_of_ne h ..

theorem exec_putThen {c : Cmp} {key text : String} (next : FrontEnd) :
    (putThen c key text next).exec Stored.raw s =
      if c.Holds Stored.raw s.db then next.exec Stored.raw (putStore s c key text)
      else (s, .error) := by
  have hacc : Txn.Accepted (⟨[c], [.put key (.ofText text)]⟩ : Txn Stored) :=
    ⟨List.nodup_singleton key, fun _ _ o ho => by rw [List.mem_singleton.mp ho]; exact id⟩
  have hholds : Txn.Holds Stored.raw (⟨[c], [.put key (.ofText text)]⟩ : Txn Stored) s.db ↔
      c.Holds Stored.raw s.db := List.forall_mem_singleton
  rw [putThen, RangeProg.exec, if_neg (not_not.mpr hacc)]
  by_cases h : c.Holds Stored.raw s.db
  · rw [if_pos h, if_pos (hholds.mpr h)]
    rfl
  · rw [if_neg h, if_neg (mt hholds.mp h)]
    rfl

variable (codec) in
/-- `SyncDeviceID(false)` goes on with a bitmap of ids unless it is the empty text. -/
theorem exec_syncDeviceID (next : FrontEnd) : ∃ s' : KeyedStore Stored,
    (∀ key ≠ deviceIDsPath, s'.db key = s.db key) ∧
      if (s.db deviceIDsPath).map Stored.raw = some "" then
        (syncDeviceID codec next).exec Stored.raw s = (s', .error)
      else s'.db deviceIDsPath ≠ none ∧
        (syncDeviceID codec next).exec Stored.raw s = next.exec Stored.raw s' := by
  rw [syncDeviceID, RangeProg.exec]
  cases hids : s.db deviceIDsPath with
  | none =>
      simp only [Option.map_none, Option.getD_none, reduceCtorEq, if_false, ne_eq,
        not_true_eq_false,
        exec_getKVs, exec_putThen]
      exact ⟨_, fun key hkey => putStore_of_ne hkey, putStore_self ▸ Option.some_ne_none _,
        if_pos hids⟩
  | some v =>
      refine ⟨s, fun _ _ => rfl, ?_⟩
      simp only [Option.map_some, Option.getD_some, Option.some.injEq]
      by_cases hempty : v.raw = ""
      · rw [if_pos hempty, if_neg (not_not.mpr hempty), exec_getKVs, exec_getKVs, exec_putThen,
          if_neg]
        exact fun hmissing => Option.some_ne_none v (hids.symm.trans hmissing)
      · rw [if_neg hempty, if_pos hempty, hids]
        exact ⟨Option.some_ne_none v, rfl⟩

/-- The version check goes on unless the version is a higher one. -/
theorem exec_checkVersion (next : FrontEnd) : ∃ s' : KeyedStore Stored,
    (∀ key ≠ versionPath, s'.db key = s.db key) ∧
      if ∃ v ∈ (s.db versionPath).map Stored.raw, currentVersion < v then
        (checkVersion next).exec Stored.raw s = (s', .error)
      else (checkVersion next).exec Stored.raw s = next.exec Stored.raw s' := by
  rw [checkVersion, RangeProg.exec]
  cases hversion : s.db versionPath with
  | none =>
      simp only [Option.map_none, Option.mem_def, reduceCtorEq, false_and, exists_false, if_false,
        exec_putThen]
      exact ⟨_, fun key hkey => putStore_of_ne hkey, if_pos hversion⟩
  | some v =>
      simp only [Option.map_some, Option.mem_def, Option.some.injEq, exists_eq_left']
      split_ifs with hlt hgt
      · exact ⟨s, fun _ _ => rfl, rfl⟩
      · rw [exec_putThen, if_pos]
        · exact ⟨_, fun key hkey => putStore_of_ne hkey, rfl⟩
        · rw [Cmp.Holds, hversion, Option.map_some]
      · exact ⟨s, fun _ _ => rfl, rfl⟩

variable (codec) in
/-- Connecting fails, or goes on with a bitmap of ids; the keys of devices stay as they are. -/
theorem exec_connect (next : FrontEnd) : ∃ s' : KeyedStore Stored,
    (∀ key, key.toList[1]? = some 'e' → s'.db key = s.db key) ∧
      (TurnsAway s.db → (connect codec next).exec Stored.raw s = (s', .error)) ∧
      (¬ TurnsAway s.db → s'.db deviceIDsPath ≠ none ∧
        (connect codec next).exec Stored.raw s = next.exec Stored.raw s') := by
  obtain ⟨s₁, hkept₁, hsync⟩ := exec_syncDeviceID (s := s) codec (checkVersion next)
  obtain ⟨s₂, hkept₂, hcheck⟩ := exec_checkVersion (s := s₁) next
  have hversion : s₁.db versionPath = s.db versionPath := hkept₁ _ (by decide)
  have hids : s₂.db deviceIDsPath = s₁.db deviceIDsPath := hkept₂ _ (by decide)
  have hne : ∀ key : String, key.toList[1]? = some 'e' →
      key ≠ deviceIDsPath ∧ key ≠ versionPath := by
    rintro key hkey
    constructor <;> (rintro rfl; exact absurd hkey (by decide))
  rw [hversion] at hcheck
  unfold TurnsAway
  by_cases hempty : (s.db deviceIDsPath).map Stored.raw = some ""
  · rw [if_pos hempty] at hsync
    exact ⟨s₁, fun key hkey => hkept₁ key (hne key hkey).1, fun _ => hsync,
      fun hno => absurd (Or.inl hempty) hno⟩
  · rw [if_neg hempty] at hsync
    have hkept : ∀ key : String, key.toList[1]? = some 'e' → s₂.db key = s.db key := fun key hkey =>
      (hkept₂ key (hne key hkey).2).trans (hkept₁ key (hne key hkey).1)
    refine ⟨s₂, hkept, fun haway => ?_, fun hno => ⟨hids ▸ hsync.1, ?_⟩⟩
    · rw [if_pos (haway.resolve_left hempty)] at hcheck
      exact hsync.2.trans hcheck
    · rw [if_neg (fun hhigher => hno (Or.inr hhigher))] at hcheck
      exact hsync.2.trans hcheck

/-! ### Whole commands -/

theorem Listing.path_second (l : Listing) : l.path.toList[1]? = some 'e' := by
  cases l with
  | getSwitches => exact switchPath_second ""
  | getSwitchPorts s => exact (Device.switchPort ⟨s, "", "", "", "", ""⟩).path_second
  | getRouters => exact routerPath_second ""
  | getRouterPorts r => exact (Device.routerPort ⟨r, "", "", 0, "", ""⟩).path_second
  | getRouterStaticRoutes r => exact (Device.staticRoute ⟨r, "", "", 0, "", ""⟩).path_second
  | getRouterNATs r => exact (Device.nat ⟨r, "", "", 0, "", ""⟩).path_second
  | getChassises => exact (Device.chassis ⟨"", "", 0⟩).path_second

/-- Whether a device is in use is a matter of the keys of devices. -/
theorem DelCommand.inUse_congr (cmd : DelCommand) {db db' : Store Stored}
    (h : ∀ key : String, key.toList[1]? = some 'e' → db' key = db key) :
    cmd.InUse db' ↔ cmd.InUse db := by
  have hfinds : ∀ l, Finds db' l ↔ Finds db l := by
    intro l
    unfold Finds
    simp only [h _ (start_append l.path_second _)]
  unfold InUse
  simp only [hfinds]

variable (codec) in
/-- A delete of tpctl. -/
theorem DelCommand.exec_connect_body (cmd : DelCommand) (horder : ∀ l, (order l).Perm l) :
    (((connect codec (cmd.body codec order false)).exec Stored.raw s).2 = .ok ↔
        ¬ TurnsAway s.db ∧ s.db cmd.path ≠ none ∧ ¬ cmd.InUse s.db) ∧
      ∀ key, Below cmd.path key →
        ((connect codec (cmd.body codec order false)).exec Stored.raw s).1.db key = s.db key := by
  obtain ⟨s', hkept, haway, hon⟩ := exec_connect (s := s) codec
    (cmd.body codec order false)
  by_cases h : TurnsAway s.db
  · rw [haway h]
    exact ⟨iff_of_false (fun hok => by cases hok) fun hno => hno.1 h,
      fun key hkey => hkept key (hkey.second cmd.path_second)⟩
  · obtain ⟨hids, hexec⟩ := hon h
    have hbody : (((cmd.body codec order false).exec Stored.raw s').2 = .ok ↔
          s'.db cmd.path ≠ none ∧ ¬ cmd.InUse s'.db ∧ s'.db deviceIDsPath ≠ none) ∧
        ∀ key, Below cmd.path key →
          ((cmd.body codec order false).exec Stored.raw s').1.db key = s'.db key :=
      cmd.exec_body_ok horder
    rw [hexec]
    refine ⟨?_, fun key hkey => (hbody.2 key hkey).trans
      (hkept key (hkey.second cmd.path_second))⟩
    rw [hbody.1, hkept _ cmd.path_second, cmd.inUse_congr hkept]
    simp only [h, hids, ne_eq, not_false_eq_true, and_true, true_and]

/-- A delete of the API. -/
theorem DelCommand.exec_unlessNil (cmd : DelCommand) (horder : ∀ l, (order l).Perm l)
    (name : String) :
    (((if Api.checkNilParam [name] then .ret .error
        else cmd.body codec order false : FrontEnd).exec Stored.raw s).2 = .ok ↔
        name ≠ "" ∧ s.db deviceIDsPath ≠ none ∧ s.db cmd.path ≠ none ∧ ¬ cmd.InUse s.db) ∧
      ∀ key, Below cmd.path key →
        ((if Api.checkNilParam [name] then .ret .error
          else cmd.body codec order false : FrontEnd).exec Stored.raw s).1.db key = s.db key := by
  have hnil : Api.checkNilParam [name] = true ↔ name = "" := by simp [Api.checkNilParam]
  have hbody : (((cmd.body codec order false).exec Stored.raw s).2 = .ok ↔
        s.db cmd.path ≠ none ∧ ¬ cmd.InUse s.db ∧ s.db deviceIDsPath ≠ none) ∧
      ∀ key, Below cmd.path key →
        ((cmd.body codec order false).exec Stored.raw s).1.db key = s.db key :=
    cmd.exec_body_ok horder
  by_cases hname : name = ""
  · rw [if_pos (hnil.mpr hname)]
    exact ⟨iff_of_false (fun hok => by cases hok) fun hno => hno.1 hname, fun _ _ => rfl⟩
  · rw [if_neg (mt hnil.mp hname), hbody.1]
    refine ⟨?_, hbody.2⟩
    simp only [hname, ne_eq, not_false_eq_true, true_and]
    tauto

/-- When a delete command reports success, and what lies below the device then. -/
theorem DelCommand.exec_ok (cmd : DelCommand) (horder : ∀ l, (order l).Perm l) :
    (((cmd.prog codec order false).exec Stored.raw s).2 = .ok ↔
        ¬ cmd.Refused ∧ ¬ cmd.Unready s.db ∧ s.db cmd.path ≠ none ∧ ¬ cmd.InUse s.db) ∧
      ∀ key, Below cmd.path key →
        ((cmd.prog codec order false).exec Stored.raw s).1.db key = s.db key := by
  cases cmd with
  | tpctlSwitch name =>
      have h := (tpctlSwitch name).exec_connect_body (s := s) codec horder
      exact ⟨h.1.trans ⟨fun hok => ⟨id, hok⟩, And.right⟩, h.2⟩
  | tpctlRouter name =>
      have h := (tpctlRouter name).exec_connect_body (s := s) codec horder
      exact ⟨h.1.trans ⟨fun hok => ⟨id, hok⟩, And.right⟩, h.2⟩
  | apiSwitch name => exact (apiSwitch name).exec_unlessNil horder name
  | apiRouter name => exact (apiRouter name).exec_unlessNil horder name

/-- **A delete without recursion never orphans anything** iff it fails anyway (the name is refused,
tpctl cannot connect, the API finds no bitmap of ids, or the device is not stored), or whenever a
key is stored below the device a listing of the command finds one. -/
theorem neverOrphans_iff (horder : ∀ l, (order l).Perm l) (s : KeyedStore Stored)
    (cmd : DelCommand) : NeverOrphans codec order s cmd ↔
      cmd.Refused ∨ cmd.Unready s.db ∨ s.db cmd.path = none ∨
        ((∃ key, Below cmd.path key ∧ s.db key ≠ none) → cmd.InUse s.db) := by
  have hexec : (((cmd.prog codec order false).exec Stored.raw s).2 = .ok ↔
        ¬ cmd.Refused ∧ ¬ cmd.Unready s.db ∧ s.db cmd.path ≠ none ∧ ¬ cmd.InUse s.db) ∧
      ∀ key, Below cmd.path key →
        ((cmd.prog codec order false).exec Stored.raw s).1.db key = s.db key := cmd.exec_ok horder
  obtain ⟨hok, hbelow⟩ := hexec
  unfold NeverOrphans
  constructor
  · intro h
    by_contra hno
    simp only [not_or, Classical.not_imp] at hno
    obtain ⟨hrefused, hready, hstored, ⟨key, hkey, hne⟩, huse⟩ := hno
    exact hne ((h (hok.mpr ⟨hrefused, hready, hstored, huse⟩)).1 key hkey)
  · intro hcond hsuccess
    obtain ⟨hrefused, hready, hstored, huse⟩ := hok.mp hsuccess
    have hnone : ∀ key, Below cmd.path key → s.db key = none := by
      intro key hkey
      by_contra hne
      rcases hcond with h | h | h | h
      · exact hrefused h
      · exact hready h
      · exact hstored h
      · exact huse (h ⟨key, hkey, hne⟩)
    exact ⟨hnone, fun key hkey => (hbelow key hkey).trans (hnone key hkey)⟩

end exec

/-! ### A router with a port, and one with a NAT rule -/

/-- The router `r` with a port. -/
def portedRouterKeys : KeyedStore Stored where
  db := portedRouterStore
  keys := [deviceIDsPath, routerIPBookPath "r", routerPath "r", routerPortPath "r" "p"]
  covers := by
    intro key h
    by_contra hno
    simp only [List.mem_cons, List.not_mem_nil, or_false, not_or] at hno
    simp only [portedRouterStore, hno, if_false, ne_eq, not_true_eq_false] at h

theorem neverOrphans_portedRouter :
    NeverOrphans sampleCodec id portedRouterKeys (.tpctlRouter "r") :=
  (neverOrphans_iff (fun _ => List.Perm.refl _) portedRouterKeys (.tpctlRouter "r")).mpr
    (Or.inr (Or.inr (Or.inr fun _ => ⟨.getRouterPorts "r", List.mem_cons_self, "p", by decide,
      by decide⟩)))

/-- A router without ports and its NAT rule. -/
def natRouterStore : KeyedStore Stored where
  db key :=
    if key = deviceIDsPath then some (.ofText "OjAAAAEAAAAAAAAAEAAAAAEA")
    else if key = routerPath "edge" then some (.ofDevice (.router ⟨"edge", 1, ""⟩))
    else if key = routerNATPath "edge" "out" then
      some (.ofDevice (.nat ⟨"edge", "out", "10.0.0.0", 16, "snat", "1.2.3.4"⟩))
    else none
  keys := [deviceIDsPath, routerPath "edge", routerNATPath "edge" "out"]
  covers := by
    intro key h
    by_contra hno
    simp only [List.mem_cons, List.not_mem_nil, or_false, not_or] at hno
    simp only [hno, if_false, ne_eq, not_true_eq_false] at h

/-- The router goes and its NAT rule stays. -/
theorem not_neverOrphans_nat : ¬ ∀ (codec : BitmapCodec)
    (order : List (String × MapEntry) → List (String × MapEntry)), (∀ l, (order l).Perm l) →
    ∀ (s : KeyedStore Stored) (cmd : DelCommand), NeverOrphans codec order s cmd := by
  intro h
  have hexec : ((DelCommand.prog sampleCodec id false (.tpctlRouter "edge")).exec Stored.raw
      natRouterStore).2 = .ok := by decide +kernel
  have hnone := (h sampleCodec id (fun _ => List.Perm.refl _) natRouterStore (.tpctlRouter "edge")
    hexec).1 (routerNATPath "edge" "out") (by decide)
  exact absurd hnone (by decide)

end TupleNet.Control
