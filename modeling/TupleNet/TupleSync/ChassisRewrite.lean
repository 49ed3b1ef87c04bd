import TupleNet.Control.Listing
import TupleNet.TupleSync.PortWriters
import TupleNet.Zoo.Records

/-! # Rewriting the chassis of a port

A node that has an OVS port for a switch port of another chassis stores the port again, with itself
as the chassis.  The record has then been written by `MarshalTuplenet`, read by `parse_value` and
`_convert_kv2entity`, written again by `generate_lsp_kv` and is read by `UnmarshalTuplenet`.  An
empty peer or chassis is absent in the text of the controller and `None` on the node, so all of them
come through.  The key is made again from its last and its third last component, though, so a port
keeps its place iff neither its name nor that of its switch has a slash (`rewritten_iff`). -/

namespace TupleNet

open Text GoText Control

/-! ### Loading and reading -/

/-- The port that a node makes of a record: `parse_key`, `parse_value` and `_convert_kv2entity`. -/
def loadLsp (path raw : String) : Option Lsp :=
  if parseKey path = some .lsp then
    match (Args.ofKv .lsp path (valueSet .lsp raw).kv.lookup).bind Args.construct with
    | some (.lsp q) => some q
    | _ => none
  else none

/-- `GetSwitchPort`: a new struct with the name and the owner is filled from the record. -/
def getSwitchPort (db : String → Option String) (owner portName : String) : Option Device :=
  (db (switchPortPath owner portName)).map (fun value =>
    unmarshalTuplenet value (.switchPort ⟨owner, portName, "", "", "", ""⟩))

/-- What a node uploads for the port `q` that it has loaded is the stored port `p` with the node as
its chassis, and once it is loaded the node has nothing more to change. -/
structure Rewritten (systemId : String) (p : SwitchPort) (q : Lsp) : Prop where
  read : ∀ db, getSwitchPort (Function.update db (entityViewKey (lspKv systemId q).1)
    (some (lspKv systemId q).2)) p.owner p.name = some (.switchPort { p with chassis := systemId })
  settled : ∀ x z, Zoo.Reachable x z → ∀ r ∈ updateLspChassis (z.convertKv2entity x .lsp
    (entityViewKey (lspKv systemId q).1) (valueSet .lsp (lspKv systemId q).2)) systemId,
      r.uuid ≠ p.name

theorem loadLsp_eq_some {path raw : String} {q : Lsp} (h : loadLsp path raw = some q) :
    ∃ a, Args.ofKv .lsp path (valueSet .lsp raw).kv.lookup = some a ∧
      a.construct = some (.lsp q) := by
  unfold loadLsp at h
  split_ifs at h
  split at h
  · next q' hq =>
      obtain rfl := Option.some.inj h
      exact Option.bind_eq_some_iff.mp hq
  · cases h

/-! ### The key -/

theorem mem_split_of_ofKv {path : String} {get : String → Option String} {a : Args} {q : Lsp}
    (h : Args.ofKv .lsp path get = some a) (hq : a.construct = some (.lsp q)) :
    q.uuid ∈ split '/' path ∧ q.lsUuid ∈ split '/' path := by
  unfold Args.ofKv at h
  cases hsplit : (split '/' path).reverse with
  | nil => simp [hsplit] at h
  | cons uuid rest =>
      simp only [hsplit, Option.map_eq_some_iff] at h
      obtain ⟨parent, hparent, rfl⟩ := h
      simp only [Args.construct, Option.bind_eq_bind, Option.bind_eq_some_iff,
        Option.some.injEq, Props.lsp.injEq] at hq
      obtain ⟨_, _, _, _, _, _, _, _, rfl⟩ := hq
      have hmem : ∀ s ∈ uuid :: rest, s ∈ split '/' path := by
        intro s hs
        rw [← hsplit] at hs
        exact List.mem_reverse.mp hs
      exact ⟨hmem _ List.mem_cons_self,
        hmem _ (List.mem_cons_of_mem _ (List.mem_of_getElem? hparent))⟩

/-- The slashes of a key. -/
theorem count_switchPortPath (owner name : String) : (switchPortPath owner name).toList.count '/' =
    5 + owner.toList.count '/' + name.toList.count '/' := by
  have hpath : switchPortPath owner name = "/entity_view/LS/" ++ owner ++ "/lsp/" ++ name := rfl
  have hfront : "/entity_view/LS/".toList.count '/' = 3 := by decide
  have hdir : "/lsp/".toList.count '/' = 2 := by decide
  rw [hpath]
  simp only [String.toList_append, List.count_append, hfront, hdir]
  omega

/-- A key that is made again from names without slashes had no others. -/
theorem namesPlain_of_path {owner name : String} {p : SwitchPort} (howner : '/' ∉ owner.toList)
    (hname : '/' ∉ name.toList)
    (h : switchPortPath owner name = switchPortPath p.owner p.name) :
    '/' ∉ p.owner.toList ∧ '/' ∉ p.name.toList := by
  have hcount := count_switchPortPath owner name
  rw [h, count_switchPortPath, List.count_eq_zero.mpr howner, List.count_eq_zero.mpr hname]
    at hcount
  exact ⟨List.count_eq_zero.mp (by omega), List.count_eq_zero.mp (by omega)⟩

/-! ### The value -/

/-- The port has come from a record with these names and texts. -/
structure LoadedAs (p : SwitchPort) (q : Lsp) : Prop where
  uuid : q.uuid = p.name
  lsUuid : q.lsUuid = p.owner
  ip : q.ip = p.ip
  mac : q.mac = p.mac
  peer : q.peer = Device.unlessEmpty p.peerRouterPortName

theorem loadedAs {p : SwitchPort} (hname : (Device.switchPort p).NamesPlain)
    (hvalue : (Device.switchPort p).ValuesPlain) {q : Lsp}
    (hload : loadLsp (Device.switchPort p).path (marshalTuplenet (.switchPort p)) = some q) :
    LoadedAs p q := by
  obtain ⟨a, ha, hq⟩ := loadLsp_eq_some hload
  have hrecord : a = (Device.switchPort p).record :=
    Option.some.inj (ha.symm.trans (Device.loaded_eq_record hname hvalue))
  rw [hrecord] at hq
  simp only [Device.record, Args.construct, Option.bind_eq_bind, Option.bind_eq_some_iff,
    Option.some.injEq, Props.lsp.injEq] at hq
  obtain ⟨_, rfl, _, _, _, rfl, _, _, rfl⟩ := hq
  exact ⟨rfl, rfl, rfl, rfl, rfl⟩

section value
variable {systemId : String} {p : SwitchPort} {q : Lsp} (hq : LoadedAs p q)
  (hplain : ∀ s ∈ (Device.switchPort p).texts, PlainText s) (hid : PlainText systemId)
include hq hplain hid

theorem plain_lspFields : ∀ kv ∈ lspFields systemId q,
    '=' ∉ kv.1.toList ∧ ',' ∉ kv.1.toList ∧ ',' ∉ kv.2.toList := by
  have hkeys : ∀ k ∈ ["ip", "mac", "chassis", "peer"], '=' ∉ k.toList ∧ ',' ∉ k.toList := by decide
  simp only [Device.texts, List.forall_mem_cons] at hplain
  obtain ⟨hip, hmac, hpeer, _⟩ := hplain
  have hfields : ∀ kv ∈ lspFields systemId q,
      kv.1 ∈ ["ip", "mac", "chassis", "peer"] ∧ ',' ∉ kv.2.toList := by
    unfold lspFields
    rw [hq.ip, hq.mac, hq.peer, Device.unlessEmpty]
    split_ifs <;> simp [hip.1, hmac.1, hid.1, hpeer.1]
  intro kv hkv
  obtain ⟨hkey, hvalue⟩ := hfields kv hkv
  obtain ⟨hequal, hcomma⟩ := hkeys kv.1 hkey
  exact ⟨hequal, hcomma, hvalue⟩

/-- The controller reads the port with the new chassis. -/
theorem unmarshal_lspKv :
    unmarshalTuplenet (lspKv systemId q).2 (.switchPort ⟨p.owner, p.name, "", "", "", ""⟩) =
      .switchPort { p with chassis := systemId } := by
  rw [Device.unmarshal_eq, lspKv_text, foldl_kvText _ (plain_lspFields hq hplain hid)]
  simp only [Device.texts, List.forall_mem_cons] at hplain
  obtain ⟨hip, hmac, hpeer, _⟩ := hplain
  have htrim : ∀ k ∈ ["ip", "mac", "chassis", "peer"], trimSpace k = k := by decide
  simp only [List.forall_mem_cons] at htrim
  obtain ⟨hkip, hkmac, hkchassis, hkpeer, _⟩ := htrim
  unfold lspFields
  rw [hq.ip, hq.mac, hq.peer, Device.unlessEmpty]
  by_cases hempty : p.peerRouterPortName = ""
  · simp [hempty, Device.setField, hkip, hkmac, hkchassis, hip.2, hmac.2, hid.2]
  · simp [hempty, Device.setField, hkip, hkmac, hkchassis, hkpeer, hip.2, hmac.2, hid.2, hpeer.2]

/-- The node reads what it has uploaded. -/
theorem ofKv_lspKv (hname : (Device.switchPort p).NamesPlain) :
    Args.ofKv .lsp (entityViewKey (lspKv systemId q).1)
      (valueSet .lsp (lspKv systemId q).2).kv.lookup =
    some (.lsp p.name (some p.ip) (some p.mac) p.owner (some systemId) q.peer) := by
  have hlookup : ∀ key ∈ ["ip", "mac", "chassis", "peer"],
      (valueSet .lsp (lspKv systemId q).2).kv.lookup key =
        (lspFields systemId q).reverse.lookup key := by
    intro key hkey
    have hne : key ≠ ENTITY_TYPE := by
      rintro rfl
      exact absurd hkey (by decide)
    rw [valueSet, Dict.lookup_erase_eq, if_neg hne, lspKv_text,
      parseValue_kvText (plain_lspFields hq hplain hid), Device.lookup_foldl_insert,
      AList.lookup_empty, Option.or_none]
  have hpath : entityViewKey (lspKv systemId q).1 = (Device.switchPort p).path := by
    rw [entityViewKey_lspKv, hq.uuid, hq.lsUuid]
    rfl
  unfold Args.ofKv
  rw [hpath, Device.split_path hname]
  simp only [Device.components, List.reverse_cons, List.reverse_nil, List.nil_append,
    List.cons_append, List.getElem?_cons_succ, List.getElem?_cons_zero, Option.map_some,
    hlookup "ip" (by decide), hlookup "mac" (by decide), hlookup "chassis" (by decide),
    hlookup "peer" (by decide)]
  unfold lspFields
  rw [hq.ip, hq.mac]
  cases q.peer <;> simp [List.lookup_cons]

end value

/-! ### The zoo -/

/-- After an addition the name is free or has what was added. -/
theorem props?_addEntity_self {x : Extra} {z : Zoo} (hz : z.Indexed) {a : Args} {p r : Props}
    (hp : a.construct = some p) (hroom : z.Room p)
    (hr : (z.addEntity x a).props? a.etype a.uuid = some r) : r = p := by
  obtain ⟨hetype, huuid⟩ := Args.construct_key hp
  rw [← hetype, ← huuid] at hr
  cases hatt : z.attempts a with
  | false =>
      rw [Zoo.addEntity_of_not_attempts hatt, hetype, huuid] at hr
      have hsame : a.isSame r = some true := by
        rw [Zoo.attempts, hr] at hatt
        simpa using hatt
      obtain ⟨e, he, rfl⟩ := Option.map_eq_some_iff.mp hr
      exact Args.eq_of_isSame hp (hz.valid _ _ e he) hsame
  | true =>
      by_cases hfree : ∀ u ∈ p.uniq, u ∈ z.entityIdxmap →
          ∃ q, z.props? p.etype p.uuid = some q ∧ u ∈ q.uniq
      · rw [(Zoo.addEntity_of_free hp hz hatt hroom hfree).1, if_pos ⟨rfl, rfl⟩] at hr
        exact (Option.some.inj hr).symm
      · rw [Zoo.props?_addEntity_of_not_free hp hz hatt hroom hfree] at hr
        cases hr

theorem mem_updateLspChassis {z : Zoo} {systemId : String} {r : Lsp}
    (h : r ∈ updateLspChassis z systemId) :
    r.chassis ≠ some systemId ∧ ∃ key, z.props? .lsp key = some (.lsp r) := by
  obtain ⟨⟨name, e⟩, _, he⟩ := List.mem_filterMap.mp h
  dsimp only at he
  split at he
  · next o ho =>
      split at he
      · next p hp =>
          split_ifs at he with hne
          obtain rfl := Option.some.inj he
          exact ⟨hne, o.ifaceId, hp⟩
      · cases he
  · cases he

/-- Once a port is loaded with the node as its chassis, the node leaves it alone. -/
theorem not_mem_updateLspChassis {x : Extra} {z : Zoo} (hz : Zoo.Reachable x z) {a : Args} {q : Lsp}
    {systemId : String} (ha : a.construct = some (.lsp q)) (hchassis : q.chassis = some systemId)
    {r : Lsp} (hr : r ∈ updateLspChassis (z.addEntity x a) systemId) : r.uuid ≠ q.uuid := by
  intro huuid
  obtain ⟨hne, key, hkey⟩ := mem_updateLspChassis hr
  obtain ⟨e, he, hprops⟩ := Option.map_eq_some_iff.mp hkey
  obtain ⟨_, hname⟩ := (hz.addEntity a).indexed.keyed _ _ e he
  obtain ⟨hetype, hself⟩ := Args.construct_key ha
  have hat : key = a.uuid := by
    rw [← hname, Entity.uuid, hprops, ← hself]
    exact huuid
  rw [hat, show EntityType.lsp = a.etype from hetype] at hkey
  have hroom : z.Room (.lsp q) := fun key hilk => by cases hilk
  obtain rfl := Props.lsp.inj (props?_addEntity_self hz.indexed ha hroom hkey)
  exact hne hchassis

/-! ### The port -/

/-- **A rewritten port has changed its chassis and nothing else iff neither its name nor that of its
switch has a slash**, and the node has a name that a record can hold. -/
theorem rewritten_iff {p : SwitchPort} (hplain : ∀ s ∈ (Device.switchPort p).texts, PlainText s)
    {q : Lsp}
    (hload : loadLsp (Device.switchPort p).path (marshalTuplenet (.switchPort p)) = some q)
    (systemId : String) :
    Rewritten systemId p q ↔ ('/' ∉ p.owner.toList ∧ '/' ∉ p.name.toList) ∧ PlainText systemId := by
  obtain ⟨a, ha, hconstruct⟩ := loadLsp_eq_some hload
  constructor
  · intro h
    have hread := h.read fun _ => none
    have hkey : switchPortPath p.owner p.name = entityViewKey (lspKv systemId q).1 := by
      by_contra hne
      rw [getSwitchPort, Function.update_of_ne hne] at hread
      cases hread
    rw [entityViewKey_lspKv] at hkey
    obtain ⟨huuid, hlsUuid⟩ := mem_split_of_ofKv ha hconstruct
    refine ⟨namesPlain_of_path (Device.plain_of_mem_split hlsUuid)
      (Device.plain_of_mem_split huuid) hkey.symm, ?_⟩
    rw [getSwitchPort, entityViewKey_lspKv, ← hkey, Function.update_self, Option.map_some] at hread
    have htexts := Device.texts_unmarshal (lspKv systemId q).2 (Device.switchPort p).texts_fresh
    rw [show unmarshalTuplenet (lspKv systemId q).2 (Device.switchPort p).fresh = _ from
      Option.some.inj hread] at htexts
    exact htexts systemId (by simp [Device.texts])
  · intro h
    obtain ⟨⟨howner, hname⟩, hid⟩ := h
    have hnames : (Device.switchPort p).NamesPlain :=
      (Device.namesPlain_iff _).mpr ⟨hname, by simpa [Device.owner?] using howner⟩
    have hq := loadedAs hnames (Device.valuesPlain_of_texts hplain) hload
    refine ⟨fun db => ?_, fun x z hz r hr => ?_⟩
    · rw [getSwitchPort, entityViewKey_lspKv, hq.uuid, hq.lsUuid, Function.update_self,
        Option.map_some, unmarshal_lspKv hq hplain hid]
    · obtain ⟨hip, hmac⟩ : ip2int q.ip = some q.ipInt ∧ mac2int q.mac = some q.macInt :=
        Args.construct_valid hconstruct
      have hagain : (Args.lsp p.name (some p.ip) (some p.mac) p.owner (some systemId)
          q.peer).construct = some (.lsp { q with chassis := some systemId }) := by
        simp only [Args.construct, ← hq.ip, ← hq.mac, ← hq.uuid, ← hq.lsUuid, hip, hmac,
          Option.bind_eq_bind, Option.bind_some]
      rw [Zoo.convertKv2entity, ofKv_lspKv hq hplain hid hnames] at hr
      rw [← hq.uuid]
      exact not_mem_updateLspChassis hz hagain rfl hr

/-- A port with a peer and no chassis. -/
def peeredPort : SwitchPort := ⟨"red", "p1", "10.0.0.1", "f2:01:0a:00:00:01", "r_to_red", ""⟩

theorem rewritten_peeredPort : ∃ q, Rewritten "hyper1" peeredPort q := by
  obtain ⟨q, hload⟩ := Option.isSome_iff_exists.mp (show (loadLsp
    (Device.switchPort peeredPort).path (marshalTuplenet (.switchPort peeredPort))).isSome from by
      decide)
  exact ⟨q, (rewritten_iff (by decide) hload "hyper1").mpr (by decide)⟩

/-- The port `x/lsp/y` of the switch `a` is uploaded as the port `y` of the switch `x`. -/
theorem not_rewritten_slash : ¬ ∀ (p : SwitchPort) (q : Lsp) (systemId : String),
    (∀ s ∈ (Device.switchPort p).texts, PlainText s) → PlainText systemId →
    loadLsp (Device.switchPort p).path (marshalTuplenet (.switchPort p)) = some q →
    Rewritten systemId p q := by
  intro h
  obtain ⟨q, hload⟩ := Option.isSome_iff_exists.mp (show (loadLsp "/entity_view/LS/a/lsp/x/lsp/y"
    (marshalTuplenet (.switchPort ⟨"a", "x/lsp/y", "10.0.0.1", "f2:01:0a:00:00:01", "",
      ""⟩))).isSome
      from by decide)
  have hread := (h ⟨"a", "x/lsp/y", "10.0.0.1", "f2:01:0a:00:00:01", "", ""⟩ q "hyper1" (by decide)
    (by decide) hload).read fun _ => none
  have hmoved : ∀ q ∈ loadLsp "/entity_view/LS/a/lsp/x/lsp/y" (marshalTuplenet
      (.switchPort ⟨"a", "x/lsp/y", "10.0.0.1", "f2:01:0a:00:00:01", "", ""⟩)),
      entityViewKey (lspKv "hyper1" q).1 = "/entity_view/LS/x/lsp/y" := by decide
  rw [hmoved q hload, getSwitchPort, Function.update_of_ne (by decide)] at hread
  cases hread

end TupleNet
