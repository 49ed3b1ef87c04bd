import TupleNet.Lib.Text
import TupleNet.LinkMaster.WatchMaster
import Mathlib.Algebra.Group.Nat.Defs

/-! # Logical entities

The entity classes of `logicalview.py`.  `Args` is what `add_entity` is called with, a property that
the record lacks being `none`; `Args.construct` is the constructor and gives `Props`, the attributes
that a constructor computes from its arguments, or `none` where it raises.  The index among routes
and ports of one network (`ilk_idx`) is not a property: the zoo hands it out. -/

namespace TupleNet

open Text

/-! ### Types and keys -/

/-- The keys of `logical_entity_types`. -/
inductive EntityType where
  | lsp
  | lrp
  | lsr
  | lnat
  | chassis
  | LS
  | LR
  | ovsport
  | ovsportChassis
deriving DecidableEq, Repr

/-- An entity is looked up by its type and its uuid. -/
instance : LawfulBEq (EntityType × String) := inferInstance

/-- `logical_entity_types`, in some order. -/
def EntityType.all : List EntityType :=
  [.lsp, .lrp, .lsr, .lnat, .chassis, .LS, .LR, .ovsport, .ovsportChassis]

theorem EntityType.mem_all (t : EntityType) : t ∈ EntityType.all := by cases t <;> decide

/-- The type of the records of an entity type; ports of OVS have none. -/
def EntityType.mark : EntityType → Option Mark
  | lsp => some .lsp
  | lrp => some .lrp
  | lsr => some .lsr
  | lnat => some .lnat
  | chassis => some .chassis
  | LS => some .LS
  | LR => some .LR
  | ovsport => none
  | ovsportChassis => none

/-- The names in `uniq_check_keys`. -/
inductive UniqKey where
  | lsViewIp
  | lsViewMac
  | lrViewIp
  | lrViewMac
  | lrViewLsr
  | lrViewLnat
  | globalViewId
  | globalViewChassis
  | hostViewOvsport
deriving DecidableEq, Repr

/-! ### Properties -/

/-- `ip2int`. -/
def ip2int (ip : String) : Option ℕ := dottedQuad ip

/-- `int(mac.translate(None, ":.- "), 16)`. -/
def mac2int (mac : String) : Option ℕ :=
  parseHex (mac.toList.filter (fun c => c ∉ [':', '.', '-', ' ']))

/-- `max(min(int(prefix), 32), 0)`. -/
def clampPrefix (p : ℤ) : ℕ := (max (min p 32) 0).toNat

/-- An address without its host bits. -/
def maskIp (ipInt prefixLen : ℕ) : ℕ := (ipInt >>> (32 - prefixLen)) <<< (32 - prefixLen)

/-- `LogicalSwitchPort`. -/
structure Lsp where
  uuid : String
  ip : String
  ipInt : ℕ
  mac : String
  macInt : ℕ
  chassis : Option String
  lsUuid : String
  peer : Option String
deriving DecidableEq, Repr

/-- `LogicalRouterPort`. -/
structure Lrp where
  uuid : String
  prefixLen : ℕ
  ip : String
  ipInt : ℕ
  mac : String
  macInt : ℕ
  lrUuid : String
  peer : Option String
deriving DecidableEq, Repr

/-- `portID`: the low 16 bits of the address. -/
def Lsp.portID (p : Lsp) : ℕ := p.ipInt % 2 ^ 16
def Lrp.portID (p : Lrp) : ℕ := p.ipInt % 2 ^ 16

/-- `LogicalRouter`. -/
structure Lr where
  uuid : String
  chassis : Option String
  lrID : ℤ
deriving DecidableEq, Repr

/-- `LogicalStaticRoute`. -/
structure Lsr where
  uuid : String
  lrUuid : String
  ip : String
  ipInt : ℕ
  prefixLen : ℕ
  nextHop : String
  nextHopInt : ℕ
  outport : Option String
deriving DecidableEq, Repr

/-- `LogicalNetAddrXlate`. -/
structure Lnat where
  uuid : String
  lrUuid : String
  ip : String
  ipInt : ℕ
  prefixLen : ℤ
  xlateIp : String
  xlateIpInt : ℕ
  xlateType : Option String
deriving DecidableEq, Repr

/-- `LogicalSwitch`; its id is the text of the record. -/
structure Ls where
  uuid : String
  lsID : Option String
deriving DecidableEq, Repr

/-- `PhysicalChassis`. -/
structure Chassis where
  uuid : String
  ip : String
  tick : ℤ
deriving DecidableEq, Repr

/-- `OVSPort`. -/
structure OvsPort where
  ovsportName : String
  ifaceId : String
  ofport : ℤ
  isRemote : Bool
deriving DecidableEq, Repr

/-- The attributes of an entity. -/
inductive Props where
  | lsp (p : Lsp)
  | lrp (p : Lrp)
  | lsr (p : Lsr)
  | lnat (p : Lnat)
  | chassis (p : Chassis)
  | LS (p : Ls)
  | LR (p : Lr)
  | ovsport (p : OvsPort)
deriving DecidableEq, Repr

namespace Props

/-- The group in which the zoo keeps the entity. -/
def etype : Props → EntityType
  | lsp _ => .lsp
  | lrp _ => .lrp
  | lsr _ => .lsr
  | lnat _ => .lnat
  | chassis _ => .chassis
  | LS _ => .LS
  | LR _ => .LR
  | ovsport p => if p.isRemote then .ovsportChassis else .ovsport

/-- `uuid`. -/
def uuid : Props → String
  | lsp p => p.uuid
  | lrp p => p.uuid
  | lsr p => p.uuid
  | lnat p => p.uuid
  | chassis p => p.uuid
  | LS p => p.uuid
  | LR p => p.uuid
  | ovsport p => p.ovsportName

/-- `str(x)` of a property that may be `None`. -/
def strOf (x : Option String) : String := x.getD "None"

/-- The names and values of `uniq_check_keys`. -/
def uniq : Props → List (UniqKey × String)
  | lsp p => [(.lsViewIp, p.lsUuid ++ p.ip), (.lsViewMac, p.lsUuid ++ p.mac)]
  | lrp p => [(.lrViewIp, p.lrUuid ++ p.ip), (.lrViewMac, p.lrUuid ++ p.mac)]
  | lsr p => [(.lrViewLsr,
      "lsr" ++ p.lrUuid ++ p.ip ++ toString p.prefixLen ++ p.nextHop ++ strOf p.outport)]
  | lnat p => [(.lrViewLnat,
      "lnat" ++ p.lrUuid ++ p.ip ++ toString p.prefixLen ++ strOf p.xlateType)]
  | chassis p => [(.globalViewChassis, "chassis" ++ p.ip ++ toString p.tick)]
  | LS p => [(.globalViewId, strOf p.lsID)]
  | LR p => [(.globalViewId, toString p.lrID)]
  | ovsport p => [(.hostViewOvsport,
      "ovsport" ++ p.ovsportName ++ p.ifaceId ++ toString p.ofport)]

/-- The key of the index group of an `ILKEntity`. -/
def ilkKey : Props → Option String
  | lrp p => some (p.lrUuid ++ toString (maskIp p.ipInt p.prefixLen) ++ toString p.prefixLen)
  | lsr p => some (p.lrUuid ++ toString (maskIp p.ipInt p.prefixLen) ++ toString p.prefixLen)
  | _ => none

/-- What the constructors establish. -/
def Valid : Props → Prop
  | lsp p => ip2int p.ip = some p.ipInt ∧ mac2int p.mac = some p.macInt
  | lrp p => ip2int p.ip = some p.ipInt ∧ mac2int p.mac = some p.macInt ∧ p.prefixLen ≤ 32
  | lsr p => (∃ n, ip2int p.ip = some n ∧ p.ipInt = maskIp n p.prefixLen) ∧
      ip2int p.nextHop = some p.nextHopInt ∧ p.prefixLen ≤ 32
  | lnat p => ip2int p.ip = some p.ipInt ∧ ip2int p.xlateIp = some p.xlateIpInt
  | chassis p => (ip2int p.ip).isSome
  | _ => True

theorem uniq_nodup (p : Props) : p.uniq.Nodup := by cases p <;> simp [uniq]

end Props

/-! ### Arguments -/

/-- The arguments of `add_entity` after the type. -/
inductive Args where
  | lsp (uuid : String) (ip mac : Option String) (lsUuid : String) (chassis peer : Option String)
  | lrp (uuid : String) (ip prefixLen mac : Option String) (lrUuid : String) (peer : Option String)
  | lsr (uuid : String) (ip prefixLen nextHop outport : Option String) (lrUuid : String)
  | lnat (uuid : String) (ip prefixLen xlateIp xlateType : Option String) (lrUuid : String)
  | chassis (uuid : String) (ip tick : Option String)
  | LS (uuid : String) (lsID : Option String)
  | LR (uuid : String) (lrID chassis : Option String)
  | ovsport (name ifaceId : String) (ofport : ℤ) (isRemote : Bool)
deriving DecidableEq, Repr

namespace Args

def etype : Args → EntityType
  | lsp .. => .lsp
  | lrp .. => .lrp
  | lsr .. => .lsr
  | lnat .. => .lnat
  | chassis .. => .chassis
  | LS .. => .LS
  | LR .. => .LR
  | ovsport _ _ _ isRemote => if isRemote then .ovsportChassis else .ovsport

def uuid : Args → String
  | lsp uuid .. => uuid
  | lrp uuid .. => uuid
  | lsr uuid .. => uuid
  | lnat uuid .. => uuid
  | chassis uuid .. => uuid
  | LS uuid .. => uuid
  | LR uuid .. => uuid
  | ovsport name .. => name

/-- The constructors, up to `ilk_idx`; `none` where they raise. -/
def construct : Args → Option Props
  | lsp uuid ip mac lsUuid onChassis peer => do
      let ip ← ip
      let ipInt ← ip2int ip
      let mac ← mac
      let macInt ← mac2int mac
      some (.lsp ⟨uuid, ip, ipInt, mac, macInt, onChassis, lsUuid, peer⟩)
  | lrp uuid ip prefixLen mac lrUuid peer => do
      let prefixLen ← prefixLen.bind parseInt
      let ip ← ip
      let ipInt ← ip2int ip
      let mac ← mac
      let macInt ← mac2int mac
      some (.lrp ⟨uuid, clampPrefix prefixLen, ip, ipInt, mac, macInt, lrUuid, peer⟩)
  | lsr uuid ip prefixLen nextHop outport lrUuid => do
      let prefixLen ← prefixLen.bind parseInt
      let ip ← ip
      let ipInt ← ip2int ip
      let nextHop ← nextHop
      let nextHopInt ← ip2int nextHop
      let prefixLen := clampPrefix prefixLen
      some (.lsr ⟨uuid, lrUuid, ip, maskIp ipInt prefixLen, prefixLen, nextHop, nextHopInt,
        outport⟩)
  | lnat uuid ip prefixLen xlateIp xlateType lrUuid => do
      let ip ← ip
      let ipInt ← ip2int ip
      let prefixLen ← prefixLen.bind parseInt
      let xlateIp ← xlateIp
      let xlateIpInt ← ip2int xlateIp
      some (.lnat ⟨uuid, lrUuid, ip, ipInt, prefixLen, xlateIp, xlateIpInt, xlateType⟩)
  | chassis uuid ip tick => do
      let ip ← ip
      let _ ← ip2int ip
      let tick ← tick.bind parseInt
      some (.chassis ⟨uuid, ip, tick⟩)
  | LS uuid lsID => some (.LS ⟨uuid, lsID⟩)
  | LR uuid lrID onChassis => do
      let lrID ← lrID.bind parseInt
      some (.LR ⟨uuid, onChassis, lrID⟩)
  | ovsport name ifaceId ofport isRemote => some (.ovsport ⟨name, ifaceId, ofport, isRemote⟩)

/-- `_convert_kv2entity`: the arguments for a record, `get` giving its properties; `none` where
`path[-3]` is out of range or the class has no `property_keys`. -/
def ofKv (t : EntityType) (path : String) (get : String → Option String) : Option Args :=
  match (split '/' path).reverse with
  | [] => none
  | uuid :: rest => match t with
      | .lsp => rest[1]?.map (fun parent =>
          .lsp uuid (get "ip") (get "mac") parent (get "chassis") (get "peer"))
      | .lrp => rest[1]?.map (fun parent =>
          .lrp uuid (get "ip") (get "prefix") (get "mac") parent (get "peer"))
      | .lsr => rest[1]?.map (fun parent =>
          .lsr uuid (get "ip") (get "prefix") (get "next_hop") (get "outport") parent)
      | .lnat => rest[1]?.map (fun parent =>
          .lnat uuid (get "ip") (get "prefix") (get "xlate_ip") (get "xlate_type") parent)
      | .chassis => some (.chassis uuid (get "ip") (get "tick"))
      | .LS => some (.LS uuid (get "id"))
      | .LR => some (.LR uuid (get "id") (get "chassis"))
      | .ovsport => none
      | .ovsportChassis => none

/-- `a and b` where `b` may raise. -/
def andThen (a : Prop) [Decidable a] (b : Option Bool) : Option Bool := if a then b else some false

/-- `is_same` of an entity with these properties; `none` where `int` raises. -/
def isSame : Args → Props → Option Bool
  | lsp uuid ip mac lsUuid onChassis peer, .lsp p =>
      some (p.uuid = uuid ∧ some p.ip = ip ∧ some p.mac = mac ∧ p.lsUuid = lsUuid ∧
        p.chassis = onChassis ∧ p.peer = peer)
  | lrp uuid ip prefixLen mac lrUuid peer, .lrp p =>
      andThen (p.uuid = uuid ∧ some p.ip = ip) ((prefixLen.bind parseInt).map (fun n =>
        ((p.prefixLen : ℤ) = n ∧ some p.mac = mac ∧ p.lrUuid = lrUuid ∧ p.peer = peer : Prop)))
  | lsr uuid ip prefixLen nextHop outport lrUuid, .lsr p =>
      andThen (p.uuid = uuid ∧ some p.ip = ip) ((prefixLen.bind parseInt).map (fun n =>
        ((p.prefixLen : ℤ) = n ∧ some p.nextHop = nextHop ∧ p.outport = outport ∧
          p.lrUuid = lrUuid : Prop)))
  | lnat uuid ip prefixLen xlateIp xlateType lrUuid, .lnat p =>
      andThen (p.uuid = uuid ∧ some p.ip = ip) ((prefixLen.bind parseInt).map (fun n =>
        (p.prefixLen = n ∧ some p.xlateIp = xlateIp ∧ p.xlateType = xlateType ∧
          p.lrUuid = lrUuid : Prop)))
  | chassis uuid ip tick, .chassis p =>
      andThen (p.uuid = uuid ∧ some p.ip = ip)
        ((tick.bind parseInt).map (fun n => (p.tick = n : Prop)))
  | LS uuid lsID, .LS p => some (p.uuid = uuid ∧ p.lsID = lsID)
  | LR uuid lrID onChassis, .LR p =>
      andThen (p.uuid = uuid) ((lrID.bind parseInt).map (fun n =>
        (p.lrID = n ∧ p.chassis = onChassis : Prop)))
  | ovsport name ifaceId ofport isRemote, .ovsport p =>
      some (p.ovsportName = name ∧ p.ifaceId = ifaceId ∧ p.ofport = ofport ∧ p.isRemote = isRemote)
  | _, _ => some false

/-- What a constructor gives belongs to the type and the uuid it was called with. -/
theorem construct_key {a : Args} {p : Props} (h : a.construct = some p) :
    p.etype = a.etype ∧ p.uuid = a.uuid := by
  cases a <;> simp only [construct, Option.bind_eq_bind, Option.bind_eq_some_iff,
    Option.some.injEq] at h
  case LS => rw [← h]; exact ⟨rfl, rfl⟩
  case ovsport => rw [← h]; exact ⟨rfl, rfl⟩
  case LR => obtain ⟨_, _, rfl⟩ := h; exact ⟨rfl, rfl⟩
  case chassis => obtain ⟨_, _, _, _, _, _, rfl⟩ := h; exact ⟨rfl, rfl⟩
  case lsp => obtain ⟨_, _, _, _, _, _, _, _, rfl⟩ := h; exact ⟨rfl, rfl⟩
  all_goals
    obtain ⟨_, _, _, _, _, _, _, _, _, _, rfl⟩ := h
    exact ⟨rfl, rfl⟩

theorem clampPrefix_le (p : ℤ) : clampPrefix p ≤ 32 := by
  unfold clampPrefix
  omega

theorem clampPrefix_natCast {n : ℕ} (h : n ≤ 32) : clampPrefix n = n := by
  unfold clampPrefix
  omega

theorem construct_valid {a : Args} {p : Props} (h : a.construct = some p) : p.Valid := by
  cases a <;> simp only [construct, Option.bind_eq_bind, Option.bind_eq_some_iff,
    Option.some.injEq] at h
  case LS => rw [← h]; trivial
  case ovsport => rw [← h]; trivial
  case LR => obtain ⟨_, _, rfl⟩ := h; trivial
  case chassis =>
    obtain ⟨_, _, _, hip, _, _, rfl⟩ := h
    exact Option.isSome_iff_exists.mpr ⟨_, hip⟩
  case lsp =>
    obtain ⟨_, _, _, hip, _, _, _, hmac, rfl⟩ := h
    exact ⟨hip, hmac⟩
  case lrp =>
    obtain ⟨_, _, _, _, _, hip, _, _, _, hmac, rfl⟩ := h
    exact ⟨hip, hmac, clampPrefix_le _⟩
  case lsr =>
    obtain ⟨_, _, _, _, _, hip, _, _, _, hnext, rfl⟩ := h
    exact ⟨⟨_, hip, rfl⟩, hnext, clampPrefix_le _⟩
  case lnat =>
    obtain ⟨_, _, _, hip, _, _, _, _, _, hxlate, rfl⟩ := h
    exact ⟨hip, hxlate⟩

theorem andThen_eq_true {a : Prop} [Decidable a] {b : Option Bool} :
    andThen a b = some true ↔ a ∧ b = some true := by
  unfold andThen
  split_ifs with h <;> simp [h]

/-- `is_same` does not raise on arguments that the constructor accepts. -/
theorem isSame_isSome {a : Args} {p : Props} (h : a.construct = some p) (p' : Props) :
    (a.isSame p').isSome := by
  have hand : ∀ (c : Prop) [Decidable c] (n : Option ℤ) (f : ℤ → Bool), n.isSome →
      (andThen c (n.map f)).isSome := by
    intro c _ n f hn
    unfold andThen
    split_ifs
    · simpa using hn
    · rfl
  cases a <;> cases p' <;> first
    | rfl
    | (simp only [construct, Option.bind_eq_bind, Option.bind_eq_some_iff] at h
       refine hand _ _ _ ?_
       simp only [Option.isSome_iff_exists, Option.bind_eq_some_iff]
       grind)

/-- An entity that is the same as the arguments say is what the constructor would make. -/
theorem eq_of_isSame {a : Args} {p p' : Props} (h : a.construct = some p) (hp' : p'.Valid)
    (hs : a.isSame p' = some true) : p' = p := by
  cases a <;> cases p' <;> simp only [isSame, Option.some.injEq, Bool.false_eq_true,
    decide_eq_true_eq, andThen_eq_true, Option.map_eq_some_iff] at hs
  case LS.LS =>
    obtain ⟨rfl, rfl⟩ := hs
    exact Option.some.inj h
  case ovsport.ovsport =>
    obtain ⟨rfl, rfl, rfl, rfl⟩ := hs
    exact Option.some.inj h
  case LR.LR =>
    obtain ⟨rfl, n, hn, rfl, rfl⟩ := hs
    simpa only [construct, hn, Option.bind_eq_bind, Option.bind_some, Option.some.injEq] using h
  case chassis.chassis =>
    obtain ⟨⟨rfl, rfl⟩, n, hn, rfl⟩ := hs
    obtain ⟨x, hx⟩ := Option.isSome_iff_exists.mp hp'
    simpa only [construct, hn, hx, Option.bind_eq_bind, Option.bind_some, Option.some.injEq] using h
  case lsp.lsp =>
    obtain ⟨rfl, rfl, rfl, rfl, rfl, rfl⟩ := hs
    simpa only [construct, hp'.1, hp'.2, Option.bind_eq_bind, Option.bind_some, Option.some.injEq]
      using h
  case lrp.lrp =>
    obtain ⟨⟨rfl, rfl⟩, n, hn, rfl, rfl, rfl, rfl⟩ := hs
    simpa only [construct, hn, hp'.1, hp'.2.1, clampPrefix_natCast hp'.2.2, Option.bind_eq_bind,
      Option.bind_some, Option.some.injEq] using h
  case lsr.lsr =>
    obtain ⟨⟨rfl, rfl⟩, n, hn, rfl, rfl, rfl, rfl⟩ := hs
    obtain ⟨⟨m, hm, hmask⟩, hnext, hle⟩ := hp'
    simpa only [construct, hn, hm, hnext, clampPrefix_natCast hle, ← hmask, Option.bind_eq_bind,
      Option.bind_some, Option.some.injEq] using h
  case lnat.lnat =>
    obtain ⟨⟨rfl, rfl⟩, n, hn, rfl, rfl, rfl, rfl⟩ := hs
    simpa only [construct, hn, hp'.1, hp'.2, Option.bind_eq_bind, Option.bind_some,
      Option.some.injEq] using h

end Args

end TupleNet
