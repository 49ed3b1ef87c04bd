import TupleNet.Control.Bookkeeping

/-! # Devices and their keys

The records of `logicaldev` and the text under which `MarshalTuplenet` stores them.  Of the device
that owns a record only the name is used, so `owner` is that name.  A field that carries no `tn`
tag is not part of the text. -/

namespace TupleNet.Control

/-! ### Records -/

structure Switch where
  name : String
  id : ℕ
deriving DecidableEq, Repr

structure SwitchPort where
  owner : String
  name : String
  ip : String
  mac : String
  peerRouterPortName : String
  chassis : String
deriving DecidableEq, Repr

structure Router where
  name : String
  id : ℕ
  chassis : String
deriving DecidableEq, Repr

structure RouterPort where
  owner : String
  name : String
  ip : String
  prefixLen : ℕ
  mac : String
  peerSwitchPortName : String
deriving DecidableEq, Repr

structure StaticRoute where
  owner : String
  name : String
  ip : String
  prefixLen : ℕ
  nextHop : String
  outPort : String
deriving DecidableEq, Repr

structure NAT where
  owner : String
  name : String
  ip : String
  prefixLen : ℕ
  translateType : String
  translateIP : String
deriving DecidableEq, Repr

structure Chassis where
  name : String
  ip : String
  tick : ℕ
deriving DecidableEq, Repr

/-- What implements the interface `Device`. -/
inductive Device where
  | switch (s : Switch)
  | router (r : Router)
  | switchPort (p : SwitchPort)
  | routerPort (p : RouterPort)
  | chassis (c : Chassis)
  | staticRoute (r : StaticRoute)
  | nat (n : NAT)
deriving DecidableEq, Repr

/-! ### Text -/

/-- A field with its tag: name, `omitempty` and value. -/
structure Field where
  name : String
  omitEmpty : Bool
  /-- The text of the value. -/
  value : String
  /-- The value is `0` or the empty string. -/
  empty : Bool

/-- A string field. -/
def strField (name : String) (omitEmpty : Bool) (value : String) : Field :=
  ⟨name, omitEmpty, value, value = ""⟩

/-- A number field. -/
def uintField (name : String) (omitEmpty : Bool) (value : ℕ) : Field :=
  ⟨name, omitEmpty, toString value, value = 0⟩

/-- The loop of `MarshalTuplenet` over the fields with a `tn` tag. -/
def marshalFields (fields : List Field) : String :=
  ",".intercalate ((fields.filter (fun f => !(f.empty && f.omitEmpty))).map
    (fun f => f.name ++ "=" ++ f.value))

/-- The fields of a device with a `tn` tag, in the order of the structure. -/
def Device.fields : Device → List Field
  | switch s => [uintField "id" false s.id]
  | router r => [uintField "id" false r.id, strField "chassis" true r.chassis]
  | switchPort p =>
      [strField "ip" false p.ip, strField "mac" false p.mac,
        strField "peer" true p.peerRouterPortName, strField "chassis" true p.chassis]
  | routerPort p =>
      [strField "ip" false p.ip, uintField "prefix" false p.prefixLen, strField "mac" false p.mac,
        strField "peer" false p.peerSwitchPortName]
  | chassis c => [strField "ip" false c.ip, uintField "tick" false c.tick]
  | staticRoute r =>
      [strField "ip" false r.ip, uintField "prefix" false r.prefixLen,
        strField "next_hop" false r.nextHop, strField "outport" false r.outPort]
  | nat n =>
      [strField "ip" false n.ip, uintField "prefix" false n.prefixLen,
        strField "xlate_type" false n.translateType, strField "xlate_ip" false n.translateIP]

/-- `MarshalTuplenet`. -/
def marshalTuplenet (dev : Device) : String := marshalFields dev.fields

/-! ### Keys -/

def deviceIDsPath : String := "/globals/device_ids"
def switchPath (s : String) : String := "/entity_view/LS/" ++ s
def switchPortPath (s p : String) : String := switchPath s ++ "/lsp/" ++ p
def switchIPBookPath (s : String) : String := "/ip_book/LS/" ++ s
def routerPath (r : String) : String := "/entity_view/LR/" ++ r
def routerPortPath (r p : String) : String := routerPath r ++ "/lrp/" ++ p
def routerIPBookPath (r : String) : String := "/ip_book/LR/" ++ r
def routerStaticRoutePath (r s : String) : String := routerPath r ++ "/lsr/" ++ s
def routerNATPath (r n : String) : String := routerPath r ++ "/lnat/" ++ n
def chassisPath (c : String) : String := "/entity_view/chassis/" ++ c

/-- The key of a device. -/
def Device.path : Device → String
  | switch s => switchPath s.name
  | router r => routerPath r.name
  | switchPort p => switchPortPath p.owner p.name
  | routerPort p => routerPortPath p.owner p.name
  | chassis c => chassisPath c.name
  | staticRoute r => routerStaticRoutePath r.owner r.name
  | nat n => routerNATPath n.owner n.name

/-- The keys of the bitmaps. -/
def IsMapKey (key : String) : Prop :=
  key = deviceIDsPath ∨ ∃ name, key = switchIPBookPath name ∨ key = routerIPBookPath name

theorem start_append {a : String} {n : ℕ} {c : Char} (h : a.toList[n]? = some c) (s : String) :
    (a ++ s).toList[n]? = some c := by
  obtain ⟨hlen, _⟩ := List.getElem?_eq_some_iff.mp h
  rw [String.toList_append, List.getElem?_append_left hlen, h]

theorem switchPath_second (s : String) : (switchPath s).toList[1]? = some 'e' :=
  start_append (by decide) s

theorem routerPath_second (r : String) : (routerPath r).toList[1]? = some 'e' :=
  start_append (by decide) r

/-- The second character tells the keys of devices from those of bitmaps. -/
theorem Device.path_second (dev : Device) : dev.path.toList[1]? = some 'e' := by
  cases dev with
  | switch s => exact switchPath_second s.name
  | router r => exact routerPath_second r.name
  | switchPort p => exact start_append (start_append (switchPath_second p.owner) _) _
  | routerPort p => exact start_append (start_append (routerPath_second p.owner) _) _
  | chassis c => exact start_append (by decide) c.name
  | staticRoute r => exact start_append (start_append (routerPath_second r.owner) _) _
  | nat n => exact start_append (start_append (routerPath_second n.owner) _) _

theorem IsMapKey.second_ne {key : String} (h : IsMapKey key) : key.toList[1]? ≠ some 'e' := by
  rcases h with h | ⟨name, h | h⟩
  · rw [h]
    decide
  · have hi : key.toList[1]? = some 'i' := h ▸ start_append (by decide) name
    rw [hi]
    decide
  · have hi : key.toList[1]? = some 'i' := h ▸ start_append (by decide) name
    rw [hi]
    decide

theorem Device.path_not_map (dev : Device) : ¬ IsMapKey dev.path :=
  fun h => h.second_ne dev.path_second

/-- The bitmap and the bit that a device occupies: its id in `device_ids`, the low 16 bits of its
address in the book of its owner. -/
def Device.bit : Device → Option (String × ℕ)
  | switch s => some (deviceIDsPath, s.id)
  | router r => some (deviceIDsPath, r.id)
  | switchPort p => (iPv4ToU32 p.ip).map (fun x => (switchIPBookPath p.owner, masked x))
  | routerPort p => (iPv4ToU32 p.ip).map (fun x => (routerIPBookPath p.owner, masked x))
  | _ => none

theorem Device.bit_isMapKey {dev : Device} {key : String} {b : ℕ} (h : dev.bit = some (key, b)) :
    IsMapKey key := by
  cases dev with
  | switch s => obtain ⟨rfl, _⟩ := Prod.mk.inj (Option.some.inj h); exact Or.inl rfl
  | router r => obtain ⟨rfl, _⟩ := Prod.mk.inj (Option.some.inj h); exact Or.inl rfl
  | switchPort p =>
      obtain ⟨x, _, hx⟩ := Option.map_eq_some_iff.mp h
      exact Or.inr ⟨p.owner, Or.inl (Prod.mk.inj hx).1.symm⟩
  | routerPort p =>
      obtain ⟨x, _, hx⟩ := Option.map_eq_some_iff.mp h
      exact Or.inr ⟨p.owner, Or.inr (Prod.mk.inj hx).1.symm⟩
  | chassis c => cases h
  | staticRoute r => cases h
  | nat n => cases h

end TupleNet.Control
