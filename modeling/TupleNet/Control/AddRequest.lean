import TupleNet.Control.AddCommand
import TupleNet.Control.Listing

/-! # The add handlers of the HTTP API

A handler checks the fields of a request and saves one device, that of a link two ports.  Names only
have to be non-empty.  `storedAsAsked_iff` says for which requests the key that is written stands
for the kind, the owner and the name that were asked for. -/

namespace TupleNet.Control.Api

open Text GoText

/-! ### Handlers: the device for `Save`, unless the request is refused

The functions of the package `comm` are those of tpctl. -/

/-- `CheckNilParam`. -/
def checkNilParam (params : List String) : Bool := params.any (fun v => v = "")

/-- `AddSwitch`. -/
def addSwitch (switchName : String) : Option Device := do
  guard (¬ checkNilParam [switchName])
  some (.switch ⟨switchName, 0⟩)

/-- `AddRoute`. -/
def addRoute (route chassis : String) : Option Device := do
  guard (¬ checkNilParam [route])
  some (.router ⟨route, 0, chassis⟩)

/-- `AddSwitchPort`. -/
def addSwitchPort (switchName portName ip mac peer : String) : Option Device := do
  guard (¬ checkNilParam [switchName, ip, portName])
  Tpctl.validateIP ip
  let mac ← Tpctl.portMAC mac ip
  guard (¬ checkNilParam [mac])
  some (.switchPort ⟨switchName, portName, ip, mac, peer, ""⟩)

/-- `AddPatchPort`. -/
def addPatchPort (switchName portName chassis peer : String) : Option Device := do
  guard (¬ checkNilParam [switchName, portName, chassis, peer])
  some (.switchPort
    ⟨switchName, portName, "255.255.255.255", "ff:ff:ff:ff:ff:ee", peer, chassis⟩)

/-- `AddRouterPort`. -/
def addRouterPort (route portName cidr mac peer : String) : Option Device := do
  guard (¬ checkNilParam [route, cidr, portName, peer])
  let (ip, prefixLen) ← Tpctl.parseCIDR cidr
  let mac ← Tpctl.portMAC mac ip
  some (.routerPort ⟨route, portName, ip, prefixLen, mac, peer⟩)

/-- `AddStaticRoute`. -/
def addStaticRoute (routerName rName cidrString nextHop outPort : String) : Option Device := do
  guard (¬ checkNilParam [routerName, rName, cidrString, nextHop, outPort])
  let (ip, prefixLen) ← Tpctl.parseCIDR cidrString
  Tpctl.validateIP nextHop
  some (.staticRoute ⟨routerName, rName, ip, prefixLen, nextHop, outPort⟩)

/-- `AddNAT`. -/
def addNAT (route natName cidr xlateType xlateIP : String) : Option Device := do
  guard (¬ checkNilParam [route, natName, cidr, xlateType, xlateIP])
  let (ip, prefixLen) ← Tpctl.parseCIDR cidr
  guard (xlateType = "snat" ∨ xlateType = "dnat")
  Tpctl.validateIP xlateIP
  some (.nat ⟨route, natName, ip, prefixLen, xlateType, xlateIP⟩)

/-- `LinkSwitch`, which saves the two ports of a link. -/
def linkSwitch (route switchName cidr : String) : Option (List Device) := do
  guard (¬ checkNilParam [route, switchName, cidr])
  Tpctl.linkSwitch route switchName cidr

/-- A request for a record. -/
inductive AddRequest where
  | switch (switchName : String)
  | route (routeName chassis : String)
  | switchPort (switchName portName ip mac peer : String)
  | patchPort (switchName portName chassis peer : String)
  | routerPort (routeName portName cidr mac peer : String)
  | staticRoute (routerName rName cidrString nextHop outPort : String)
  | nat (routeName natName cidr xlateType xlateIP : String)

namespace AddRequest

/-- The device that is saved. -/
def device : AddRequest → Option Device
  | switch switchName => addSwitch switchName
  | route routeName chassis => addRoute routeName chassis
  | switchPort switchName portName ip mac peer => addSwitchPort switchName portName ip mac peer
  | patchPort switchName portName chassis peer => addPatchPort switchName portName chassis peer
  | routerPort routeName portName cidr mac peer => addRouterPort routeName portName cidr mac peer
  | staticRoute routerName rName cidrString nextHop outPort =>
      addStaticRoute routerName rName cidrString nextHop outPort
  | nat routeName natName cidr xlateType xlateIP => addNAT routeName natName cidr xlateType xlateIP

/-- The kind that is asked for. -/
def mark : AddRequest → Mark
  | switch _ => .LS
  | route _ _ => .LR
  | switchPort .. => .lsp
  | patchPort .. => .lsp
  | routerPort .. => .lrp
  | staticRoute .. => .lsr
  | nat .. => .lnat

/-- The name that is asked for. -/
def name : AddRequest → String
  | switch switchName => switchName
  | route routeName _ => routeName
  | switchPort _ portName _ _ _ => portName
  | patchPort _ portName _ _ => portName
  | routerPort _ portName _ _ _ => portName
  | staticRoute _ rName _ _ _ => rName
  | nat _ natName _ _ _ => natName

/-- The owner that is asked for. -/
def owner? : AddRequest → Option String
  | switch _ => none
  | route _ _ => none
  | switchPort switchName _ _ _ _ => some switchName
  | patchPort switchName _ _ _ => some switchName
  | routerPort routeName _ _ _ _ => some routeName
  | staticRoute routerName _ _ _ _ => some routerName
  | nat routeName _ _ _ _ => some routeName

theorem device_asked {req : AddRequest} {dev : Device} (h : req.device = some dev) :
    dev.mark = req.mark ∧ dev.name = req.name ∧ dev.owner? = req.owner? := by
  cases req <;>
    simp only [device, addSwitch, addRoute, addSwitchPort, addPatchPort, addRouterPort,
      addStaticRoute, addNAT, Option.bind_eq_bind, Option.bind_eq_some_iff, Option.some.injEq] at h
  case switch => obtain ⟨_, _, rfl⟩ := h; exact ⟨rfl, rfl, rfl⟩
  case route => obtain ⟨_, _, rfl⟩ := h; exact ⟨rfl, rfl, rfl⟩
  case switchPort => obtain ⟨_, _, _, _, _, _, _, _, rfl⟩ := h; exact ⟨rfl, rfl, rfl⟩
  case patchPort => obtain ⟨_, _, rfl⟩ := h; exact ⟨rfl, rfl, rfl⟩
  case routerPort => obtain ⟨_, _, _, _, _, _, rfl⟩ := h; exact ⟨rfl, rfl, rfl⟩
  case staticRoute => obtain ⟨_, _, _, _, _, _, rfl⟩ := h; exact ⟨rfl, rfl, rfl⟩
  case nat => obtain ⟨_, _, _, _, _, _, _, _, rfl⟩ := h; exact ⟨rfl, rfl, rfl⟩

end AddRequest

/-- The record that a request writes is what was asked for, for every reader, and tpctl admits its
name as well. -/
structure StoredAsAsked (root : String) (req : AddRequest) (dev : Device) : Prop where
  asked : dev.mark = req.mark ∧ dev.name = req.name ∧ dev.owner? = req.owner?
  findable : dev.Findable root
  admitted : (Tpctl.validateAndTrimSpace req.name).isSome

theorem validateAndTrimSpace_isSome_iff (s : String) :
    (Tpctl.validateAndTrimSpace s).isSome ↔ '/' ∉ s.toList ∧ trimSpace s ≠ "" := by
  unfold Tpctl.validateAndTrimSpace
  split_ifs with h1 h2
  · simp [h1]
  · simp [h2]
  · simp [h1, h2]

/-- **What an accepted request writes is what it asks for iff neither the name nor the owner has a
slash; the name of blanks is the other one that tpctl refuses.** -/
theorem storedAsAsked_iff (root : String) {req : AddRequest} {dev : Device}
    (h : req.device = some dev) : StoredAsAsked root req dev ↔
      '/' ∉ req.name.toList ∧ (∀ o ∈ req.owner?, '/' ∉ o.toList) ∧ trimSpace req.name ≠ "" := by
  have hasked := req.device_asked h
  have hname := hasked.2.1
  have howner := hasked.2.2
  have hplain : dev.Findable root ↔
      '/' ∉ req.name.toList ∧ ∀ o ∈ req.owner?, '/' ∉ o.toList := by
    rw [Device.findable_iff, Device.namesPlain_iff, hname, howner]
  have hadmitted := validateAndTrimSpace_isSome_iff req.name
  constructor
  · intro h
    obtain ⟨hslash, hslashes⟩ := hplain.mp h.findable
    exact ⟨hslash, hslashes, (hadmitted.mp h.admitted).2⟩
  · intro h
    obtain ⟨hslash, hslashes, hblank⟩ := h
    exact ⟨hasked, hplain.mpr ⟨hslash, hslashes⟩, hadmitted.mpr ⟨hslash, hblank⟩⟩

theorem storedAsAsked_switchPort :
    StoredAsAsked "/tuplenet" (.switchPort "red" "p1" "10.0.0.1" "" "")
    (.switchPort ⟨"red", "p1", "10.0.0.1", "f2:01:0a:00:00:01", "", ""⟩) :=
  (storedAsAsked_iff "/tuplenet" (by decide)).mpr (by decide)

/-- A switch under the name `a/lsp/b` is the port `b` of the switch `a` for everyone who reads
it. -/
theorem not_storedAsAsked_slash : ¬ ∀ (root : String) (req : AddRequest) (dev : Device),
    req.device = some dev → StoredAsAsked root req dev := by
  intro h
  have hdevice : (AddRequest.switch "a/lsp/b").device = some (.switch ⟨"a/lsp/b", 0⟩) := by decide
  have hport : nameIn (Listing.getSwitchPorts "a").path (Device.switch ⟨"a/lsp/b", 0⟩).path =
      some "b" := by decide
  obtain ⟨hlisting, _⟩ := (h "" _ _ hdevice).findable.only _ _ hport
  cases hlisting

end TupleNet.Control.Api
