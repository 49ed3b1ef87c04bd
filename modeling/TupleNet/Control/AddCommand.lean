import TupleNet.Control.RecordText
import Mathlib.Data.Option.Basic

/-! # The add commands of tpctl

A command checks its arguments, reads the owner of the new record and saves it.  Names lose their
blanks and addresses, prefixes and MACs are parsed, but a chassis, a peer and an outport are passed
on as they are: these alone decide whether a stored record can be read back
(`readsBack_iff_passedOn`). -/

namespace TupleNet.Control

open Text GoText

namespace Tpctl

/-! ### Checks; a refused argument ends the command -/

/-- `validateAndTrimSpace`. -/
def validateAndTrimSpace (s : String) : Option String :=
  if '/' ∈ s.toList then none else if trimSpace s = "" then none else some (trimSpace s)

/-- `parseCIDR`: the address and the prefix as `uint8`. -/
def parseCIDR (input : String) : Option (String × ℕ) :=
  (GoText.parseCIDR input).map (fun r => (ipString r.1, r.2 % 2 ^ 8))

/-- `validateIP`. -/
def validateIP (input : String) : Option Unit := guard (parseIP input).isSome

/-- `validateMAC`. -/
def validateMAC (input : String) : Option Unit := guard (parseMAC input).isSome

/-- `%02x`. -/
def hexByte (n : ℕ) : String :=
  String.ofList (if n < 16 then '0' :: Nat.toDigits 16 n else Nat.toDigits 16 n)

/-- `MacFromIP`; with fewer than four parts the code indexes past the end. -/
def macFromIP (ip : String) : Option String :=
  match split '.' ip with
  | a :: b :: c :: d :: _ =>
      some ("f2:01:" ++ hexByte (parseUint8 a) ++ ":" ++ hexByte (parseUint8 b) ++ ":" ++
        hexByte (parseUint8 c) ++ ":" ++ hexByte (parseUint8 d))
  | _ => none

/-- The MAC of a new port: the argument, if there is one, else that of the address. -/
def portMAC (mac ip : String) : Option String :=
  if mac = "" then macFromIP ip else (validateMAC mac).map (fun _ => mac)

example : macFromIP "10.0.0.1" = some "f2:01:0a:00:00:01" := by decide

/-! ### Commands: the devices for `Save`; an absent argument is empty -/

/-- `addSwitch`. -/
def addSwitch (name : String) : Option (List Device) := do
  let name ← validateAndTrimSpace name
  some [.switch ⟨name, 0⟩]

/-- `addRouter`. -/
def addRouter (name chassis : String) : Option (List Device) := do
  let name ← validateAndTrimSpace name
  some [.router ⟨name, 0, chassis⟩]

/-- `addSwitchPort`. -/
def addSwitchPort (switchName portName ip mac peer : String) : Option (List Device) := do
  let portName ← validateAndTrimSpace portName
  validateIP ip
  let mac ← portMAC mac ip
  some [.switchPort ⟨switchName, portName, ip, mac, peer, ""⟩]

/-- `addPatchPort`. -/
def addPatchPort (switchName portName chassis peer : String) : Option (List Device) := do
  let portName ← validateAndTrimSpace portName
  some [.switchPort
    ⟨switchName, portName, "255.255.255.255", "ff:ff:ff:ff:ff:ee", peer, chassis⟩]

/-- `addRouterPort`. -/
def addRouterPort (routerName portName cidr mac peer : String) : Option (List Device) := do
  let portName ← validateAndTrimSpace portName
  let (ip, prefixLen) ← parseCIDR cidr
  let mac ← portMAC mac ip
  some [.routerPort ⟨routerName, portName, ip, prefixLen, mac, peer⟩]

/-- `addStaticRoute`. -/
def addStaticRoute (routerName rName cidrStr nextHop outport : String) : Option (List Device) := do
  let rName ← validateAndTrimSpace rName
  let (ip, prefixLen) ← parseCIDR cidrStr
  validateIP nextHop
  some [.staticRoute ⟨routerName, rName, ip, prefixLen, nextHop, outport⟩]

/-- `addNAT`.  `strings.ToLower` also maps other letters, but to none that is accepted. -/
def addNAT (routerName natName cidr xlateType xlateIP : String) : Option (List Device) := do
  let natName ← validateAndTrimSpace natName
  let (ip, prefixLen) ← parseCIDR cidr
  guard (xlateType.toLower = "snat" ∨ xlateType.toLower = "dnat")
  validateIP xlateIP.toLower
  some [.nat ⟨routerName, natName, ip, prefixLen, xlateType.toLower, xlateIP.toLower⟩]

/-- `linkSwitch`; of its three arguments none is a MAC. -/
def linkSwitch (routerName switchName cidr : String) : Option (List Device) := do
  let (ip, prefixLen) ← parseCIDR cidr
  let mac ← portMAC "" ip
  let spName := switchName ++ "_to_" ++ routerName
  let rpName := routerName ++ "_to_" ++ switchName
  some [.switchPort ⟨switchName, spName, ip, mac, rpName, ""⟩,
    .routerPort ⟨routerName, rpName, ip, prefixLen, mac, spName⟩]

/-- A command with its arguments. -/
inductive AddCommand where
  | switch (name : String)
  | router (name chassis : String)
  | switchPort (switchName portName ip mac peer : String)
  | patchPort (switchName portName chassis peer : String)
  | routerPort (routerName portName cidr mac peer : String)
  | staticRoute (routerName rName cidrStr nextHop outport : String)
  | nat (routerName natName cidr xlateType xlateIP : String)
  | link (routerName switchName cidr : String)

/-- The devices that a command passes to `Save`. -/
def AddCommand.devices : AddCommand → Option (List Device)
  | switch name => addSwitch name
  | router name chassis => addRouter name chassis
  | switchPort switchName portName ip mac peer => addSwitchPort switchName portName ip mac peer
  | patchPort switchName portName chassis peer => addPatchPort switchName portName chassis peer
  | routerPort routerName portName cidr mac peer => addRouterPort routerName portName cidr mac peer
  | staticRoute routerName rName cidrStr nextHop outport =>
      addStaticRoute routerName rName cidrStr nextHop outport
  | nat routerName natName cidr xlateType xlateIP =>
      addNAT routerName natName cidr xlateType xlateIP
  | link routerName switchName cidr => linkSwitch routerName switchName cidr

end Tpctl

/-! ### Stored records -/

/-- The device with the id that `Save` has allocated; only switches and routers get one. -/
def Device.withID (id : ℕ) : Device → Device
  | switch s => switch { s with id := id }
  | router r => router { r with id := id }
  | dev => dev

/-- A record that an add command stores. -/
def Tpctl.Recorded (dev : Device) : Prop :=
  ∃ cmd : AddCommand, ∃ devs, cmd.devices = some devs ∧ ∃ dev₀ ∈ devs, ∃ id < 2 ^ 32,
    dev = dev₀.withID id

/-- The chassis, the peer and the outport. -/
def Device.passedOn : Device → List String
  | router r => [r.chassis]
  | switchPort p => [p.peerRouterPortName, p.chassis]
  | routerPort p => [p.peerSwitchPortName]
  | staticRoute r => [r.outPort]
  | _ => []

namespace Device

theorem texts_withID (id : ℕ) (dev : Device) : (dev.withID id).texts = dev.texts := by
  cases dev <;> rfl

theorem passedOn_withID (id : ℕ) (dev : Device) :
    (dev.withID id).passedOn = dev.passedOn := by
  cases dev <;> rfl

theorem passedOn_subset_texts (dev : Device) : dev.passedOn ⊆ dev.texts := by
  cases dev <;> simp [passedOn, texts]

end Device

namespace Tpctl

theorem plainText_of_addrText {s : String} (h : AddrText s) : PlainText s := ⟨h.plain.2, h.plain.1⟩

theorem plainText_of_validateIP {s : String} {u : Unit} (h : validateIP s = some u) :
    PlainText s := by
  obtain ⟨ip, hip⟩ := Option.isSome_iff_exists.mp ((Option.guard_eq_some' u).mp h)
  exact plainText_of_addrText (addrText_of_parseIP hip)

theorem plainText_of_parseCIDR {s ip : String} {n : ℕ} (h : parseCIDR s = some (ip, n)) :
    PlainText ip ∧ n < 2 ^ 8 := by
  obtain ⟨r, _, hr⟩ := Option.map_eq_some_iff.mp h
  obtain ⟨rfl, rfl⟩ := Prod.mk.inj hr
  exact ⟨plainText_of_addrText (addrText_ipString _), Nat.mod_lt _ (by decide)⟩

theorem addrText_hexByte (n : ℕ) : AddrText (hexByte n) := by
  have hdigits := addrChar_of_mem_toDigits (by decide) (by decide : 16 ≤ 16) n
  intro c hc
  rw [hexByte, String.toList_ofList] at hc
  split_ifs at hc
  · rcases List.mem_cons.mp hc with rfl | hc
    · exact Or.inl (by decide)
    · exact hdigits c hc
  · exact hdigits c hc

theorem addrText_macFromIP {ip mac : String} (h : macFromIP ip = some mac) : AddrText mac := by
  have hcolon : AddrText ":" := fun c hc => Or.inr (by
    rw [show ":".toList = [':'] from rfl, List.mem_singleton] at hc
    rw [hc]
    decide)
  have hfront : AddrText "f2:01:" := by
    intro c hc
    have hall : "f2:01:".toList.all (fun c => (digitVal 16 c).isSome ∨ c ∈ [':', '.', '-']) := by
      decide
    have hchar : (digitVal 16 c).isSome ∨ c ∈ [':', '.', '-'] :=
      of_decide_eq_true (List.all_eq_true.mp hall c hc)
    exact hchar
  have hbyte := addrText_hexByte
  unfold macFromIP at h
  split at h
  · obtain rfl := Option.some.inj h
    exact ((((((hfront.append (hbyte _)).append hcolon).append (hbyte _)).append hcolon).append
      (hbyte _)).append hcolon).append (hbyte _)
  · cases h

theorem plainText_of_portMAC {mac ip m : String} (h : portMAC mac ip = some m) : PlainText m := by
  unfold portMAC at h
  split_ifs at h
  · exact plainText_of_addrText (addrText_macFromIP h)
  · obtain ⟨u, hu, rfl⟩ := Option.map_eq_some_iff.mp h
    obtain ⟨bytes, hbytes⟩ := Option.isSome_iff_exists.mp ((Option.guard_eq_some' u).mp hu)
    exact plainText_of_addrText (addrText_of_parseMAC hbytes)

/-- What the checks of a command leave open about a device. -/
structure Checked (dev : Device) : Prop where
  sized : ∀ id < 2 ^ 32, (dev.withID id).Sized
  texts : ∀ s ∈ dev.texts, s ∈ dev.passedOn ∨ PlainText s

theorem checked_switchPort {owner ip mac : String} (name peer chassis : String) (hip : PlainText ip)
    (hmac : PlainText mac) : Checked (.switchPort ⟨owner, name, ip, mac, peer, chassis⟩) := by
  refine ⟨fun _ _ => trivial, ?_⟩
  simp [Device.texts, Device.passedOn, hip, hmac]

theorem checked_routerPort {owner ip mac : String} {prefixLen : ℕ} (name peer : String)
    (hcidr : PlainText ip ∧ prefixLen < 2 ^ 8) (hmac : PlainText mac) :
    Checked (.routerPort ⟨owner, name, ip, prefixLen, mac, peer⟩) := by
  refine ⟨fun _ _ => hcidr.2, ?_⟩
  simp [Device.texts, Device.passedOn, hcidr.1, hmac]

/-- Every device that a command saves is checked, up to what it passes on. -/
theorem AddCommand.checked {cmd : AddCommand} {devs : List Device} (h : cmd.devices = some devs) :
    ∀ dev ∈ devs, Checked dev := by
  cases cmd <;>
    simp only [devices, addSwitch, addRouter, addSwitchPort, addPatchPort, addRouterPort,
      addStaticRoute, addNAT, linkSwitch, Option.bind_eq_bind, Option.bind_eq_some_iff,
      Option.some.injEq] at h
  case switch name =>
    obtain ⟨n, _, rfl⟩ := h
    exact List.forall_mem_singleton.mpr ⟨fun id hid => hid, fun s hs => by cases hs⟩
  case router name chassis =>
    obtain ⟨n, _, rfl⟩ := h
    exact List.forall_mem_singleton.mpr ⟨fun id hid => hid, fun s hs => Or.inl hs⟩
  case switchPort switchName portName ip mac peer =>
    obtain ⟨n, _, u, hip, m, hmac, rfl⟩ := h
    exact List.forall_mem_singleton.mpr (checked_switchPort _ _ _
      (plainText_of_validateIP hip) (plainText_of_portMAC hmac))
  case patchPort switchName portName chassis peer =>
    obtain ⟨n, _, rfl⟩ := h
    exact List.forall_mem_singleton.mpr (checked_switchPort _ _ _ (by decide) (by decide))
  case routerPort routerName portName cidr mac peer =>
    obtain ⟨n, _, ⟨ip, prefixLen⟩, hcidr, m, hmac, rfl⟩ := h
    exact List.forall_mem_singleton.mpr (checked_routerPort _ _ (plainText_of_parseCIDR hcidr)
      (plainText_of_portMAC hmac))
  case staticRoute routerName rName cidrStr nextHop outport =>
    obtain ⟨n, _, ⟨ip, prefixLen⟩, hcidr, u, hhop, rfl⟩ := h
    obtain ⟨hip, hsize⟩ := plainText_of_parseCIDR hcidr
    refine List.forall_mem_singleton.mpr ⟨fun id _ => hsize, ?_⟩
    simp [Device.texts, Device.passedOn, hip, plainText_of_validateIP hhop]
  case nat routerName natName cidr xlateType xlateIP =>
    obtain ⟨n, _, ⟨ip, prefixLen⟩, hcidr, u, htype, v, hxlate, rfl⟩ := h
    obtain ⟨hip, hsize⟩ := plainText_of_parseCIDR hcidr
    have hplain : PlainText xlateType.toLower := by
      rcases (Option.guard_eq_some' u).mp htype with h | h <;> rw [h] <;> decide
    refine List.forall_mem_singleton.mpr ⟨fun id _ => hsize, ?_⟩
    simp [Device.texts, hip, hplain, plainText_of_validateIP hxlate]
  case link routerName switchName cidr =>
    obtain ⟨⟨ip, prefixLen⟩, hcidr, m, hmac, rfl⟩ := h
    refine List.forall_mem_cons.mpr ⟨?_, List.forall_mem_singleton.mpr ?_⟩
    · exact checked_switchPort _ _ _ (plainText_of_parseCIDR hcidr).1 (plainText_of_portMAC hmac)
    · exact checked_routerPort _ _ (plainText_of_parseCIDR hcidr) (plainText_of_portMAC hmac)

/-- **A record stored by an add command is read back unchanged by both readers iff its chassis, its
peer and its outport have neither a comma nor a blank at an end.** -/
theorem readsBack_iff_passedOn {dev : Device} (h : Recorded dev) :
    dev.ReadsBack ↔ ∀ s ∈ dev.passedOn, PlainText s := by
  obtain ⟨cmd, devs, hdevs, dev₀, hmem, id, hid, rfl⟩ := h
  obtain ⟨hsized, htexts⟩ := cmd.checked hdevs dev₀ hmem
  rw [Device.readsBack_iff (hsized id hid), Device.texts_withID, Device.passedOn_withID]
  constructor
  · exact fun h s hs => h s (dev₀.passedOn_subset_texts hs)
  · exact fun h s hs => (htexts s hs).elim (h s) (fun hplain => hplain)

theorem readsBack_patchPort : (Device.switchPort ⟨"net", "wan", "255.255.255.255",
    "ff:ff:ff:ff:ff:ee", "br-ext=0", "edge 1"⟩).ReadsBack :=
  (readsBack_iff_passedOn ⟨.patchPort "net" " wan" "edge 1" "br-ext=0", _, rfl, _,
    List.mem_singleton_self _, 0, by decide, rfl⟩).mpr (by decide)

/-- The router of `lr add edge x,id=7` is read back with another id. -/
theorem not_readsBack_chassisComma : ¬ ∀ dev, Recorded dev → dev.ReadsBack := by
  intro h
  have hrecorded : Recorded (.router ⟨"edge", 1, "x,id=7"⟩) :=
    ⟨.router "edge" "x,id=7", _, rfl, _, List.mem_singleton_self _, 1, by decide, rfl⟩
  exact absurd (h _ hrecorded).struct (by decide)

end Tpctl

end TupleNet.Control
