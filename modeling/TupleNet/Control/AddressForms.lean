import TupleNet.Control.AddRequest
import TupleNet.Zoo.Records

/-! # The forms of an address

An address passes four checks of its own kind: `net.ParseIP` or `net.ParseCIDR` of a front end,
`MacFromIP`, `IPv4ToU32` of the bitmaps and `ip2int` of a node.  The first ones also accept IPv6 and
numbers with leading zeros; the text of an argument that `net.ParseIP` accepts is stored as it is.
The other ones take a text of four numbers, and `ip2int` the canonical one only, so everything that
a front end accepts can be processed iff the arguments are IPv4 addresses, those for `net.ParseIP`
in canonical form (`processed_iff`). -/

namespace TupleNet.Control

open Text GoText

/-! ### Arguments -/

/-- An argument that is checked by `net.ParseIP` or by `net.ParseCIDR`. -/
inductive AddressArg where
  | ip (s : String)
  | cidr (s : String)

namespace AddressArg

/-- The text that is stored if the argument is accepted. -/
def stored : AddressArg → Option String
  | ip s => (Tpctl.validateIP s).map (fun _ => s)
  | cidr s => (Tpctl.parseCIDR s).map Prod.fst

/-- The argument is a canonical dotted quad, or its address an IPv4 one. -/
def IsV4 : AddressArg → Prop
  | ip s => Quad s
  | cidr s => ∀ r ∈ GoText.parseCIDR s, IsIPv4 r.1

end AddressArg

/-- A call of a front end that adds devices. -/
inductive AddCall where
  | tpctl (cmd : Tpctl.AddCommand)
  | api (req : Api.AddRequest)
  | apiLink (route switchName cidr : String)

namespace AddCall

/-- The devices that are saved. -/
def devices : AddCall → Option (List Device)
  | tpctl cmd => cmd.devices
  | api req => req.device.map (fun dev => [dev])
  | apiLink route switchName cidr => Api.linkSwitch route switchName cidr

/-- The arguments that are checked as addresses. -/
def addresses : AddCall → List AddressArg
  | tpctl (.switch _) => []
  | tpctl (.router _ _) => []
  | tpctl (.switchPort _ _ ip _ _) => [.ip ip]
  | tpctl (.patchPort _ _ _ _) => []
  | tpctl (.routerPort _ _ cidr _ _) => [.cidr cidr]
  | tpctl (.staticRoute _ _ cidrStr nextHop _) => [.cidr cidrStr, .ip nextHop]
  | tpctl (.nat _ _ cidr _ xlateIP) => [.cidr cidr, .ip xlateIP.toLower]
  | tpctl (.link _ _ cidr) => [.cidr cidr]
  | api (.switch _) => []
  | api (.route _ _) => []
  | api (.switchPort _ _ ip _ _) => [.ip ip]
  | api (.patchPort _ _ _ _) => []
  | api (.routerPort _ _ cidr _ _) => [.cidr cidr]
  | api (.staticRoute _ _ cidrString nextHop _) => [.cidr cidrString, .ip nextHop]
  | api (.nat _ _ cidr _ xlateIP) => [.cidr cidr, .ip xlateIP]
  | apiLink _ _ cidr => [.cidr cidr]

/-- Whatever is accepted as an address can be processed: `MacFromIP` and `IPv4ToU32` find four
parts, `ip2int` accepts what is stored, and a node creates the entity of every saved device whose
record it reads back. -/
structure Processed (c : AddCall) : Prop where
  parts : ∀ arg ∈ c.addresses, ∀ ip ∈ arg.stored,
    (Tpctl.macFromIP ip).isSome ∧ (iPv4ToU32 ip).isSome
  accepted : ∀ arg ∈ c.addresses, ∀ ip ∈ arg.stored, (ip2int ip).isSome
  created : ∀ devs ∈ c.devices, ∀ dev ∈ devs, dev.NamesPlain → dev.ValuesPlain →
    (dev.loaded.bind Args.construct).isSome

end AddCall

/-! ### Addresses -/

/-- An address that a node accepts has four parts. -/
theorem parts_of_quad {s : String} (h : Quad s) :
    (Tpctl.macFromIP s).isSome ∧ (iPv4ToU32 s).isSome := by
  obtain ⟨a, b, c, d, _, rfl⟩ := h
  unfold Tpctl.macFromIP iPv4ToU32 split
  rw [splitChars_quadText]
  exact ⟨rfl, rfl⟩

/-- What an accepted argument stores is canonical iff it is an IPv4 address. -/
theorem AddressArg.quad_stored_iff {arg : AddressArg} {ip : String} (h : arg.stored = some ip) :
    Quad ip ↔ arg.IsV4 := by
  cases arg with
  | ip s =>
      obtain ⟨_, _, rfl⟩ := Option.map_eq_some_iff.mp h
      exact Iff.rfl
  | cidr s =>
      obtain ⟨_, hcidr, rfl⟩ := Option.map_eq_some_iff.mp h
      obtain ⟨r, hr, rfl⟩ := Option.map_eq_some_iff.mp hcidr
      refine (quad_ipString_iff (parseCIDR_groups hr)).trans ?_
      simp only [IsV4, hr, Option.mem_def, Option.some.injEq, forall_eq']

/-! ### MACs -/

theorem mac2int_isSome {mac : String} (h : AddrText mac)
    (hdigit : ∃ c ∈ mac.toList, (digitVal 16 c).isSome) : (mac2int mac).isSome := by
  have hsep : ∀ c ∈ [':', '.', '-', ' '], ¬ (digitVal 16 c).isSome := by
    simp only [List.forall_mem_cons, List.not_mem_nil, false_imp_iff, implies_true, and_true]
    decide
  obtain ⟨c, hc, hdigit⟩ := hdigit
  refine parseHex_isSome (List.ne_nil_of_mem (List.mem_filter.mpr ⟨hc, ?_⟩)) fun c hc => ?_
  · exact decide_eq_true fun hmem => hsep c hmem hdigit
  · obtain ⟨hmem, hplain⟩ := List.mem_filter.mp hc
    have hplain : c ∉ [':', '.', '-', ' '] := of_decide_eq_true hplain
    rcases h c hmem with hdigit | hmark
    · exact hdigit
    · exact absurd (List.mem_append_left [' '] hmark) hplain

theorem digit_of_xtoi2 {cs : List Char} {sep : Option Char} {n : ℕ} (h : xtoi2 cs sep = some n) :
    ∃ c ∈ cs, (digitVal 16 c).isSome := by
  unfold xtoi2 at h
  by_cases hsep : cs.length > 2 ∧ cs[2]? ≠ sep
  · rw [if_pos hsep] at h
    cases h
  rw [if_neg hsep] at h
  split at h
  · next m hm =>
      unfold dtoi at hm
      split_ifs at hm with hhead
      obtain ⟨d, hd⟩ := Option.isSome_iff_exists.mp hhead
      obtain ⟨c, hc, hcd⟩ := Option.bind_eq_some_iff.mp hd
      exact ⟨c, List.mem_of_mem_take (List.mem_of_head? hc), by rw [hcd]; rfl⟩
  · cases h

/-- A MAC that `net.ParseMAC` accepts begins with a digit. -/
theorem digit_of_parseMAC {s : String} {bs : List ℕ} (h : parseMAC s = some bs) :
    ∃ c ∈ s.toList, (digitVal 16 c).isSome := by
  unfold parseMAC at h
  dsimp only at h
  split_ifs at h with hlen hcolon hn hdot hn
  · obtain ⟨k, hk⟩ := Nat.exists_eq_add_one_of_ne_zero
      (show (s.toList.length + 1) / 3 ≠ 0 by omega)
    rw [hk] at h
    obtain ⟨b, hb, _⟩ := Option.bind_eq_some_iff.mp h
    exact digit_of_xtoi2 hb
  · obtain ⟨k, hk⟩ := Nat.exists_eq_add_one_of_ne_zero
      (show 2 * (s.toList.length + 1) / 5 / 2 ≠ 0 by omega)
    rw [hk] at h
    obtain ⟨b, hb, _⟩ := Option.bind_eq_some_iff.mp h
    obtain ⟨c, hc, hdigit⟩ := digit_of_xtoi2 hb
    exact ⟨c, List.mem_of_mem_take hc, hdigit⟩

/-- The MAC of a new port is a number for a node. -/
theorem mac2int_portMAC {mac ip m : String} (h : Tpctl.portMAC mac ip = some m) :
    (mac2int m).isSome := by
  unfold Tpctl.portMAC at h
  split_ifs at h
  · refine mac2int_isSome (Tpctl.addrText_macFromIP h) ⟨'f', ?_, by decide⟩
    unfold Tpctl.macFromIP at h
    split at h
    · obtain rfl := Option.some.inj h
      simp
    · cases h
  · obtain ⟨u, hu, rfl⟩ := Option.map_eq_some_iff.mp h
    obtain ⟨bytes, hbytes⟩ := Option.isSome_iff_exists.mp ((Option.guard_eq_some' u).mp hu)
    exact mac2int_isSome (addrText_of_parseMAC hbytes) (digit_of_parseMAC hbytes)

/-! ### Devices -/

/-- The addresses of a device. -/
def Device.ips : Device → List String
  | switch _ => []
  | router _ => []
  | switchPort p => [p.ip]
  | routerPort p => [p.ip]
  | chassis c => [c.ip]
  | staticRoute r => [r.ip, r.nextHop]
  | nat n => [n.ip, n.translateIP]

/-- The MAC of a device. -/
def Device.mac? : Device → Option String
  | switchPort p => some p.mac
  | routerPort p => some p.mac
  | _ => none

/-- A node builds the entity of a device whose addresses it accepts and whose MAC is a number. -/
theorem Device.construct_isSome {dev : Device} (hips : ∀ ip ∈ dev.ips, (ip2int ip).isSome)
    (hmac : ∀ mac ∈ dev.mac?, (mac2int mac).isSome) : dev.record.construct.isSome := by
  cases dev <;>
    simp only [ips, mac?, List.forall_mem_cons, Option.mem_def, Option.some.injEq, forall_eq',
      Option.isSome_iff_exists] at hips hmac
  case switch s => rfl
  case router r => simp [record, Args.construct, parseInt_repr]
  case switchPort p =>
    obtain ⟨⟨x, hx⟩, _⟩ := hips
    obtain ⟨y, hy⟩ := hmac
    simp [record, Args.construct, hx, hy]
  case routerPort p =>
    obtain ⟨⟨x, hx⟩, _⟩ := hips
    obtain ⟨y, hy⟩ := hmac
    simp [record, Args.construct, hx, hy, parseInt_repr]
  case chassis c =>
    obtain ⟨⟨x, hx⟩, _⟩ := hips
    simp [record, Args.construct, hx, parseInt_repr]
  case staticRoute r =>
    obtain ⟨⟨x, hx⟩, ⟨y, hy⟩, _⟩ := hips
    simp [record, Args.construct, hx, hy, parseInt_repr]
  case nat n =>
    obtain ⟨⟨x, hx⟩, ⟨y, hy⟩, _⟩ := hips
    simp [record, Args.construct, hx, hy, parseInt_repr]

/-! ### What a call saves -/

namespace AddCall

/-- The addresses of a device come from the arguments of the call, or it is a patch port; its MAC is
a number. -/
structure Saves (c : AddCall) (dev : Device) : Prop where
  ips : ∀ ip ∈ dev.ips, ip = "255.255.255.255" ∨ ∃ arg ∈ c.addresses, arg.stored = some ip
  mac : ∀ mac ∈ dev.mac?, (mac2int mac).isSome

theorem stored_ip {s : String} {u : Unit} (h : Tpctl.validateIP s = some u) :
    (AddressArg.ip s).stored = some s := by
  rw [AddressArg.stored, h, Option.map_some]

theorem stored_cidr {s ip : String} {n : ℕ} (h : Tpctl.parseCIDR s = some (ip, n)) :
    (AddressArg.cidr s).stored = some ip := by
  rw [AddressArg.stored, h, Option.map_some]

section saves
variable {c : AddCall} {owner name ip mac peer chassis : String} {prefixLen : ℕ} {arg : AddressArg}
  (harg : arg ∈ c.addresses) (hstored : arg.stored = some ip)
include harg hstored

theorem saves_switchPort (hmac : (mac2int mac).isSome) :
    c.Saves (.switchPort ⟨owner, name, ip, mac, peer, chassis⟩) := by
  refine ⟨fun x hx => Or.inr ⟨arg, harg, ?_⟩, fun m hm => ?_⟩
  · rw [hstored, List.mem_singleton.mp hx]
  · rw [← Option.some.inj hm]
    exact hmac

theorem saves_routerPort (hmac : (mac2int mac).isSome) :
    c.Saves (.routerPort ⟨owner, name, ip, prefixLen, mac, peer⟩) := by
  refine ⟨fun x hx => Or.inr ⟨arg, harg, ?_⟩, fun m hm => ?_⟩
  · rw [hstored, List.mem_singleton.mp hx]
  · rw [← Option.some.inj hm]
    exact hmac

variable {arg' : AddressArg} {ip' : String} (harg' : arg' ∈ c.addresses)
  (hstored' : arg'.stored = some ip')
include harg' hstored'

theorem saves_staticRoute : c.Saves (.staticRoute ⟨owner, name, ip, prefixLen, ip', peer⟩) := by
  refine ⟨fun x hx => Or.inr ?_, fun m hm => by cases hm⟩
  rcases List.mem_cons.mp hx with rfl | hx
  · exact ⟨arg, harg, hstored⟩
  · obtain rfl := List.mem_singleton.mp hx
    exact ⟨arg', harg', hstored'⟩

theorem saves_nat : c.Saves (.nat ⟨owner, name, ip, prefixLen, peer, ip'⟩) := by
  refine ⟨fun x hx => Or.inr ?_, fun m hm => by cases hm⟩
  rcases List.mem_cons.mp hx with rfl | hx
  · exact ⟨arg, harg, hstored⟩
  · obtain rfl := List.mem_singleton.mp hx
    exact ⟨arg', harg', hstored'⟩

end saves

theorem saves_patchPort (c : AddCall) (owner name peer chassis : String) : c.Saves
    (.switchPort ⟨owner, name, "255.255.255.255", "ff:ff:ff:ff:ff:ee", peer, chassis⟩) := by
  refine ⟨fun x hx => Or.inl (List.mem_singleton.mp hx), fun m hm => ?_⟩
  obtain rfl := Option.some.inj hm
  dsimp only
  decide

theorem saves_link {c : AddCall} {routerName switchName cidr : String} {devs : List Device}
    (harg : .cidr cidr ∈ c.addresses)
    (h : Tpctl.linkSwitch routerName switchName cidr = some devs) : ∀ dev ∈ devs, c.Saves dev := by
  simp only [Tpctl.linkSwitch, Option.bind_eq_bind, Option.bind_eq_some_iff, Option.some.injEq] at h
  obtain ⟨⟨ip, prefixLen⟩, hcidr, m, hmac, rfl⟩ := h
  have hm := mac2int_portMAC hmac
  exact List.forall_mem_cons.mpr ⟨saves_switchPort harg (stored_cidr hcidr) hm,
    List.forall_mem_singleton.mpr (saves_routerPort harg (stored_cidr hcidr) hm)⟩

theorem saves_tpctl {cmd : Tpctl.AddCommand} {devs : List Device} (h : cmd.devices = some devs) :
    ∀ dev ∈ devs, (tpctl cmd).Saves dev := by
  cases cmd <;>
    simp only [Tpctl.AddCommand.devices, Tpctl.addSwitch, Tpctl.addRouter, Tpctl.addSwitchPort,
      Tpctl.addPatchPort, Tpctl.addRouterPort, Tpctl.addStaticRoute, Tpctl.addNAT,
      Option.bind_eq_bind, Option.bind_eq_some_iff, Option.some.injEq] at h
  case switch =>
    obtain ⟨_, _, rfl⟩ := h
    exact List.forall_mem_singleton.mpr ⟨fun _ hx => (by cases hx), fun _ hx => (by cases hx)⟩
  case router =>
    obtain ⟨_, _, rfl⟩ := h
    exact List.forall_mem_singleton.mpr ⟨fun _ hx => (by cases hx), fun _ hx => (by cases hx)⟩
  case switchPort =>
    obtain ⟨_, _, _, hip, _, hmac, rfl⟩ := h
    exact List.forall_mem_singleton.mpr
      (saves_switchPort List.mem_cons_self (stored_ip hip) (mac2int_portMAC hmac))
  case patchPort =>
    obtain ⟨_, _, rfl⟩ := h
    exact List.forall_mem_singleton.mpr (saves_patchPort _ _ _ _ _)
  case routerPort =>
    obtain ⟨_, _, ⟨_, _⟩, hcidr, _, hmac, rfl⟩ := h
    exact List.forall_mem_singleton.mpr
      (saves_routerPort List.mem_cons_self (stored_cidr hcidr) (mac2int_portMAC hmac))
  case staticRoute =>
    obtain ⟨_, _, ⟨_, _⟩, hcidr, _, hhop, rfl⟩ := h
    exact List.forall_mem_singleton.mpr (saves_staticRoute List.mem_cons_self (stored_cidr hcidr)
      (List.mem_cons_of_mem _ List.mem_cons_self) (stored_ip hhop))
  case nat =>
    obtain ⟨_, _, ⟨_, _⟩, hcidr, _, _, _, hxlate, rfl⟩ := h
    exact List.forall_mem_singleton.mpr (saves_nat List.mem_cons_self (stored_cidr hcidr)
      (List.mem_cons_of_mem _ List.mem_cons_self) (stored_ip hxlate))
  case link => exact saves_link List.mem_cons_self h

theorem saves_api {req : Api.AddRequest} {dev : Device} (h : req.device = some dev) :
    (api req).Saves dev := by
  cases req <;>
    simp only [Api.AddRequest.device, Api.addSwitch, Api.addRoute, Api.addSwitchPort,
      Api.addPatchPort, Api.addRouterPort, Api.addStaticRoute, Api.addNAT, Option.bind_eq_bind,
      Option.bind_eq_some_iff, Option.some.injEq] at h
  case switch =>
    obtain ⟨_, _, rfl⟩ := h
    exact ⟨fun _ hx => (by cases hx), fun _ hx => (by cases hx)⟩
  case route =>
    obtain ⟨_, _, rfl⟩ := h
    exact ⟨fun _ hx => (by cases hx), fun _ hx => (by cases hx)⟩
  case switchPort =>
    obtain ⟨_, _, _, hip, _, hmac, _, _, rfl⟩ := h
    exact saves_switchPort List.mem_cons_self (stored_ip hip) (mac2int_portMAC hmac)
  case patchPort =>
    obtain ⟨_, _, rfl⟩ := h
    exact saves_patchPort _ _ _ _ _
  case routerPort =>
    obtain ⟨_, _, ⟨_, _⟩, hcidr, _, hmac, rfl⟩ := h
    exact saves_routerPort List.mem_cons_self (stored_cidr hcidr) (mac2int_portMAC hmac)
  case staticRoute =>
    obtain ⟨_, _, ⟨_, _⟩, hcidr, _, hhop, rfl⟩ := h
    exact saves_staticRoute List.mem_cons_self (stored_cidr hcidr)
      (List.mem_cons_of_mem _ List.mem_cons_self) (stored_ip hhop)
  case nat =>
    obtain ⟨_, _, ⟨_, _⟩, hcidr, _, _, _, hxlate, rfl⟩ := h
    exact saves_nat List.mem_cons_self (stored_cidr hcidr)
      (List.mem_cons_of_mem _ List.mem_cons_self) (stored_ip hxlate)

theorem saves {c : AddCall} {devs : List Device} (h : c.devices = some devs) :
    ∀ dev ∈ devs, c.Saves dev := by
  cases c with
  | tpctl cmd => exact saves_tpctl h
  | api req =>
      obtain ⟨dev, hdev, rfl⟩ := Option.map_eq_some_iff.mp h
      exact List.forall_mem_singleton.mpr (saves_api hdev)
  | apiLink route switchName cidr =>
      obtain ⟨_, _, hlink⟩ := Option.bind_eq_some_iff.mp h
      exact saves_link List.mem_cons_self hlink

/-- **What a front end accepts can be processed iff the accepted arguments are IPv4 addresses**, as
canonical dotted quads where `net.ParseIP` has accepted them. -/
theorem processed_iff (c : AddCall) :
    c.Processed ↔ ∀ arg ∈ c.addresses, arg.stored.isSome → arg.IsV4 := by
  constructor
  · intro h arg harg hsome
    obtain ⟨ip, hip⟩ := Option.isSome_iff_exists.mp hsome
    have hnode := h.accepted arg harg ip hip
    exact (AddressArg.quad_stored_iff hip).mp ((dottedQuad_isSome_iff ip).mp hnode)
  · intro h
    have hquad : ∀ arg ∈ c.addresses, ∀ ip ∈ arg.stored, Quad ip := fun arg harg ip hip =>
      (AddressArg.quad_stored_iff hip).mpr (h arg harg (Option.isSome_of_mem hip))
    refine ⟨fun arg harg ip hip => parts_of_quad (hquad arg harg ip hip), fun arg harg ip hip =>
      (dottedQuad_isSome_iff ip).mpr (hquad arg harg ip hip), ?_⟩
    intro devs hdevs dev hdev hname hvalue
    have hsaves := saves hdevs dev hdev
    rw [Device.loaded_eq_record hname hvalue, Option.bind_some]
    refine Device.construct_isSome (fun ip hip => ?_) hsaves.mac
    rcases hsaves.ips ip hip with rfl | ⟨arg, harg, hstored⟩
    · decide
    · exact (dottedQuad_isSome_iff ip).mpr (hquad arg harg ip hstored)

/-- `lsp add red p1 2001:db8::1` is accepted, and `MacFromIP` indexes past the single part. -/
theorem not_processed_ipv6 : ¬ ∀ c : AddCall, c.Processed := by
  intro h
  have hparts := (h (.tpctl (.switchPort "red" "p1" "2001:db8::1" "" ""))).parts
    (.ip "2001:db8::1") List.mem_cons_self "2001:db8::1" (by decide)
  exact absurd hparts.1 (by decide)

end AddCall

end TupleNet.Control
