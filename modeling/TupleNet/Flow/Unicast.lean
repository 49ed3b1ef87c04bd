import TupleNet.Flow.SwitchTables

/-! # Delivery in a switch

What every run makes of a packet from a port of a switch to another port of it, on this chassis or
behind a tunnel (`unicast_delivered`), and of an ARP request (`arp_answered`), while certain ports
are up.  What is delivered leaves the network there and nowhere else (`Delivers.exits_iff`). -/

namespace TupleNet

open Datalog Resubmit LogicalView IpRoute AddrXlate LongestPrefix SwitchStages BuildFlows Forms
  Lookups Stages SwitchTables

namespace Unicast

/-! ### From end to end -/

section facts
variable {x : Extra} {S : Row → Prop}

theorem bond_cases {own : LspPort × Ls} (h : (localBondLsp x).DerivesFrom S own) :
    0 < own.1.ofport ∧ lsArray.DerivesFrom S own.2 := by
  simp only [localBondLsp, localPatchport, Rule.derivesFrom_oneOf_cons, Rule.derivesFrom_oneOf_nil,
    or_false, Rule.derivesFrom_bind, Rule.derivesFrom_guard, Rule.derivesFrom_pure] at h
  rcases h with ⟨port, _, _, hpos, ls, hls, _, _, _, _, rfl⟩ |
    ⟨port, _, _, hpos, ls, hls, _, _, _, _, _, _, rfl⟩
  · exact ⟨hpos, hls⟩
  · exact ⟨hpos, hls⟩

theorem local_of_bond {own : LspPort × Ls} (h : (localBondLsp x).DerivesFrom S own) :
    (localLsp x).DerivesFrom S (own.1.toLsp, own.2) := by
  simp only [localLsp, Rule.derivesFrom_oneOf_cons]
  refine Or.inr (Or.inr (Or.inl ?_))
  simp only [Rule.derivesFrom_bind, Rule.derivesFrom_pure]
  exact ⟨own, h, rfl⟩

theorem portNum_of_small {n : ℤ} (hpos : 0 < n) (hsmall : n < TP_OFPORT_NONE) :
    (portNum n : ℤ) = n := by
  have hlt : n < 0xffff := hsmall
  unfold portNum
  omega

end facts

section deliver
variable {H : Type} (N : Hosts.Network H) (up : H → ℤ → Prop)

/-- What keeps the ports of a chassis apart. -/
structure Distinct (h : H) : Prop where
  port : ∀ a b, (N.node h).HasPort a → (N.node h).HasPort b → a.1.ofport = b.1.ofport → a = b
  tunnel : ∀ a c, (N.node h).HasPort a → remoteChassis.DerivesFrom (Built (N.node h).zoo) c →
    a.1.ofport ≠ c.ofport
  small : ∀ a, (N.node h).HasPort a → a.1.ofport < TP_OFPORT_NONE
  smallTunnel : ∀ c, remoteChassis.DerivesFrom (Built (N.node h).zoo) c → c.ofport < TP_OFPORT_NONE
  number : ∀ a b, (N.node h).HasPort a → (N.node h).HasPort b →
    N.idOf (Props.strOf a.2.lsID) = N.idOf (Props.strOf b.2.lsID) → a.1.portID = b.1.portID →
    a.1.ofport = b.1.ofport
  address : ∀ a b, (localLsp (N.node h).extra).DerivesFrom (Built (N.node h).zoo) a →
    (localLsp (N.node h).extra).DerivesFrom (Built (N.node h).zoo) b →
    N.idOf (Props.strOf a.2.lsID) = N.idOf (Props.strOf b.2.lsID) → a.1.macInt = b.1.macInt →
    a.1.portID = b.1.portID
  remote : ∀ a b, (remoteLsp (N.node h).extra).DerivesFrom (Built (N.node h).zoo) a →
    (remoteLsp (N.node h).extra).DerivesFrom (Built (N.node h).zoo) b →
    N.idOf (Props.strOf a.2.1.lsID) = N.idOf (Props.strOf b.2.1.lsID) → a.1.macInt = b.1.macInt →
    a.1.portID = b.1.portID ∧ a.2.2.ofport = b.2.2.ofport

/-- What keeps the ports apart, read off the rows of a zoo. -/
def Apart (c : Hosts.Node) (idOf : String → ℕ) : Prop :=
  (∀ a ∈ (localBondLsp c.extra).eval c.zoo.scratch, ∀ b ∈ (localBondLsp c.extra).eval c.zoo.scratch,
    (a.1.1.ofport = b.1.1.ofport → a.1 = b.1) ∧
    (idOf (Props.strOf a.1.2.lsID) = idOf (Props.strOf b.1.2.lsID) → a.1.1.portID = b.1.1.portID →
      a.1.1.ofport = b.1.1.ofport)) ∧
  (∀ a ∈ (localBondLsp c.extra).eval c.zoo.scratch, ∀ b ∈ remoteChassis.eval c.zoo.scratch,
    a.1.1.ofport ≠ b.1.ofport) ∧
  (∀ a ∈ (localBondLsp c.extra).eval c.zoo.scratch, a.1.1.ofport < TP_OFPORT_NONE) ∧
  (∀ a ∈ remoteChassis.eval c.zoo.scratch, a.1.ofport < TP_OFPORT_NONE) ∧
  (∀ a ∈ (localLsp c.extra).eval c.zoo.scratch, ∀ b ∈ (localLsp c.extra).eval c.zoo.scratch,
    idOf (Props.strOf a.1.2.lsID) = idOf (Props.strOf b.1.2.lsID) → a.1.1.macInt = b.1.1.macInt →
      a.1.1.portID = b.1.1.portID) ∧
  ∀ a ∈ (remoteLsp c.extra).eval c.zoo.scratch, ∀ b ∈ (remoteLsp c.extra).eval c.zoo.scratch,
    idOf (Props.strOf a.1.2.1.lsID) = idOf (Props.strOf b.1.2.1.lsID) →
    a.1.1.macInt = b.1.1.macInt →
      a.1.1.portID = b.1.1.portID ∧ a.1.2.2.ofport = b.1.2.2.ofport

instance (c : Hosts.Node) (idOf : String → ℕ) : Decidable (Apart c idOf) := inferInstanceAs
  (Decidable (_ ∧ _))

variable {N} in
theorem distinct_of_apart {h : H} (hapart : Apart (N.node h) N.idOf) : Distinct N h where
  port := derives_all₂ fun a ha b hb => (hapart.1 a ha b hb).1
  tunnel := derives_all₂ hapart.2.1
  small := derives_all hapart.2.2.1
  smallTunnel := derives_all hapart.2.2.2.1
  number := derives_all₂ fun a ha b hb => (hapart.1 a ha b hb).2
  address := derives_all₂ hapart.2.2.2.2.1
  remote := derives_all₂ hapart.2.2.2.2.2

/-- While these ports are up, every run of the chassis puts a packet out exactly once, by a port
that leads nowhere else, or by a tunnel at whose other end the same holds. -/
inductive Delivers : H → Packet → H → ℕ → Packet → Prop where
  | here {h : H} {p q : Packet} {n : ℕ}
      (hout : (N.bridgeUp up h).Brings TABLE_CONVERT_PHY_LOGICAL p [] [(n, q)])
      (hwire : N.wire h n = none) :
      Delivers h p h n q
  | hop {h h' h'' : H} {p q r : Packet} {n n' m : ℕ}
      (hout : (N.bridgeUp up h).Brings TABLE_CONVERT_PHY_LOGICAL p [] [(n, q)])
      (hwire : N.wire h n = some (h', n')) (hrest : Delivers h' (q.arrive n') h'' m r) :
      Delivers h p h'' m r

/-- A packet goes from one chassis to another while these ports are up. -/
inductive HopUp : H × Packet → H × Packet → Prop where
  | intro {h h' : H} {p : Packet} {w : Sent} {n' : ℕ}
      (hw : (N.bridgeUp up h).Emits TABLE_CONVERT_PHY_LOGICAL p w)
      (hwire : N.wire h w.1 = some (h', n')) : HopUp (h, p) (h', w.2.arrive n')

/-- A packet that comes to a chassis can be put out so by another one, where it leads nowhere
else. -/
def Exits (h : H) (p : Packet) (h' : H) (w : Sent) : Prop :=
  ∃ p', Relation.ReflTransGen (HopUp N up) (h, p) (h', p') ∧
    (N.bridgeUp up h').Emits TABLE_CONVERT_PHY_LOGICAL p' w ∧ N.wire h' w.1 = none

/-- What is not changed on the way. -/
def payload : List Field := [.ethSrc, .ethDst, .ipSrc, .ipDst, .ipTtl, .icmpType, .arpOp, .arpSpa,
  .arpTpa, .arpSha, .arpTha]

/-- Every run of a lookup on the chassis puts out exactly this. -/
abbrev OutAt (h : H) (t : ℕ) (p : Packet) (ws : List Sent) : Prop :=
  Out (N.node h).extra (N.node h).options (N.node h).zoo (N.node h).learned N.idOf (up h) t p ws

variable {N up} {h h' : H} {own target : LspPort × Ls} {p s : Packet}

/-- **What is delivered leaves the network there and nowhere else.** -/
theorem Delivers.exits_iff {n : ℕ} {q : Packet} (hd : Delivers N up h p h' n q) {k : H} {w : Sent} :
    Exits N up h p k w ↔ k = h' ∧ w = (n, q) := by
  induction hd with
  | here hout hwire =>
      constructor
      · rintro ⟨p', hhops, hw, _⟩
        rcases hhops.cases_head with heq | ⟨_, ⟨hw', hwire'⟩, _⟩
        · obtain ⟨rfl, rfl⟩ := Prod.mk.inj heq
          exact ⟨rfl, List.mem_singleton.mp (hout.emits_iff.mp hw)⟩
        · rw [List.mem_singleton.mp (hout.emits_iff.mp hw'), hwire] at hwire'
          cases hwire'
      · rintro ⟨rfl, rfl⟩
        exact ⟨_, .refl, hout.emits_iff.mpr (List.mem_singleton_self _), hwire⟩
  | hop hout hwire _ ih =>
      constructor
      · rintro ⟨p', hhops, hw, hnone⟩
        rcases hhops.cases_head with heq | ⟨_, ⟨hw', hwire'⟩, hrest⟩
        · obtain ⟨rfl, rfl⟩ := Prod.mk.inj heq
          rw [List.mem_singleton.mp (hout.emits_iff.mp hw), hwire] at hnone
          cases hnone
        · obtain rfl := List.mem_singleton.mp (hout.emits_iff.mp hw')
          obtain ⟨rfl, rfl⟩ := Prod.mk.inj (Option.some.inj (hwire.symm.trans hwire'))
          exact ih.mp ⟨p', hrest, hw, hnone⟩
      · intro hkw
        obtain ⟨p', hrest, hw, hnone⟩ := ih.mpr hkw
        have hemits := hout.emits_iff.mpr (List.mem_singleton_self _)
        exact ⟨p', hrest.head (.intro hemits hwire), hw, hnone⟩

theorem hop_of_hopUp {c c' : H × Packet} (hhop : HopUp N up c c') : N.Hop c c' := by
  cases hhop with
  | intro hw hwire => exact .intro ((Flows.pipelineUp_below _ _ _).emits hw) hwire

/-- A packet that is delivered goes by hops of the network. -/
theorem Delivers.hops {n : ℕ} {q : Packet} (hd : Delivers N up h p h' n q) :
    ∃ p', Relation.ReflTransGen N.Hop (h, p) (h', p') ∧
      (N.bridge h').Emits TABLE_CONVERT_PHY_LOGICAL p' (n, q) := by
  obtain ⟨p', hhops, hw, _⟩ := hd.exits_iff.mpr ⟨rfl, rfl⟩
  exact ⟨p', Relation.ReflTransGen.mono (fun _ _ => hop_of_hopUp) _ _ hhops,
    (Flows.pipelineUp_below _ _ _).emits hw⟩

theorem wire_of_hasPort (htarget : (N.node h).HasPort target) :
    N.wire h (portNum target.1.ofport) = none := by
  cases hwire : N.wire h (portNum target.1.ofport) with
  | none => rfl
  | some e =>
      obtain ⟨h', n'⟩ := e
      exact absurd rfl (N.sends hwire target htarget)

/-- A packet from a port of the chassis that is looked up in a switch. -/
structure Sought (N : Hosts.Network H) (h : H) (own : LspPort × Ls) (ls : Ls) (s : Packet) :
    Prop where
  switch : InSwitch (N.node h).zoo N.idOf ls s
  reg5 : s.field .reg5 = 0
  flags : s.field .regFlag = 0
  port : (s.field .inPort : ℤ) = own.1.ofport

theorem Sought.congr {q : Packet} {ls : Ls} (hs : Sought N h own ls s)
    (hq : s.Agree [.regDp, .regFlag, .reg5, .inPort] q) : Sought N h own ls q where
  switch := hs.switch.congr (hq.mono (by decide))
  reg5 := (hq.field .reg5 (by decide)).trans hs.reg5
  flags := (hq.field .regFlag (by decide)).trans hs.flags
  port := by
    rw [hq.field .inPort (by decide)]
    exact hs.port

/-- From the lookup to a port of the same chassis. -/
theorem out_toLocal (hdistinct : Distinct N h) (htarget : (N.node h).HasPort target) {ls : Ls}
    (hs : InSwitch (N.node h).zoo N.idOf ls s) (hreg5 : s.field .reg5 = 0)
    (hnat : NoNat (N.node h).extra (N.node h).zoo N.idOf (s.field .regDp) (s.field .ethDst))
    (hls : N.idOf (Props.strOf target.2.lsID) = s.field .regDp)
    (hmac : target.1.macInt = s.field .ethDst)
    (hin : portNum target.1.ofport ≠ (judged (s.load .regDst target.1.portID)).field .inPort) :
    OutAt N up h TABLE_LSP_INGRESS_LOOKUP_DST_PORT s
      [(portNum target.1.ofport, handed target (s.load .regDst target.1.portID))] := by
  have hagree : s.Agree [.regDp, .regFlag, .reg5] (s.load .regDst target.1.portID) :=
    agree_load s _ (by decide)
  have hfound := hs.congr (hagree.mono (by decide))
  have hdp := hagree.field .regDp (by decide)
  have hdst := load_portID s target.1.toLsp
  refine out_lookupLocal hs.trace (local_of_bond htarget) hls.symm hmac.symm hnat
    (fun own' hown' hdp' hmac' => hdistinct.address _ _ hown' (local_of_bond htarget)
      (hdp'.symm.trans hls.symm) (hmac'.symm.trans hmac.symm)) ?_
  refine out_deliver hfound (by rw [hagree.field .reg5 (by decide), hreg5]; decide)
    (out_egress ⟨(bond_cases htarget).2, hdp.trans hls.symm, hfound.trace⟩ htarget hdst ?_ ?_ hin)
  · intro own' hown' hdp' hdst'
    exact hdistinct.number own' target hown' htarget (hdp'.symm.trans (hdp.trans hls.symm))
      (hdst'.symm.trans hdst)
  · rw [portNum_of_small (bond_cases htarget).1 (hdistinct.small target htarget)]
    exact ne_of_lt (hdistinct.small target htarget)

/-- Another port than the one where the packet came in. -/
theorem Sought.apart {ls : Ls} (hs : Sought N h own ls s) (hdistinct : Distinct N h)
    (hown : (N.node h).HasPort own) (htarget : (N.node h).HasPort target) (hne : own ≠ target) :
    portNum target.1.ofport ≠ (judged (s.load .regDst target.1.portID)).field .inPort := by
  have hfound := hs.congr (agree_load s (f := .regDst) target.1.portID (by decide))
  have hport := portNum_of_small (bond_cases htarget).1 (hdistinct.small target htarget)
  rw [judged, if_neg (not_hasFlag_of_clear hfound.flags _)]
  intro heq
  have hofport : own.1.ofport = target.1.ofport := by
    rw [← hport, heq]
    exact hfound.port.symm
  exact hne (hdistinct.port own target hown htarget hofport)

/-- Every port is another one than that of a packet that has been sent back. -/
theorem ne_judged {n : ℤ} (hpos : 0 < n) (hsmall : n < TP_OFPORT_NONE)
    (hloopback : s.HasFlag .LOOPBACK) : portNum n ≠ (judged s).field .inPort := by
  have hport := portNum_of_small hpos hsmall
  rw [judged, if_pos hloopback]
  intro heq
  have hnone : (s.load .inPort TP_OFPORT_NONE).field .inPort = 0xffff := by
    rw [Packet.load, Packet.set_field, if_pos rfl]
    rfl
  rw [← hport, heq, hnone] at hsmall
  exact absurd hsmall (by decide)

/-- What holds of a packet from a port when its destination is looked up. -/
theorem sought_entering (hown : (N.node h).HasPort own)
    (hid : N.idOf (Props.strOf own.2.lsID) < 2 ^ 24) (hclear : ∀ f ∈ Packet.cleared, p.field f = 0)
    (hin : (p.field .inPort : ℤ) = own.1.ofport) :
    Sought N h own own.2 (entering N.idOf own p) := by
  have hfield := (agree_entering (F := [.reg5, .regFlag, .inPort]) N.idOf own p (by decide)
    (by decide)).field
  have hflags := (hfield .regFlag (by decide)).trans (hclear .regFlag (by decide))
  refine ⟨⟨(bond_cases hown).2, ?_, not_hasFlag_of_clear hflags _⟩,
    (hfield .reg5 (by decide)).trans (hclear .reg5 (by decide)), hflags, ?_⟩
  · rw [entering, Packet.set_field, if_pos rfl]
    exact Nat.mod_eq_of_lt (Nat.lt_trans hid (by decide))
  · rw [hfield .inPort (by decide)]
    exact hin

/-- What comes in by a port of the chassis. -/
theorem brings_of_port (hdistinct : Distinct N h) (hown : (N.node h).HasPort own)
    (hin : (p.field .inPort : ℤ) = own.1.ofport) {ws : List Sent}
    (hout : OutAt N up h TABLE_LSP_TRACE_INGRESS_IN (entering N.idOf own p) ws) :
    (N.bridgeUp up h).Brings TABLE_CONVERT_PHY_LOGICAL p [] ws :=
  out_enter hown hin (fun own' hown' heq => hdistinct.port own' own hown' hown heq)
    (fun c hc heq => hdistinct.tunnel own c hown hc heq.symm) hout [] (by simp [Noted])

theorem agree_looked {F : List Field} (idOf : String → ℕ) (own : LspPort × Ls) (p : Packet)
    (hF : ∀ f ∈ [Field.regSrc, .regDp, .regDst], f ∉ F) :
    p.Agree F ((entering idOf own p).load .regDst 0) :=
  (agree_entering idOf own p (hF .regSrc (by decide)) (hF .regDp (by decide))).trans
    (agree_load _ _ (hF .regDst (by decide)))

theorem sought_looked (hown : (N.node h).HasPort own)
    (hid : N.idOf (Props.strOf own.2.lsID) < 2 ^ 24) (hclear : ∀ f ∈ Packet.cleared, p.field f = 0)
    (hin : (p.field .inPort : ℤ) = own.1.ofport) :
    Sought N h own own.2 ((entering N.idOf own p).load .regDst 0) :=
  (sought_entering hown hid hclear hin).congr (agree_load _ 0 (by decide))

theorem answer_of_mem {x : Extra} {opts : Options} {z : Zoo} {learned : List (ℕ × ℕ)}
    {f : FlowKey Match × Action} (hf : f ∈ allFlows x opts z learned)
    (ht : f.1.table = TABLE_ARP_FEEDBACK_CONSTRUCT) : (arpFlows x).DerivesFrom (Built z) f := by
  have hnone : ∀ g ∈ buildConstFlows, g.1.table ≠ TABLE_ARP_FEEDBACK_CONSTRUCT := by decide
  cases source_of_mem hf with
  | const hc => exact absurd ht (hnone f hc)
  | switch r hr hd ht' => exact absurd ht' (by rw [ht]; decide)
  | router r hr hd ht' => exact absurd ht' (by rw [ht]; decide)
  | convert hd ht' => exact absurd (ht.symm.trans ht') (by decide)
  | arp hd _ => exact hd
  | route s hs ht' => exact absurd (ht.symm.trans ht') (by decide)
  | redirect ht' => exact absurd (ht.symm.trans ht') (by decide)
  | learned ht' => exact absurd (ht.symm.trans ht') (by decide)

/-- The request is answered with the address of an entry, and comes back. -/
theorem brings_answer {x : Extra} {opts : Options} {z : Zoo} {learned : List (ℕ × ℕ)}
    {idOf : String → ℕ} {up : ℤ → Prop} {ws : List Sent} {fs : List (Frame ℕ Packet ActionExp)}
    {entry : ℕ × ℕ × Ls} (hentry : (arpIpMac x).DerivesFrom (Built z) entry) (harp : p.proto = .arp)
    (hop : p.field .arpOp = 1) (hdp : p.field .regDp = idOf (Props.strOf entry.2.2.lsID))
    (htpa : p.field .arpTpa = entry.1)
    (hsame : ∀ e, (arpIpMac x).DerivesFrom (Built z) e →
      p.field .regDp = idOf (Props.strOf e.2.2.lsID) → p.field .arpTpa = e.1 → e.2.1 = entry.2.1)
    (h : (bridgeUp x opts z learned idOf up).Yields ⟨p.answered entry.1 entry.2.1, fs⟩ ws) :
    (bridgeUp x opts z learned idOf up).Brings TABLE_ARP_FEEDBACK_CONSTRUCT p fs ws := by
  refine ⟨⟨_, Flows.finds_choose idOf _ _ p⟩, fun as has => ?_⟩
  have hderives : ∀ {f}, (arpFlows x).DerivesFrom (Built z) f ↔ ∃ e,
      (arpIpMac x).DerivesFrom (Built z) e ∧
      f = (⟨TABLE_ARP_FEEDBACK_CONSTRUCT, 0, [.datapath (Props.strOf e.2.2.lsID), .arpProto,
        .arpTpa e.1, .arpOp 1]⟩, [.loadFlag .LOOPBACK, .move (.all .ethSrc) (.all .ethDst),
          .modDlSrc e.2.1, .loadNum 2 .arpOp, .move (.all .arpSha) (.all .arpTha),
          .loadNum e.2.1 .arpSha,
          .move (.all .arpSpa) (.all .arpTpa), .loadNum e.1 .arpSpa,
          .move (.all .regSrc) (.all .regDst)]) := by
    intro f
    simp only [arpFlows, arpFeedbackConstruct, Rule.derivesFrom_bind, Rule.derivesFrom_pure]
    constructor
    · rintro ⟨_, ⟨e, he, rfl⟩, rfl⟩
      exact ⟨e, he, rfl⟩
    · rintro ⟨e, he, rfl⟩
      exact ⟨_, ⟨e, he, rfl⟩, rfl⟩
  have hmost : (arpFlows x).AtMost 8 := Rule.atMost_bind (n := 0) (Rule.atMost_bind (n := 0)
    (atMost_arpIpMac x) fun _ => Rule.atMost_pure_le _) fun _ => Rule.atMost_pure_le _
  have hneed : ∀ f, ¬ (arpFlows x).DerivesFrom (· = tunnelRow) f := by
    intro f
    simp only [arpFlows, arpFeedbackConstruct, arpIpMac, lnatLink, Rule.derivesFrom_bind,
      Rule.derivesFrom_oneOf_cons, Rule.derivesFrom_oneOf_nil, not_activeLsp_of_tunnel,
      not_lnatData_of_tunnel, false_and, exists_false, or_self, not_false_eq_true]
  have hrule : arpFlows x ∈ stateRules x opts := by simp [stateRules]
  have hmem : _ ∈ allFlows x opts z learned := mem_allFlows_of_derives hrule hmost (by omega) hneed
    (hderives.mpr ⟨entry, hentry, rfl⟩)
  obtain rfl := eq_of_finds has hmem rfl
    (by simp [Packet.Hits, Packet.Satisfies, hdp, harp, htpa, hop]) fun f hf ht hhits => Or.inl (by
      obtain ⟨e, he, rfl⟩ := hderives.mp (answer_of_mem hf ht)
      have hip : p.field .arpTpa = e.1 := hhits (.arpTpa e.1) (by simp)
      have hmac := hsame e he (hhits (.datapath (Props.strOf e.2.2.lsID)) (by simp)) hip
      rw [hmac, ← hip, htpa])
  exact .go (fun _ => Iff.rfl)
    (.go (fun _ => Iff.rfl) (.go (fun _ => Iff.rfl) (.go (fun _ => Iff.rfl)
    (.go (fun _ => Iff.rfl) (.go (fun _ => Iff.rfl) (.go (fun _ => Iff.rfl) (.go (fun _ => Iff.rfl)
      (.go (fun _ => Iff.rfl) (.ret h)))))))))

/-- What a reply to a request says: the Ethernet address of an IP, to the one who has asked. -/
structure Reply (p : Packet) (mac : ℕ) (q : Packet) : Prop where
  proto : q.proto = .arp
  op : q.field .arpOp = 2
  ethDst : q.field .ethDst = p.field .ethSrc % 2 ^ 48
  ethSrc : q.field .ethSrc = mac % 2 ^ 48
  sha : q.field .arpSha = mac % 2 ^ 48
  spa : q.field .arpSpa = p.field .arpTpa % 2 ^ 32
  tha : q.field .arpTha = p.field .arpSha % 2 ^ 48
  tpa : q.field .arpTpa = p.field .arpSpa % 2 ^ 32

theorem ethDst_answered (p : Packet) (ip mac : ℕ) :
    (p.answered ip mac).field .ethDst = p.field .ethSrc % 2 ^ 48 := by
  have hall : ∀ (q : Packet) (f : Field) (n : ℕ), q.put (.all f) n = q.set f n := fun _ _ _ => rfl
  have hflag : ∀ f, f ≠ Field.regFlag → (p.flag .LOOPBACK).field f = p.field f :=
    fun f hf => Packet.put_field_ne _ _ hf
  simp (disch := decide) only [Packet.answered, Packet.load, hall, Packet.set_field, hflag,
    Field.width,
    reduceCtorEq, if_true, if_false]

theorem reply_answered (p : Packet) (mac : ℕ) (harp : p.proto = .arp) :
    Reply p mac (p.answered (p.field .arpTpa) mac) := by
  have hall : ∀ (q : Packet) (f : Field) (n : ℕ), q.put (.all f) n = q.set f n := fun _ _ _ => rfl
  have hflag : ∀ f, f ≠ Field.regFlag → (p.flag .LOOPBACK).field f = p.field f :=
    fun f hf => Packet.put_field_ne _ _ hf
  have hword : ∀ n k : ℕ, k ≤ 64 → ((n : ℤ) % 2 ^ 64).toNat % 2 ^ k = n % 2 ^ k := by
    intro n k hk
    have hcast : ((n : ℤ) % 2 ^ 64).toNat = n % 2 ^ 64 := by omega
    rw [hcast, Nat.mod_mod_of_dvd _ (Nat.pow_dvd_pow 2 hk)]
  refine ⟨harp, ?_, ?_, ?_, ?_, ?_, ?_, ?_⟩
  all_goals
    simp (disch := decide) only [Packet.answered, Packet.load, hall, Packet.set_field, hflag, hword,
      Field.width, reduceCtorEq, if_true, if_false]
  rfl

theorem Reply.congr {mac : ℕ} {q r : Packet} (h : Reply p mac q) (hr : q.Agree payload r) :
    Reply p mac r where
  proto := hr.proto.trans h.proto
  op := (hr.field .arpOp (by decide)).trans h.op
  ethDst := (hr.field .ethDst (by decide)).trans h.ethDst
  ethSrc := (hr.field .ethSrc (by decide)).trans h.ethSrc
  sha := (hr.field .arpSha (by decide)).trans h.sha
  spa := (hr.field .arpSpa (by decide)).trans h.spa
  tha := (hr.field .arpTha (by decide)).trans h.tha
  tpa := (hr.field .arpTpa (by decide)).trans h.tpa

theorem Reply.of_agree {mac : ℕ} {p' q : Packet} (h : Reply p' mac q) (hp : p.Agree payload p') :
    Reply p mac q where
  proto := h.proto
  op := h.op
  ethDst := by rw [h.ethDst, hp.field .ethSrc (by decide)]
  ethSrc := h.ethSrc
  sha := h.sha
  spa := by rw [h.spa, hp.field .arpTpa (by decide)]
  tha := by rw [h.tha, hp.field .arpSha (by decide)]
  tpa := by rw [h.tpa, hp.field .arpSpa (by decide)]

/-- An ARP request for an entry. -/
theorem out_arpRequest {x : Extra} {opts : Options} {z : Zoo} {learned : List (ℕ × ℕ)}
    {idOf : String → ℕ} {up : ℤ → Prop} {ws : List Sent} {ls : Ls} {entry : ℕ × ℕ × Ls}
    (hp : InSwitch z idOf ls p) (hentry : (arpIpMac x).DerivesFrom (Built z) entry)
    (harp : p.proto = .arp) (hop : p.field .arpOp = 1)
    (hdp : p.field .regDp = idOf (Props.strOf entry.2.2.lsID)) (htpa : p.field .arpTpa = entry.1)
    (hsame : ∀ e, (arpIpMac x).DerivesFrom (Built z) e →
      p.field .regDp = idOf (Props.strOf e.2.2.lsID) → p.field .arpTpa = e.1 → e.2.1 = entry.2.1)
    (h : Out x opts z learned idOf up TABLE_LSP_INGRESS_UNTUNNEL (p.answered entry.1 entry.2.1)
      ws) :
    Out x opts z learned idOf up TABLE_LSP_INGRESS_ARP_RESPONSE p ws := by
  refine out_of_stage (stage_switch (q := lspArpResponse) (by simp [switchStages])) hp.trace
    (f := (ls, 2, [.arpProto, .arpOp 1], [.resubmitTable TABLE_ARP_FEEDBACK_CONSTRUCT,
      .resubmitNext]))
    (derivesFrom_lspArpResponse.mpr ⟨ls, hp.derived, Or.inl rfl⟩)
    ⟨hp.dp, by simp [Packet.Hits, Packet.Satisfies, harp, hop]⟩ (fun flow' hflow' htakes => ?_)
    fun fs note hfs => ?_
  · obtain ⟨ls', _, rfl | rfl⟩ := derivesFrom_lspArpResponse.mp hflow'
    · exact Or.inl rfl
    · exact Or.inr Nat.two_pos
  · exact Pipeline.Brings.call (brings_answer hentry harp hop hdp htpa hsame (h.next hfs note))
      fun _ => Iff.rfl

/-- The answer is on its way to the one who has asked. -/
theorem out_answered (hdistinct : Distinct N h) (hown : (N.node h).HasPort own)
    (hswitch : InSwitch (N.node h).zoo N.idOf own.2 p) (hreg5 : p.field .reg5 = 0)
    (harp : p.proto = .arp) (hsrc : p.field .ethSrc = own.1.macInt)
    (hwide : p.field .ethSrc < 2 ^ 48)
    (hnat : NoNat (N.node h).extra (N.node h).zoo N.idOf (p.field .regDp) own.1.macInt)
    (ip mac : ℕ) :
    OutAt N up h TABLE_LSP_INGRESS_UNTUNNEL (p.answered ip mac) [(portNum own.1.ofport,
        handed own ((p.answered ip mac).load .regDst own.1.portID))] := by
  have hagree := agree_answered (F := [.regDp, .reg5]) p ip mac (by decide)
  have hback : InSwitch (N.node h).zoo N.idOf own.2 (p.answered ip mac) :=
    ⟨hswitch.derived, (hagree.field .regDp (by decide)).trans hswitch.dp, fun htrace =>
      ((hasFlag_answered p ip mac .TRACE).mp htrace).elim (by decide) hswitch.trace⟩
  have hmac : own.1.macInt = (p.answered ip mac).field .ethDst := by
    rw [ethDst_answered, Nat.mod_eq_of_lt hwide, hsrc]
  have hloopback : ((p.answered ip mac).load .regDst own.1.portID).HasFlag .LOOPBACK :=
    (hasFlag_put_of_ne _ (by decide) _).mpr ((hasFlag_answered p ip mac .LOOPBACK).mpr (Or.inl rfl))
  refine out_untunnel hback (Or.inr (Or.inr ?_)) (out_toLocal hdistinct hown hback
    ((hagree.field .reg5 (by decide)).trans hreg5) ?_ hback.dp.symm hmac
    (ne_judged (bond_cases hown).1 (hdistinct.small own hown) hloopback))
  · have hproto : (p.answered ip mac).proto = p.proto := rfl
    unfold Packet.IsIp
    rw [hproto, harp]
    decide
  · rw [hagree.field .regDp (by decide), ← hmac]
    exact hnat

/-- **An ARP request is answered.**  Every run sends the one who asks for an IP of its switch, and
has its own Ethernet address as the source, exactly one reply, with the address of that IP; the
request goes to no other port and to no other chassis.  For this the IP must have one address only.
On a chassis that is not in on-demand mode the controller gets a copy of the request, too
(`uploadArp`). -/
theorem arp_answered (hdistinct : Distinct N h) (hown : (N.node h).HasPort own)
    (hid : N.idOf (Props.strOf own.2.lsID) < 2 ^ 24) (hclear : ∀ f ∈ Packet.cleared, p.field f = 0)
    (harp : p.proto = .arp) (hop : p.field .arpOp = 1) (hsrc : p.field .ethSrc = own.1.macInt)
    (hwide : p.field .ethSrc < 2 ^ 48) (hin : (p.field .inPort : ℤ) = own.1.ofport)
    (hnat : NoNat (N.node h).extra (N.node h).zoo N.idOf (N.idOf (Props.strOf own.2.lsID))
      own.1.macInt)
    {entry : ℕ × ℕ × Ls} (hentry : (arpIpMac (N.node h).extra).DerivesFrom (Built (N.node h).zoo)
      entry)
    (hls : N.idOf (Props.strOf entry.2.2.lsID) = N.idOf (Props.strOf own.2.lsID))
    (htpa : p.field .arpTpa = entry.1)
    (hsame : ∀ e, (arpIpMac (N.node h).extra).DerivesFrom (Built (N.node h).zoo) e →
      N.idOf (Props.strOf e.2.2.lsID) = N.idOf (Props.strOf own.2.lsID) → e.1 = entry.1 →
      e.2.1 = entry.2.1) :
    ∃ q, Delivers N up h p h (portNum own.1.ofport) q ∧ Reply p entry.2.1 q := by
  have hsearch := sought_looked hown hid hclear hin
  have hpayload := agree_looked (F := payload) N.idOf own p (by decide)
  have htrace := (sought_entering hown hid hclear hin).switch.trace
  have hbegin : ∀ {ws}, OutAt N up h TABLE_LSP_INGRESS_ARP_RESPONSE
        ((entering N.idOf own p).load .regDst 0) ws →
      (N.bridgeUp up h).Brings TABLE_CONVERT_PHY_LOGICAL p [] ws := fun hout =>
    brings_of_port hdistinct hown hin (out_traceIngress htrace (out_ext
      (out_arpController hsearch.switch (fun h2 => by
        have hop' := (hpayload.field .arpOp (by decide)).trans hop
        rw [hop'] at h2
        exact absurd h2.2 (by decide)) hout)))
  generalize (entering N.idOf own p).load .regDst 0 = s at hsearch hpayload hbegin
  have hs := hsearch.switch
  have hproto := hpayload.proto.trans harp
  have hfrom := hpayload.field .ethSrc (by decide)
  have htpa' := (hpayload.field .arpTpa (by decide)).trans htpa
  have hreply : Reply p entry.2.1 (s.answered entry.1 entry.2.1) := by
    rw [← htpa']
    exact (reply_answered s entry.2.1 hproto).of_agree hpayload
  have hnat' : NoNat (N.node h).extra (N.node h).zoo N.idOf (s.field .regDp) own.1.macInt := by
    rw [hs.dp]
    exact hnat
  exact ⟨_, .here (hbegin (out_arpRequest hs hentry hproto
    ((hpayload.field .arpOp (by decide)).trans hop) (hs.dp.trans hls.symm) htpa'
    (fun e he hedp hetpa => hsame e he (hedp.symm.trans hs.dp) (hetpa.symm.trans htpa'))
    (out_answered hdistinct hown hs hsearch.reg5 hproto (hfrom.trans hsrc) (hfrom.trans_lt hwide)
      hnat'
      entry.1 entry.2.1)))
    (wire_of_hasPort hown), hreply.congr
      ((agree_load _ _ (by decide)).trans (agree_handed _ _ (by decide)))⟩

end deliver

/-! ### The switch on two chassis -/

section pair
open Hosts Delivery

/-- The two chassis with `ENABLE_REDIRECT`. -/
def liveNet : Network Bool where
  node h := { pairNode h with options := ⟨false, true, false, none⟩ }
  idOf := digit
  wire := pairWire
  sends hwire lsp hlsp := pairNet.sends hwire lsp hlsp
  host _ _ hopts := by cases hopts
  receives hwire lsp hlsp := pairNet.receives hwire lsp hlsp

/-- Their tunnel is up. -/
def tunnelUp (_ : Bool) (ofport : ℤ) : Prop := ofport = 5

set_option maxRecDepth 100000

theorem distinct_pair (h : Bool) : Distinct liveNet h :=
  distinct_of_apart (by revert h; decide +kernel)

theorem noNat_pair (h : Bool) (dp mac : ℕ) :
    NoNat (pairNode h).extra (pairNode h).zoo digit dp mac := by
  have hnone : ∀ nat, (lnatLink (pairNode h).extra).DerivesFrom (Built (pairNode h).zoo) nat →
      False :=
    derives_all (by revert h; decide +kernel)
  exact fun nat hnat => (hnone nat hnat).elim

/-- A request of `lsp-1` for the address of `lsp-2`. -/
def arpPacket : Packet := ⟨.arp, 0, fun f =>
  match f with
  | .inPort => 3
  | .ethDst => 0xffffffffffff
  | .ethSrc => 0xf2010a000001
  | .arpOp => 1
  | .arpSha => 0xf2010a000001
  | .arpSpa => 0x0a000001
  | .arpTpa => 0x0a000002
  | _ => 0⟩

theorem arp_answered_pair :
    ∃ q, Delivers liveNet tunnelUp false arpPacket false 3 q ∧
    Reply arpPacket 0xf2010a000002 q := by
  have hown : ∃ own, (liveNet.node false).HasPort own ∧
      (digit (Props.strOf own.2.lsID) = 1 ∧ own.1.macInt = 0xf2010a000001) :=
    derives_some (by decide +kernel)
  have hentry : ∃ e, (arpIpMac (liveNet.node false).extra).DerivesFrom
      (Built (liveNet.node false).zoo) e ∧
      (digit (Props.strOf e.2.2.lsID) = 1 ∧ e.1 = 0x0a000002 ∧ e.2.1 = 0xf2010a000002) :=
    derives_some (by decide +kernel)
  have hsame : ∀ e, (arpIpMac (liveNet.node false).extra).DerivesFrom
      (Built (liveNet.node false).zoo) e →
      (e.1 = 0x0a000002 → e.2.1 = 0xf2010a000002) := derives_all (by decide +kernel)
  obtain ⟨own, hown, hls, hmac⟩ := hown
  obtain ⟨entry, hentry, hels, hip, hemac⟩ := hentry
  have h : ∃ q, Delivers liveNet tunnelUp false arpPacket false (portNum own.1.ofport) q ∧
      Reply arpPacket entry.2.1 q := arp_answered (distinct_pair false) hown
    (by rw [show liveNet.idOf = digit from rfl, hls]; decide) (by decide) rfl rfl hmac.symm
      (by decide)
    (by rw [ofport_of_hasPort hown]; rfl) (noNat_pair false _ _) hentry (hels.trans hls.symm)
      hip.symm
    (fun e he _ heip => (hsame e he (heip.trans hip)).trans hemac.symm)
  rw [ofport_of_hasPort hown, hemac] at h
  exact h

end pair

end Unicast

end TupleNet
