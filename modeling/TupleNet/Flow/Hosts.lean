import TupleNet.Flow.Delivery

/-! # Chassis and tunnels

Several bridges, each with flows built from its own view of the network, and the tunnels between
their ports.  What one bridge writes into the metadata of a tunnel the other one reads
(`carried_by_tunnel`).

A packet that a chassis sends to another one has made a hop, or has been redirected, or has been
answered, or has found its Ethernet address, or else goes to where the chassis believes the port
with its address to be (`Places`).  So packets go in circles only if these beliefs do
(`no_circulation`). -/

namespace TupleNet

open Datalog Resubmit LogicalView LongestPrefix BuildFlows Forms Lookups Delivery

/-! ### Through a tunnel -/

namespace Packet

/-- What a packet from a tunnel has lost. -/
def cleared : List Field := [.regSrc, .regDst, .reg2, .reg3, .regOutport, .reg5, .reg6, .reg7,
  .regFlag, .regDp]

/-- The packet at the other end of a tunnel, which is the port `n` there. -/
def arrive (n : ℕ) (p : Packet) : Packet :=
  { p with field := fun f => if f ∈ cleared then 0 else if f = .inPort then n else p.field f }

/-- The packet as it enters the stages from a tunnel. -/
def entered (p : Packet) : Packet := p.extracted.flag .LOOPBACK

section arrive
variable {F : List Field} (p : Packet) (n : ℕ)

theorem agree_arrive (h : ∀ f ∈ .inPort :: cleared, f ∉ F) : p.Agree F (p.arrive n) := by
  refine ⟨rfl, fun f hf => ?_⟩
  have hcleared : f ∉ cleared := fun hc => h f (List.mem_cons_of_mem _ hc) hf
  have hport : f ≠ .inPort := fun heq => h f (heq ▸ List.mem_cons_self) hf
  exact (if_neg hcleared).trans (if_neg hport)

theorem arrive_cleared {f : Field} (h : f ∈ cleared) : (p.arrive n).field f = 0 := if_pos h

theorem agree_entered (h : ∀ f ∈ [Field.regDp, .regSrc, .regDst, .regFlag], f ∉ F) :
    p.Agree F p.entered :=
  (agree_extracted p h).trans (agree_flag _ _ (h _ (by decide)))

/-- The registers of a packet that has come by a tunnel. -/
theorem entered_regs (hp : ∀ f ∈ [Field.regDp, .regSrc, .regDst], p.field f = 0) :
    p.entered.field .regDp = p.bits (.range .tunId 0 23) ∧
      p.entered.field .regSrc = p.bits (.range .tunMetadata0 0 15) ∧
      p.entered.field .regDst = p.bits (.range .tunMetadata0 16 31) := by
  -- the other bits of the registers have been clear before
  have hspec := extracted_spec p
  have hlow : ∀ (f : Field) (stop : ℕ), f ∈ [Field.regDp, .regSrc, .regDst] →
      p.extracted.field f < 2 ^ (stop + 1) →
      p.entered.field f = p.extracted.bits (.range f 0 stop) := by
    intro f stop hf hlt
    have hne : f ≠ .regFlag := by
      rintro rfl
      exact absurd hf (by decide)
    have hbits : p.extracted.bits (.range f 0 stop) = Bits.slice (p.extracted.field f) 0 stop := rfl
    rw [hbits, Bits.slice_zero, Nat.mod_eq_of_lt hlt]
    exact put_field_ne _ _ hne
  have hdp : p.extracted.field .regDp = Bits.splice (p.field .regDp) 0 23
      (p.bits (.range .tunId 0 23)) :=
    rfl
  have hsrc : p.extracted.field .regSrc =
      Bits.splice (p.field .regSrc) 0 15 (p.bits (.range .tunMetadata0 0 15)) := rfl
  have hdst : p.extracted.field .regDst =
      Bits.splice (p.field .regDst) 0 15 (p.bits (.range .tunMetadata0 16 31)) := rfl
  refine ⟨(hlow _ 23 (by decide) ?_).trans hspec.1, (hlow _ 15 (by decide) ?_).trans hspec.2.1,
    (hlow _ 15 (by decide) ?_).trans hspec.2.2.1⟩
  · rw [hdp, hp _ (by decide), Bits.splice_zero]
    exact Nat.mod_lt _ (Nat.two_pow_pos _)
  · rw [hsrc, hp _ (by decide), Bits.splice_zero]
    exact Nat.mod_lt _ (Nat.two_pow_pos _)
  · rw [hdst, hp _ (by decide), Bits.splice_zero]
    exact Nat.mod_lt _ (Nat.two_pow_pos _)

end arrive

/-- What enters at the other end of a tunnel, for a packet whose metadata are its own. -/
structure Carried (q s : Packet) : Prop where
  dp : s.field .regDp = q.field .regDp % 2 ^ 24
  src : s.field .regSrc = q.field .regSrc % 2 ^ 16
  dst : s.field .regDst = q.field .regDst % 2 ^ 16
  flag : ∀ f : Flag, s.HasFlag f ↔ f = .LOOPBACK ∨ q.HasFlag f
  reg5 : s.field .reg5 = 0
  rest : q.Agree [.ethSrc, .ethDst, .ipSrc, .ipDst, .ipTtl, .icmpType, .arpOp, .arpSpa, .arpTpa,
    .arpSha, .arpTha] s

theorem Carries.carried {q : Packet} (h : q.Carries) (n : ℕ) : Carried q (q.arrive n).entered := by
  have hbits : ∀ f ∈ [Field.tunId, .tunMetadata0], ∀ start stop,
      (q.arrive n).bits (.range f start stop) = q.bits (.range f start stop) := by
    intro f hf start stop
    have hfield := (agree_arrive (F := [.tunId, .tunMetadata0]) q n (by decide)).field f hf
    exact congrArg (fun m => Bits.slice m start stop) hfield
  obtain ⟨hdp, hsrc, hdst⟩ := entered_regs (q.arrive n) fun f hf =>
    arrive_cleared q n (by revert f; decide)
  refine ⟨hdp.trans ?_, hsrc.trans ?_, hdst.trans ?_, fun f => ?_, ?_, ?_⟩
  · rw [hbits _ (by decide), h.dp]
    exact Bits.slice_zero _ _
  · rw [hbits _ (by decide), h.src]
    exact Bits.slice_zero _ _
  · rw [hbits _ (by decide), h.dst]
    exact Bits.slice_zero _ _
  · refine (hasFlag_flag _ _ _).trans (or_congr_right ?_)
    have hread : q.bits (.range .regFlag 0 31) = Bits.slice (q.field .regFlag) 0 31 := rfl
    have hlt : f.bit < 31 + 1 - 0 := by cases f <;> decide
    rw [hasFlag_extracted, hbits _ (by decide), h.flags, hread, Bits.testBit_slice,
      decide_eq_true hlt,
      Bool.true_and, Nat.zero_add, HasFlag]
  · rw [(agree_entered (F := [.reg5]) (q.arrive n) (by decide)).field .reg5 (by decide)]
    exact arrive_cleared q n (by decide)
  · exact (agree_arrive q n (by decide)).trans (agree_entered _ (by decide))

end Packet

namespace Hosts

/-! ### Networks -/

/-- What a chassis builds its flows from. -/
structure Node where
  extra : Extra
  options : Options
  zoo : Zoo
  learned : List (ℕ × ℕ)

/-- The ports of a chassis that have an interface. -/
def Node.HasPort (c : Node) (lsp : LspPort × Ls) : Prop :=
  (localBondLsp c.extra).DerivesFrom (Built c.zoo) lsp

/-- Chassis and the tunnels between them.  A tunnel ends neither at a port of a switch nor at the
port of the host. -/
structure Network (H : Type) where
  node : H → Node
  /-- The number that Open vSwitch reads in the text of an id. -/
  idOf : String → ℕ
  /-- Where a port of a chassis leads to, and the port there. -/
  wire : H → ℕ → Option (H × ℕ)
  sends : ∀ {h n h' n'}, wire h n = some (h', n') → ∀ lsp, (node h).HasPort lsp →
    n ≠ portNum lsp.1.ofport
  host : ∀ {h n h' n'}, wire h n = some (h', n') → ∀ dsrport,
    (node h).options.dsrport = some dsrport → n ≠ portNum dsrport.2
  receives : ∀ {h n h' n'}, wire h n = some (h', n') → ∀ lsp, (node h').HasPort lsp →
    (n' : ℤ) ≠ lsp.1.ofport

namespace Network
variable {H : Type} (N : Network H)

/-- The tables of a chassis. -/
abbrev bridge (h : H) : Pipeline ℕ Packet ActionExp Sent :=
  Lookups.bridge (N.node h).extra (N.node h).options (N.node h).zoo (N.node h).learned N.idOf

/-- The tables of a chassis while these ports are up. -/
abbrev bridgeUp (up : H → ℤ → Prop) (h : H) : Pipeline ℕ Packet ActionExp Sent :=
  Lookups.bridgeUp (N.node h).extra (N.node h).options (N.node h).zoo (N.node h).learned N.idOf
  (up h)

/-- How a packet that comes in by a port of a chassis enters the switches. -/
abbrev Enters (h : H) (p s : Packet) : Prop :=
  Delivery.Enters (N.node h).extra (N.node h).zoo N.idOf p s

/-- A port of the chassis has the Ethernet address in a switch. -/
abbrev Hosted (h : H) (dp mac : ℕ) : Prop :=
  Lookups.Hosted N.idOf (N.node h).extra (N.node h).zoo dp mac

/-- A chassis, which has no port with the Ethernet address in the switch, believes that the other
one has. -/
def Places (dp mac : ℕ) (h h' : H) : Prop :=
  ¬ N.Hosted h dp mac ∧ ∃ lsp n', (remoteLsp (N.node h).extra).DerivesFrom (Built (N.node h).zoo)
  lsp ∧
    N.idOf (Props.strOf lsp.2.1.lsID) = dp ∧ lsp.1.macInt = mac ∧
    N.wire h (portNum lsp.2.2.ofport) = some (h', n')

/-- A packet goes from one chassis to another. -/
inductive Hop : H × Packet → H × Packet → Prop where
  | intro {h h' : H} {p : Packet} {w : Sent} {n' : ℕ}
      (hw : (N.bridge h).Emits TABLE_CONVERT_PHY_LOGICAL p w)
      (hwire : N.wire h w.1 = some (h', n')) : Hop (h, p) (h', w.2.arrive n')

variable {N} {h h' : H} {p s s' : Packet} {w : Sent} {n' : ℕ}

/-- What leaves a chassis by a tunnel carries its metadata. -/
theorem carries_of_emits (h5 : p.field .reg5 = 0)
    (hw : (N.bridge h).Emits TABLE_CONVERT_PHY_LOGICAL p w) (hwire : N.wire h w.1 = some (h', n')) :
    w.2.Carries := by
  obtain ⟨s, _, hgoes | ⟨dsrport, q, hopts, _, rfl⟩⟩ := goes_of_emits h5 hw
  · cases hgoes with
    | host lsp hlsp hn _ _ _ => exact absurd hn (N.sends hwire lsp hlsp)
    | away _ _ _ _ _ _ _ hcarries _ => exact hcarries
    | gateway _ _ _ _ _ hcarries _ => exact hcarries
  · exact absurd rfl (N.host hwire dsrport hopts)

/-- What comes by a tunnel enters by a tunnel. -/
theorem enters_of_wire {n : ℕ} {q : Packet} (hwire : N.wire h n = some (h', n'))
    (hs : N.Enters h' (q.arrive n') s) : s = (q.arrive n').entered := by
  cases hs with
  | tunnel c hc hin => rfl
  | port lsp hlsp hin =>
      refine absurd ?_ (N.receives hwire lsp hlsp)
      exact hin

end Network

/-! ### The switch on two chassis -/

/-- The zoo of `hyper-2`. -/
def otherZoo : Zoo := Zoo.runOps (.node false "hyper-2") [.addEntity (.LS "LS-1" (some "1")),
  .addEntity (.lsp "lsp-1" (some "10.0.0.1") (some "f2:01:0a:00:00:01") "LS-1" (some "hyper-1")
    none),
  .addEntity (.lsp "lsp-2" (some "10.0.0.2") (some "f2:01:0a:00:00:02") "LS-1" (some "hyper-2")
    none),
  .addEntity (.chassis "hyper-1" (some "192.168.0.1") (some "1")),
  .addEntity (.ovsport "tap1" "lsp-2" 3 false),
  .addEntity (.ovsport "tupleNet-1" "hyper-1" 5 true)]

/-- `hyper-1` and, for `true`, `hyper-2`. -/
def pairNode : Bool → Node
  | false => ⟨.node false "hyper-1", ⟨false, false, false, none⟩, pairZoo, []⟩
  | true => ⟨.node false "hyper-2", ⟨false, false, false, none⟩, otherZoo, []⟩

/-- Their tunnel. -/
def pairWire (h : Bool) (n : ℕ) : Option (Bool × ℕ) := if n = 5 then some (!h, 5) else none

theorem eq_of_pairWire {h h' : Bool} {n n' : ℕ} (hwire : pairWire h n = some (h', n')) :
    n = 5 ∧ h' = !h ∧ n' = 5 := by
  unfold pairWire at hwire
  split_ifs at hwire with hn
  cases hwire
  exact ⟨hn, rfl, rfl⟩

set_option maxRecDepth 100000 in
/-- Both ports have the number 3. -/
theorem ofport_of_hasPort {h : Bool} {lsp : LspPort × Ls} (hlsp : (pairNode h).HasPort lsp) :
    lsp.1.ofport = 3 := by
  have hports : ∀ h, ∀ d ∈ (localBondLsp (pairNode h).extra).eval (pairNode h).zoo.scratch,
      d.1.1.ofport = 3 := by decide +kernel
  obtain ⟨sup, hsup⟩ := derivesFrom_built_iff.mp hlsp
  exact hports h _ hsup

/-- The two chassis. -/
def pairNet : Network Bool where
  node := pairNode
  idOf := digit
  wire := pairWire
  sends hwire lsp hlsp := by
    rw [(eq_of_pairWire hwire).1, ofport_of_hasPort hlsp]
    decide
  host {h _ _ _} _ dsrport hopts := by cases h <;> cases hopts
  receives hwire lsp hlsp := by
    rw [(eq_of_pairWire hwire).2.2, ofport_of_hasPort hlsp]
    decide

namespace Network
variable {H : Type} {N : Network H} {h h' : H} {p s s' : Packet} {w : Sent} {n' : ℕ}

/-- **A tunnel carries the registers.**  A packet that leaves a chassis by a tunnel enters the other
chassis in the same switch, from the same port, for the same port and with the same flags, as far as
the metadata have room for them; and nothing else of it has changed. -/
theorem carried_by_tunnel (h5 : p.field .reg5 = 0)
    (hw : (N.bridge h).Emits TABLE_CONVERT_PHY_LOGICAL p w) (hwire : N.wire h w.1 = some (h', n'))
    (hs : N.Enters h' (w.2.arrive n') s) : w.2.Carried s := by
  rw [enters_of_wire hwire hs]
  exact (carries_of_emits h5 hw hwire).carried n'

set_option maxRecDepth 100000 in
theorem carried_by_tunnel_pair : ∃ (w : Sent) (s : Packet),
    pairNet.Enters true (w.2.arrive 5) s ∧ w.2.Carried s := by
  have hchassis : ∃ d ∈ remoteChassis.eval otherZoo.scratch, d.1.ofport = 5 := by decide +kernel
  obtain ⟨w, hw, hport⟩ := Flows.emits_of_ports digit pairPacket_ports (List.mem_singleton_self 5)
  obtain ⟨⟨c, sup⟩, hsup, hc⟩ := hchassis
  have hs : pairNet.Enters true (w.2.arrive 5) (w.2.arrive 5).entered :=
    .tunnel c (derivesFrom_built_iff.mpr ⟨sup, hsup⟩) hc.symm
  have hwire : pairNet.wire false w.1 = some (true, 5) := by rw [hport]; rfl
  exact ⟨w, _, hs, carried_by_tunnel (h := false) rfl hw hwire hs⟩

end Network

/-! ### Hops -/

open Classical in
/-- What a hop makes lower, unless the packet keeps its destination. -/
noncomputable def weight (s : Packet) : ℕ × ℕ × ℕ × ℕ :=
  (hopBudget s, if s.HasFlag .REDIRECT then 0 else 1,
    if s.proto = .arp ∧ s.field .arpOp = 1 then 1 else 0, if s.field .ethDst = 0 then 1 else 0)

/-- The order of weights. -/
def Less : ℕ × ℕ × ℕ × ℕ → ℕ × ℕ × ℕ × ℕ → Prop :=
  Prod.Lex (· < ·) (Prod.Lex (· < ·) (Prod.Lex (· < ·) (· < ·)))

theorem wellFounded_less : WellFounded Less :=
  WellFounded.prod_lex Nat.lt_wfRel.wf (WellFounded.prod_lex Nat.lt_wfRel.wf
    (WellFounded.prod_lex Nat.lt_wfRel.wf Nat.lt_wfRel.wf))

section less
variable {s s' : Packet}

theorem less_of_hops (h : hopBudget s' < hopBudget s) : Less (weight s') (weight s) :=
    Prod.Lex.left _ _ h

theorem less_of_flag (hops : hopBudget s' ≤ hopBudget s) (hs : ¬ s.HasFlag .REDIRECT)
    (hs' : s'.HasFlag .REDIRECT) : Less (weight s') (weight s) := by
  rcases Nat.lt_or_eq_of_le hops with hlt | heq
  · exact less_of_hops hlt
  · unfold weight
    rw [heq, if_pos hs', if_neg hs]
    exact Prod.Lex.right _ (Prod.Lex.left _ _ Nat.one_pos)

/-- The same hops and flag: an answer, or an Ethernet address that has been found. -/
theorem less_of_rest (hops : hopBudget s' = hopBudget s)
    (hflag : s.HasFlag .REDIRECT → s'.HasFlag .REDIRECT) (hproto : s'.proto = s.proto)
    (h : (s.proto = .arp ∧ s.field .arpOp = 1) ∧ s'.field .arpOp = 2 ∨
      s.proto ≠ .arp ∧ s.field .ethDst = 0 ∧ s'.field .ethDst ≠ 0) :
      Less (weight s') (weight s) := by
  by_cases hnew : s'.HasFlag .REDIRECT ∧ ¬ s.HasFlag .REDIRECT
  · exact less_of_flag (Nat.le_of_eq hops) hnew.2 hnew.1
  · have hsame : s'.HasFlag .REDIRECT ↔ s.HasFlag .REDIRECT :=
      ⟨fun h => by_contra fun hs => hnew ⟨h, hs⟩, hflag⟩
    unfold weight
    rw [hops, hproto]
    simp only [hsame]
    refine Prod.Lex.right _ (Prod.Lex.right _ ?_)
    rcases h with ⟨hreq, hans⟩ | ⟨hnot, hzero, hne⟩
    · rw [if_pos hreq, if_neg (by rw [hans]; simp)]
      exact Prod.Lex.left _ _ Nat.one_pos
    · have harp : ∀ q : Packet, ¬ (s.proto = .arp ∧ q.field .arpOp = 1) := fun _ h => hnot h.1
      rw [if_neg (harp s'), if_neg (harp s), if_pos hzero, if_neg hne]
      exact Prod.Lex.right _ Nat.one_pos

end less

namespace Network
variable {H : Type} {N : Network H} {h h' : H} {p : Packet}

variable (N) in
/-- The packet has come to the chassis by a tunnel. -/
def Arrived (h : H) (p : Packet) : Prop :=
  ∃ (h₀ : H) (n₀ n : ℕ) (q : Packet), N.wire h₀ n₀ = some (h, n) ∧ p = q.arrive n

theorem Arrived.reg5 (hp : N.Arrived h p) : p.field .reg5 = 0 := by
  obtain ⟨_, _, n, q, _, rfl⟩ := hp
  exact Packet.arrive_cleared q n (by decide)

theorem Arrived.enters (hp : N.Arrived h p) {s : Packet} (hs : N.Enters h p s) : s = p.entered := by
  obtain ⟨_, _, n, q, hwire, rfl⟩ := hp
  exact enters_of_wire hwire hs

theorem Arrived.dp_lt (hp : N.Arrived h p) : p.entered.field .regDp < 2 ^ 24 := by
  obtain ⟨_, _, n, q, _, rfl⟩ := hp
  rw [(Packet.entered_regs (q.arrive n) fun f hf => Packet.arrive_cleared q n (by
    revert f
    decide)).1]
  exact Bits.slice_lt _ _ _

theorem arrived_of_hop {c c' : H × Packet} (hhop : N.Hop c c') : N.Arrived c'.1 c'.2 := by
  cases hhop with
  | intro hw hwire => exact ⟨_, _, _, _, hwire, rfl⟩

/-- **A hop lowers the weight**, or the packet goes to where the chassis believes its port to be. -/
theorem less_of_hop (hp : N.Arrived h p) {p' : Packet} (hhop : N.Hop (h, p) (h', p')) :
    Less (weight p'.entered) (weight p.entered) ∨
      weight p'.entered = weight p.entered ∧
      p'.entered.field .regDp = p.entered.field .regDp ∧
      p'.entered.field .ethDst = p.entered.field .ethDst ∧
      N.Places (p.entered.field .regDp) (p.entered.field .ethDst) h h' := by
  cases hhop with
  | @intro _ _ _ w n' hw hwire =>
  have hcarried : w.2.Carried (w.2.arrive n').entered :=
    (carries_of_emits hp.reg5 hw hwire).carried n'
  generalize (w.2.arrive n').entered = s' at hcarried ⊢
  have hfield := hcarried.rest.field
  have hops : hopBudget s' = hopBudget w.2 := hopBudget_congr (hcarried.rest.mono (by decide))
  have hproto : s'.proto = w.2.proto := hcarried.rest.proto
  have hredirect : s'.HasFlag .REDIRECT ↔ w.2.HasFlag .REDIRECT :=
    (hcarried.flag .REDIRECT).trans (or_iff_right (by decide))
  obtain ⟨s, hs, hgoes⟩ := goes_of_emits hp.reg5 hw
  have hdp : s.field .regDp < 2 ^ 24 := hp.enters hs ▸ hp.dp_lt
  obtain rfl := hp.enters hs
  rcases hgoes with hgoes | ⟨dsrport, q, hopts, _, rfl⟩
  · cases hgoes with
    | host lsp hlsp hn _ _ _ => exact absurd hn (N.sends hwire lsp hlsp)
    | gateway c hc hn hnot hflag _ hq =>
        refine Or.inl (less_of_flag (hops ▸ ?_) hnot (hredirect.mpr hflag))
        exact hq.elim (fun h => Nat.le_of_eq h.hops) fun h => Nat.le_of_lt h.hops
    | away lsp hlsp hn hlspdp hmac _ hnot _ hq =>
        cases hq with
        | routed h => exact Or.inl (less_of_hops (hops ▸ h.hops))
        | resumed h hne =>
            refine Or.inl (less_of_rest (hops.trans h.hops) (fun _ => hredirect.mpr h.flag)
              (hproto.trans h.proto) (Or.inr ⟨?_, h.mac, ?_⟩))
            · exact Packet.IsIp.ne_arp ((isIp_congr h.proto).mp h.ip)
            · rw [hfield .ethDst (by decide)]
              exact hne
        | here h =>
            rcases h.same with ⟨hdst, hop⟩ | ⟨hreq, hans⟩
            · have hdp' : s'.field .regDp = p.entered.field .regDp := by
                rw [hcarried.dp, h.dp, Nat.mod_eq_of_lt hdp]
              have hdst' := (hfield .ethDst (by decide)).trans hdst
              by_cases hnew : w.2.HasFlag .REDIRECT ∧ ¬ p.entered.HasFlag .REDIRECT
              · exact Or.inl (less_of_flag (Nat.le_of_eq (hops.trans h.hops)) hnew.2
                  (hredirect.mpr hnew.1))
              · have hsame : s'.HasFlag .REDIRECT ↔ p.entered.HasFlag .REDIRECT :=
                  ⟨fun h => by_contra fun hs => hnew ⟨hredirect.mp h, hs⟩,
                    fun hs => hredirect.mpr (h.flag hs)⟩
                refine Or.inr ⟨?_, hdp', hdst', ?_, lsp, n', hlsp, ?_, ?_, hn ▸ hwire⟩
                · unfold weight
                  rw [hops, h.hops, hproto, h.proto, hdst', hfield .arpOp (by decide), hop]
                  simp only [hsame]
                · rw [← h.dp, ← hdst]
                  exact hnot
                · exact hlspdp.symm.trans h.dp
                · exact hmac.symm.trans hdst
            · refine Or.inl (less_of_rest (hops.trans h.hops)
                (fun hs => hredirect.mpr (h.flag hs)) (hproto.trans h.proto) (Or.inl ⟨hreq, ?_⟩))
              exact (hfield .arpOp (by decide)).trans hans
  · exact absurd rfl (N.host hwire dsrport hopts)

/-- What a hop of a packet that has come by a tunnel lowers. -/
noncomputable def rank (c : H × Packet) :
    PSigma fun _ : (ℕ × ℕ × ℕ × ℕ) × ℕ × ℕ => H :=
  ⟨(weight c.2.entered, c.2.entered.field .regDp, c.2.entered.field .ethDst), c.1⟩

variable (N) in
/-- A lower weight, or else the same destination at a chassis that the other one leads to. -/
def Descends : (PSigma fun _ : (ℕ × ℕ × ℕ × ℕ) × ℕ × ℕ => H) →
    (PSigma fun _ : (ℕ × ℕ × ℕ × ℕ) × ℕ × ℕ => H) → Prop :=
  PSigma.Lex (fun a b => Less a.1 b.1) fun k h' h => N.Places k.2.1 k.2.2 h h'

theorem wellFounded_descends (hplaces : ∀ dp mac, WellFounded fun h' h => N.Places dp mac h h') :
    WellFounded N.Descends :=
  ⟨fun ⟨k, h⟩ => PSigma.lexAccessible ((InvImage.wf Prod.fst wellFounded_less).apply k)
    (fun k => hplaces k.2.1 k.2.2) h⟩

theorem descends_of_hop {c c' : H × Packet} (hc : N.Arrived c.1 c.2) (hhop : N.Hop c c') :
    N.Descends (rank c') (rank c) := by
  obtain ⟨h, p⟩ := c
  obtain ⟨h', p'⟩ := c'
  rcases less_of_hop hc hhop with hless | ⟨hweight, hdp, hmac, hplace⟩
  · exact PSigma.Lex.left _ _ hless
  · unfold rank
    dsimp only
    rw [hweight, hdp, hmac]
    exact PSigma.Lex.right _ hplace

/-- **No packet goes in circles.**  If the beliefs of the chassis about each Ethernet address of
each switch do not lead on for ever, then no packet goes from chassis to chassis for ever, whether
it is switched, routed, answered or redirected. -/
theorem no_circulation (hplaces : ∀ dp mac, WellFounded fun h' h => N.Places dp mac h h')
    (run : ℕ → H × Packet) : ¬ ∀ n, N.Hop (run n) (run (n + 1)) := fun hrun =>
  (wellFounded_iff_isEmpty_descending_chain.mp (wellFounded_descends hplaces)).false
    ⟨fun n => rank (run (n + 1)),
      fun n => descends_of_hop (arrived_of_hop (hrun n)) (hrun (n + 1))⟩

/-- Beliefs that are right do not lead on. -/
theorem wellFounded_places (hright : ∀ dp mac h h', N.Places dp mac h h' → N.Hosted h' dp mac)
    (dp mac : ℕ) : WellFounded fun h' h => N.Places dp mac h h' :=
  ⟨fun h => Acc.intro h fun h' hplace =>
    Acc.intro h' fun _ hnext => absurd (hright dp mac h h' hplace) hnext.1⟩

set_option maxRecDepth 100000 in
/-- The two chassis are right about each other. -/
theorem hosted_of_places_pair (dp mac : ℕ) (h h' : Bool) (hplace : pairNet.Places dp mac h h') :
    pairNet.Hosted h' dp mac := by
  have hhosts : ∀ h, ∀ d ∈ (remoteLsp (pairNode h).extra).eval (pairNode h).zoo.scratch,
      ∃ e ∈ (localLsp (pairNode !h).extra).eval (pairNode !h).zoo.scratch,
        digit (Props.strOf e.1.2.lsID) = digit (Props.strOf d.1.2.1.lsID) ∧
          e.1.1.macInt = d.1.1.macInt := by decide +kernel
  obtain ⟨_, lsp, n', hlsp, hdp, hmac, hwire⟩ := hplace
  obtain ⟨_, rfl, _⟩ := eq_of_pairWire hwire
  obtain ⟨sup, hsup⟩ := derivesFrom_built_iff.mp hlsp
  obtain ⟨e, he, hdp', hmac'⟩ := hhosts h _ hsup
  exact ⟨e.1, derivesFrom_built_iff.mpr ⟨e.2, he⟩, hdp'.trans hdp, hmac'.trans hmac⟩

theorem no_circulation_pair :
    ¬ ∃ run : ℕ → Bool × Packet, ∀ n, pairNet.Hop (run n) (run (n + 1)) := fun ⟨run, hrun⟩ =>
  no_circulation (wellFounded_places hosted_of_places_pair) run hrun

end Network

end Hosts

end TupleNet
