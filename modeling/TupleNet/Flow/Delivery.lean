import TupleNet.Flow.Lookups

/-! # Where packets go

What a bridge puts out, for a packet that comes in by one of its ports.  It goes to the port of this
node that its registers name, to the chassis that hosts the port with its Ethernet address, or, if
it has not been redirected before, to a gateway (`Goes`).  A packet leaves its switch by a router
only, which costs it a hop, and only as an IP packet (`Mode`). -/

namespace TupleNet

open Datalog Resubmit LogicalView LongestPrefix BuildFlows Forms Lookups

/-! ### What a tunnel carries -/

namespace Packet

/-- The metadata of the tunnel are those of the packet. -/
structure Carries (p : Packet) : Prop where
  dp : p.bits (.range .tunId 0 23) = p.bits (.range .regDp 0 23)
  src : p.bits (.range .tunMetadata0 0 15) = p.bits (.range .regSrc 0 15)
  dst : p.bits (.range .tunMetadata0 16 31) = p.bits (.range .regDst 0 15)
  flags : p.bits (.range .tunMetadata0 32 63) = p.bits (.range .regFlag 0 31)

theorem bits_put (p : Packet) (f : Field) {start stop n : ℕ} (h : start ≤ stop) :
    (p.put (.range f start stop) n).bits (.range f start stop) = n % 2 ^ (stop + 1 - start) := by
  simp only [bits, put, NXMReg.range, Function.update_self]
  exact Bits.slice_splice h

/-- Other bits than those that have been written. -/
theorem bits_put_apart (p : Packet) {f g : Field} {start stop start' stop' : ℕ} (n : ℕ)
    (h : start ≤ stop) (hapart : f ≠ g ∨ stop' < start ∨ stop < start') :
    (p.put (.range f start stop) n).bits (.range g start' stop') =
      p.bits (.range g start' stop') := by
  by_cases hfg : g = f
  · subst hfg
    simp only [bits, put, NXMReg.range, Function.update_self]
    exact Bits.slice_splice_of_disjoint h (hapart.resolve_left fun h => h rfl)
  · simp only [bits, put, NXMReg.range, Function.update_of_ne hfg]

theorem bits_mod (p : Packet) (f : Field) (start stop : ℕ) :
    p.bits (.range f start stop) % 2 ^ (stop + 1 - start) = p.bits (.range f start stop) :=
  Nat.mod_eq_of_lt (Bits.slice_lt _ _ _)

theorem carries_embedded (p : Packet) : p.embedded.Carries := by
  refine ⟨?_, ?_, ?_, ?_⟩
  all_goals unfold embedded
  all_goals simp (disch := decide) only [bits_put_apart, bits_put]
  · exact bits_mod p .regDp 0 23
  · exact bits_mod p .regSrc 0 15
  · exact bits_mod p .regDst 0 15
  · exact bits_mod p .regFlag 0 31

theorem Carries.tracedOut {p : Packet} (h : p.Carries) : p.tracedOut.Carries := by
  refine ⟨?_, ?_, ?_, ?_⟩
  all_goals unfold Packet.tracedOut
  · simp (disch := decide) only [bits_put_apart, traced]
    exact h.dp
  · simp (disch := decide) only [bits_put_apart, traced]
    exact h.src
  · simp (disch := decide) only [bits_put_apart, traced]
    exact h.dst
  · simp (disch := decide) only [bits_put_apart, bits_put]
    exact bits_mod p.traced .regFlag 0 31

/-- What another chassis reads from the tunnel. -/
theorem extracted_spec (p : Packet) :
    p.extracted.bits (.range .regDp 0 23) = p.bits (.range .tunId 0 23) ∧
      p.extracted.bits (.range .regSrc 0 15) = p.bits (.range .tunMetadata0 0 15) ∧
      p.extracted.bits (.range .regDst 0 15) = p.bits (.range .tunMetadata0 16 31) ∧
      p.extracted.bits (.range .regFlag 0 31) = p.bits (.range .tunMetadata0 32 63) := by
  refine ⟨?_, ?_, ?_, ?_⟩
  all_goals unfold extracted
  all_goals simp (disch := decide) only [bits_put_apart, bits_put]
  · exact bits_mod p .tunId 0 23
  · exact bits_mod p .tunMetadata0 0 15
  · exact bits_mod p .tunMetadata0 16 31
  · exact bits_mod p .tunMetadata0 32 63

/-- The flags of a packet from a tunnel. -/
theorem hasFlag_extracted (p : Packet) (flag : Flag) : p.extracted.HasFlag flag ↔
    (p.bits (.range .tunMetadata0 32 63)).testBit flag.bit = true := by
  have hflags := (extracted_spec p).2.2.2
  have hbits : p.extracted.bits (.range .regFlag 0 31) =
      Bits.slice (p.extracted.field .regFlag) 0 31 := rfl
  have hlt : flag.bit < 31 + 1 - 0 := by cases flag <;> decide
  rw [HasFlag, ← hflags, hbits, Bits.testBit_slice, decide_eq_true hlt, Bool.true_and, Nat.zero_add]

end Packet

namespace Delivery

/-! ### How far a packet has come -/

/-- The time to live, and 256 more for an echo request: a router port that answers it gives the
answer a time to live of up to 255 again, once. -/
def hopBudget (p : Packet) : ℕ := p.field .ipTtl + if p.field .icmpType = 8 then 256 else 0

/-- The fields of the budget. -/
def hopFields : List Field := [.icmpType, .ipTtl]

/-- The fields that say how far a packet has come in a switch. -/
def modeFields : List Field := hopFields ++ [.regDp, .ethDst, .arpOp]

/-- The packet `s`, which came in, is in its switch; an ARP request may have been answered. -/
structure Here (s p : Packet) : Prop where
  dp : p.field .regDp = s.field .regDp
  hops : hopBudget p = hopBudget s
  proto : p.proto = s.proto
  flag : s.HasFlag .REDIRECT → p.HasFlag .REDIRECT
  same : p.field .ethDst = s.field .ethDst ∧ p.field .arpOp = s.field .arpOp ∨
    (s.proto = .arp ∧ s.field .arpOp = 1) ∧ p.field .arpOp = 2

/-- It is an IP packet that has made a hop, or the answer to an echo request. -/
structure Routed (s p : Packet) : Prop where
  ip : p.IsIp
  hops : hopBudget p < hopBudget s
  proto : p.proto = s.proto
  flag : s.HasFlag .REDIRECT → p.HasFlag .REDIRECT

/-- It is an IP packet that another chassis has redirected, since it did not know the next hop. -/
structure Resumed (s p : Packet) : Prop where
  ip : p.IsIp
  hops : hopBudget p = hopBudget s
  proto : p.proto = s.proto
  redirected : s.HasFlag .REDIRECT
  mac : s.field .ethDst = 0
  flag : p.HasFlag .REDIRECT

/-- How far a packet in a switch has come. -/
inductive Mode (s p : Packet) : Prop where
  | here (h : Here s p)
  | routed (h : Routed s p)
  | resumed (h : Resumed s p) (hmac : p.field .ethDst ≠ 0)

section modes
variable {s p q : Packet}

theorem hopBudget_congr (h : p.Agree hopFields q) : hopBudget q = hopBudget p := by
  unfold hopBudget
  rw [h.field .icmpType (by decide), h.field .ipTtl (by decide)]

theorem isIp_congr (h : q.proto = p.proto) : q.IsIp ↔ p.IsIp := by
  unfold Packet.IsIp
  rw [h]

theorem Here.refl (s : Packet) : Here s s := ⟨rfl, rfl, rfl, id, Or.inl ⟨rfl, rfl⟩⟩

theorem hop_of_mode (h : p.Agree modeFields q) : p.Agree hopFields q :=
  h.mono fun _ hf => List.mem_append_left _ hf

theorem Here.congr (h : Here s p) (hq : p.Agree modeFields q)
    (hflag : p.HasFlag .REDIRECT → q.HasFlag .REDIRECT) : Here s q where
  dp := (hq.field .regDp (by decide)).trans h.dp
  hops := (hopBudget_congr (hop_of_mode hq)).trans h.hops
  proto := hq.proto.trans h.proto
  flag hs := hflag (h.flag hs)
  same := by
    rw [hq.field .ethDst (by decide), hq.field .arpOp (by decide)]
    exact h.same

theorem Routed.congr (h : Routed s p) (hq : p.Agree hopFields q)
    (hflag : p.HasFlag .REDIRECT → q.HasFlag .REDIRECT) : Routed s q where
  ip := (isIp_congr hq.proto).mpr h.ip
  hops := hopBudget_congr hq ▸ h.hops
  proto := hq.proto.trans h.proto
  flag hs := hflag (h.flag hs)

theorem Resumed.congr (h : Resumed s p) (hq : p.Agree hopFields q)
    (hflag : p.HasFlag .REDIRECT → q.HasFlag .REDIRECT) : Resumed s q where
  ip := (isIp_congr hq.proto).mpr h.ip
  hops := (hopBudget_congr hq).trans h.hops
  proto := hq.proto.trans h.proto
  redirected := h.redirected
  mac := h.mac
  flag := hflag h.flag

theorem Mode.congr (h : Mode s p) (hq : p.Agree modeFields q)
    (hflag : p.HasFlag .REDIRECT → q.HasFlag .REDIRECT) : Mode s q := by
  cases h with
  | here h => exact .here (h.congr hq hflag)
  | routed h => exact .routed (h.congr (hop_of_mode hq) hflag)
  | resumed h hmac =>
      refine .resumed (h.congr (hop_of_mode hq) hflag) ?_
      rw [hq.field .ethDst (by decide)]
      exact hmac

/-- With the answer to an ARP request. -/
theorem Mode.comes_arp (h : Mode s p) (hq : comes TABLE_ARP_FEEDBACK_CONSTRUCT p q) : Mode s q := by
  rcases hq.arp rfl with rfl | ⟨⟨harp, hop⟩, ip, mac, rfl⟩
  · exact h
  · have hnot : ¬ p.IsIp := by
      unfold Packet.IsIp
      rw [harp]
      decide
    cases h with
    | here h =>
        have hagree := agree_answered (F := [.icmpType, .ipTtl, .regDp]) p ip mac (by decide)
        have hflag : (p.answered ip mac).HasFlag .REDIRECT ↔ p.HasFlag .REDIRECT :=
          (hasFlag_answered p ip mac .REDIRECT).trans (or_iff_right (by decide))
        refine .here ⟨(hagree.field .regDp (by decide)).trans h.dp, ?_,
          hagree.proto.trans h.proto, fun hs => hflag.mpr (h.flag hs), Or.inr ⟨?_, rfl⟩⟩
        · rw [← h.hops]
          unfold hopBudget
          rw [hagree.field .icmpType (by decide), hagree.field .ipTtl (by decide)]
        · refine ⟨h.proto.symm.trans harp, ?_⟩
          rcases h.same with ⟨_, heq⟩ | ⟨⟨_, hs⟩, _⟩
          · exact heq.symm.trans hop
          · exact hs
    | routed h => exact absurd h.ip hnot
    | resumed h _ => exact absurd h.ip hnot

end modes

/-! ### What may be put out -/

section ready
variable (x : Extra) (z : Zoo) (idOf : String → ℕ)

/-- A packet that came in as `s` may be put out by a port. -/
inductive Ready (s : Packet) (n : ℕ) (q : Packet) : Prop where
  /-- To a port of this node that is the packet's destination. -/
  | host (lsp : LspPort × Ls) (hlsp : (localBondLsp x).DerivesFrom (Built z) lsp)
      (hn : n = portNum lsp.1.ofport) (hdp : q.field .regDp = idOf (Props.strOf lsp.2.lsID))
      (hdst : q.field .regDst = lsp.1.portID) (hq : Mode s q)
  /-- To the chassis of the port with the packet's Ethernet address. -/
  | away (lsp : Lsp × Ls × ChassisPort) (hlsp : (remoteLsp x).DerivesFrom (Built z) lsp)
      (hn : n = portNum lsp.2.2.ofport) (hdp : q.field .regDp = idOf (Props.strOf lsp.2.1.lsID))
      (hmac : q.field .ethDst = lsp.1.macInt) (hdst : q.field .regDst = lsp.1.portID)
      (hnot : ¬ Hosted idOf x z (q.field .regDp) (q.field .ethDst)) (hcarries : q.Carries)
      (hq : Mode s q)
  /-- To a gateway, for the first time. -/
  | gateway (c : ChassisPort) (hc : (Redirect.gateway x).DerivesFrom (Built z) c)
      (hn : n = portNum c.ofport) (hs : ¬ s.HasFlag .REDIRECT) (hflag : q.HasFlag .REDIRECT)
      (hcarries : q.Carries) (hq : Here s q ∨ Routed s q)

/-- What is put out for a packet that came in as `s`. -/
def Goes (opts : Options) (s : Packet) (w : Sent) : Prop :=
  Ready x z idOf s w.1 w.2 ∨
    ∃ dsrport q, opts.dsrport = some dsrport ∧ Mode s q ∧
    w = (portNum dsrport.2, q.set .ethDst dsrport.1)

/-- How a packet that comes in by a port enters the switches. -/
inductive Enters (p : Packet) : Packet → Prop where
  | tunnel (c : ChassisPort) (hc : remoteChassis.DerivesFrom (Built z) c)
      (hin : (p.field .inPort : ℤ) = c.ofport) : Enters p (p.extracted.flag .LOOPBACK)
  | port (lsp : LspPort × Ls) (hlsp : (localBondLsp x).DerivesFrom (Built z) lsp)
      (hin : (p.field .inPort : ℤ) = lsp.1.ofport) :
      Enters p ((p.load .regSrc lsp.1.portID).set .regDp (idOf (Props.strOf lsp.2.lsID)))

/-- What holds of a packet in a table of a part of the bridge. -/
def StageAt (s : Packet) : Side → ℕ → Packet → Prop
  | .helper, t, p => t = TABLE_OUTPUT_PKT → p.field .regOutport = portNum TP_OFPORT_NONE ∨
      Ready x z idOf s (p.field .regOutport) p
  | .redirect, _, p => ¬ s.HasFlag .REDIRECT ∧ (Here s p ∨ Routed s p)
  | .port, t, p => t = TABLE_PIPELINE_FORWARD ∧ p = s
  | .ingress, t, p => Mode s p ∧ (p.field .reg5 = 0 ∨ t = TABLE_LSP_INGRESS_OUTPUT_DST_PORT ∧
      p.field .reg5 = 1 ∧ (p.field .regOutport = portNum TP_OFPORT_NONE ∨
        ∃ lsp, (remoteLsp x).DerivesFrom (Built z) lsp ∧
          p.field .regOutport = portNum lsp.2.2.ofport ∧
          p.field .regDp = idOf (Props.strOf lsp.2.1.lsID) ∧
          p.field .ethDst = lsp.1.macInt ∧ p.field .regDst = lsp.1.portID ∧
          ¬ Hosted idOf x z (p.field .regDp) (p.field .ethDst)))
  | .egress, t, p => Mode s p ∧ (p.field .reg5 = 0 ∨ t = TABLE_LSP_EGRESS_PUSHOUT ∧
      p.field .reg5 = 1 ∧ ∃ lsp, (localBondLsp x).DerivesFrom (Built z) lsp ∧
        p.field .regOutport = portNum lsp.1.ofport ∧
        p.field .regDp = idOf (Props.strOf lsp.2.lsID) ∧ p.field .regDst = lsp.1.portID)
  | .entrance, _, p => p.field .reg5 = 0 ∧ hopBudget p ≤ hopBudget s ∧ p.proto = s.proto ∧
      (s.HasFlag .REDIRECT → p.HasFlag .REDIRECT)
  | .inner, _, p => p.field .reg5 = 0 ∧ (Routed s p ∨ Resumed s p)
  | .exit, _, p => p.field .reg5 = 0 ∧ (Routed s p ∨ Resumed s p ∧ p.field .ethDst ≠ 0)

/-- What holds of a packet in a table. -/
def Stage (s : Packet) (t : ℕ) (p : Packet) : Prop := StageAt x z idOf s (side t) t p

/-- What holds of the lookups that a packet which comes in causes. -/
def Looked (p₀ : Packet) (t : ℕ) (p : Packet) : Prop :=
  t = TABLE_CONVERT_PHY_LOGICAL ∧ p = p₀ ∨ t ∈ helpers ∧ t ≠ TABLE_OUTPUT_PKT ∨
    ∃ s, Enters x z idOf p₀ s ∧ Stage x z idOf s t p

end ready

/-! ### Every lookup keeps it -/

section calls
variable {x : Extra} {z : Zoo} {idOf : String → ℕ} {fl : Flows} {s p p₀ q : Packet} {t t' : ℕ}

theorem stage_iff {σ : Side} (h : side t = σ) :
    Stage x z idOf s t p ↔ StageAt x z idOf s σ t p := by
  rw [Stage, h]

theorem looked_helper (ht : t ∈ helpers) (hne : t ≠ TABLE_OUTPUT_PKT) : Looked x z idOf p₀ t p :=
  Or.inr (Or.inl ⟨ht, hne⟩)

/-- The stage of a packet that has come in. -/
theorem stage_of_looked (h : Looked x z idOf p₀ t p) (h0 : t ≠ TABLE_CONVERT_PHY_LOGICAL)
    (ht : t ∉ helpers ∨ t = TABLE_OUTPUT_PKT) :
    ∃ s, Enters x z idOf p₀ s ∧ Stage x z idOf s t p := by
  rcases h with ⟨h, _⟩ | ⟨h, hne⟩ | h
  · exact absurd h h0
  · exact absurd h (ht.resolve_right hne)
  · exact h

theorem side_helper (h : side t = .helper) : t ∈ helpers := by
  unfold side at h
  split_ifs at h
  assumption

/-- A plain flow. -/
theorem stage_of_follows (h : Stage x z idOf s t p) (ht : t ∉ helpers) (hport : side t ≠ .port)
    (hdrop : t' ≠ TABLE_DROP_PACKET) (hfollows : follows t t' = true) (hq : Steady [] p q) :
    Stage x z idOf s t' q := by
  have hcore : p.Agree coreFields q := hq.agree
  have hmode : p.Agree modeFields q := hcore.mono (by decide)
  have hhop : p.Agree hopFields q := hop_of_mode hmode
  have hreg5 : q.field .reg5 = p.field .reg5 := hcore.field .reg5 (by decide)
  have hmac : q.field .ethDst = p.field .ethDst := hcore.field .ethDst (by decide)
  have hto : side t' = side t ∨ side t = .exit ∧ side t' = .ingress := by
    simp only [follows, decide_eq_true_eq] at hfollows
    rcases hfollows.2.2.2 with h | h | h
    · exact absurd h hdrop
    · exact Or.inl h.1
    · exact Or.inr h
  have hcongr : Routed s p ∨ Resumed s p → Routed s q ∨ Resumed s q :=
    Or.imp (fun h => h.congr hhop hq.flag) fun h => h.congr hhop hq.flag
  cases hside : side t with
  | helper => exact absurd (side_helper hside) ht
  | port => exact absurd hside hport
  | redirect =>
      rw [stage_iff hside] at h
      rw [stage_iff (hto.resolve_right (by simp [hside]) |>.trans hside)]
      exact ⟨h.1, h.2.imp (fun h => h.congr hmode hq.flag) fun h => h.congr hhop hq.flag⟩
  | ingress =>
      rw [stage_iff hside] at h
      rw [stage_iff (hto.resolve_right (by simp [hside]) |>.trans hside)]
      refine ⟨h.1.congr hmode hq.flag, Or.inl ?_⟩
      rcases h.2 with h5 | ⟨h7, _⟩
      · exact hreg5.trans h5
      · exact absurd (drop_of_follows (by simp [h7]) hfollows) hdrop
  | egress =>
      rw [stage_iff hside] at h
      rw [stage_iff (hto.resolve_right (by simp [hside]) |>.trans hside)]
      refine ⟨h.1.congr hmode hq.flag, Or.inl ?_⟩
      rcases h.2 with h5 | ⟨h23, _⟩
      · exact hreg5.trans h5
      · exact absurd (drop_of_follows (by simp [h23]) hfollows) hdrop
  | entrance =>
      rw [stage_iff hside] at h
      rw [stage_iff (hto.resolve_right (by simp [hside]) |>.trans hside)]
      exact ⟨hreg5.trans h.1, hopBudget_congr hhop ▸ h.2.1, hmode.proto.trans h.2.2.1,
        fun hs => hq.flag (h.2.2.2 hs)⟩
  | inner =>
      rw [stage_iff hside] at h
      rw [stage_iff (hto.resolve_right (by simp [hside]) |>.trans hside)]
      exact ⟨hreg5.trans h.1, hcongr h.2⟩
  | exit =>
      rw [stage_iff hside] at h
      rcases hto with hto | ⟨_, hto⟩
      · rw [stage_iff (hto.trans hside)]
        exact ⟨hreg5.trans h.1, h.2.imp (fun h => h.congr hhop hq.flag)
          fun h => ⟨h.1.congr hhop hq.flag, by rw [hmac]; exact h.2⟩⟩
      · rw [stage_iff hto]
        refine ⟨?_, Or.inl (hreg5.trans h.1)⟩
        rcases h.2 with h | ⟨h, hne⟩
        · exact .routed (h.congr hhop hq.flag)
        · exact .resumed (h.congr hhop hq.flag) (by rw [hmac]; exact hne)

theorem Mode.hops_le (h : Mode s p) : hopBudget p ≤ hopBudget s := by
  cases h with
  | here h => exact Nat.le_of_eq h.hops
  | routed h => exact Nat.le_of_lt h.hops
  | resumed h _ => exact Nat.le_of_eq h.hops

theorem Mode.proto (h : Mode s p) : p.proto = s.proto := by
  cases h with
  | here h => exact h.proto
  | routed h => exact h.proto
  | resumed h _ => exact h.proto

theorem Mode.hops (h : Mode s p) : hopBudget p ≤ hopBudget s := by
  cases h with
  | here h => exact Nat.le_of_eq h.hops
  | routed h => exact Nat.le_of_lt h.hops
  | resumed h _ => exact Nat.le_of_eq h.hops

theorem Mode.flag (h : Mode s p) (hs : s.HasFlag .REDIRECT) : p.HasFlag .REDIRECT := by
  cases h with
  | here h => exact h.flag hs
  | routed h => exact h.flag hs
  | resumed h _ => exact h.flag

/-- A packet without the flag has never been redirected. -/
theorem Mode.not_redirected (h : Mode s p) (hp : ¬ p.HasFlag .REDIRECT) :
    ¬ s.HasFlag .REDIRECT ∧ (Here s p ∨ Routed s p) := by
  refine ⟨fun hs => hp (h.flag hs), ?_⟩
  cases h with
  | here h => exact Or.inl h
  | routed h => exact Or.inr h
  | resumed h _ => exact absurd h.flag hp

theorem Mode.same (h : Mode s p) (hq : Same p q) : Mode s q :=
  h.congr (hq.agree (by decide)) (hq.flag _).mpr

/-- From one table of the bridge to another. -/
theorem looked_step (σ σ' : Side) (h : Looked x z idOf p₀ t p) (hσ : side t = σ)
    (hσ' : side t' = σ') (hne : σ ≠ .helper) (h0 : t ≠ TABLE_CONVERT_PHY_LOGICAL)
    (hstep : ∀ s, Enters x z idOf p₀ s → StageAt x z idOf s σ t p → StageAt x z idOf s σ' t' q) :
    Looked x z idOf p₀ t' q := by
  have ht : t ∉ helpers := by
    intro ht
    rw [side, if_pos ht] at hσ
    exact hne hσ.symm
  obtain ⟨s, hs, hstage⟩ := stage_of_looked h h0 (Or.inl ht)
  exact Or.inr (Or.inr ⟨s, hs, (stage_iff hσ').mpr (hstep s hs ((stage_iff hσ).mp hstage))⟩)

theorem Enters.reg5 (h : Enters x z idOf p₀ s) (h5 : p₀.field .reg5 = 0) : s.field .reg5 = 0 := by
  cases h with
  | tunnel c _ _ =>
      have hagree : p₀.Agree [.reg5] (p₀.extracted.flag .LOOPBACK) :=
        (agree_extracted p₀ (by decide)).trans (agree_flag _ _ (by decide))
      exact (hagree.field .reg5 (by decide)).trans h5
  | port lsp _ _ =>
      have hagree : p₀.Agree [.reg5] ((p₀.load .regSrc lsp.1.portID).set .regDp
          (idOf (Props.strOf lsp.2.lsID))) :=
        (agree_load p₀ _ (by decide)).trans (Packet.agree_set _ _ (by decide))
      exact (hagree.field .reg5 (by decide)).trans h5

theorem looked_zero (h : Looked x z idOf p₀ TABLE_CONVERT_PHY_LOGICAL p) : p = p₀ := by
  rcases h with ⟨_, rfl⟩ | ⟨h, _⟩ | ⟨s, _, h⟩
  · rfl
  · exact absurd h (by decide)
  · rw [stage_iff (show side TABLE_CONVERT_PHY_LOGICAL = .port by decide)] at h
    exact absurd h.1 (by decide)

theorem load_outport (p : Packet) (n : ℕ) :
    ((p.set .regOutport n).load .reg5 1).field .regOutport = n % 2 ^ 32 :=
  (Packet.put_field_ne _ _ (by decide)).trans ((Packet.set_field p _ _ _).trans (if_pos rfl))

theorem load_regDst (p : Packet) (lsp : Lsp) (n : ℕ) :
    (((p.load .regDst lsp.portID).set .regOutport n).load .reg5 1).field .regDst = lsp.portID := by
  have hlt : lsp.portID < 2 ^ 16 := Nat.mod_lt _ (by decide)
  refine (Packet.put_field_ne _ _ (by decide)).trans ((Packet.put_field_ne _ _ (by decide)).trans
    ((load_field p _ rfl).trans ?_))
  unfold portNum
  omega

theorem echoed_flag (p : Packet) (hp : p.HasFlag .REDIRECT) : p.echoed.HasFlag .REDIRECT := by
  refine (hasFlag_flag _ .LOOPBACK .REDIRECT).mpr (Or.inr ?_)
  exact (hasFlag_congr rfl _).mpr hp

theorem hopBudget_hop (httl : 1 < p.field .ipTtl) :
    hopBudget (p.set .ipTtl (p.field .ipTtl - 1)) < hopBudget p := by
  have hle := Nat.mod_le (p.field .ipTtl - 1) (2 ^ 8)
  unfold hopBudget
  rw [Packet.set_field, if_pos rfl, Packet.set_field,
    if_neg (show Field.icmpType ≠ .ipTtl by decide),
    Field.width]
  omega

theorem looked_plain (h : Looked x z idOf p₀ t p) (hfollows : follows t t' = true)
    (hq : Steady [] p q) :
    Looked x z idOf p₀ t' q := by
  by_cases hdrop : t' = TABLE_DROP_PACKET
  · subst hdrop
    exact looked_helper (by decide) (by decide)
  · have ht : t ∉ helpers := by
      simp only [follows, decide_eq_true_eq] at hfollows
      exact hfollows.2.2.1.1
    have hport : side t ≠ .port := by
      intro hport
      simp only [follows, decide_eq_true_eq] at hfollows
      rcases hfollows.2.2.2 with h | ⟨_, h⟩ | ⟨h, _⟩
      · exact hdrop h
      · exact h hport
      · exact absurd (h.symm.trans hport) (by decide)
    have h0 : t ≠ TABLE_CONVERT_PHY_LOGICAL := by
      rintro rfl
      exact hport (by decide)
    obtain ⟨s, hs, hstage⟩ := stage_of_looked h h0 (Or.inl ht)
    exact Or.inr (Or.inr ⟨s, hs, stage_of_follows hstage ht hport hdrop hfollows hq⟩)

theorem looked_egress (h : Looked x z idOf p₀ t p)
    (ht : t = TABLE_LSP_TRACE_EGRESS_IN ∨ t = TABLE_LSP_EGRESS_JUDGE_LOOPBACK)
    (hq : Steady [.regDst] p q) :
    Looked x z idOf p₀ (t + 1) q := by
  have hmode : p.Agree modeFields q := hq.agree.mono (by decide)
  have hreg5 : q.field .reg5 = p.field .reg5 := hq.agree.field .reg5 (by decide)
  have hzero : ∀ s u, u ≠ TABLE_LSP_EGRESS_PUSHOUT → StageAt x z idOf s .egress u p →
      q.field .reg5 = 0 := fun s u hu hstage =>
    hreg5.trans (hstage.2.resolve_right fun h => hu h.1)
  rcases ht with rfl | rfl
  · exact looked_step .egress .egress h (by decide) (by decide) (by decide) (by decide)
      fun s _ hstage => ⟨hstage.1.congr hmode hq.flag, Or.inl (hzero s _ (by decide) hstage)⟩
  · exact looked_step .egress .egress h (by decide) (by decide) (by decide) (by decide)
      fun s _ hstage => ⟨hstage.1.congr hmode hq.flag, Or.inl (hzero s _ (by decide) hstage)⟩

theorem looked_found (h : Looked x z idOf p₀ TABLE_LSP_INGRESS_LOOKUP_DST_PORT p)
    (ht' : t' = TABLE_LSP_INGRESS_OUTPUT_DST_PORT ∨ t' = TABLE_LSP_TRACE_EGRESS_IN)
    (hq : Steady [] p q) :
    Looked x z idOf p₀ t' q := by
  have hmode : p.Agree modeFields q := hq.agree.mono (by decide)
  have hreg5 : q.field .reg5 = p.field .reg5 := hq.agree.field .reg5 (by decide)
  have hzero : ∀ s, StageAt x z idOf s .ingress TABLE_LSP_INGRESS_LOOKUP_DST_PORT p →
      q.field .reg5 = 0 := fun s hstage =>
    hreg5.trans (hstage.2.resolve_right fun h => absurd h.1 (by decide))
  rcases ht' with rfl | rfl
  · exact looked_step .ingress .ingress h (by decide) (by decide) (by decide)
      (by decide) fun s _ hstage => ⟨hstage.1.congr hmode hq.flag, Or.inl (hzero s hstage)⟩
  · exact looked_step .ingress .egress h (by decide) (by decide) (by decide)
      (by decide) fun s _ hstage => ⟨hstage.1.congr hmode hq.flag, Or.inl (hzero s hstage)⟩

theorem looked_away (h : Looked x z idOf p₀ TABLE_LSP_INGRESS_LOOKUP_DST_PORT p)
    {lsp : Lsp × Ls × ChassisPort} (hlsp : (remoteLsp x).DerivesFrom (Built z) lsp)
    (hdp : p.field .regDp = idOf (Props.strOf lsp.2.1.lsID)) (hmac : p.field .ethDst = lsp.1.macInt)
    (hnot : ¬ Hosted idOf x z (p.field .regDp) (p.field .ethDst)) {n : ℕ}
    (hport : n % 2 ^ 32 = portNum lsp.2.2.ofport ∨ n % 2 ^ 32 = portNum TP_OFPORT_NONE) :
    Looked x z idOf p₀ TABLE_LSP_INGRESS_OUTPUT_DST_PORT
      (((p.load .regDst lsp.1.portID).set .regOutport n).load .reg5 1) := by
  refine looked_step .ingress .ingress h (by decide) (by decide) (by decide) (by decide)
    fun s _ hstage => ?_
  have hagree : ∀ F : List Field, .regDst ∉ F → .regOutport ∉ F → .reg5 ∉ F →
      p.Agree F (((p.load .regDst lsp.1.portID).set .regOutport n).load .reg5 1) :=
    fun F h1 h2 h3 => (agree_load p _ h1).trans ((Packet.agree_set _ n h2).trans
      (agree_load _ _ h3))
  have houtport := (load_outport (p.load .regDst lsp.1.portID) n)
  have hdst := (load_regDst p lsp.1 n)
  refine ⟨hstage.1.congr (hagree _ (by decide) (by decide) (by decide))
    (hasFlag_of_agree (hagree _ (by decide) (by decide) (by decide)) _).mpr,
    Or.inr ⟨rfl, (load_field _ 1 rfl).trans (by decide), ?_⟩⟩
  rcases hport with hport | hport
  · have hfield := (hagree [.regDp, .ethDst] (by decide) (by decide) (by decide)).field
    refine Or.inr ⟨lsp, hlsp, houtport.trans hport, (hfield .regDp (by decide)).trans hdp,
      (hfield .ethDst (by decide)).trans hmac, hdst, ?_⟩
    rw [hfield .regDp (by decide), hfield .ethDst (by decide)]
    exact hnot
  · exact Or.inl (houtport.trans hport)

theorem looked_unknown (h : Looked x z idOf p₀ TABLE_LSP_INGRESS_LOOKUP_DST_PORT p) :
    Looked x z idOf p₀ TABLE_LSP_INGRESS_OUTPUT_DST_PORT
      ((p.load .regOutport TP_OFPORT_NONE).load .reg5 1) := by
  refine looked_step .ingress .ingress h (by decide) (by decide) (by decide) (by decide)
    fun s _ hstage => ?_
  have hagree : ∀ F : List Field, .regOutport ∉ F → .reg5 ∉ F →
      p.Agree F ((p.load .regOutport TP_OFPORT_NONE).load .reg5 1) :=
    fun F h1 h2 => (agree_load p _ h1).trans (agree_load _ _ h2)
  have houtport : ((p.load .regOutport TP_OFPORT_NONE).load .reg5 1).field .regOutport =
      portNum TP_OFPORT_NONE :=
    (Packet.put_field_ne _ _ (by decide)).trans (load_field p TP_OFPORT_NONE rfl)
  exact ⟨hstage.1.congr (hagree _ (by decide) (by decide))
    (hasFlag_of_agree (hagree _ (by decide) (by decide)) _).mpr,
    Or.inr ⟨rfl, (load_field _ 1 rfl).trans (by decide), Or.inl houtport⟩⟩

theorem looked_putOut (h : Looked x z idOf p₀ TABLE_LSP_INGRESS_OUTPUT_DST_PORT p)
    (hreg5 : p.field .reg5 = 1) (hq : Same p q) :
    Looked x z idOf p₀ TABLE_OUTPUT_PKT q.embedded := by
  refine looked_step .ingress .helper h (by decide) (by decide) (by decide) (by decide)
    fun s _ hstage _ => ?_
  have hagree : ∀ F : List Field, .regFlag ∉ F → .tunId ∉ F → .tunMetadata0 ∉ F →
      p.Agree F q.embedded := fun F h1 h2 h3 => (hq.agree h1).trans (agree_embedded q (by
        simp only [List.mem_cons, List.not_mem_nil, or_false]
        rintro f (rfl | rfl)
        · exact h2
        · exact h3))
  have hflag := hasFlag_of_agree (agree_embedded (F := [.regFlag]) q (by decide)) .REDIRECT
  have hmode : Mode s _ := (hstage.1.same hq).congr (agree_embedded _ (by decide)) hflag.mpr
  have hfield : ∀ f ∈ [Field.regOutport, .regDp, .ethDst, .regDst],
      q.embedded.field f = p.field f :=
    (hagree [.regOutport, .regDp, .ethDst, .regDst] (by decide) (by decide) (by decide)).field
  rw [hfield .regOutport (by decide)]
  obtain ⟨_, _, hnone | ⟨lsp, hlsp, hport, hdp, hmac, hdst, hnot⟩⟩ :=
    hstage.2.resolve_left fun h0 => by rw [h0] at hreg5; exact absurd hreg5 (by decide)
  · exact Or.inl hnone
  · refine Or.inr (.away lsp hlsp hport ((hfield .regDp (by decide)).trans hdp)
      ((hfield .ethDst (by decide)).trans hmac) ((hfield .regDst (by decide)).trans hdst) ?_
      (Packet.carries_embedded _) hmode)
    rw [hfield .regDp (by decide), hfield .ethDst (by decide)]
    exact hnot

theorem looked_forwardLocal (h : Looked x z idOf p₀ TABLE_LSP_EGRESS_FORWARD_PACKET p)
    {lsp : LspPort × Ls} (hlsp : (localBondLsp x).DerivesFrom (Built z) lsp)
    (hdp : p.field .regDp = idOf (Props.strOf lsp.2.lsID)) (hdst : p.field .regDst = lsp.1.portID) :
    Looked x z idOf p₀ TABLE_LSP_EGRESS_PUSHOUT
      ((p.load .reg5 1).load .regOutport lsp.1.ofport) := by
  refine looked_step .egress .egress h (by decide) (by decide) (by decide) (by decide)
    fun s _ hstage => ?_
  have hagree : ∀ F : List Field, .reg5 ∉ F → .regOutport ∉ F →
      p.Agree F ((p.load .reg5 1).load .regOutport lsp.1.ofport) :=
    fun F h1 h2 => (agree_load p _ h1).trans (agree_load _ _ h2)
  have hfields := (hagree [.regDp, .regDst] (by decide) (by decide)).field
  have hmode : Mode s _ := hstage.1.congr (hagree _ (by decide) (by decide))
    (hasFlag_of_agree (hagree _ (by decide) (by decide)) _).mpr
  refine ⟨hmode, Or.inr ⟨rfl, ?_, lsp, hlsp, load_field _ _ rfl,
    (hfields .regDp (by decide)).trans hdp, (hfields .regDst (by decide)).trans hdst⟩⟩
  exact (Packet.put_field_ne _ _ (by decide)).trans ((load_field p 1 rfl).trans (by decide))

theorem looked_forwardLrp (h : Looked x z idOf p₀ TABLE_LSP_EGRESS_FORWARD_PACKET p) (lrID : ℤ)
    (lrpID : ℕ) :
    Looked x z idOf p₀ TABLE_LSP_EGRESS_PUSHOUT ((p.load .reg6 lrID).load .reg7 lrpID) := by
  refine looked_step .egress .egress h (by decide) (by decide) (by decide) (by decide)
    fun s _ hstage => ?_
  have hagree : ∀ F : List Field, .reg6 ∉ F → .reg7 ∉ F →
      p.Agree F ((p.load .reg6 lrID).load .reg7 lrpID) :=
    fun F h1 h2 => (agree_load p _ h1).trans (agree_load _ _ h2)
  refine ⟨hstage.1.congr (hagree _ (by decide) (by decide))
    (hasFlag_of_agree (hagree _ (by decide) (by decide)) _).mpr, Or.inl ?_⟩
  rw [(hagree [.reg5] (by decide) (by decide)).field .reg5 (by decide)]
  exact hstage.2.resolve_right fun h => absurd h.1 (by decide)

theorem looked_pushOut (h : Looked x z idOf p₀ TABLE_LSP_EGRESS_PUSHOUT p)
    (hreg5 : p.field .reg5 = 1) (hq : Same p q) :
    Looked x z idOf p₀ TABLE_OUTPUT_PKT q := by
  refine looked_step .egress .helper h (by decide) (by decide) (by decide) (by decide)
    fun s _ hstage _ => Or.inr ?_
  obtain ⟨_, _, lsp, hlsp, hport, hdp, hdst⟩ :=
    hstage.2.resolve_left fun h0 => by rw [h0] at hreg5; exact absurd hreg5 (by decide)
  have hfield := (hq.agree (F := [.regOutport, .regDp, .regDst]) (by decide)).field
  exact .host lsp hlsp ((hfield .regOutport (by decide)).trans hport)
    ((hfield .regDp (by decide)).trans hdp) ((hfield .regDst (by decide)).trans hdst)
    (hstage.1.same hq)

theorem looked_toRouter (h : Looked x z idOf p₀ TABLE_LSP_EGRESS_PUSHOUT p)
    (hreg5 : p.field .reg5 ≠ 1) (hq : Same p q) :
    Looked x z idOf p₀ TABLE_LRP_TRACE_INGRESS_IN q.routed := by
  refine looked_step .egress .entrance h (by decide) (by decide) (by decide) (by decide)
    fun s _ hstage => ?_
  have hmode := hstage.1.same hq
  have hflag := hasFlag_of_agree (agree_routed (F := [.regFlag]) q (by decide)) .REDIRECT
  refine ⟨?_, ?_, (agree_routed (F := []) _ (by decide)).proto.trans hmode.proto,
    fun hs => hflag.mpr (hmode.flag hs)⟩
  · rw [(agree_routed (F := [.reg5]) _ (by decide)).field .reg5 (by decide),
      (hq.agree (F := [.reg5]) (by decide)).field .reg5 (by decide)]
    exact hstage.2.resolve_right fun h => hreg5 h.2.1
  · rw [hopBudget_congr (agree_routed _ (by decide))]
    exact hmode.hops_le

theorem looked_echo (h : Looked x z idOf p₀ TABLE_LRP_INGRESS_PKT_RESPONSE p)
    (hrequest : p.field .icmpType = 8) :
    Looked x z idOf p₀ TABLE_LRP_INGRESS_DROP_UNEXPECT p.echoed := by
  refine looked_step .entrance .entrance h (by decide) (by decide) (by decide) (by decide)
    fun s _ hstage => ?_
  obtain ⟨htype, httl⟩ := echoed_spec p
  have hagree := agree_echoed (F := [.reg5]) p (by decide)
  refine ⟨(hagree.field .reg5 (by decide)).trans hstage.1, Nat.le_trans ?_ hstage.2.1,
    hagree.proto.trans hstage.2.2.1, fun hs => ?_⟩
  · unfold hopBudget
    rw [htype, httl, if_neg (by decide), if_pos hrequest]
    omega
  · exact echoed_flag p (hstage.2.2.2 hs)

theorem looked_unknownDst (h : Looked x z idOf p₀ TABLE_LRP_EGRESS_HANDLE_UNK_PKT p)
    (hp : ¬ p.HasFlag .REDIRECT) :
    Looked x z idOf p₀ TABLE_REDIRECT_CHASSIS (p.flag .REDIRECT).embedded := by
  refine looked_step .inner .redirect h (by decide) (by decide) (by decide) (by decide)
    fun s _ hstage => ?_
  have hrouted := hstage.2.resolve_right fun h => hp h.flag
  have hagree := (agree_flag (F := hopFields) p .REDIRECT (by decide)).trans
    (agree_embedded _ (by decide))
  have hflag := hasFlag_of_agree (agree_embedded (F := [.regFlag]) (p.flag .REDIRECT)
    (by decide)) .REDIRECT
  exact ⟨fun hs => hp (hrouted.flag hs), Or.inr (hrouted.congr hagree fun h => absurd h hp)⟩

theorem looked_leave (h : Looked x z idOf p₀ TABLE_LRP_EGRESS_FORWARD_PACKET p)
    (link : LspLinkLrp) :
    Looked x z idOf p₀ TABLE_LRP_TRACE_EGRESS_OUT
      ((p.set .regDp (idOf (Props.strOf link.ls.lsID))).load .regSrc link.lsp.portID) := by
  have hagree : ∀ F : List Field, .regDp ∉ F → .regSrc ∉ F → p.Agree F
      ((p.set .regDp (idOf (Props.strOf link.ls.lsID))).load .regSrc link.lsp.portID) :=
    fun F h1 h2 => (Packet.agree_set p _ h1).trans (agree_load _ _ h2)
  have hflag := (hasFlag_of_agree (hagree [.regFlag] (by decide) (by decide)) .REDIRECT).mpr
  have hfields := (hagree [.reg5, .ethDst] (by decide) (by decide)).field
  refine looked_step .exit .exit h (by decide) (by decide) (by decide) (by decide)
    fun s _ hstage => ⟨(hfields .reg5 (by decide)).trans hstage.1, ?_⟩
  refine hstage.2.imp (fun h => h.congr (hagree _ (by decide) (by decide)) hflag)
    fun h => ⟨h.1.congr (hagree _ (by decide) (by decide)) hflag, ?_⟩
  rw [hfields .ethDst (by decide)]
  exact h.2

theorem looked_gateway (h : Looked x z idOf p₀ TABLE_REDIRECT_CHASSIS p) {n : ℕ}
    (hport : n % 2 ^ 32 = portNum TP_OFPORT_NONE ∨ ∃ c,
      (Redirect.gateway x).DerivesFrom (Built z) c ∧ n % 2 ^ 32 = portNum c.ofport) :
    Looked x z idOf p₀ TABLE_OUTPUT_PKT ((p.flag .REDIRECT).set .regOutport n).embedded := by
  refine looked_step .redirect .helper h (by decide) (by decide) (by decide) (by decide)
    fun s _ hstage _ => ?_
  have hagree : ∀ F : List Field, .regFlag ∉ F → .regOutport ∉ F → .tunId ∉ F →
      .tunMetadata0 ∉ F → p.Agree F ((p.flag .REDIRECT).set .regOutport n).embedded :=
    fun F h1 h2 h3 h4 => (agree_flag p _ h1).trans ((Packet.agree_set _ _ h2).trans
      (agree_embedded _ (by
        simp only [List.mem_cons, List.not_mem_nil, or_false]
        rintro f (rfl | rfl)
        · exact h3
        · exact h4)))
  have hmode := hagree modeFields (by decide) (by decide) (by decide) (by decide)
  have hflag : ((p.flag .REDIRECT).set .regOutport n).embedded.HasFlag .REDIRECT := by
    refine (hasFlag_of_agree (agree_embedded _ (by decide)) _).mpr ?_
    exact (hasFlag_put_of_ne _ (by decide) _).mpr ((hasFlag_flag p _ _).mpr (Or.inl rfl))
  have houtport : ((p.flag .REDIRECT).set .regOutport n).embedded.field .regOutport =
      n % 2 ^ 32 := by
    rw [(agree_embedded (F := [.regOutport]) _ (by decide)).field .regOutport (by decide),
      Packet.set_field, if_pos rfl]
    rfl
  rw [houtport]
  rcases hport with hport | ⟨c, hc, hport⟩
  · exact Or.inl hport
  · exact Or.inr (.gateway c hc hport hstage.1 hflag (Packet.carries_embedded _)
      (hstage.2.imp (fun h => h.congr hmode fun _ => hflag)
        fun h => h.congr (hop_of_mode hmode) fun _ => hflag))

/-- **Every lookup keeps what holds of the packets of a bridge.** -/
theorem looked_of_call (h5 : p₀.field .reg5 = 0) (h : Looked x z idOf p₀ t p)
    (hc : Call fl idOf x z t p t' q) : Looked x z idOf p₀ t' q := by
  cases hc with
  | plain hfollows hq => exact looked_plain h hfollows hq
  | extract => exact looked_helper (by decide) (by decide)
  | tunnel c hc hin =>
      obtain rfl := looked_zero h
      exact Or.inr
        (Or.inr ⟨_, .tunnel c hc hin, (stage_iff (show side TABLE_PIPELINE_FORWARD = .port by
        decide)).mpr ⟨rfl, rfl⟩⟩)
  | enter lsp hlsp hin =>
      obtain rfl := looked_zero h
      have hs : Enters x z idOf p _ := .port lsp hlsp hin
      refine Or.inr (Or.inr ⟨_, hs, (stage_iff (show side TABLE_LSP_TRACE_INGRESS_IN = .ingress by
        decide)).mpr ⟨.here (Here.refl _), Or.inl (hs.reg5 h5)⟩⟩)
  | egress ht hq => exact looked_egress h ht hq
  | ask => exact looked_helper (by decide) (by decide)
  | respond hq =>
      refine looked_step .ingress .ingress h (by decide) (by decide) (by decide)
        (by decide) fun s _ hstage => ⟨hstage.1.comes_arp hq, Or.inl ?_⟩
      rw [(hq.agree_arp (F := [.reg5]) (by decide)).field .reg5 (by decide)]
      exact hstage.2.resolve_right fun h => absurd h.1 (by decide)
  | found _ _ ht' _ _ hq _ => exact looked_found h ht' hq
  | away _ hlsp hdp hmac hnot _ hport => exact looked_away h hlsp hdp hmac hnot hport
  | unknown => exact looked_unknown h
  | redirect hp hq =>
      refine looked_step .ingress .redirect h (by decide) (by decide) (by decide)
        (by decide) fun s _ hstage => ?_
      exact (hstage.1.same hq).not_redirected fun h => hp ((hq.flag _).mp h)
  | embed hq => exact looked_helper (by decide) (by decide)
  | putOut hreg5 hq => exact looked_putOut h hreg5 hq
  | deliver hreg5 hq =>
      refine looked_step .ingress .egress h (by decide) (by decide) (by decide)
        (by decide) fun s _ hstage => ⟨hstage.1.same hq, Or.inl ?_⟩
      rw [(hq.agree (F := [.reg5]) (by decide)).field .reg5 (by decide)]
      exact hstage.2.resolve_right fun h => hreg5 h.2.1
  | forwardLocal _ hlsp hdp hdst => exact looked_forwardLocal h hlsp hdp hdst
  | forwardLrp lrID lrpID _ => exact looked_forwardLrp h lrID lrpID
  | fallback _ =>
      refine looked_step .egress .ingress h (by decide) (by decide) (by decide) (by decide)
        fun s _ hstage => ⟨hstage.1.congr (agree_flag p _ (by decide))
          fun hp => (hasFlag_flag p _ _).mpr (Or.inr hp), Or.inl ?_⟩
      rw [(agree_flag (F := [.reg5]) p _ (by decide)).field .reg5 (by decide)]
      exact hstage.2.resolve_right fun h => absurd h.1 (by decide)
  | feedback _ => exact looked_helper (by decide) (by decide)
  | fallbackArp _ hq =>
      refine looked_step .egress .ingress h (by decide) (by decide) (by decide) (by decide)
        fun s _ hstage => ⟨(hstage.1.congr (agree_flag p _ (by decide))
          fun hp => (hasFlag_flag p _ _).mpr (Or.inr hp)).comes_arp hq, Or.inl ?_⟩
      rw [(hq.agree_arp (F := [.reg5]) (by decide)).field .reg5 (by decide),
        (agree_flag (F := [.reg5]) p _ (by decide)).field .reg5 (by decide)]
      exact hstage.2.resolve_right fun h => absurd h.1 (by decide)
  | pushOut hreg5 hq => exact looked_pushOut h hreg5 hq
  | toRouter hreg5 hq => exact looked_toRouter h hreg5 hq
  | echo hrequest => exact looked_echo h hrequest
  | hop hip httl =>
      refine looked_step .entrance .inner h (by decide) (by decide) (by decide) (by decide)
        fun s _ hstage => ⟨?_, Or.inl ⟨hip, ?_, hstage.2.2.1, fun hs => ?_⟩⟩
      · exact (Packet.put_field_ne _ _ (by decide)).trans hstage.1
      · exact Nat.lt_of_lt_of_le (hopBudget_hop httl) hstage.2.1
      · exact (hasFlag_put_of_ne _ (by decide) _).mpr (hstage.2.2.2 hs)
  | known mac =>
      refine looked_step .inner .inner h (by decide) (by decide) (by decide) (by decide)
        fun s _ hstage => ⟨(Packet.put_field_ne _ _ (by decide)).trans hstage.1, ?_⟩
      have hflag := (hasFlag_put_of_ne (p := p) (r := .all .ethDst) ((mac : ℤ) % 2 ^ 64).toNat
        (by decide) .REDIRECT).mpr
      exact hstage.2.imp (fun h => h.congr (agree_load p _ (by decide)) hflag)
        fun h => h.congr (agree_load p _ (by decide)) hflag
  | search => exact looked_helper (by decide) (by decide)
  | searched hq =>
      have hagree : ∀ F : List Field, .ethDst ∉ F → p.Agree F q := fun F hF =>
        (Packet.agree_set p 0 hF).trans (hq.agree_search hF)
      have hflag := (hasFlag_of_agree (hagree [.regFlag] (by decide)) .REDIRECT).mpr
      refine looked_step .inner .inner h (by decide) (by decide) (by decide) (by decide)
        fun s _ hstage => ⟨?_, hstage.2.imp (fun h => h.congr (hagree _ (by decide)) hflag)
          fun h => h.congr (hagree _ (by decide)) hflag⟩
      exact ((hagree [.reg5] (by decide)).field .reg5 (by decide)).trans hstage.1
  | unknownEmbed _ => exact looked_helper (by decide) (by decide)
  | unknownDst hp => exact looked_unknownDst h hp
  | pass hmac =>
      exact looked_step .inner .exit h (by decide) (by decide) (by decide) (by decide)
        fun s _ hstage => ⟨hstage.1, hstage.2.imp_right fun h => ⟨h, hmac⟩⟩
  | leave link => exact looked_leave h link
  | drop _ => exact looked_helper (by decide) (by decide)
  | gatewayEmbed n => exact looked_helper (by decide) (by decide)
  | gateway _ hport => exact looked_gateway h hport
  | redirected hip hmac hflag =>
      refine looked_step .port .inner h (by decide) (by decide) (by decide) (by decide)
        fun s hs hstage => ?_
      obtain ⟨_, rfl⟩ := hstage
      exact ⟨hs.reg5 h5, Or.inr ⟨hip, rfl, rfl, hflag, hmac, hflag⟩⟩
  | arrived _ =>
      refine looked_step .port .egress h (by decide) (by decide) (by decide) (by decide)
        fun s hs hstage => ?_
      obtain ⟨_, rfl⟩ := hstage
      exact ⟨.here (Here.refl _), Or.inl (hs.reg5 h5)⟩

end calls

/-! ### Outputs -/

section outputs
variable {x : Extra} {opts : Options} {z : Zoo} {idOf : String → ℕ} {s p p₀ q : Packet} {n t : ℕ}
  {w : Sent}

/-- A trace on the way out changes neither the port nor the destination. -/
theorem Ready.tracedOut (h : Ready x z idOf s n p) : Ready x z idOf s n p.tracedOut := by
  have hagree : ∀ F : List Field, .regFlag ∉ F → .tunMetadata0 ∉ F → p.Agree F p.tracedOut :=
    fun F h1 h2 => agree_tracedOut p (by
      simp only [List.mem_cons, List.not_mem_nil, or_false]
      rintro f (rfl | rfl)
      · exact h1
      · exact h2)
  have hmode := hagree modeFields (by decide) (by decide)
  have hfield := (hagree [.regDp, .ethDst, .regDst] (by decide) (by decide)).field
  have hflag : p.HasFlag .REDIRECT → p.tracedOut.HasFlag .REDIRECT := fun hp =>
    (hasFlag_put_of_ne _ (by decide) _).mpr ((hasFlag_traced p _).mpr hp)
  cases h with
  | host lsp hlsp hn hdp hdst hq =>
      exact .host lsp hlsp hn ((hfield .regDp (by decide)).trans hdp)
        ((hfield .regDst (by decide)).trans hdst) (hq.congr hmode hflag)
  | away lsp hlsp hn hdp hmac hdst hnot hcarries hq =>
      refine .away lsp hlsp hn ((hfield .regDp (by decide)).trans hdp)
        ((hfield .ethDst (by decide)).trans hmac) ((hfield .regDst (by decide)).trans hdst) ?_
        hcarries.tracedOut (hq.congr hmode hflag)
      rw [hfield .regDp (by decide), hfield .ethDst (by decide)]
      exact hnot
  | gateway c hc hn hs hp hcarries hq =>
      exact .gateway c hc hn hs (hflag hp) hcarries.tracedOut
        (hq.imp (fun h => h.congr hmode hflag) fun h => h.congr (hop_of_mode hmode) hflag)

theorem goes_of_puts (h : Looked x z idOf p₀ t p) (hw : Puts opts t p w) :
    ∃ s, Enters x z idOf p₀ s ∧ Goes x z idOf opts s w := by
  cases hw with
  | untunnel dsrport hopts =>
      obtain ⟨s, hs, hstage⟩ := stage_of_looked h (by decide) (Or.inl (by decide))
      rw [stage_iff (show side TABLE_LSP_INGRESS_UNTUNNEL = .ingress by decide)] at hstage
      exact ⟨s, hs, Or.inr ⟨dsrport, p, hopts, hstage.1, rfl⟩⟩
  | output hport hq =>
      obtain ⟨s, hs, hstage⟩ := stage_of_looked h (by decide) (Or.inr rfl)
      rw [stage_iff (show side TABLE_OUTPUT_PKT = .helper by decide)] at hstage
      refine ⟨s, hs, Or.inl ?_⟩
      rcases hstage rfl with hnone | hready
      · rw [hnone] at hport
        exact absurd (by decide) hport
      · rcases hq with rfl | rfl
        · exact hready
        · exact hready.tracedOut

variable {learned : List (ℕ × ℕ)}

theorem contract_holds (h5 : p.field .reg5 = 0) :
    (contract (Looked x z idOf p) fun w => ∃ s, Enters x z idOf p s ∧ Goes x z idOf opts s w).Holds
      (bridge x opts z learned idOf) (fun _ _ => True) :=
  holds_of_calls (fun _ _ _ _ hlooked hc => ⟨looked_of_call h5 hlooked hc, trivial⟩)
    fun _ _ _ hlooked hw => goes_of_puts hlooked hw

/-- A budget goes down with the time to live, or when an echo request is answered. -/
theorem ttl_of_hopBudget_lt {s q : Packet} (h : hopBudget q < hopBudget s) :
    q.field .ipTtl < s.field .ipTtl ∨ s.field .icmpType = 8 ∧ q.field .icmpType ≠ 8 ∧
      q.field .ipTtl < s.field .ipTtl + 256 := by
  unfold hopBudget at h
  split_ifs at h with hq hs hs
  · exact Or.inl (by omega)
  · exact Or.inl (by omega)
  · exact Or.inr ⟨hs, hq, by omega⟩
  · exact Or.inl (by omega)

/-- What a packet that comes in makes the bridge put out. -/
theorem goes_of_emits (h5 : p.field .reg5 = 0)
    (hw : (bridge x opts z learned idOf).Emits TABLE_CONVERT_PHY_LOGICAL p w) :
    ∃ s, Enters x z idOf p s ∧ Goes x z idOf opts s w :=
  Contract.out_of_emits (contract_holds h5) (Or.inl ⟨rfl, rfl⟩) hw

/-- How far a packet that is put out has come, but for its Ethernet address. -/
theorem Goes.left (h : Goes x z idOf opts s w) : w.2.proto = s.proto ∧
    (w.2.field .regDp = s.field .regDp ∨ w.2.IsIp ∧
      (hopBudget w.2 < hopBudget s ∨ s.HasFlag .REDIRECT ∧ s.field .ethDst = 0)) := by
  have hmode : ∀ {q : Packet}, Mode s q → q.proto = s.proto ∧
      (q.field .regDp = s.field .regDp ∨ q.IsIp ∧
        (hopBudget q < hopBudget s ∨ s.HasFlag .REDIRECT ∧ s.field .ethDst = 0)) := by
    intro q hq
    refine ⟨hq.proto, ?_⟩
    cases hq with
    | here h => exact Or.inl h.dp
    | routed h => exact Or.inr ⟨h.ip, Or.inl h.hops⟩
    | resumed h _ => exact Or.inr ⟨h.ip, Or.inr ⟨h.redirected, h.mac⟩⟩
  rcases h with h | ⟨dsrport, q, _, hq, rfl⟩
  · cases h with
    | host _ _ _ _ _ hq => exact hmode hq
    | away _ _ _ _ _ _ _ _ hq => exact hmode hq
    | gateway _ _ _ _ _ _ hq => exact hmode (hq.elim .here .routed)
  · have hagree := Packet.agree_set (F := hopFields ++ [.regDp]) q dsrport.1 (f := .ethDst)
      (by decide)
    have hhop : q.Agree hopFields (q.set .ethDst dsrport.1) :=
      hagree.mono fun _ hf => List.mem_append_left _ hf
    obtain ⟨hproto, h⟩ := hmode hq
    refine ⟨hproto, ?_⟩
    rw [hagree.field .regDp (by decide), hopBudget_congr hhop]
    exact h

end outputs

/-! ### A switch on two chassis -/

/-- The switch, its two ports, the other chassis and the interfaces of `hyper-1`. -/
def pairOps : List Zoo.Op := [.addEntity (.LS "LS-1" (some "1")),
  .addEntity (.lsp "lsp-1" (some "10.0.0.1") (some "f2:01:0a:00:00:01") "LS-1" (some "hyper-1")
    none),
  .addEntity (.lsp "lsp-2" (some "10.0.0.2") (some "f2:01:0a:00:00:02") "LS-1" (some "hyper-2")
    none),
  .addEntity (.chassis "hyper-2" (some "192.168.0.2") (some "1")),
  .addEntity (.ovsport "tap1" "lsp-1" 3 false),
  .addEntity (.ovsport "tupleNet-2" "hyper-2" 5 true)]

/-- The zoo of `hyper-1`. -/
def pairZoo : Zoo := Zoo.runOps (.node false "hyper-1") pairOps

/-- The bridge of `hyper-1`. -/
def pairFlows : Flows := allFlows (.node false "hyper-1") ⟨false, false, false, none⟩ pairZoo []

/-- The number of an id of a single digit. -/
def digit (s : String) : ℕ := if s = "1" then 1 else 0

/-- A packet from `lsp-1` to `lsp-2`. -/
def pairPacket : Packet := ⟨.ip, 0, fun f =>
  match f with
  | .ethDst => 0xf2010a000002
  | .ipTtl => 64
  | .inPort => 3
  | _ => 0⟩

/-- A packet that `hyper-2` has redirected. -/
def backPacket : Packet := ⟨.ip, 0, fun f =>
  match f with
  | .ipTtl => 64
  | .inPort => 5
  | .tunId => 1
  | .tunMetadata0 => 2 ^ 34
  | _ => 0⟩

set_option maxRecDepth 100000 in
theorem pairPacket_ports :
    (pairFlows.process digit 30 TABLE_CONVERT_PHY_LOGICAL pairPacket).map
      (fun r => r.2.map Prod.fst) = some [5] := by
  decide +kernel

section outputs
variable {x : Extra} {opts : Options} {z : Zoo} {idOf : String → ℕ} {p : Packet} {w : Sent}
  {learned : List (ℕ × ℕ)}

/-- **A packet goes to its destination.**  What a bridge puts out for a packet that comes in goes to
the port of this node with the datapath and the number in the registers; or, if no port of this node
has its Ethernet address, to the chassis that hosts the port with the address and the number, and
carries both; or to a gateway, marked as redirected; or to the port of the host. -/
theorem sent_to_destination (h5 : p.field .reg5 = 0)
    (hw : (bridge x opts z learned idOf).Emits TABLE_CONVERT_PHY_LOGICAL p w) :
    (∃ lsp, (localBondLsp x).DerivesFrom (Built z) lsp ∧ w.1 = portNum lsp.1.ofport ∧
      w.2.field .regDp = idOf (Props.strOf lsp.2.lsID) ∧ w.2.field .regDst = lsp.1.portID) ∨
    (∃ lsp, (remoteLsp x).DerivesFrom (Built z) lsp ∧ w.1 = portNum lsp.2.2.ofport ∧
      w.2.field .regDp = idOf (Props.strOf lsp.2.1.lsID) ∧ w.2.field .ethDst = lsp.1.macInt ∧
      w.2.field .regDst = lsp.1.portID ∧ ¬ Hosted idOf x z (w.2.field .regDp) (w.2.field .ethDst) ∧
      w.2.Carries) ∨
    (∃ c, (Redirect.gateway x).DerivesFrom (Built z) c ∧ w.1 = portNum c.ofport ∧
      w.2.HasFlag .REDIRECT ∧ w.2.Carries) ∨
    ∃ dsrport, opts.dsrport = some dsrport ∧ w.1 = portNum dsrport.2 ∧
      w.2.field .ethDst = dsrport.1 % 2 ^ 48 := by
  obtain ⟨s, _, h | ⟨dsrport, q, hopts, _, rfl⟩⟩ := goes_of_emits h5 hw
  · cases h with
    | host lsp hlsp hn hdp hdst _ => exact Or.inl ⟨lsp, hlsp, hn, hdp, hdst⟩
    | away lsp hlsp hn hdp hmac hdst hnot hcarries _ =>
        exact Or.inr (Or.inl ⟨lsp, hlsp, hn, hdp, hmac, hdst, hnot, hcarries⟩)
    | gateway c hc hn _ hflag hcarries _ =>
        exact Or.inr (Or.inr (Or.inl ⟨c, hc, hn, hflag, hcarries⟩))
  · refine Or.inr (Or.inr (Or.inr ⟨dsrport, hopts, rfl, ?_⟩))
    exact (Packet.set_field q _ _ _).trans (if_pos rfl)

theorem sent_to_destination_pair : ∃ w : Sent, w.1 = 5 ∧
    ((∃ lsp, (localBondLsp (.node false "hyper-1")).DerivesFrom (Built pairZoo) lsp ∧
      w.1 = portNum lsp.1.ofport ∧ w.2.field .regDp = digit (Props.strOf lsp.2.lsID) ∧
      w.2.field .regDst = lsp.1.portID) ∨
    (∃ lsp, (remoteLsp (.node false "hyper-1")).DerivesFrom (Built pairZoo) lsp ∧
      w.1 = portNum lsp.2.2.ofport ∧ w.2.field .regDp = digit (Props.strOf lsp.2.1.lsID) ∧
      w.2.field .ethDst = lsp.1.macInt ∧ w.2.field .regDst = lsp.1.portID ∧
      ¬ Hosted digit (.node false "hyper-1") pairZoo (w.2.field .regDp) (w.2.field .ethDst) ∧
      w.2.Carries) ∨
    (∃ c, (Redirect.gateway (.node false "hyper-1")).DerivesFrom (Built pairZoo) c ∧
      w.1 = portNum c.ofport ∧ w.2.HasFlag .REDIRECT ∧ w.2.Carries) ∨
    ∃ dsrport : ℕ × ℤ, (none : Option (ℕ × ℤ)) = some dsrport ∧ w.1 = portNum dsrport.2 ∧
      w.2.field .ethDst = dsrport.1 % 2 ^ 48) := by
  obtain ⟨w, hw, hport⟩ := Flows.emits_of_ports digit pairPacket_ports (List.mem_singleton_self 5)
  have hw' : (bridge (.node false "hyper-1") ⟨false, false, false, none⟩ pairZoo [] digit).Emits
      TABLE_CONVERT_PHY_LOGICAL pairPacket w := hw
  exact ⟨w, hport, sent_to_destination rfl hw'⟩

/-- **A packet leaves its switch by a hop.**  What is put out for a packet that comes in is still in
the switch in which it came in; or it is an IP packet with a lower time to live; or it is the answer
to an echo request, whose time to live has been set again, once, to less than 256 more than that of
the request; or another chassis had redirected it.  In particular no ARP packet leaves its
switch. -/
theorem switch_left_by_hop (h5 : p.field .reg5 = 0)
    (hw : (bridge x opts z learned idOf).Emits TABLE_CONVERT_PHY_LOGICAL p w) :
    ∃ s, Enters x z idOf p s ∧ w.2.proto = s.proto ∧
      (w.2.field .regDp = s.field .regDp ∨ w.2.IsIp ∧
        (w.2.field .ipTtl < s.field .ipTtl ∨
          (s.field .icmpType = 8 ∧ w.2.field .icmpType ≠ 8 ∧
            w.2.field .ipTtl < s.field .ipTtl + 256) ∨
          s.HasFlag .REDIRECT ∧ s.field .ethDst = 0)) := by
  obtain ⟨s, hs, h⟩ := goes_of_emits h5 hw
  obtain ⟨hproto, hdp | ⟨hip, hless | hresumed⟩⟩ := h.left
  · exact ⟨s, hs, hproto, Or.inl hdp⟩
  · exact ⟨s, hs, hproto, Or.inr ⟨hip, (ttl_of_hopBudget_lt hless).imp_right Or.inl⟩⟩
  · exact ⟨s, hs, hproto, Or.inr ⟨hip, Or.inr (Or.inr hresumed)⟩⟩

theorem switch_left_by_hop_pair : ∃ w : Sent, w.1 = 5 ∧
    ∃ s, Enters (.node false "hyper-1") pairZoo digit pairPacket s ∧ w.2.proto = s.proto ∧
      (w.2.field .regDp = s.field .regDp ∨ w.2.IsIp ∧
        (w.2.field .ipTtl < s.field .ipTtl ∨
          (s.field .icmpType = 8 ∧ w.2.field .icmpType ≠ 8 ∧
            w.2.field .ipTtl < s.field .ipTtl + 256) ∨
          s.HasFlag .REDIRECT ∧ s.field .ethDst = 0)) := by
  obtain ⟨w, hw, hport⟩ := Flows.emits_of_ports digit pairPacket_ports (List.mem_singleton_self 5)
  exact ⟨w, hport, switch_left_by_hop rfl hw⟩

/-- **A packet is redirected once.**  A packet that comes by a tunnel with the mark of a redirect is
never redirected again. -/
theorem redirected_once (h5 : p.field .reg5 = 0)
    (hport : ∀ lsp, (localBondLsp x).DerivesFrom (Built z) lsp →
      (p.field .inPort : ℤ) ≠ lsp.1.ofport)
    (hflag : (p.bits (.range .tunMetadata0 32 63)).testBit Flag.REDIRECT.bit = true) (q : Packet) :
    ¬ (bridge x opts z learned idOf).Reaches TABLE_CONVERT_PHY_LOGICAL p TABLE_REDIRECT_CHASSIS
    q := by
  intro h
  have hlooked : Looked x z idOf p TABLE_REDIRECT_CHASSIS q :=
    Contract.pre_of_reaches (contract_holds h5) (Or.inl ⟨rfl, rfl⟩) h
  obtain ⟨s, hs, hstage⟩ := stage_of_looked hlooked (by decide) (Or.inl (by decide))
  rw [stage_iff (show side TABLE_REDIRECT_CHASSIS = .redirect by decide)] at hstage
  refine hstage.1 ?_
  cases hs with
  | tunnel c _ _ =>
      exact (hasFlag_flag _ _ _).mpr (Or.inr ((Packet.hasFlag_extracted p _).mpr hflag))
  | port lsp hlsp hin => exact absurd hin (hport lsp hlsp)

set_option maxRecDepth 100000 in
/-- On a bridge that redirects. -/
theorem redirected_once_back : ¬ ∃ q, (bridge (.node false "hyper-1") ⟨false, true, false, none⟩
    pairZoo [] digit).Reaches TABLE_CONVERT_PHY_LOGICAL backPacket TABLE_REDIRECT_CHASSIS q := by
  have hports : ∀ d ∈ (localBondLsp (.node false "hyper-1")).eval pairZoo.scratch,
      (backPacket.field .inPort : ℤ) ≠ d.1.1.ofport := by decide +kernel
  rintro ⟨q, hq⟩
  refine redirected_once rfl (fun lsp hlsp => ?_) (by decide) q hq
  obtain ⟨sup, hsup⟩ := derivesFrom_built_iff.mp hlsp
  exact hports _ hsup

end outputs

end Delivery

end TupleNet
