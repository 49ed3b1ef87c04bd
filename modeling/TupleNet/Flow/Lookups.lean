import TupleNet.Flow.Forms

/-! # Lookups

What a packet that is looked up in a table can cause: the lookups in other tables (`Call`) and what
is put out (`Puts`), with what is known about the packets.  A helper table gives a packet back, and
`comes` says which.  `holds_of_calls` reduces a contract for the flows of a bridge to these
relations, so that a property of all runs is a case for each lookup. -/

namespace TupleNet

open Datalog Resubmit LogicalView LongestPrefix Redirect SwitchStages BuildFlows Forms

/-! ### What flows make of packets -/

namespace Packet
variable (p : Packet)

/-- After a number has been loaded. -/
def load (f : Field) (n : ℤ) : Packet := p.set f (n % 2 ^ 64).toNat

/-- After a flag has been set. -/
def flag (flag : Flag) : Packet := p.put (.range .regFlag flag.bit flag.bit) 1

/-- After a trace. -/
def traced : Packet := p.put (.range .regFlag 8 15) (p.bits (.range .regFlag 8 15) + 1)

/-- After `embed_metadata`. -/
def embedded : Packet :=
  let p₁ := p.put (.range .tunId 0 23) (p.bits (.range .regDp 0 23))
  let p₂ := p₁.put (.range .tunMetadata0 0 15) (p₁.bits (.range .regSrc 0 15))
  let p₃ := p₂.put (.range .tunMetadata0 16 31) (p₂.bits (.range .regDst 0 15))
  p₃.put (.range .tunMetadata0 32 63) (p₃.bits (.range .regFlag 0 31))

/-- After `extract_metadata`. -/
def extracted : Packet :=
  let p₁ := p.put (.range .regDp 0 23) (p.bits (.range .tunId 0 23))
  let p₂ := p₁.put (.range .regSrc 0 15) (p₁.bits (.range .tunMetadata0 0 15))
  let p₃ := p₂.put (.range .regDst 0 15) (p₂.bits (.range .tunMetadata0 16 31))
  p₃.put (.range .regFlag 0 31) (p₃.bits (.range .tunMetadata0 32 63))

/-- After `arp_feedback_construct` for an address. -/
def answered (ip mac : ℕ) : Packet :=
  let p₁ := p.flag .LOOPBACK
  let p₂ := (p₁.put (.all .ethDst) (p₁.field .ethSrc)).set .ethSrc mac
  let p₃ := p₂.load .arpOp 2
  let p₄ := (p₃.put (.all .arpTha) (p₃.field .arpSha)).load .arpSha mac
  let p₅ := (p₄.put (.all .arpTpa) (p₄.field .arpSpa)).load .arpSpa ip
  p₅.put (.all .regDst) (p₅.field .regSrc)

/-- The packet on the way to a router. -/
def routed : Packet :=
  let p₁ := p.put (.range .regDp 0 23) (p.bits (.range .reg6 0 23))
  ((p₁.put (.all .regSrc) (p₁.field .reg7)).load .reg6 0).load .reg7 0

/-- The answer to an echo request. -/
def echoed : Packet :=
  let p₁ := (p.set .ipSrc (p.field .ipDst)).set .ipDst (p.field .ipSrc)
  let p₂ := (p₁.load .ipTtl 0xff).load .icmpType 0
  (p₂.put (.all .regDst) (p₂.field .regSrc)).flag .LOOPBACK

/-- The trace of a packet that is put out goes into the metadata, too. -/
def tracedOut : Packet :=
  p.traced.put (.range .tunMetadata0 32 63) (p.traced.bits (.range .regFlag 0 31))

end Packet

namespace Lookups

/-- Two packets agree on the core fields and these, and no redirect is forgotten. -/
structure Steady (G : List Field) (p q : Packet) : Prop where
  agree : p.Agree (G ++ coreFields) q
  flag : p.HasFlag .REDIRECT → q.HasFlag .REDIRECT

/-- A packet, or the packet after a trace. -/
def Same (p q : Packet) : Prop := q = p ∨ q = p.traced

/-- Which packet a table gives back. -/
structure comes (t : ℕ) (p q : Packet) : Prop where
  arp : t = TABLE_ARP_FEEDBACK_CONSTRUCT → q = p ∨ (p.proto = .arp ∧ p.field .arpOp = 1) ∧
    ∃ ip mac, q = p.answered ip mac
  embed : t = TABLE_EMBED2_METADATA → q = p.embedded
  extract : t = TABLE_EXTRACT_METADATA → q = p.extracted
  search : t = TABLE_SEARCH_IP_MAC → q = p ∨ ∃ mac, q = p.set .ethDst mac

theorem comes_of_notMem {t : ℕ} {p q : Packet} (h : t ∉ givers) : comes t p q where
  arp ht := absurd (ht ▸ by decide) h
  embed ht := absurd (ht ▸ by decide) h
  extract ht := absurd (ht ▸ by decide) h
  search ht := absurd (ht ▸ by decide) h

/-! ### Lookups -/

section calls
variable (fl : Flows) (idOf : String → ℕ) (x : Extra) (z : Zoo)

/-- A port of this node has the Ethernet address in a switch. -/
def Hosted (dp mac : ℕ) : Prop := ∃ own : Lsp × Ls, (localLsp x).DerivesFrom (Built z) own ∧
  idOf (Props.strOf own.2.lsID) = dp ∧ own.1.macInt = mac

/-- A port of this node, with an interface, has the number in a switch. -/
def Bound (dp port : ℕ) : Prop := ∃ own : LspPort × Ls, (localBondLsp x).DerivesFrom (Built z) own ∧
  idOf (Props.strOf own.2.lsID) = dp ∧ own.1.portID = port

/-- The lookups that a packet in a table can cause. -/
inductive Call : ℕ → Packet → ℕ → Packet → Prop where
  | plain {t t' : ℕ} {p q : Packet} (ht : follows t t' = true) (hq : Steady [] p q) : Call t p t' q
  | extract {p : Packet} : Call TABLE_CONVERT_PHY_LOGICAL p TABLE_EXTRACT_METADATA p
  | tunnel (c : ChassisPort) (hc : remoteChassis.DerivesFrom (Built z) c) {p : Packet}
      (hin : (p.field .inPort : ℤ) = c.ofport) : Call TABLE_CONVERT_PHY_LOGICAL p
        TABLE_PIPELINE_FORWARD (p.extracted.flag .LOOPBACK)
  | enter (lsp : LspPort × Ls) (hlsp : (localBondLsp x).DerivesFrom (Built z) lsp) {p : Packet}
      (hin : (p.field .inPort : ℤ) = lsp.1.ofport) : Call TABLE_CONVERT_PHY_LOGICAL p
        TABLE_LSP_TRACE_INGRESS_IN
        ((p.load .regSrc lsp.1.portID).set .regDp (idOf (Props.strOf lsp.2.lsID)))
  | egress {t : ℕ} {p q : Packet}
      (ht : t = TABLE_LSP_TRACE_EGRESS_IN ∨ t = TABLE_LSP_EGRESS_JUDGE_LOOPBACK)
      (hq : Steady [.regDst] p q) : Call t p (t + 1) q
  | ask {p : Packet} : Call TABLE_LSP_INGRESS_ARP_RESPONSE p TABLE_ARP_FEEDBACK_CONSTRUCT p
  | respond {p q : Packet} (hq : comes TABLE_ARP_FEEDBACK_CONSTRUCT p q) :
      Call TABLE_LSP_INGRESS_ARP_RESPONSE p TABLE_LSP_INGRESS_UNTUNNEL q
  | found {t' : ℕ} (ls : Ls) (lsp : Lsp) {p q : Packet}
      (ht' : t' = TABLE_LSP_INGRESS_OUTPUT_DST_PORT ∨ t' = TABLE_LSP_TRACE_EGRESS_IN)
      (hdp : p.field .regDp = idOf (Props.strOf ls.lsID))
      (hforwards : Forwards fl idOf (idOf (Props.strOf ls.lsID)) lsp.portID) (hq : Steady [] p q)
      (hport : q.field .regDst = lsp.portID) : Call TABLE_LSP_INGRESS_LOOKUP_DST_PORT p t' q
  | away (lsp : Lsp × Ls × ChassisPort) (hlsp : (remoteLsp x).DerivesFrom (Built z) lsp)
      {p : Packet} (hdp : p.field .regDp = idOf (Props.strOf lsp.2.1.lsID))
      (hmac : p.field .ethDst = lsp.1.macInt)
      (hnot : ¬ Hosted idOf x z (p.field .regDp) (p.field .ethDst)) (n : ℕ)
      (hport : n % 2 ^ 32 = portNum lsp.2.2.ofport ∨ n % 2 ^ 32 = portNum TP_OFPORT_NONE) :
      Call TABLE_LSP_INGRESS_LOOKUP_DST_PORT p TABLE_LSP_INGRESS_OUTPUT_DST_PORT
        (((p.load .regDst lsp.1.portID).set .regOutport n).load .reg5 1)
  | unknown {p : Packet} : Call TABLE_LSP_INGRESS_LOOKUP_DST_PORT p
      TABLE_LSP_INGRESS_OUTPUT_DST_PORT ((p.load .regOutport TP_OFPORT_NONE).load .reg5 1)
  | redirect {p q : Packet} (hp : ¬ p.HasFlag .REDIRECT) (hq : Same p q) :
      Call TABLE_LSP_INGRESS_OUTPUT_DST_PORT p TABLE_REDIRECT_CHASSIS q
  | embed {p q : Packet} (hq : Same p q) :
      Call TABLE_LSP_INGRESS_OUTPUT_DST_PORT p TABLE_EMBED2_METADATA q
  | putOut {p q : Packet} (hreg5 : p.field .reg5 = 1) (hq : Same p q) :
      Call TABLE_LSP_INGRESS_OUTPUT_DST_PORT p TABLE_OUTPUT_PKT q.embedded
  | deliver {p q : Packet} (hreg5 : p.field .reg5 ≠ 1) (hq : Same p q) :
      Call TABLE_LSP_INGRESS_OUTPUT_DST_PORT p TABLE_LSP_TRACE_EGRESS_IN q
  | forwardLocal (lsp : LspPort × Ls) (hlsp : (localBondLsp x).DerivesFrom (Built z) lsp)
      {p : Packet} (hdp : p.field .regDp = idOf (Props.strOf lsp.2.lsID))
      (hdst : p.field .regDst = lsp.1.portID) : Call TABLE_LSP_EGRESS_FORWARD_PACKET p
        TABLE_LSP_EGRESS_PUSHOUT ((p.load .reg5 1).load .regOutport lsp.1.ofport)
  | forwardLrp (lrID : ℤ) (lrpID : ℕ) {p : Packet}
      (hnot : ¬ Bound idOf x z (p.field .regDp) (p.field .regDst)) :
      Call TABLE_LSP_EGRESS_FORWARD_PACKET p TABLE_LSP_EGRESS_PUSHOUT
        ((p.load .reg6 lrID).load .reg7 lrpID)
  | fallback {p : Packet} (hnot : ¬ Forwards fl idOf (p.field .regDp) (p.field .regDst)) :
      Call TABLE_LSP_EGRESS_FORWARD_PACKET p TABLE_LSP_INGRESS_LOOKUP_DST_PORT (p.flag .REDIRECT)
  | feedback {p : Packet} (hnot : ¬ Forwards fl idOf (p.field .regDp) (p.field .regDst)) :
      Call TABLE_LSP_EGRESS_FORWARD_PACKET p TABLE_ARP_FEEDBACK_CONSTRUCT (p.flag .REDIRECT)
  | fallbackArp {p q : Packet} (hnot : ¬ Forwards fl idOf (p.field .regDp) (p.field .regDst))
      (hq : comes TABLE_ARP_FEEDBACK_CONSTRUCT (p.flag .REDIRECT) q) :
      Call TABLE_LSP_EGRESS_FORWARD_PACKET p TABLE_LSP_INGRESS_LOOKUP_DST_PORT q
  | pushOut {p q : Packet} (hreg5 : p.field .reg5 = 1) (hq : Same p q) :
      Call TABLE_LSP_EGRESS_PUSHOUT p TABLE_OUTPUT_PKT q
  | toRouter {p q : Packet} (hreg5 : p.field .reg5 ≠ 1) (hq : Same p q) :
      Call TABLE_LSP_EGRESS_PUSHOUT p TABLE_LRP_TRACE_INGRESS_IN q.routed
  | echo {p : Packet} (hrequest : p.field .icmpType = 8) :
      Call TABLE_LRP_INGRESS_PKT_RESPONSE p TABLE_LRP_INGRESS_DROP_UNEXPECT p.echoed
  | hop {p : Packet} (hip : p.IsIp) (httl : 1 < p.field .ipTtl) :
      Call TABLE_LRP_INGRESS_DROP_UNEXPECT p TABLE_LRP_INGRESS_UNSNAT_STAGE1
        (p.set .ipTtl (p.field .ipTtl - 1))
  | known (mac : ℕ) {p : Packet} : Call TABLE_LRP_EGRESS_UPDATE_ETH_DST p
      TABLE_LRP_EGRESS_HANDLE_UNK_PKT (p.load .ethDst mac)
  | search {p : Packet} :
      Call TABLE_LRP_EGRESS_UPDATE_ETH_DST p TABLE_SEARCH_IP_MAC (p.set .ethDst 0)
  | searched {p q : Packet} (hq : comes TABLE_SEARCH_IP_MAC (p.set .ethDst 0) q) :
      Call TABLE_LRP_EGRESS_UPDATE_ETH_DST p TABLE_LRP_EGRESS_HANDLE_UNK_PKT q
  | unknownEmbed {p : Packet} (hp : ¬ p.HasFlag .REDIRECT) :
      Call TABLE_LRP_EGRESS_HANDLE_UNK_PKT p TABLE_EMBED2_METADATA (p.flag .REDIRECT)
  | unknownDst {p : Packet} (hp : ¬ p.HasFlag .REDIRECT) :
      Call TABLE_LRP_EGRESS_HANDLE_UNK_PKT p TABLE_REDIRECT_CHASSIS (p.flag .REDIRECT).embedded
  | pass {p : Packet} (hmac : p.field .ethDst ≠ 0) :
      Call TABLE_LRP_EGRESS_HANDLE_UNK_PKT p TABLE_LRP_EGRESS_FORWARD_PACKET p
  | leave (link : LspLinkLrp) {p : Packet} : Call TABLE_LRP_EGRESS_FORWARD_PACKET p
      TABLE_LRP_TRACE_EGRESS_OUT
        ((p.set .regDp (idOf (Props.strOf link.ls.lsID))).load .regSrc link.lsp.portID)
  | drop {p q : Packet} (hq : q = p ∨ q = p.tracedOut) : Call TABLE_OUTPUT_PKT p TABLE_DROP_PACKET q
  | gatewayEmbed (n : ℕ) {p : Packet} : Call TABLE_REDIRECT_CHASSIS p TABLE_EMBED2_METADATA
      ((p.flag .REDIRECT).set .regOutport n)
  | gateway (n : ℕ) (hport : n % 2 ^ 32 = portNum TP_OFPORT_NONE ∨ ∃ c,
        (Redirect.gateway x).DerivesFrom (Built z) c ∧ n % 2 ^ 32 = portNum c.ofport) {p : Packet} :
      Call TABLE_REDIRECT_CHASSIS p TABLE_OUTPUT_PKT ((p.flag .REDIRECT).set .regOutport n).embedded
  | redirected {p : Packet} (hip : p.IsIp) (hmac : p.field .ethDst = 0)
      (hflag : p.HasFlag .REDIRECT) :
      Call TABLE_PIPELINE_FORWARD p TABLE_LRP_INGRESS_IP_ROUTE p
  | arrived {p : Packet} (hnot : ¬ (p.IsIp ∧ p.field .ethDst = 0 ∧ p.HasFlag .REDIRECT)) :
      Call TABLE_PIPELINE_FORWARD p TABLE_LSP_TRACE_EGRESS_IN p

variable (opts : Options) in
/-- What a packet in a table can put out. -/
inductive Puts : ℕ → Packet → Sent → Prop where
  | untunnel (dsrport : ℕ × ℤ) (hopts : opts.dsrport = some dsrport) {p : Packet} :
      Puts TABLE_LSP_INGRESS_UNTUNNEL p (portNum dsrport.2, p.set .ethDst dsrport.1)
  | output {p q : Packet} (hport : (p.field .regOutport : ℤ) ≠ TP_OFPORT_NONE)
      (hq : q = p ∨ q = p.tracedOut) : Puts TABLE_OUTPUT_PKT p (p.field .regOutport, q)

end calls

/-- Tables whose plain flows only drop packets. -/
theorem drop_of_follows {t t' : ℕ} (ht : t ∈ [TABLE_LSP_INGRESS_OUTPUT_DST_PORT,
    TABLE_LSP_EGRESS_PUSHOUT, TABLE_LRP_INGRESS_DROP_UNEXPECT]) (h : follows t t' = true) :
    t' = TABLE_DROP_PACKET := by
  have hstages : t' ∈ stages := by
    simp only [follows, decide_eq_true_eq] at h
    refine List.idxOf_lt_length_iff.mp (Nat.lt_of_lt_of_le h.1 ?_)
    exact List.idxOf_le_length
  simp only [List.mem_cons, List.not_mem_nil, or_false] at ht
  rcases ht with rfl | rfl | rfl
  all_goals revert t'; decide

/-! ### Steady actions -/

theorem Steady.refl (G : List Field) (p : Packet) : Steady G p p := ⟨Packet.Agree.refl _ p, id⟩

theorem Steady.trans {G : List Field} {p q r : Packet} (h : Steady G p q) (h' : Steady G q r) :
    Steady G p r := ⟨h.agree.trans h'.agree, fun hp => h'.flag (h.flag hp)⟩

theorem hasFlag_put_range {p : Packet} {start stop n : ℕ} (h : start ≤ stop) (flag : Flag) :
    (p.put (.range .regFlag start stop) n).HasFlag flag ↔
      if start ≤ flag.bit ∧ flag.bit ≤ stop then n.testBit (flag.bit - start) = true
        else p.HasFlag flag := by
  have hput : (p.put (.range .regFlag start stop) n).field .regFlag =
      Bits.splice (p.field .regFlag) start stop n := by
    simp [Packet.put, NXMReg.range]
  unfold Packet.HasFlag
  rw [hput, Bits.testBit_splice h]
  split_ifs <;> rfl

theorem hasFlag_flag (p : Packet) (f g : Flag) :
    (p.flag f).HasFlag g ↔ g = f ∨ p.HasFlag g := by
  rw [Packet.flag, hasFlag_put_range (Nat.le_refl _)]
  cases f <;> cases g <;> simp [Flag.bit]

theorem hasFlag_traced (p : Packet) (flag : Flag) : p.traced.HasFlag flag ↔ p.HasFlag flag := by
  rw [Packet.traced, hasFlag_put_range (by decide)]
  cases flag <;> simp [Flag.bit]

theorem hasFlag_congr {p q : Packet} (h : q.field .regFlag = p.field .regFlag) (flag : Flag) :
    q.HasFlag flag ↔ p.HasFlag flag := by
  unfold Packet.HasFlag
  rw [h]

theorem hasFlag_of_agree {p q : Packet} (h : p.Agree [.regFlag] q) (flag : Flag) :
    q.HasFlag flag ↔ p.HasFlag flag :=
  hasFlag_congr (h.field .regFlag (by decide)) flag

theorem hasFlag_put_of_ne {p : Packet} {r : NXMReg} (n : ℕ) (h : r.field ≠ .regFlag) (flag : Flag) :
    (p.put r n).HasFlag flag ↔ p.HasFlag flag :=
  hasFlag_congr (Packet.put_field_ne p n h.symm) flag

section steady
variable {idOf : String → ℕ} {t : ℕ} {a : ActionExp} {p q : Packet} {e : Effect ℕ Packet Sent}

/-- An effect puts nothing out and forgets no redirect. -/
def Remembers (p : Packet) : Effect ℕ Packet Sent → Prop
  | .go q => p.HasFlag .REDIRECT → q.HasFlag .REDIRECT
  | .send _ => False
  | .stop => True
  | .call _ q => p.HasFlag .REDIRECT → q.HasFlag .REDIRECT
  | .fork _ q => p.HasFlag .REDIRECT → q.HasFlag .REDIRECT

theorem remembers_of_acts (ha : quiet a = true) (h : p.Acts idOf t a e) : Remembers p e := by
  have hne : ∀ {r : NXMReg} (n : ℕ), r.field ≠ .regFlag → p.HasFlag .REDIRECT →
      (p.put r n).HasFlag .REDIRECT := fun n hr hp => (hasFlag_put_of_ne n hr _).mpr hp
  have hct : ∀ src dst, p.HasFlag .REDIRECT →
      ((p.set .ipSrc src).set .ipDst dst).HasFlag .REDIRECT := fun src dst hp =>
    (hasFlag_put_of_ne _ (by decide) _).mpr ((hasFlag_put_of_ne _ (by decide) _).mpr hp)
  cases a with
  | output ofport => cases ha
  | outputReg f => cases ha
  | drop => subst h; exact id
  | modDlSrc mac => subst h; exact hne (r := .all .ethSrc) _ (by decide)
  | modDlDst mac => subst h; exact hne (r := .all .ethDst) _ (by decide)
  | modNwSrc addr => subst h; exact hne (r := .all .ipSrc) _ (by decide)
  | modNwDst addr => subst h; exact hne (r := .all .ipDst) _ (by decide)
  | decTtl =>
      simp only [Packet.Acts] at h
      split_ifs at h
      · subst h; trivial
      · subst h; exact hne (r := .all .ipTtl) _ (by decide)
  | resubmitTable table => subst h; exact id
  | resubmitNext => subst h; exact id
  | move source dest => subst h; exact hne _ (of_decide_eq_true ha)
  | load value dest => subst h; exact hne _ (of_decide_eq_true ha)
  | loadFlag flag => subst h; exact fun hp => (hasFlag_flag p flag .REDIRECT).mpr (Or.inr hp)
  | push f => subst h; exact id
  | exchange f g =>
      subst h
      obtain ⟨hf, hg⟩ := of_decide_eq_true ha
      exact fun hp => (hasFlag_put_of_ne _ hg _).mpr (hne (r := .all f) _ hf hp)
  | bundleLoad dest slaves =>
      obtain ⟨ofport, _, rfl⟩ := h
      exact hne (r := .all dest) _ (of_decide_eq_true ha)
  | note name => subst h; exact id
  | uploadArp => subst h; exact id
  | uploadTrace => subst h; exact (hasFlag_traced p .REDIRECT).mpr
  | uploadUnknowDst => subst h; exact id
  | generateArp table => subst h; exact id
  | snat addr table | unsnat table | dnat addr table | undnat table =>
      obtain ⟨src, dst, rfl⟩ := h
      exact hct src dst

end steady

/-! ### What flows leave alone -/

section leave
variable {F : List Field} {p q : Packet}

theorem agree_load (p : Packet) {f : Field} (n : ℤ) (h : f ∉ F) : p.Agree F (p.load f n) :=
  Packet.agree_set p _ h

theorem agree_flag (p : Packet) (f : Flag) (h : .regFlag ∉ F) : p.Agree F (p.flag f) :=
  Packet.agree_put p (r := .range .regFlag f.bit f.bit) _ h

theorem agree_traced (p : Packet) (h : .regFlag ∉ F) : p.Agree F p.traced :=
  Packet.agree_put p (r := .range .regFlag 8 15) _ h

theorem Same.agree (hq : Same p q) (h : .regFlag ∉ F) : p.Agree F q := by
  rcases hq with rfl | rfl
  · exact Packet.Agree.refl F _
  · exact agree_traced p h

theorem Same.flag (hq : Same p q) (flag : Flag) : q.HasFlag flag ↔ p.HasFlag flag := by
  rcases hq with rfl | rfl
  · rfl
  · exact hasFlag_traced p flag

theorem agree_embedded (p : Packet) (h : ∀ f ∈ [Field.tunId, .tunMetadata0], f ∉ F) :
    p.Agree F p.embedded := by
  have hmeta : Field.tunMetadata0 ∉ F := h _ (by decide)
  exact (((Packet.agree_put p (r := .range .tunId 0 23) _ (h _ (by decide))).trans
    (Packet.agree_put _ (r := .range .tunMetadata0 0 15) _ hmeta)).trans
      (Packet.agree_put _ (r := .range .tunMetadata0 16 31) _ hmeta)).trans
        (Packet.agree_put _ (r := .range .tunMetadata0 32 63) _ hmeta)

theorem agree_extracted (p : Packet)
    (h : ∀ f ∈ [Field.regDp, .regSrc, .regDst, .regFlag], f ∉ F) : p.Agree F p.extracted :=
  (((Packet.agree_put p (r := .range .regDp 0 23) _ (h _ (by decide))).trans
    (Packet.agree_put _ (r := .range .regSrc 0 15) _ (h _ (by decide)))).trans
      (Packet.agree_put _ (r := .range .regDst 0 15) _ (h _ (by decide)))).trans
        (Packet.agree_put _ (r := .range .regFlag 0 31) _ (h _ (by decide)))

theorem agree_tracedOut (p : Packet) (h : ∀ f ∈ [Field.regFlag, .tunMetadata0], f ∉ F) :
    p.Agree F p.tracedOut :=
  (agree_traced p (h _ (by decide))).trans
    (Packet.agree_put _ (r := .range .tunMetadata0 32 63) _ (h _ (by decide)))

theorem agree_answered (p : Packet) (ip mac : ℕ) (h : ∀ f ∈ [Field.regFlag, .ethDst, .ethSrc,
    .arpOp, .arpTha, .arpSha, .arpTpa, .arpSpa, .regDst], f ∉ F) : p.Agree F (p.answered ip mac) :=
  (agree_flag p .LOOPBACK (h _ (by decide))).trans <|
    (Packet.agree_put _ (r := .all .ethDst) _ (h _ (by decide))).trans <|
    (Packet.agree_set _ _ (h .ethSrc (by decide))).trans <|
    (agree_load _ _ (h .arpOp (by decide))).trans <|
    (Packet.agree_put _ (r := .all .arpTha) _ (h _ (by decide))).trans <|
    (agree_load _ _ (h .arpSha (by decide))).trans <|
    (Packet.agree_put _ (r := .all .arpTpa) _ (h _ (by decide))).trans <|
    (agree_load _ _ (h .arpSpa (by decide))).trans
      (Packet.agree_put _ (r := .all .regDst) _ (h _ (by decide)))

theorem hasFlag_answered (p : Packet) (ip mac : ℕ) (flag : Flag) :
    (p.answered ip mac).HasFlag flag ↔ flag = .LOOPBACK ∨ p.HasFlag flag := by
  have hfield : (p.answered ip mac).field .regFlag = (p.flag .LOOPBACK).field .regFlag := rfl
  exact (hasFlag_congr hfield flag).trans (hasFlag_flag p .LOOPBACK flag)

/-- What the answers to ARP requests leave alone. -/
theorem comes.agree_arp (hq : comes TABLE_ARP_FEEDBACK_CONSTRUCT p q) (h : ∀ f ∈ [Field.regFlag,
    .ethDst, .ethSrc, .arpOp, .arpTha, .arpSha, .arpTpa, .arpSpa, .regDst], f ∉ F) :
    p.Agree F q := by
  rcases hq.arp rfl with rfl | ⟨_, ip, mac, rfl⟩
  · exact Packet.Agree.refl F _
  · exact agree_answered p ip mac h

theorem comes.agree_search (hq : comes TABLE_SEARCH_IP_MAC p q) (h : .ethDst ∉ F) :
    p.Agree F q := by
  rcases hq.search rfl with rfl | ⟨mac, rfl⟩
  · exact Packet.Agree.refl F _
  · exact Packet.agree_set p mac h

theorem agree_echoed (p : Packet) (h : ∀ f ∈ [Field.ipSrc, .ipDst, .ipTtl, .icmpType, .regDst,
    .regFlag], f ∉ F) : p.Agree F p.echoed :=
  (Packet.agree_set p _ (h .ipSrc (by decide))).trans <|
    (Packet.agree_set _ _ (h .ipDst (by decide))).trans <|
    (agree_load _ _ (h .ipTtl (by decide))).trans <|
    (agree_load _ _ (h .icmpType (by decide))).trans <|
    (Packet.agree_put _ (r := .all .regDst) _ (h _ (by decide))).trans
      (agree_flag _ .LOOPBACK (h _ (by decide)))

theorem agree_routed (p : Packet) (h : ∀ f ∈ [Field.regDp, .regSrc, .reg6, .reg7], f ∉ F) :
    p.Agree F p.routed :=
  (Packet.agree_put p (r := .range .regDp 0 23) _ (h _ (by decide))).trans <|
    (Packet.agree_put _ (r := .all .regSrc) _ (h _ (by decide))).trans <|
    (agree_load _ _ (h .reg6 (by decide))).trans (agree_load _ _ (h .reg7 (by decide)))

end leave

/-- An echo request becomes an answer with the highest TTL. -/
theorem echoed_spec (p : Packet) :
    p.echoed.field .icmpType = 0 ∧ p.echoed.field .ipTtl = 255 := by
  have hflag : ∀ q : Packet, ∀ f ∈ [Field.icmpType, .ipTtl],
      ((q.put (.all .regDst) (q.field .regSrc)).flag .LOOPBACK).field f = q.field f := by
    intro q f hf
    have hne : f ≠ .regFlag ∧ f ≠ .regDst := by
      revert f
      decide
    rw [Packet.flag, Packet.put_field_ne _ _ hne.1, Packet.put_field_ne _ _ hne.2]
  rw [Packet.echoed, hflag _ _ (by decide), hflag _ _ (by decide)]
  exact ⟨rfl, rfl⟩

theorem load_field (p : Packet) {f : Field} (n : ℤ) (hwidth : f.width = 32) :
    (p.load f n).field f = portNum n := by
  rw [Packet.load, Packet.set_field, if_pos rfl, hwidth, portNum]
  omega

theorem not_hasFlag_of_clear {p : Packet} (h0 : p.field .regFlag = 0) (flag : Flag) :
    ¬ p.HasFlag flag := by
  unfold Packet.HasFlag
  rw [h0, Nat.zero_testBit]
  exact Bool.false_ne_true

theorem portNum_mod (ofport : ℤ) : portNum ofport % 2 ^ 32 = portNum ofport :=
  Nat.mod_eq_of_lt (by
    unfold portNum
    omega)

theorem load_portID (p : Packet) (lsp : Lsp) :
    (p.load .regDst lsp.portID).field .regDst = lsp.portID := by
  have hlt : lsp.portID < 2 ^ 16 := Nat.mod_lt _ (by decide)
  rw [load_field _ _ rfl]
  unfold portNum
  omega

/-! ### Actions that meet a contract -/

/-- The tables of a bridge, with what they give back. -/
def contract (pre : ℕ → Packet → Prop) (out : Sent → Prop) : Contract ℕ Packet Sent :=
  ⟨pre, comes, out⟩

section meets
variable {fl : Flows} {idOf : String → ℕ} {pre : ℕ → Packet → Prop} {out : Sent → Prop}
  {lower : ℕ × Packet → ℕ × Packet → Prop} {t : ℕ} {p₀ p r : Packet} {as : Action}

theorem free_cons {F : List Field} {a : ActionExp} : free F (a :: as) = true ↔
    (∀ f ∈ F, f ∉ a.writes) ∧ free F as = true := by
  simp only [free, List.all_cons, Bool.and_eq_true, List.all_eq_true, decide_eq_true_eq]
  exact and_congr_left fun _ => ⟨fun h f hf hw => h f hw hf, fun h f hw hf => h f hf hw⟩

theorem free_append {F G : List Field} (hF : free F as = true) (hG : free G as = true) :
    free (F ++ G) as = true := by
  simp only [free, List.all_eq_true, decide_eq_true_eq, List.mem_append, not_or] at hF hG ⊢
  exact fun a ha f hf => ⟨hF a ha f hf, hG a ha f hf⟩

/-- Quiet actions that leave the core fields alone, with at most one lookup.  After it, the packet
is not known. -/
theorem meets_quiet {G : List Field} (ht : t ∉ givers) (hfree : free (G ++ coreFields) as = true)
    (hquiet : as.all quiet = true) (hone : (jumps t as).length ≤ 1)
    (hcall : ∀ t' ∈ jumps t as, ∀ q, Steady G r q → pre t' q ∧ lower (t', q) (t, p₀))
    (hp : Steady G r p ∨ jumps t as = []) :
    (contract pre out).Meets (fl.pipeline idOf) lower t p₀ as p := by
  induction as generalizing p with
  | nil => exact comes_of_notMem ht
  | cons a as ih =>
      obtain ⟨hwrites, hfree⟩ := free_cons.mp hfree
      obtain ⟨ha, hquiet⟩ := Bool.and_eq_true_iff.mp hquiet
      intro e he
      have hleaves := Packet.leaves_of_acts (F := G ++ coreFields) he hwrites
      have hflag := remembers_of_acts ha he
      have hnone : a.target? t = none → ∀ q, (Steady G p q ∨ jumps t as = []) →
          (contract pre out).Meets (fl.pipeline idOf) lower t p₀ as q := by
        intro ha q hq
        have hjumps : jumps t (a :: as) = jumps t as := List.filterMap_cons_none ha
        rw [hjumps] at hone hcall hp
        refine ih hfree hquiet hone hcall ?_
        rcases hp with hp | hp
        · exact hq.imp_left fun h => hp.trans h
        · exact Or.inr hp
      have hsome : ∀ t', a.target? t = some t' → Steady G r p ∧
          (∀ q, Steady G r q → pre t' q ∧ lower (t', q) (t, p₀)) ∧
          ∀ q, (contract pre out).Meets (fl.pipeline idOf) lower t p₀ as q := by
        intro t' ha
        have hjumps : jumps t (a :: as) = t' :: jumps t as := List.filterMap_cons_some ha
        rw [hjumps] at hone hcall hp
        have hnil : jumps t as = [] := List.length_eq_zero_iff.mp (Nat.le_zero.mp
          (Nat.le_of_succ_le_succ hone))
        refine ⟨hp.resolve_right (by simp), hcall t' List.mem_cons_self, fun q => ?_⟩
        refine ih hfree hquiet (by simp [hnil]) (fun u hu => ?_) (Or.inr hnil)
        rw [hnil] at hu
        cases hu
      cases e with
      | go q => exact hnone hleaves.1 q (Or.inl ⟨hleaves.2, hflag⟩)
      | send w => exact hflag.elim
      | stop =>
          obtain rfl : a = .decTtl := hleaves
          exact absurd (by decide) (hwrites .ipTtl (by simp [coreFields]))
      | call t' q =>
          obtain ⟨ha', hq⟩ := hleaves
          obtain ⟨hr, hpre, hrest⟩ := hsome t' ha'
          obtain ⟨h1, h2⟩ := hpre q (hr.trans ⟨hq, hflag⟩)
          exact ⟨h1, h2, fun q' _ => hrest q'⟩
      | fork t' q =>
          obtain ⟨ha', hq⟩ := hleaves
          obtain ⟨hr, hpre, hrest⟩ := hsome t' ha'
          obtain ⟨h1, h2⟩ := hpre q (hr.trans ⟨hq, hflag⟩)
          exact ⟨h1, h2, hrest p⟩

/-- A note at the end. -/
theorem meets_note (ht : t ∉ givers) (note : String) :
    (contract pre out).Meets (fl.pipeline idOf) lower t p₀ [.note note] p :=
  Contract.meets_cons (fun _ he => he) (comes_of_notMem ht)

/-- A lookup and a note. -/
theorem meets_last (ht : t ∉ givers) {t' : ℕ} (h : pre t' p ∧ lower (t', p) (t, p₀))
    (note : String) :
    (contract pre out).Meets (fl.pipeline idOf) lower t p₀ [.resubmitTable t', .note note] p :=
  Contract.meets_cons (fun _ he => he) ⟨h.1, h.2, fun _ _ => meets_note ht note⟩

/-- The next lookup and a note. -/
theorem meets_next (ht : t ∉ givers) (h : pre (t + 1) p ∧ lower (t + 1, p) (t, p₀))
    (note : String) :
    (contract pre out).Meets (fl.pipeline idOf) lower t p₀ [.resubmitNext, .note note] p :=
  Contract.meets_cons (fun _ he => he) ⟨h.1, h.2, fun _ _ => meets_note ht note⟩

/-- Actions that may be traced. -/
theorem meets_same {b : Action} (hb : b = [] ∨ b = [.uploadTrace])
    (h : ∀ q, Same p q → (contract pre out).Meets (fl.pipeline idOf) lower t p₀ as q) :
    (contract pre out).Meets (fl.pipeline idOf) lower t p₀ (b ++ as) p := by
  rcases hb with rfl | rfl
  · exact h p (Or.inl rfl)
  · exact Contract.meets_cons (fun _ he => he) (h p.traced (Or.inr rfl))

end meets

/-! ### Flows that are not taken -/

section selected
variable {fl : Flows} {idOf : String → ℕ} {k : FlowKey Match} {as : Action} {p : Packet}

theorem not_of_beaten {m : Match} (h : Beaten fl k m) (hp : fl.Selected idOf p (k, as)) :
    ¬ ∀ e ∈ m, p.Satisfies idOf e := by
  intro hm
  obtain ⟨g, hg, htable, hlt, hmtch⟩ := h
  refine absurd (hp.highest g hg htable fun e he => ?_) (Nat.not_le.mpr hlt)
  exact (hmtch e he).elim (hp.hits e) (hm e)

theorem not_of_outdone {ls : Ls} {e : MatchExp} (h : Outdone fl k ls e)
    (hp : fl.Selected idOf p (k, as)) :
    ¬ (p.field .regDp = idOf (Props.strOf ls.lsID) ∧ p.Satisfies idOf e) := by
  rintro ⟨hdp, he⟩
  obtain ⟨g, hg, htable, hlt, hmtch⟩ := h
  refine absurd (hp.highest g hg htable ?_) (Nat.not_le.mpr hlt)
  rw [hmtch]
  simpa [Packet.Hits, Packet.Satisfies] using ⟨hdp, he⟩

/-- A packet that goes back to the lookup is for none of the ports that the switch forwards for. -/
theorem not_forwards (hp : fl.Selected idOf p (k, as))
    (htable : k.table = TABLE_LSP_EGRESS_FORWARD_PACKET) (hpriority : k.priority = 0) :
    ¬ Forwards fl idOf (p.field .regDp) (p.field .regDst) := by
  rintro ⟨g, hg, hgtable, hlt, id, hmtch, hid⟩
  have hhits : p.Hits idOf g.1.mtch := by
    rw [hmtch]
    simp [Packet.Hits, Packet.Satisfies, hid]
  have hle := hp.highest g hg (hgtable.trans htable.symm) hhits
  rw [hpriority] at hle
  omega

end selected

/-! ### Tables that give something back -/

theorem comes_answered {p : Packet} (harp : p.proto = .arp) (hop : p.field .arpOp = 1)
    (ip mac : ℕ) :
    comes TABLE_ARP_FEEDBACK_CONSTRUCT p (p.answered ip mac) := by
  refine ⟨fun _ => Or.inr ⟨⟨harp, hop⟩, ip, mac, rfl⟩, ?_, ?_, ?_⟩
  all_goals exact fun h => absurd h (by decide)

theorem comes_embedded (p : Packet) : comes TABLE_EMBED2_METADATA p p.embedded := by
  refine ⟨?_, fun _ => rfl, ?_, ?_⟩
  all_goals exact fun h => absurd h (by decide)

theorem comes_extracted (p : Packet) : comes TABLE_EXTRACT_METADATA p p.extracted := by
  refine ⟨?_, ?_, fun _ => rfl, ?_⟩
  all_goals exact fun h => absurd h (by decide)

theorem comes_learned (p : Packet) (mac : ℕ) : comes TABLE_SEARCH_IP_MAC p (p.set .ethDst mac) := by
  refine ⟨?_, ?_, ?_, fun _ => Or.inr ⟨mac, rfl⟩⟩
  all_goals exact fun h => absurd h (by decide)

/-! ### Flows of one form -/

section form
variable {fl : Flows} {idOf : String → ℕ} {x : Extra} {opts : Options} {z : Zoo}
  {pre : ℕ → Packet → Prop} {out : Sent → Prop} {lower : ℕ × Packet → ℕ × Packet → Prop}
  {t : ℕ} {p : Packet}

section lookups
variable (hcall : ∀ t' q, Call fl idOf x z t p t' q → pre t' q ∧ lower (t', q) (t, p))
include hcall

theorem meets_plain {as : Action} (h : plain t as = true) :
    (contract pre out).Meets (fl.pipeline idOf) lower t p as p := by
  simp only [plain, steady, Bool.and_eq_true, decide_eq_true_eq] at h
  obtain ⟨⟨⟨⟨hfree, hquiet⟩, hfollows⟩, hone⟩, ht⟩ := h
  refine meets_quiet (G := []) ht hfree hquiet hone (fun t' ht' q hq => ?_)
    (Or.inl (Steady.refl _ p))
  exact hcall t' q (.plain (List.all_eq_true.mp hfollows t' ht') hq)

theorem meets_egress {as : Action}
    (ht : t = TABLE_LSP_TRACE_EGRESS_IN ∨ t = TABLE_LSP_EGRESS_JUDGE_LOOPBACK)
    (hsteady : steady as = true) (hdst : free [.regDst] as = true) (hjumps : jumps t as = [t + 1]) :
    (contract pre out).Meets (fl.pipeline idOf) lower t p as p := by
  have hgivers : t ∉ givers := by
    rcases ht with rfl | rfl <;> decide
  obtain ⟨hfree, hquiet⟩ := Bool.and_eq_true_iff.mp hsteady
  refine meets_quiet (G := [.regDst]) hgivers (free_append hdst hfree) hquiet
    (by rw [hjumps]; exact Nat.le_refl 1) (fun t' ht' q hq => ?_) (Or.inl (Steady.refl _ p))
  rw [hjumps, List.mem_singleton] at ht'
  exact ht' ▸ hcall _ q (.egress ht hq)

theorem meets_found (ht : t = TABLE_LSP_INGRESS_LOOKUP_DST_PORT) {ls : Ls} {lsp : Lsp} {as : Action}
    (hdp : p.field .regDp = idOf (Props.strOf ls.lsID))
    (hforwards : Forwards fl idOf (idOf (Props.strOf ls.lsID)) lsp.portID)
    (hsteady : steady as = true) (hdst : free [.regDst] as = true)
    (hjumps : jumps t as = [TABLE_LSP_INGRESS_OUTPUT_DST_PORT] ∨
      jumps t as = [TABLE_LSP_TRACE_EGRESS_IN]) :
    (contract pre out).Meets (fl.pipeline idOf) lower t p
      (.loadNum lsp.portID .regDst :: as) p := by
  obtain rfl := ht
  obtain ⟨hfree, hquiet⟩ := Bool.and_eq_true_iff.mp hsteady
  have hone : (jumps TABLE_LSP_INGRESS_LOOKUP_DST_PORT as).length ≤ 1 := by
    rcases hjumps with hjumps | hjumps <;> rw [hjumps] <;> exact Nat.le_refl 1
  have hload : Steady [] p (p.load .regDst lsp.portID) :=
    ⟨Packet.agree_set p _ (by decide), (hasFlag_put_of_ne _ (by decide) _).mpr⟩
  refine Contract.meets_cons (fun _ he => he) ?_
  refine meets_quiet (G := [.regDst]) (by decide) (free_append hdst hfree) hquiet hone
    (fun t' ht' q hq => ?_) (Or.inl (Steady.refl _ _))
  refine hcall t' q (.found ls lsp ?_ hdp hforwards ?_ ?_)
  · rcases hjumps with hjumps | hjumps <;> rw [hjumps, List.mem_singleton] at ht'
    · exact Or.inl ht'
    · exact Or.inr ht'
  · exact hload.trans ⟨hq.agree.mono fun f hf => List.mem_append_right _ hf, hq.flag⟩
  · rw [hq.agree.field .regDst (by simp)]
    exact load_portID p lsp

theorem meets_away (ht : t = TABLE_LSP_INGRESS_LOOKUP_DST_PORT) {lsp : Lsp × Ls × ChassisPort}
    (hlsp : (remoteLsp x).DerivesFrom (Built z) lsp)
    (hdp : p.field .regDp = idOf (Props.strOf lsp.2.1.lsID)) (hmac : p.field .ethDst = lsp.1.macInt)
    (hnot : ¬ Hosted idOf x z (p.field .regDp) (p.field .ethDst)) (note : String) :
    (contract pre out).Meets (fl.pipeline idOf) lower t p [.loadNum lsp.1.portID .regDst,
      loadOutport opts lsp.2.2.ofport, .loadNum 1 .reg5, .resubmitNext, .note note] p := by
  obtain rfl := ht
  have hrest : ∀ n :
      ℕ, (n % 2 ^ 32 = portNum lsp.2.2.ofport ∨ n % 2 ^ 32 = portNum TP_OFPORT_NONE) →
      (contract pre out).Meets (fl.pipeline idOf) lower TABLE_LSP_INGRESS_LOOKUP_DST_PORT p
        [.loadNum 1 .reg5, .resubmitNext, .note note]
        ((p.load .regDst lsp.1.portID).set .regOutport n) := fun n hn =>
    Contract.meets_cons (fun _ he => he)
      (meets_next (by decide) (hcall _ _ (.away lsp hlsp hdp hmac hnot n hn)) note)
  have hmod : ∀ ofport : ℤ, (ofport % 2 ^ 64).toNat % 2 ^ 32 = portNum ofport := by
    intro ofport
    unfold portNum
    omega
  refine Contract.meets_cons (fun _ he => he) ?_
  unfold loadOutport
  split_ifs
  · rintro e ⟨ofport, hofport, rfl⟩
    refine hrest _ ?_
    rw [portNum_mod]
    rcases List.mem_cons.mp hofport with rfl | hofport
    · exact Or.inr rfl
    · exact Or.inl (by rw [List.mem_singleton.mp hofport])
  · exact Contract.meets_cons (fun _ he => he) (hrest _ (Or.inl (hmod _)))

theorem meets_putOut (ht : t = TABLE_LSP_INGRESS_OUTPUT_DST_PORT) {q : Packet}
    (hreg5 : p.field .reg5 = 1) (hq : Same p q) (note : String) :
    (contract pre out).Meets (fl.pipeline idOf) lower t p
      [.resubmitTable TABLE_EMBED2_METADATA, .resubmitTable TABLE_OUTPUT_PKT, .note note] q := by
  obtain rfl := ht
  have h1 := hcall _ _ (.embed hq)
  refine Contract.meets_cons (fun _ he => he) ⟨h1.1, h1.2, fun r hr => ?_⟩
  obtain rfl := hr.embed rfl
  exact meets_last (by decide) (hcall _ _ (.putOut hreg5 hq)) note

theorem meets_unknownDst (ht : t = TABLE_LRP_EGRESS_HANDLE_UNK_PKT) {b : Action}
    (hb : b = [] ∨ b = [.uploadUnknowDst]) (hflag : ¬ p.HasFlag .REDIRECT) (note : String) :
    (contract pre out).Meets (fl.pipeline idOf) lower t p (.loadFlag .REDIRECT :: b ++
      [.resubmitTable TABLE_EMBED2_METADATA, .resubmitTable TABLE_REDIRECT_CHASSIS, .note note])
      p := by
  obtain rfl := ht
  have h1 := hcall _ _ (.unknownEmbed hflag)
  have hrest : (contract pre out).Meets (fl.pipeline idOf) lower TABLE_LRP_EGRESS_HANDLE_UNK_PKT
      p [.resubmitTable TABLE_EMBED2_METADATA, .resubmitTable TABLE_REDIRECT_CHASSIS, .note note]
      (p.flag .REDIRECT) := by
    refine Contract.meets_cons (fun _ he => he) ⟨h1.1, h1.2, fun r hr => ?_⟩
    obtain rfl := hr.embed rfl
    exact meets_last (by decide) (hcall _ _ (.unknownDst hflag)) note
  refine Contract.meets_cons (fun _ he => he) ?_
  rcases hb with rfl | rfl
  · exact hrest
  · exact Contract.meets_cons (fun _ he => he) hrest

theorem meets_gateways (ht : t = TABLE_REDIRECT_CHASSIS) {ofports : List ℤ}
    (hports : ∀ ofport ∈ ofports, ∃ c, (gateway x).DerivesFrom (Built z) c ∧ c.ofport = ofport) :
    (contract pre out).Meets (fl.pipeline idOf) lower t p (redirectAction ofports) p := by
  obtain rfl := ht
  refine Contract.meets_cons (fun _ he => he) ?_
  rintro e ⟨ofport, hofport, rfl⟩
  have h1 := hcall _ _ (.gatewayEmbed (portNum ofport))
  refine Contract.meets_cons (fun _ he => he) ⟨h1.1, h1.2, fun r hr => ?_⟩
  obtain rfl := hr.embed rfl
  refine meets_last (by decide) (hcall _ _ (.gateway (portNum ofport) ?_)) _
  rw [portNum_mod]
  rcases List.mem_cons.mp hofport with rfl | hofport
  · exact Or.inl rfl
  · obtain ⟨c, hc, rfl⟩ := hports ofport hofport
    exact Or.inr ⟨c, hc, rfl⟩

theorem meets_outputNone (ht : t = TABLE_OUTPUT_PKT) {b : Action} (hb : b = [] ∨ b = [.uploadTrace,
      .move (.range .regFlag 0 31) (.range .tunMetadata0 32 63)]) (note : String) :
    (contract pre out).Meets (fl.pipeline idOf) lower t p
      (b ++ [.resubmitTable TABLE_DROP_PACKET, .note note]) p := by
  obtain rfl := ht
  rcases hb with rfl | rfl
  · exact meets_last (by decide) (hcall _ _ (.drop (Or.inl rfl))) note
  · exact Contract.meets_cons (fun _ he => he) (Contract.meets_cons (fun _ he => he)
      (meets_last (by decide) (hcall _ _ (.drop (Or.inr rfl))) note))

end lookups

theorem meets_output (ht : t = TABLE_OUTPUT_PKT) {b : Action} (hb : b = [] ∨ b = [.uploadTrace,
      .move (.range .regFlag 0 31) (.range .tunMetadata0 32 63)])
    (hport : (p.field .regOutport : ℤ) ≠ TP_OFPORT_NONE) (note : String)
    (hputs : ∀ w, Puts opts t p w → out w) :
    (contract pre out).Meets (fl.pipeline idOf) lower t p
      (b ++ [.outputReg .regOutport, .note note]) p := by
  obtain rfl := ht
  have hrest : ∀ q, (q = p ∨ q = p.tracedOut) → q.field .regOutport = p.field .regOutport →
      (contract pre out).Meets (fl.pipeline idOf) lower TABLE_OUTPUT_PKT p
        [.outputReg .regOutport, .note note] q := by
    intro q hq hfield
    refine Contract.meets_cons (fun _ he => he) ?_
    unfold Packet.emit
    split_ifs with hin
    · exact meets_note (by decide) note
    · rw [hfield]
      exact ⟨hputs _ (.output hport hq), meets_note (by decide) note⟩
  rcases hb with rfl | rfl
  · exact hrest p (Or.inl rfl) rfl
  · exact Contract.meets_cons (fun _ he => he) (Contract.meets_cons (fun _ he => he)
      (hrest p.tracedOut (Or.inr rfl) ((Packet.put_field_ne _ _ (by decide)).trans
        (Packet.put_field_ne _ _ (by decide)))))

theorem meets_untunnel (ht : t = TABLE_LSP_INGRESS_UNTUNNEL) {dsrport : ℕ × ℤ}
    (hopts : opts.dsrport = some dsrport) (note : String) (hputs : ∀ w, Puts opts t p w → out w) :
    (contract pre out).Meets (fl.pipeline idOf) lower t p
      [.modDlDst dsrport.1, .output dsrport.2, .note note] p := by
  obtain rfl := ht
  refine Contract.meets_cons (fun _ he => he) (Contract.meets_cons (fun _ he => he) ?_)
  unfold Packet.emit
  split_ifs with hin
  · exact meets_note (by decide) note
  · exact ⟨hputs _ (.untunnel dsrport hopts), meets_note (by decide) note⟩

/-! ### All flows -/

/-- **Every flow causes the lookups of `Call` and the outputs of `Puts` only.** -/
theorem meets_of_form {f : FlowKey Match × Action} (hf : Form fl idOf x opts z f)
    (ht : f.1.table = t) (hp : fl.Selected idOf p f)
    (hcall : ∀ t' q, Call fl idOf x z t p t' q → pre t' q ∧ lower (t', q) (t, p))
    (hputs : ∀ w, Puts opts t p w → out w) :
    (contract pre out).Meets (fl.pipeline idOf) lower t p f.2 p := by
  cases hf with
  | @plain k as h => exact meets_plain hcall (ht ▸ h)
  | tunnel c hc note =>
      obtain rfl : TABLE_CONVERT_PHY_LOGICAL = t := ht
      have hin : (p.field .inPort : ℤ) = c.ofport := hp.hits _ List.mem_cons_self
      have h1 := hcall _ _ .extract
      refine Contract.meets_cons (fun _ he => he) ⟨h1.1, h1.2, fun q hq => ?_⟩
      obtain rfl := hq.extract rfl
      exact Contract.meets_cons (fun _ he => he)
        (meets_last (by decide) (hcall _ _ (.tunnel c hc hin)) note)
  | enter lsp hlsp note =>
      obtain rfl : TABLE_CONVERT_PHY_LOGICAL = t := ht
      have hin : (p.field .inPort : ℤ) = lsp.1.ofport := hp.hits _ List.mem_cons_self
      exact Contract.meets_cons (fun _ he => he) (Contract.meets_cons (fun _ he => he)
        (meets_next (by decide) (hcall _ _ (.enter lsp hlsp hin)) note))
  | @egress k as htable hsteady hdst hjumps =>
      obtain rfl : k.table = t := ht
      exact meets_egress hcall htable hsteady hdst hjumps
  | @respond k htable note =>
      obtain rfl := htable.symm.trans ht
      have h1 := hcall _ _ .ask
      exact Contract.meets_cons (fun _ he => he) ⟨h1.1, h1.2, fun q hq =>
        meets_next (by decide) (hcall _ _ (.respond hq)) note⟩
  | @untunnel k dsrport hopts htable note =>
      exact meets_untunnel (ht.symm.trans htable) hopts note hputs
  | @found k ls lsp as htable hm hforwards hsteady hdst hjumps =>
      obtain rfl : k.table = t := ht
      exact meets_found hcall htable (hp.hits (.datapath _) (hm _ (by simp))) hforwards hsteady hdst
        hjumps
  | @away k lsp hlsp htable hm houtdone note =>
      have hnot : ¬ Hosted idOf x z (p.field .regDp) (p.field .ethDst) := by
        rintro ⟨own, hown, hdp, hmac⟩
        exact not_of_outdone (houtdone own hown) hp ⟨hdp.symm, hmac.symm⟩
      exact meets_away hcall (ht.symm.trans htable) hlsp (hp.hits (.datapath _) (hm _ (by simp)))
        (hp.hits (.ethDst _) (hm _ (by simp))) hnot note
  | @unknown k htable note =>
      obtain rfl := htable.symm.trans ht
      exact Contract.meets_cons (fun _ he => he) (Contract.meets_cons (fun _ he => he)
        (Contract.meets_cons (fun _ he => he) (meets_next (by decide) (hcall _ _ .unknown) note)))
  | @redirect k b hb htable hbeaten note =>
      obtain rfl := htable.symm.trans ht
      have hflag : ¬ p.HasFlag .REDIRECT := fun h =>
        not_of_beaten hbeaten hp (by simpa [Packet.Satisfies] using h)
      exact meets_same hb fun q hq => meets_last (by decide) (hcall _ _ (.redirect hflag hq)) note
  | @putOut k b hb htable hreg5 note =>
      exact meets_same hb fun q hq =>
        meets_putOut hcall (ht.symm.trans htable) (hp.hits _ hreg5) hq note
  | @deliver k b hb htable hbeaten note =>
      obtain rfl := htable.symm.trans ht
      have hreg5 : p.field .reg5 ≠ 1 := fun h =>
        not_of_beaten hbeaten hp (by simpa [Packet.Satisfies] using h)
      exact meets_same hb fun q hq => meets_last (by decide) (hcall _ _ (.deliver hreg5 hq)) note
  | @forwardLocal k lsp hlsp htable hm note =>
      obtain rfl := htable.symm.trans ht
      have hdp : p.field .regDp = idOf (Props.strOf lsp.2.lsID) :=
        hp.hits (.datapath _) (hm _ (by simp))
      have hdst : p.field .regDst = lsp.1.portID := hp.hits (.regDst _) (hm _ (by simp))
      exact Contract.meets_cons (fun _ he => he) (Contract.meets_cons (fun _ he => he)
        (meets_next (by decide) (hcall _ _ (.forwardLocal lsp hlsp hdp hdst)) note))
  | @forwardLrp k lrID lrpID htable houtdone note =>
      obtain rfl := htable.symm.trans ht
      have hnot : ¬ Bound idOf x z (p.field .regDp) (p.field .regDst) := by
        rintro ⟨own, hown, hdp, hdst⟩
        exact not_of_outdone (houtdone own hown) hp ⟨hdp.symm, hdst.symm⟩
      exact Contract.meets_cons (fun _ he => he) (Contract.meets_cons (fun _ he => he)
        (meets_next (by decide) (hcall _ _ (.forwardLrp lrID lrpID hnot)) note))
  | @fallback k htable hpriority hip note =>
      obtain rfl := htable.symm.trans ht
      exact Contract.meets_cons (fun _ he => he)
        (meets_last (by decide) (hcall _ _ (.fallback (not_forwards hp htable hpriority))) note)
  | @fallbackArp k htable hpriority harp hop note =>
      obtain rfl := htable.symm.trans ht
      have hnot := not_forwards hp htable hpriority
      have h1 := hcall _ _ (.feedback hnot)
      exact Contract.meets_cons (fun _ he => he) (Contract.meets_cons (fun _ he => he)
        ⟨h1.1, h1.2, fun q hq => meets_last (by decide) (hcall _ _ (.fallbackArp hnot hq)) note⟩)
  | @pushOut k b hb htable hreg5 note =>
      obtain rfl := htable.symm.trans ht
      exact meets_same hb fun q hq =>
        meets_last (by decide) (hcall _ _ (.pushOut (hp.hits _ hreg5) hq)) note
  | @toRouter k b hb htable hbeaten note =>
      obtain rfl := htable.symm.trans ht
      have hreg5 : p.field .reg5 ≠ 1 := fun h =>
        not_of_beaten hbeaten hp (by simpa [Packet.Satisfies] using h)
      exact meets_same hb fun q hq => Contract.meets_cons (fun _ he => he)
        (Contract.meets_cons (fun _ he => he) (Contract.meets_cons (fun _ he => he)
          (Contract.meets_cons (fun _ he => he)
            (meets_last (by decide) (hcall _ _ (.toRouter hreg5 hq)) note))))
  | @echo k htable hrequest note =>
      obtain rfl := htable.symm.trans ht
      exact Contract.meets_cons (fun _ he => he) (Contract.meets_cons (fun _ he => he)
        (Contract.meets_cons (fun _ he => he) (Contract.meets_cons (fun _ he => he)
          (Contract.meets_cons (fun _ he => he)
            (meets_next (by decide) (hcall _ _ (.echo (hp.hits _ hrequest))) note)))))
  | @hop k htable hip note =>
      obtain rfl := htable.symm.trans ht
      intro e he
      obtain rfl : e = _ := he
      split_ifs with httl
      · exact comes_of_notMem (by decide)
      · exact meets_next (by decide) (hcall _ _ (.hop (hp.hits _ hip) (Nat.lt_of_not_le httl))) note
  | @known k mac htable note =>
      obtain rfl := htable.symm.trans ht
      exact Contract.meets_cons (fun _ he => he)
        (meets_next (by decide) (hcall _ _ (.known mac)) note)
  | @search k htable note =>
      obtain rfl := htable.symm.trans ht
      have h1 := hcall _ _ .search
      exact Contract.meets_cons (fun _ he => he) (Contract.meets_cons (fun _ he => he)
        ⟨h1.1, h1.2, fun q hq => meets_next (by decide) (hcall _ _ (.searched hq)) note⟩)
  | @unknownDst k b hb htable hbeaten note =>
      have hflag : ¬ p.HasFlag .REDIRECT := fun h =>
        not_of_beaten hbeaten hp (by simpa [Packet.Satisfies] using h)
      exact meets_unknownDst hcall (ht.symm.trans htable) hb hflag note
  | @pass k htable hbeaten note =>
      obtain rfl := htable.symm.trans ht
      have hmac : p.field .ethDst ≠ 0 := fun h =>
        not_of_beaten hbeaten hp (by simpa [Packet.Satisfies] using h)
      exact meets_next (by decide) (hcall _ _ (.pass hmac)) note
  | @leave k link htable note =>
      obtain rfl := htable.symm.trans ht
      exact Contract.meets_cons (fun _ he => he) (Contract.meets_cons (fun _ he => he)
        (meets_next (by decide) (hcall _ _ (.leave link)) note))
  | @output k b hb htable hbeaten note =>
      have hport : (p.field .regOutport : ℤ) ≠ TP_OFPORT_NONE := fun h =>
        not_of_beaten hbeaten hp (by simpa [Packet.Satisfies] using h)
      exact meets_output (ht.symm.trans htable) hb hport note hputs
  | @outputNone k b hb htable note => exact meets_outputNone hcall (ht.symm.trans htable) hb note
  | gateways ofports hports => exact meets_gateways hcall ht.symm hports
  | @answer k ip mac htable harp hop =>
      obtain rfl := htable.symm.trans ht
      exact Contract.meets_cons (fun _ he => he) (Contract.meets_cons (fun _ he => he)
        (Contract.meets_cons (fun _ he => he) (Contract.meets_cons (fun _ he => he)
          (Contract.meets_cons (fun _ he => he) (Contract.meets_cons (fun _ he => he)
            (Contract.meets_cons (fun _ he => he) (Contract.meets_cons (fun _ he => he)
              (Contract.meets_cons (fun _ he => he)
                (comes_answered (hp.hits _ harp) (hp.hits _ hop) ip mac)))))))))
  | @embed k htable note =>
      obtain rfl := htable.symm.trans ht
      exact Contract.meets_cons (fun _ he => he) (Contract.meets_cons (fun _ he => he)
        (Contract.meets_cons (fun _ he => he) (Contract.meets_cons (fun _ he => he)
          (Contract.meets_cons (fun _ he => he) (comes_embedded p)))))
  | @extract k htable note =>
      obtain rfl := htable.symm.trans ht
      exact Contract.meets_cons (fun _ he => he) (Contract.meets_cons (fun _ he => he)
        (Contract.meets_cons (fun _ he => he) (Contract.meets_cons (fun _ he => he)
          (Contract.meets_cons (fun _ he => he) (comes_extracted p)))))
  | @redirected k htable hm note =>
      obtain rfl := htable.symm.trans ht
      exact meets_last (by decide) (hcall _ _ (.redirected (hp.hits _ (hm .ipProto (by simp)))
        (hp.hits _ (hm (.ethDst 0) (by simp))) (hp.hits _ (hm (.regFlag .REDIRECT) (by simp)))))
        note
  | @arrived k htable hbeaten note =>
      obtain rfl := htable.symm.trans ht
      refine meets_last (by decide) (hcall _ _ (.arrived fun h => ?_)) note
      exact not_of_beaten hbeaten hp (by simpa [Packet.Satisfies] using h)
  | @learned k mac htable =>
      obtain rfl := htable.symm.trans ht
      exact Contract.meets_cons (fun _ he => he) (comes_learned p mac)

end form

/-! ### Bridges -/

section bridge
variable (x : Extra) (opts : Options) (z : Zoo) (learned : List (ℕ × ℕ)) (idOf : String → ℕ)

/-- The tables of a bridge after a build from scratch. -/
abbrev bridge : Pipeline ℕ Packet ActionExp Sent := Flows.pipeline idOf (allFlows x opts z learned)

/-- The same tables while these ports are up. -/
abbrev bridgeUp (up : ℤ → Prop) : Pipeline ℕ Packet ActionExp Sent :=
  Flows.pipelineUp idOf up (allFlows x opts z learned)

variable {x opts z learned idOf}

/-- A packet that no flow takes. -/
theorem comes_of_no_flow {t : ℕ} {p : Packet}
    (h : ∀ g ∈ allFlows x opts z learned, g.1.table = t → ¬ p.Hits idOf g.1.mtch) :
    comes t p p := by
  have hconst : ∀ g ∈ buildConstFlows, g.1.mtch = [.matchNone] → g.1.table ≠ t := by
    intro g hg hm ht
    refine h g (mem_allFlows.mpr (Or.inr (Or.inr (Or.inr (Or.inl hg))))) ht ?_
    rw [hm]
    simp [Packet.Hits, Packet.Satisfies]
  have hne : ∀ t', (∃ g ∈ buildConstFlows, g.1.mtch = [.matchNone] ∧ g.1.table = t') → t ≠ t' := by
    rintro t' ⟨g, hg, hm, ht'⟩ rfl
    exact hconst g hg hm ht'
  refine ⟨fun _ => Or.inl rfl, fun ht => absurd ht (hne _ ?_), fun ht => absurd ht (hne _ ?_),
    fun _ => Or.inl rfl⟩
  all_goals decide

/-- **What lookups keep, runs keep**: a contract that all lookups and outputs of flows keep holds of
the bridge. -/
theorem holds_of_calls {pre : ℕ → Packet → Prop} {out : Sent → Prop}
    {lower : ℕ × Packet → ℕ × Packet → Prop}
    (hcall : ∀ t p t' q, pre t p → Call (allFlows x opts z learned) idOf x z t p t' q →
      pre t' q ∧ lower (t', q) (t, p))
    (hputs : ∀ t p w, pre t p → Puts opts t p w → out w) :
    (contract pre out).Holds (bridge x opts z learned idOf) lower := by
  rintro t p as hpre (⟨f, hf, rfl, rfl⟩ | ⟨rfl, hnone⟩)
  · exact meets_of_form (form_of_mem hf.mem) rfl hf (fun t' q => hcall _ p t' q hpre)
      fun w => hputs _ p w hpre
  · exact comes_of_no_flow hnone

end bridge

end Lookups

end TupleNet
