import TupleNet.Flow.Convert
import TupleNet.Flow.OpenFlow
import TupleNet.Lib.Bits
import TupleNet.Lib.Resubmit
import Mathlib.Algebra.GroupWithZero.Nat

/-! # What flows do to packets

A packet is its protocol and the values of the fields and registers that flows name.  `Packet.Hits`
says which packets a match accepts and `Packet.Acts` what an action can make of a packet, as Open
vSwitch documents them; with the flows of a bridge they make a pipeline (`pipeline`).

Where Open vSwitch decides by something that is not modelled, every outcome is possible: which live
slave a bundle loads, and which addresses connection tracking writes.  `pipelineUp` is the same
bridge while certain ports are up. -/

namespace TupleNet

open Datalog Resubmit

/-! ### Packets -/

/-- The protocols that matches tell apart; `ip` is IPv4 other than ICMP. -/
inductive Proto where
  | icmp
  | ip
  | arp
  | other
deriving DecidableEq, Repr

/-- The number of bits of a field. -/
def Field.width : Field → ℕ
  | ethSrc | ethDst | arpSha | arpTha => 48
  | regDp | tunId | tunMetadata0 => 64
  | ipTtl | icmpType => 8
  | arpOp | inPort => 16
  | _ => 32

/-- The index of a flag in `REG_FLAG`. -/
def Flag.bit : Flag → ℕ
  | LOOPBACK => 0
  | TRACE => 1
  | REDIRECT => 2
  | NAT => 3

/-- A packet in a bridge. -/
structure Packet where
  proto : Proto
  icmpCode : ℕ
  field : Field → ℕ

namespace Packet

/-- The packet is an IPv4 packet. -/
def IsIp (p : Packet) : Prop := p.proto = .icmp ∨ p.proto = .ip

instance (p : Packet) : Decidable p.IsIp := inferInstanceAs (Decidable (_ ∨ _))

theorem IsIp.ne_arp {p : Packet} (h : p.IsIp) : p.proto ≠ .arp := by
  intro harp
  unfold IsIp at h
  rw [harp] at h
  exact absurd h (by decide)

/-- The value of a field or of some of its bits. -/
def bits (p : Packet) (r : NXMReg) : ℕ :=
  match r.bits with
  | none => p.field r.field
  | some (start, stop) => Bits.slice (p.field r.field) start stop

/-- Writing a field or some of its bits. -/
def put (p : Packet) (r : NXMReg) (n : ℕ) : Packet :=
  { p with
    field := Function.update p.field r.field
      (match r.bits with
        | none => n % 2 ^ r.field.width
        | some (start, stop) => Bits.splice (p.field r.field) start stop n) }

/-- Writing a whole field. -/
def set (p : Packet) (f : Field) (n : ℕ) : Packet := p.put (.all f) n

/-- A flag is set. -/
def HasFlag (p : Packet) (flag : Flag) : Prop := (p.field .regFlag).testBit flag.bit = true

instance (p : Packet) (flag : Flag) : Decidable (p.HasFlag flag) :=
  inferInstanceAs (Decidable (_ = _))

/-- Two packets agree on these fields, and on the protocol. -/
structure Agree (F : List Field) (p q : Packet) : Prop where
  proto : q.proto = p.proto
  field : ∀ f ∈ F, q.field f = p.field f

end Packet

/-! ### Matches -/

section meaning
-- the number that Open vSwitch reads in the text of an id
variable (idOf : String → ℕ)

namespace Packet

/-- The packet satisfies an expression. -/
def Satisfies (p : Packet) : MatchExp → Prop
  | .matchNone => True
  | .datapath id => p.field .regDp = idOf id
  | .inPort ofport => (p.field .inPort : ℤ) = ofport
  | .reg2 n => p.field .reg2 = n
  | .reg5 n => p.field .reg5 = n
  | .regDst n => p.field .regDst = n
  | .regOutport ofport => (p.field .regOutport : ℤ) = ofport
  | .regFlag flag => p.HasFlag flag
  | .ipProto => p.IsIp
  | .ipDst addr prefixLen => maskIp (p.field .ipDst) prefixLen = addr
  | .ipSrc addr prefixLen => maskIp (p.field .ipSrc) (clampPrefix prefixLen) = addr
  | .ipTtl n => p.field .ipTtl = n
  | .ethDst mac => p.field .ethDst = mac
  | .arpProto => p.proto = .arp
  | .arpTpa addr => p.field .arpTpa = addr
  | .arpOp n => p.field .arpOp = n
  | .icmpProto => p.proto = .icmp
  | .icmpType n => p.field .icmpType = n
  | .icmpCode n => p.icmpCode = n

instance (p : Packet) : DecidablePred (p.Satisfies idOf)
  | .matchNone => inferInstanceAs (Decidable True)
  | .datapath id => inferInstanceAs (Decidable (p.field .regDp = idOf id))
  | .inPort ofport => inferInstanceAs (Decidable ((p.field .inPort : ℤ) = ofport))
  | .reg2 n => inferInstanceAs (Decidable (p.field .reg2 = n))
  | .reg5 n => inferInstanceAs (Decidable (p.field .reg5 = n))
  | .regDst n => inferInstanceAs (Decidable (p.field .regDst = n))
  | .regOutport ofport => inferInstanceAs (Decidable ((p.field .regOutport : ℤ) = ofport))
  | .regFlag flag => inferInstanceAs (Decidable (p.HasFlag flag))
  | .ipProto => inferInstanceAs (Decidable p.IsIp)
  | .ipDst addr prefixLen => inferInstanceAs (Decidable (maskIp (p.field .ipDst) prefixLen = addr))
  | .ipSrc addr prefixLen =>
      inferInstanceAs (Decidable (maskIp (p.field .ipSrc) (clampPrefix prefixLen) = addr))
  | .ipTtl n => inferInstanceAs (Decidable (p.field .ipTtl = n))
  | .ethDst mac => inferInstanceAs (Decidable (p.field .ethDst = mac))
  | .arpProto => inferInstanceAs (Decidable (p.proto = .arp))
  | .arpTpa addr => inferInstanceAs (Decidable (p.field .arpTpa = addr))
  | .arpOp n => inferInstanceAs (Decidable (p.field .arpOp = n))
  | .icmpProto => inferInstanceAs (Decidable (p.proto = .icmp))
  | .icmpType n => inferInstanceAs (Decidable (p.field .icmpType = n))
  | .icmpCode n => inferInstanceAs (Decidable (p.icmpCode = n))

/-- The packet satisfies a match. -/
def Hits (p : Packet) (m : Match) : Prop := ∀ e ∈ m, p.Satisfies idOf e

instance (p : Packet) : DecidablePred (p.Hits idOf) := fun m =>
  inferInstanceAs (Decidable (∀ e ∈ m, p.Satisfies idOf e))

end Packet

/-! ### Actions -/

/-- The number that a port has in a register. -/
def portNum (ofport : ℤ) : ℕ := (ofport % 2 ^ 32).toNat

/-- What is loaded. -/
def LoadValue.val : LoadValue → ℕ
  | num n => (n % 2 ^ 64).toNat
  | text s => idOf s

/-- What is put out: the number of the port and the packet. -/
abbrev Sent := ℕ × Packet

namespace Packet

/-- A packet put out; nothing is put out where it came in. -/
def emit (p : Packet) (ofport : ℕ) : Effect ℕ Packet Sent :=
  if ofport = p.field .inPort then .go p else .send (ofport, p)

/-- What an action in a table can make of a packet.  `dec_ttl` stops at a TTL of at most `1`;
`controller(pause)` comes back with the next sequence number in the flags; `ct` looks up a copy with
the addresses of its connection.  The packets that the controller makes itself and sends back, as
for `generateArp`, are not modelled. -/
def Acts (t : ℕ) : ActionExp → Packet → Effect ℕ Packet Sent → Prop
  | .output ofport, p, e => e = p.emit (portNum ofport)
  | .outputReg f, p, e => e = p.emit (p.field f)
  | .drop, p, e => e = .go p
  | .modDlSrc mac, p, e => e = .go (p.set .ethSrc mac)
  | .modDlDst mac, p, e => e = .go (p.set .ethDst mac)
  | .modNwSrc addr, p, e => e = .go (p.set .ipSrc addr)
  | .modNwDst addr, p, e => e = .go (p.set .ipDst addr)
  | .decTtl, p, e =>
      e = if p.field .ipTtl ≤ 1 then .stop else .go (p.set .ipTtl (p.field .ipTtl - 1))
  | .resubmitTable table, p, e => e = .call table p
  | .resubmitNext, p, e => e = .call (t + 1) p
  | .move source dest, p, e => e = .go (p.put dest (p.bits source))
  | .load value dest, p, e => e = .go (p.put dest (value.val idOf))
  | .loadFlag flag, p, e => e = .go (p.put (.range .regFlag flag.bit flag.bit) 1)
  | .push _, p, e => e = .go p
  | .exchange f g, p, e => e = .go ((p.set f (p.field g)).set g (p.field f))
  | .bundleLoad dest slaves, p, e =>
      ∃ ofport ∈ TP_OFPORT_NONE :: slaves, e = .go (p.set dest (portNum ofport))
  | .note _, p, e => e = .go p
  | .uploadArp, p, e => e = .go p
  | .uploadTrace, p, e =>
      e = .go (p.put (.range .regFlag 8 15) (p.bits (.range .regFlag 8 15) + 1))
  | .uploadUnknowDst, p, e => e = .go p
  | .generateArp _, p, e => e = .go p
  | .snat _ table, p, e => ∃ src dst, e = .fork table ((p.set .ipSrc src).set .ipDst dst)
  | .unsnat table, p, e => ∃ src dst, e = .fork table ((p.set .ipSrc src).set .ipDst dst)
  | .dnat _ table, p, e => ∃ src dst, e = .fork table ((p.set .ipSrc src).set .ipDst dst)
  | .undnat table, p, e => ∃ src dst, e = .fork table ((p.set .ipSrc src).set .ipDst dst)

end Packet

/-! ### Bridges -/

/-- The flows of a bridge. -/
abbrev Flows := List (FlowKey Match × Action)

/-- A packet takes this flow in its table: the flow matches and no other that matches has a higher
priority. -/
structure Flows.Selected (fl : Flows) (p : Packet) (f : FlowKey Match × Action) : Prop where
  mem : f ∈ fl
  hits : p.Hits idOf f.1.mtch
  highest : ∀ g ∈ fl, g.1.table = f.1.table → p.Hits idOf g.1.mtch → g.1.priority ≤ f.1.priority

/-- The actions that a packet finds in a table: those of a flow that it takes, or none if no flow
matches. -/
def Flows.Finds (fl : Flows) (t : ℕ) (p : Packet) (as : Action) : Prop :=
  (∃ f, fl.Selected idOf p f ∧ f.1.table = t ∧ as = f.2) ∨
    as = [] ∧ ∀ g ∈ fl, g.1.table = t → ¬ p.Hits idOf g.1.mtch

/-- The tables of a bridge. -/
def Flows.pipeline (fl : Flows) : Pipeline ℕ Packet ActionExp Sent where
  act t a p e := p.Acts idOf t a e
  select t p as := fl.Finds idOf t p as

/-! ### Bundles -/

/-- What an action can make of a packet while these ports are up: `bundle_load` loads a slave that
is up, and no port only if none is. -/
def Packet.ActsUp (up : ℤ → Prop) (t : ℕ) : ActionExp → Packet → Effect ℕ Packet Sent → Prop
  | .bundleLoad dest slaves, p, e =>
      (∃ ofport ∈ slaves, up ofport ∧ e = .go (p.set dest (portNum ofport))) ∨
        (∀ ofport ∈ slaves, ¬ up ofport) ∧ e = .go (p.set dest (portNum TP_OFPORT_NONE))
  | a, p, e => p.Acts idOf t a e

/-- The tables of a bridge while these ports are up. -/
def Flows.pipelineUp (up : ℤ → Prop) (fl : Flows) : Pipeline ℕ Packet ActionExp Sent where
  act t a p e := p.ActsUp idOf up t a e
  select t p as := fl.Finds idOf t p as

variable {idOf} in
theorem Packet.acts_of_actsUp {up : ℤ → Prop} {t : ℕ} {a : ActionExp} {p : Packet}
    {e : Effect ℕ Packet Sent} (h : p.ActsUp idOf up t a e) : p.Acts idOf t a e := by
  cases a
  case bundleLoad dest slaves =>
    rcases h with ⟨ofport, hmem, _, rfl⟩ | ⟨_, rfl⟩
    · exact ⟨ofport, List.mem_cons_of_mem _ hmem, rfl⟩
    · exact ⟨_, List.mem_cons_self, rfl⟩
  all_goals exact h

/-- Whatever ports are up, the bridge does what it can do. -/
theorem Flows.pipelineUp_below (up : ℤ → Prop) (fl : Flows) :
    (fl.pipelineUp idOf up).Below (fl.pipeline idOf) :=
  ⟨Packet.acts_of_actsUp, fun h => h⟩

/-! ### Evaluation -/

/-- One of the effects of an action: a bundle loads its first slave, and connection tracking
translates nothing. -/
def Packet.effect (t : ℕ) (a : ActionExp) (p : Packet) : Effect ℕ Packet Sent :=
  match a with
  | .output ofport => p.emit (portNum ofport)
  | .outputReg f => p.emit (p.field f)
  | .modDlSrc mac => .go (p.set .ethSrc mac)
  | .modDlDst mac => .go (p.set .ethDst mac)
  | .modNwSrc addr => .go (p.set .ipSrc addr)
  | .modNwDst addr => .go (p.set .ipDst addr)
  | .decTtl => if p.field .ipTtl ≤ 1 then .stop else .go (p.set .ipTtl (p.field .ipTtl - 1))
  | .resubmitTable table => .call table p
  | .resubmitNext => .call (t + 1) p
  | .move source dest => .go (p.put dest (p.bits source))
  | .load value dest => .go (p.put dest (value.val idOf))
  | .loadFlag flag => .go (p.put (.range .regFlag flag.bit flag.bit) 1)
  | .exchange f g => .go ((p.set f (p.field g)).set g (p.field f))
  | .bundleLoad dest slaves => .go (p.set dest (portNum (slaves.headD TP_OFPORT_NONE)))
  | .uploadTrace => .go (p.put (.range .regFlag 8 15) (p.bits (.range .regFlag 8 15) + 1))
  | .snat _ table | .unsnat table | .dnat _ table | .undnat table =>
      .fork table ((p.set .ipSrc (p.field .ipSrc)).set .ipDst (p.field .ipDst))
  | _ => .go p

theorem Packet.acts_effect (t : ℕ) (a : ActionExp) (p : Packet) :
    p.Acts idOf t a (p.effect idOf t a) := by
  cases a
  case bundleLoad dest slaves =>
    cases slaves with
    | nil => exact ⟨_, List.mem_cons_self, rfl⟩
    | cons ofport slaves => exact ⟨ofport, List.mem_cons_of_mem _ List.mem_cons_self, rfl⟩
  all_goals first | exact rfl | exact ⟨_, _, rfl⟩

/-- A flow that a packet takes in a table. -/
def Flows.best (fl : Flows) (t : ℕ) (p : Packet) : Option (FlowKey Match × Action) :=
  fl.foldr (fun f b => if f.1.table = t ∧ p.Hits idOf f.1.mtch then
    match b with
    | none => some f
    | some g => if g.1.priority ≤ f.1.priority then some f else some g
    else b) none

theorem Flows.best_spec (fl : Flows) (t : ℕ) (p : Packet) :
    match fl.best idOf t p with
    | none => ∀ g ∈ fl, g.1.table = t → ¬ p.Hits idOf g.1.mtch
    | some f => f ∈ fl ∧ f.1.table = t ∧ p.Hits idOf f.1.mtch ∧
        ∀ g ∈ fl, g.1.table = t → p.Hits idOf g.1.mtch → g.1.priority ≤ f.1.priority := by
  induction fl with
  | nil => simp [Flows.best]
  | cons f fl ih =>
      have hcons : Flows.best idOf (f :: fl) t p = if f.1.table = t ∧ p.Hits idOf f.1.mtch then
          match Flows.best idOf fl t p with
          | none => some f
          | some g => if g.1.priority ≤ f.1.priority then some f else some g
          else Flows.best idOf fl t p := rfl
      rw [hcons]
      cases hb : Flows.best idOf fl t p with
      | none =>
          rw [hb] at ih
          split_ifs with hf
          · refine ⟨List.mem_cons_self, hf.1, hf.2, fun g hg ht hh => ?_⟩
            rcases List.mem_cons.mp hg with rfl | hg
            · exact Nat.le_refl _
            · exact absurd hh (ih g hg ht)
          · intro g hg ht hh
            rcases List.mem_cons.mp hg with rfl | hg
            · exact hf ⟨ht, hh⟩
            · exact ih g hg ht hh
      | some b =>
          rw [hb] at ih
          obtain ⟨hmem, htable, hhits, hle⟩ := ih
          by_cases hf : f.1.table = t ∧ p.Hits idOf f.1.mtch
          · rw [if_pos hf]
            dsimp only
            split_ifs with hlt
            · refine ⟨List.mem_cons_self, hf.1, hf.2, fun g hg ht hh => ?_⟩
              rcases List.mem_cons.mp hg with rfl | hg
              · exact Nat.le_refl _
              · exact Nat.le_trans (hle g hg ht hh) hlt
            · refine ⟨List.mem_cons_of_mem _ hmem, htable, hhits, fun g hg ht hh => ?_⟩
              rcases List.mem_cons.mp hg with rfl | hg
              · exact Nat.le_of_lt (Nat.lt_of_not_le hlt)
              · exact hle g hg ht hh
          · rw [if_neg hf]
            refine ⟨List.mem_cons_of_mem _ hmem, htable, hhits, fun g hg ht hh => ?_⟩
            rcases List.mem_cons.mp hg with rfl | hg
            · exact absurd ⟨ht, hh⟩ hf
            · exact hle g hg ht hh

/-- The actions that a packet takes in a table. -/
def Flows.choose (fl : Flows) (t : ℕ) (p : Packet) : Action :=
  (fl.best idOf t p).elim [] Prod.snd

theorem Flows.finds_choose (fl : Flows) (t : ℕ) (p : Packet) :
    fl.Finds idOf t p (fl.choose idOf t p) := by
  have h := fl.best_spec idOf t p
  unfold Flows.choose
  cases hb : fl.best idOf t p with
  | none =>
      rw [hb] at h
      exact Or.inr ⟨rfl, h⟩
  | some f =>
      rw [hb] at h
      obtain ⟨hmem, rfl, hhits, hle⟩ := h
      exact Or.inl ⟨f, ⟨hmem, hhits, hle⟩, rfl, rfl⟩

/-- What a bridge makes of a packet, if it is done after `n` nested lookups. -/
def Flows.process (fl : Flows) (n t : ℕ) (p : Packet) : Option (Packet × List Sent) :=
  Pipeline.eval (fl.choose idOf) (fun t a p => p.effect idOf t a) n t p

theorem Flows.emits_of_process {fl : Flows} {n t : ℕ} {p q : Packet} {ws : List Sent}
    (h : fl.process idOf n t p = some (q, ws)) {w : Sent} (hw : w ∈ ws) :
    (fl.pipeline idOf).Emits t p w :=
  Pipeline.emits_of_eval (P := fl.pipeline idOf) (fl.finds_choose idOf)
    (fun t a p => p.acts_effect idOf t a) h hw

/-- A port on which a bridge puts something out. -/
theorem Flows.emits_of_ports {fl : Flows} {n t : ℕ} {p : Packet} {ports : List ℕ}
    (h : (fl.process idOf n t p).map (fun r => r.2.map Prod.fst) = some ports) {port : ℕ}
    (hport : port ∈ ports) : ∃ w, (fl.pipeline idOf).Emits t p w ∧ w.1 = port := by
  obtain ⟨⟨q, ws⟩, hprocess, rfl⟩ := Option.map_eq_some_iff.mp h
  obtain ⟨w, hw, rfl⟩ := List.mem_map.mp hport
  exact ⟨w, fl.emits_of_process idOf hprocess hw, rfl⟩

end meaning

/-! ### What actions leave alone -/

/-- The table that an action looks up. -/
def ActionExp.target? (t : ℕ) : ActionExp → Option ℕ
  | resubmitTable table => some table
  | resubmitNext => some (t + 1)
  | snat _ table | unsnat table | dnat _ table | undnat table => some table
  | _ => none

/-- The fields that an action writes. -/
def ActionExp.writes : ActionExp → List Field
  | modDlSrc _ => [.ethSrc]
  | modDlDst _ => [.ethDst]
  | modNwSrc _ => [.ipSrc]
  | modNwDst _ => [.ipDst]
  | decTtl => [.ipTtl]
  | move _ dest => [dest.field]
  | load _ dest => [dest.field]
  | loadFlag _ => [.regFlag]
  | exchange f g => [f, g]
  | bundleLoad dest _ => [dest]
  | uploadTrace => [.regFlag]
  | snat _ _ | unsnat _ | dnat _ _ | undnat _ => [.ipSrc, .ipDst]
  | _ => []

namespace Packet
variable {F : List Field} {p q r : Packet}

theorem Agree.refl (F : List Field) (p : Packet) : Agree F p p := ⟨rfl, fun _ _ => rfl⟩

theorem Agree.trans (h : Agree F p q) (h' : Agree F q r) : Agree F p r :=
  ⟨h'.proto.trans h.proto, fun f hf => (h'.field f hf).trans (h.field f hf)⟩

theorem Agree.mono {G : List Field} (h : Agree F p q) (hG : ∀ f ∈ G, f ∈ F) : Agree G p q :=
  ⟨h.proto, fun f hf => h.field f (hG f hf)⟩

@[simp] theorem put_proto (p : Packet) (r : NXMReg) (n : ℕ) : (p.put r n).proto = p.proto := rfl

@[simp] theorem set_proto (p : Packet) (f : Field) (n : ℕ) : (p.set f n).proto = p.proto := rfl

theorem put_field_ne (p : Packet) {r : NXMReg} (n : ℕ) {f : Field} (h : f ≠ r.field) :
    (p.put r n).field f = p.field f := Function.update_of_ne h _ _

theorem set_field (p : Packet) (f g : Field) (n : ℕ) :
    (p.set f n).field g = if g = f then n % 2 ^ f.width else p.field g :=
    Function.update_apply _ _ _ _

theorem agree_put (p : Packet) {r : NXMReg} (n : ℕ) (h : r.field ∉ F) : Agree F p (p.put r n) :=
  ⟨rfl, fun _ hf => put_field_ne p n fun heq => h (heq ▸ hf)⟩

theorem agree_set (p : Packet) {f : Field} (n : ℕ) (h : f ∉ F) : Agree F p (p.set f n) :=
  agree_put p n h

/-- An effect leaves the fields alone; only `dec_ttl` stops. -/
def Leaves (F : List Field) (t : ℕ) (a : ActionExp) (p : Packet) : Effect ℕ Packet Sent → Prop
  | .go q => a.target? t = none ∧ Agree F p q
  | .send _ => a.target? t = none
  | .stop => a = .decTtl
  | .call t' q => a.target? t = some t' ∧ Agree F p q
  | .fork t' q => a.target? t = some t' ∧ Agree F p q

theorem leaves_emit {t : ℕ} {a : ActionExp} (ofport : ℕ) (ha : a.target? t = none) :
    Leaves F t a p (p.emit ofport) := by
  unfold emit
  split_ifs
  · exact ⟨ha, Agree.refl F p⟩
  · exact ha

/-- An action leaves alone what it does not write. -/
theorem leaves_of_acts {idOf : String → ℕ} {t : ℕ} {a : ActionExp} {e : Effect ℕ Packet Sent}
    (h : p.Acts idOf t a e) (hF : ∀ f ∈ F, f ∉ a.writes) : Leaves F t a p e := by
  have hnot : ∀ f ∈ a.writes, f ∉ F := fun f hf hfF => hF f hfF hf
  have hct : ∀ src dst, Field.ipSrc ∉ F → Field.ipDst ∉ F →
      Agree F p ((p.set .ipSrc src).set .ipDst dst) := fun src dst hs hd =>
    (agree_set p src hs).trans (agree_set _ dst hd)
  cases a with
  | output ofport => subst h; exact leaves_emit _ rfl
  | outputReg f => subst h; exact leaves_emit _ rfl
  | drop => subst h; exact ⟨rfl, Agree.refl F p⟩
  | modDlSrc mac => subst h; exact ⟨rfl, agree_set p _ (hnot _ (by simp [ActionExp.writes]))⟩
  | modDlDst mac => subst h; exact ⟨rfl, agree_set p _ (hnot _ (by simp [ActionExp.writes]))⟩
  | modNwSrc addr => subst h; exact ⟨rfl, agree_set p _ (hnot _ (by simp [ActionExp.writes]))⟩
  | modNwDst addr => subst h; exact ⟨rfl, agree_set p _ (hnot _ (by simp [ActionExp.writes]))⟩
  | decTtl =>
      simp only [Acts] at h
      split_ifs at h
      · subst h; rfl
      · subst h; exact ⟨rfl, agree_set p _ (hnot _ (by simp [ActionExp.writes]))⟩
  | resubmitTable table => subst h; exact ⟨rfl, Agree.refl F p⟩
  | resubmitNext => subst h; exact ⟨rfl, Agree.refl F p⟩
  | move source dest => subst h; exact ⟨rfl, agree_put p _ (hnot _ (by simp [ActionExp.writes]))⟩
  | load value dest => subst h; exact ⟨rfl, agree_put p _ (hnot _ (by simp [ActionExp.writes]))⟩
  | loadFlag flag =>
      subst h; exact ⟨rfl, agree_put p _ (hnot _ (by simp [ActionExp.writes, NXMReg.range]))⟩
  | push f => subst h; exact ⟨rfl, Agree.refl F p⟩
  | exchange f g =>
      subst h
      exact ⟨rfl, (agree_set p _ (hnot f (by simp [ActionExp.writes]))).trans
        (agree_set _ _ (hnot g (by simp [ActionExp.writes])))⟩
  | bundleLoad dest slaves =>
      obtain ⟨ofport, _, rfl⟩ := h
      exact ⟨rfl, agree_set p _ (hnot _ (by simp [ActionExp.writes]))⟩
  | note name => subst h; exact ⟨rfl, Agree.refl F p⟩
  | uploadArp => subst h; exact ⟨rfl, Agree.refl F p⟩
  | uploadTrace =>
      subst h; exact ⟨rfl, agree_put p _ (hnot _ (by simp [ActionExp.writes, NXMReg.range]))⟩
  | uploadUnknowDst => subst h; exact ⟨rfl, Agree.refl F p⟩
  | generateArp table => subst h; exact ⟨rfl, Agree.refl F p⟩
  | snat addr table | unsnat table | dnat addr table | undnat table =>
      obtain ⟨src, dst, rfl⟩ := h
      exact ⟨rfl, hct src dst (hnot _ (by simp [ActionExp.writes]))
        (hnot _ (by simp [ActionExp.writes]))⟩

end Packet

end TupleNet
