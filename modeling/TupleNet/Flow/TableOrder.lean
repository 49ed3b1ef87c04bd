import TupleNet.Flow.Lookups
import Mathlib.Data.Prod.Lex

/-! # The order of the tables

Why a packet leaves a bridge.  The stages of a switch and of a router follow each other, but the
egress of a router leads to the ingress of a switch, and the egress of a switch back to the lookup
of the destination port.  A lookup is lower than another one (`Lower`) if the packet is no longer an
echo request; or else has a lower TTL; or else has found its port; or else is in a later stage.  The
packet has found its port when the switch has a forwarding flow for it, or when it is to be put out.

Every lookup that a packet causes is lower (`lower_of_call`), so no lookup goes on for ever
(`processing_terminates`).  A table can be looked up again on account of a lookup in it only behind
the stage of a router that decrements the TTL, or once, when the packet finds its port
(`found_of_cycle`). -/

namespace TupleNet

open Datalog Resubmit LogicalView BuildFlows Forms Lookups

namespace TableOrder

/-! ### Weights -/

/-- The fields that only routers write. -/
def kept : List Field := [.icmpType, .ipTtl]

section order
variable (fl : Flows) (idOf : String → ℕ)

/-- The packet has found its port. -/
def Found (t : ℕ) (p : Packet) : Prop :=
  Forwards fl idOf (p.field .regDp) (p.field .regDst) ∨
    t = TABLE_LSP_INGRESS_OUTPUT_DST_PORT ∧ p.field .reg5 = 1

open Classical in
/-- `1` while the port has to be looked up. -/
noncomputable def phase (t : ℕ) (p : Packet) : ℕ :=
  if t ∈ late ∨ t ∈ between ∧ Found fl idOf t p then 0 else 1

/-- What becomes lower. -/
noncomputable def weight (l : ℕ × Packet) : ℕ × ℕ × ℕ × ℕ :=
  (if l.2.field .icmpType = 8 then 1 else 0, l.2.field .ipTtl, phase fl idOf l.1 l.2, level l.1)

/-- The order of weights. -/
def Less : ℕ × ℕ × ℕ × ℕ → ℕ × ℕ × ℕ × ℕ → Prop :=
  Prod.Lex (· < ·) (Prod.Lex (· < ·) (Prod.Lex (· < ·) (· < ·)))

/-- A lookup is lower than another one. -/
def Lower (l l' : ℕ × Packet) : Prop := Less (weight fl idOf l) (weight fl idOf l')

theorem wellFounded_lower : WellFounded (Lower fl idOf) :=
  InvImage.wf (weight fl idOf) (WellFounded.prod_lex Nat.lt_wfRel.wf (WellFounded.prod_lex
    Nat.lt_wfRel.wf (WellFounded.prod_lex Nat.lt_wfRel.wf Nat.lt_wfRel.wf)))

/-- A lookup has the same protocol fields as another one, and is in a lower phase or in a later
stage of the same. -/
def Advances (t : ℕ) (p : Packet) (t' : ℕ) (q : Packet) : Prop :=
  p.Agree kept q ∧ Prod.Lex (· < ·) (· < ·) (phase fl idOf t' q, level t')
  (phase fl idOf t p, level t)

variable {fl idOf} {t t' : ℕ} {p q : Packet}

theorem lower_of_echo (hp : p.field .icmpType = 8) (hq : q.field .icmpType ≠ 8) :
    Lower fl idOf (t', q) (t, p) := by
  refine Prod.Lex.left _ _ ?_
  rw [if_pos hp, if_neg hq]
  exact Nat.one_pos

theorem lower_of_ttl (hecho : q.field .icmpType = p.field .icmpType)
    (hlt : q.field .ipTtl < p.field .ipTtl) : Lower fl idOf (t', q) (t, p) := by
  unfold Lower weight
  rw [hecho]
  exact Prod.Lex.right _ (Prod.Lex.left _ _ hlt)

theorem lower_of_advances (h : Advances fl idOf t p t' q) : Lower fl idOf (t', q) (t, p) := by
  unfold Lower weight
  rw [h.1.field .icmpType (by decide), h.1.field .ipTtl (by decide)]
  exact Prod.Lex.right _ (Prod.Lex.right _ h.2)

theorem advances_of_phase (h : p.Agree kept q)
    (hlt : phase fl idOf t' q < phase fl idOf t p ∨
      phase fl idOf t' q = phase fl idOf t p ∧ level t' < level t) : Advances fl idOf t p t' q := by
  refine ⟨h, ?_⟩
  rcases hlt with hlt | ⟨heq, hlt⟩
  · exact Prod.Lex.left _ _ hlt
  · rw [heq]
    exact Prod.Lex.right _ hlt

theorem phase_of_late (ht : t ∈ late) : phase fl idOf t p = 0 := if_pos (Or.inl ht)

theorem phase_of_found (ht : t ∈ between) (h : Found fl idOf t p) : phase fl idOf t p = 0 :=
  if_pos (Or.inr ⟨ht, h⟩)

theorem phase_of_not_found (ht : t ∉ late) (h : ¬ (t ∈ between ∧ Found fl idOf t p)) :
    phase fl idOf t p = 1 := if_neg (not_or.mpr ⟨ht, h⟩)

theorem phase_le_one (t : ℕ) (p : Packet) : phase fl idOf t p ≤ 1 := by
  unfold phase
  split_ifs <;> decide

/-- A stage after another one is lower, if either its port need not be looked up or that of the
other one has to be. -/
theorem advances_of_level (h : p.Agree kept q) (hlt : level t' < level t)
    (hphase : t' ∈ late ∨ t ∉ late ∧ t ∉ between) : Advances fl idOf t p t' q := by
  refine advances_of_phase h ?_
  have hle : phase fl idOf t' q ≤ phase fl idOf t p := by
    rcases hphase with hlate | ⟨hlate, hbetween⟩
    · rw [phase_of_late hlate]
      exact Nat.zero_le _
    · rw [phase_of_not_found (t := t) hlate fun h => hbetween h.1]
      exact phase_le_one _ _
  omega

/-- A late stage after another one. -/
theorem advances_of_late (h : p.Agree kept q) (ht' : t' ∈ late) (hlt : level t' < level t) :
    Advances fl idOf t p t' q :=
  advances_of_level h hlt (Or.inl ht')

/-- From the lookup of the port to a stage in which it is known. -/
theorem advances_of_found (h : p.Agree kept q) (ht : t ∈ late) (ht' : t' ∈ between)
    (hfound : Found fl idOf t' q) (hlt : level t' < level t) : Advances fl idOf t p t' q := by
  refine advances_of_phase h (Or.inr ⟨?_, hlt⟩)
  rw [phase_of_late ht, phase_of_found ht' hfound]

/-- A stage between the lookup of the port and its use follows another one. -/
theorem advances_of_between (h : p.Agree ([.regDp, .regDst] ++ kept) q) (ht : t ∈ between)
    (ht' : t' ∈ between) (hne : t' ≠ TABLE_LSP_INGRESS_OUTPUT_DST_PORT)
    (hfound : Found fl idOf t p → Forwards fl idOf (p.field .regDp) (p.field .regDst))
    (hlt : level t' < level t) : Advances fl idOf t p t' q := by
  refine advances_of_phase (h.mono fun _ hf => List.mem_append_right _ hf) (Or.inr ⟨?_, hlt⟩)
  have hlate : ∀ u ∈ between, u ∉ late := by decide
  have hsame : Forwards fl idOf (q.field .regDp) (q.field .regDst) ↔
      Forwards fl idOf (p.field .regDp) (p.field .regDst) := by
    rw [h.field .regDp (by decide), h.field .regDst (by decide)]
  by_cases hp : Forwards fl idOf (p.field .regDp) (p.field .regDst)
  · rw [phase_of_found ht (Or.inl hp), phase_of_found ht' (Or.inl (hsame.mpr hp))]
  · have hq : ¬ Found fl idOf t' q := by
      rintro (hq | ⟨heq, _⟩)
      · exact hp (hsame.mp hq)
      · exact hne heq
    rw [phase_of_not_found (hlate t ht) fun hf => hp (hfound hf.2),
      phase_of_not_found (hlate t' ht') fun hf => hq hf.2]

/-- Back to the lookup of the port: it is known that the port has not been found. -/
theorem advances_of_fallback (h : p.Agree kept q) (ht' : t' ∈ late)
    (hnot : ¬ Forwards fl idOf (p.field .regDp) (p.field .regDst)) :
    Advances fl idOf TABLE_LSP_EGRESS_FORWARD_PACKET p t' q := by
  have hfound : ¬ Found fl idOf TABLE_LSP_EGRESS_FORWARD_PACKET p := by
    rintro (hp | ⟨heq, _⟩)
    · exact hnot hp
    · exact absurd heq (by decide)
  refine advances_of_phase h (Or.inl ?_)
  rw [phase_of_late ht', phase_of_not_found (by decide) fun h => hfound h.2]
  exact Nat.one_pos

end order

/-! ### All lookups are lower -/

section calls
variable {fl : Flows} {idOf : String → ℕ} {x : Extra} {z : Zoo} {t t' : ℕ} {p q : Packet}

/-- A packet passes the stage of a router that decrements its TTL. -/
def Hops (l l' : ℕ × Packet) : Prop :=
  l.1 = TABLE_LRP_INGRESS_DROP_UNEXPECT ∧ 1 < l.2.field .ipTtl ∧
    l'.2 = l.2.set .ipTtl (l.2.field .ipTtl - 1)

/-- A router answers an echo request, before that stage. -/
def Answers (l l' : ℕ × Packet) : Prop :=
  l'.1 = TABLE_LRP_INGRESS_DROP_UNEXPECT ∧ l.2.field .icmpType = 8 ∧ l'.2.field .icmpType ≠ 8

/-- A lookup that a packet causes, besides these two, is later. -/
theorem advances_of_call (h : Call fl idOf x z t p t' q) (hanswers : ¬ Answers (t, p) (t', q))
    (hhops : ¬ Hops (t, p) (t', q)) : Advances fl idOf t p t' q := by
  have hrefl := Packet.Agree.refl kept
  cases h with
  | plain ht hq =>
      simp only [follows, decide_eq_true_eq] at ht
      exact advances_of_level (hq.agree.mono (by decide)) ht.1 ht.2.1
  | extract => exact advances_of_late (hrefl p) (by decide) (by decide)
  | tunnel c _ _ =>
      exact advances_of_level ((agree_extracted p (by decide)).trans (agree_flag _ _ (by decide)))
        (by decide) (by decide)
  | enter lsp _ _ =>
      exact advances_of_level
        ((agree_load p _ (by decide)).trans (Packet.agree_set _ _ (by decide)))
        (by decide) (by decide)
  | egress ht hq =>
      have hagree := hq.agree.mono (G := [.regDp, .regDst] ++ kept) (by decide)
      rcases ht with rfl | rfl
      · exact advances_of_between hagree (by decide) (by decide) (by decide)
          (fun hfound => hfound.resolve_right fun h => absurd h.1 (by decide)) (by decide)
      · exact advances_of_between hagree (by decide) (by decide) (by decide)
          (fun hfound => hfound.resolve_right fun h => absurd h.1 (by decide)) (by decide)
  | ask => exact advances_of_late (hrefl p) (by decide) (by decide)
  | respond hq => exact advances_of_level (hq.agree_arp (by decide)) (by decide) (by decide)
  | found ls lsp ht' hdp hforwards hq hport =>
      have hfound : Found fl idOf t' q := by
        refine Or.inl ?_
        rw [hq.agree.field .regDp (by decide), hport, hdp]
        exact hforwards
      have hagree := hq.agree.mono (G := kept) (by decide)
      rcases ht' with rfl | rfl
      · exact advances_of_found hagree (by decide) (by decide) hfound (by decide)
      · exact advances_of_found hagree (by decide) (by decide) hfound (by decide)
  | away lsp _ _ _ _ n _ =>
      refine advances_of_found ((agree_load p _ (by decide)).trans ((Packet.agree_set _ n
        (by decide)).trans (agree_load _ _ (by decide)))) (by decide) (by decide)
        (Or.inr ⟨rfl, ?_⟩) (by decide)
      exact (load_field _ 1 rfl).trans (by decide)
  | unknown =>
      refine advances_of_found ((agree_load p _ (by decide)).trans (agree_load _ _ (by decide)))
        (by decide) (by decide) (Or.inr ⟨rfl, ?_⟩) (by decide)
      exact (load_field _ 1 rfl).trans (by decide)
  | redirect _ hq => exact advances_of_late (hq.agree (by decide)) (by decide) (by decide)
  | embed hq => exact advances_of_late (hq.agree (by decide)) (by decide) (by decide)
  | putOut _ hq =>
      exact advances_of_late ((hq.agree (by decide)).trans (agree_embedded _ (by decide)))
        (by decide)
        (by decide)
  | deliver hreg5 hq =>
      exact advances_of_between (hq.agree (by decide)) (by decide) (by decide) (by decide)
        (fun hfound => hfound.resolve_right fun h => hreg5 h.2) (by decide)
  | forwardLocal lsp _ _ _ =>
      exact advances_of_late ((agree_load p _ (by decide)).trans (agree_load _ _ (by decide)))
        (by decide) (by decide)
  | forwardLrp lrID lrpID _ =>
      exact advances_of_late ((agree_load p _ (by decide)).trans (agree_load _ _ (by decide)))
        (by decide) (by decide)
  | fallback hnot => exact advances_of_fallback (agree_flag p _ (by decide)) (by decide) hnot
  | feedback hnot => exact advances_of_fallback (agree_flag p _ (by decide)) (by decide) hnot
  | fallbackArp hnot hq =>
      exact advances_of_fallback ((agree_flag p _ (by decide)).trans (hq.agree_arp (by decide)))
        (by decide) hnot
  | pushOut _ hq => exact advances_of_late (hq.agree (by decide)) (by decide) (by decide)
  | toRouter _ hq =>
      exact advances_of_late ((hq.agree (by decide)).trans (agree_routed _ (by decide))) (by decide)
        (by decide)
  | echo hrequest =>
      refine absurd ⟨rfl, hrequest, ?_⟩ hanswers
      rw [(echoed_spec p).1]
      decide
  | hop hip httl => exact absurd ⟨rfl, httl, rfl⟩ hhops
  | known mac => exact advances_of_level (agree_load p _ (by decide)) (by decide) (by decide)
  | search => exact advances_of_late (Packet.agree_set p _ (by decide)) (by decide) (by decide)
  | searched hq =>
      exact advances_of_level
        ((Packet.agree_set p _ (by decide)).trans (hq.agree_search (by decide)))
        (by decide) (by decide)
  | unknownEmbed _ => exact advances_of_late (agree_flag p _ (by decide)) (by decide) (by decide)
  | unknownDst _ =>
      exact advances_of_late ((agree_flag p _ (by decide)).trans (agree_embedded _ (by decide)))
        (by decide) (by decide)
  | pass _ => exact advances_of_level (hrefl p) (by decide) (by decide)
  | leave link =>
      exact advances_of_level
        ((Packet.agree_set p _ (by decide)).trans (agree_load _ _ (by decide)))
        (by decide) (by decide)
  | drop hq =>
      refine advances_of_late ?_ (by decide) (by decide)
      rcases hq with rfl | rfl
      · exact hrefl _
      · exact agree_tracedOut p (by decide)
  | gatewayEmbed n =>
      exact advances_of_late ((agree_flag p _ (by decide)).trans (Packet.agree_set _ _ (by decide)))
        (by decide) (by decide)
  | gateway n _ =>
      exact advances_of_late ((agree_flag p _ (by decide)).trans ((Packet.agree_set _ n
        (by decide)).trans (agree_embedded _ (by decide)))) (by decide) (by decide)
  | redirected _ _ _ => exact advances_of_level (hrefl p) (by decide) (by decide)
  | arrived _ => exact advances_of_level (hrefl p) (by decide) (by decide)

/-- **A lookup that a packet causes is lower.** -/
theorem lower_of_call (h : Call fl idOf x z t p t' q) : Lower fl idOf (t', q) (t, p) := by
  by_cases hanswers : Answers (t, p) (t', q)
  · exact lower_of_echo hanswers.2.1 hanswers.2.2
  by_cases hhops : Hops (t, p) (t', q)
  · obtain ⟨_, httl, hset⟩ := hhops
    obtain rfl : q = p.set .ipTtl (p.field .ipTtl - 1) := hset
    have hlt : 1 < p.field .ipTtl := httl
    have hne : (p.set .ipTtl (p.field .ipTtl - 1)).field .icmpType = p.field .icmpType :=
      (Packet.agree_set p (F := [.icmpType]) _ (by decide)).field _ (by decide)
    refine lower_of_ttl hne ?_
    have hle := Nat.mod_le (p.field .ipTtl - 1) (2 ^ 8)
    rw [Packet.set_field, if_pos rfl, Field.width]
    omega
  · exact lower_of_advances (advances_of_call h hanswers hhops)

/-! ### Tables of their own -/

/-- A packet that is dropped is looked up no more. -/
theorem not_call_of_drop : ¬ Call fl idOf x z TABLE_DROP_PACKET p t' q := by
  intro h
  generalize ht : TABLE_DROP_PACKET = t at h
  cases h with
  | plain hfollows _ =>
      simp only [follows, decide_eq_true_eq] at hfollows
      exact hfollows.2.2.1.1 (ht ▸ by decide)
  | egress ht' _ =>
      rw [← ht] at ht'
      exact absurd ht' (by decide)
  | _ => exact absurd ht (by decide)

/-- The stage that decrements the TTL passes a packet on with a lower one, or drops it. -/
theorem hops_or_drop (h : Call fl idOf x z TABLE_LRP_INGRESS_DROP_UNEXPECT p t' q) :
    Hops (TABLE_LRP_INGRESS_DROP_UNEXPECT, p) (t', q) ∨ t' = TABLE_DROP_PACKET := by
  generalize ht : TABLE_LRP_INGRESS_DROP_UNEXPECT = t at h
  cases h with
  | plain hfollows _ => exact Or.inr (drop_of_follows (by simp [← ht]) hfollows)
  | hop hip httl => exact Or.inl ⟨rfl, httl, rfl⟩
  | egress ht' _ =>
      rw [← ht] at ht'
      exact absurd ht' (by decide)
  | _ => exact absurd ht (by decide)

/-- A packet that comes to where packets are put out has found its port. -/
theorem found_of_call (h : Call fl idOf x z t p TABLE_LSP_INGRESS_OUTPUT_DST_PORT q) :
    Found fl idOf TABLE_LSP_INGRESS_OUTPUT_DST_PORT q := by
  generalize ht : TABLE_LSP_INGRESS_OUTPUT_DST_PORT = t' at h
  cases h with
  | plain hfollows _ =>
      simp only [follows, decide_eq_true_eq] at hfollows
      exact absurd ht.symm hfollows.2.2.1.2
  | egress ht' _ => rcases ht' with rfl | rfl <;> exact absurd ht (by decide)
  | found ls lsp _ hdp hforwards hq hport =>
      refine Or.inl ?_
      rw [hq.agree.field .regDp (by decide), hport, hdp]
      exact hforwards
  | away lsp _ _ _ _ n _ => exact Or.inr ⟨rfl, (load_field _ 1 rfl).trans (by decide)⟩
  | unknown => exact Or.inr ⟨rfl, (load_field _ 1 rfl).trans (by decide)⟩
  | _ => exact absurd ht (by decide)

/-- The tables in which a switch looks up a port and sends the packet to it. -/
def turn : List ℕ := TABLE_LSP_INGRESS_LOOKUP_DST_PORT :: between

/-- A packet that comes to one of them stays in its switch. -/
theorem dp_of_call (h : Call fl idOf x z t p t' q) (ht' : t' ∈ turn) :
    q.field .regDp = p.field .regDp := by
  cases h with
  | plain _ hq => exact hq.agree.field .regDp (by decide)
  | egress _ hq => exact hq.agree.field .regDp (by decide)
  | found _ _ _ _ _ hq _ => exact hq.agree.field .regDp (by decide)
  | away lsp _ _ _ _ n _ =>
      exact ((agree_load p (F := [.regDp]) _ (by decide)).trans ((Packet.agree_set _ n
        (by decide)).trans (agree_load _ _ (by decide)))).field .regDp (by decide)
  | unknown =>
      exact ((agree_load p (F := [.regDp]) _ (by decide)).trans (agree_load _ _ (by decide))).field
        .regDp (by decide)
  | deliver _ hq => exact (hq.agree (F := [.regDp]) (by decide)).field .regDp (by decide)
  | fallback _ => exact (agree_flag p (F := [.regDp]) _ (by decide)).field .regDp (by decide)
  | fallbackArp _ hq =>
      exact ((agree_flag p (F := [.regDp]) _ (by decide)).trans (hq.agree_arp (by decide))).field
        .regDp (by decide)
  | arrived _ => rfl
  | _ => exact absurd ht' (by decide)

/-- What is looked up between two lookups in the same table, if each is later than the one
before. -/
theorem mem_turn {t₀ : ℕ} {p₀ q₀ : Packet} (ht₀ : t₀ ∈ between) (h : Advances fl idOf t₀ p₀ t p)
    (h' : Advances fl idOf t p t₀ q₀) : t ∈ turn := by
  have hlevel : ∀ u ∈ between, level TABLE_LSP_EGRESS_FORWARD_PACKET ≤ level u ∧
      level u ≤ level TABLE_LSP_INGRESS_OUTPUT_DST_PORT := by decide
  have hlate : ∀ u ∈ late, level TABLE_LSP_EGRESS_FORWARD_PACKET < level u → u ∈ turn := by decide
  have hstages : ∀ u ∈ stages, level u < level TABLE_LSP_INGRESS_OUTPUT_DST_PORT → u ∉ late →
      u ∈ turn := by decide
  obtain ⟨hlow, hhigh⟩ := hlevel t₀ ht₀
  by_cases hmem : t ∈ turn
  · exact hmem
  have hnot : t ∉ between := fun hmem' => hmem (List.mem_cons_of_mem _ hmem')
  rcases Prod.lex_def.mp h'.2 with hlt | ⟨heq, hlt⟩
  · -- the port has not been looked up before
    have hone : phase fl idOf t p = 1 := Nat.le_antisymm (phase_le_one t p) (by omega)
    have htlate : t ∉ late := fun ht => by
      rw [phase_of_late ht] at hone
      cases hone
    rcases Prod.lex_def.mp h.2 with hlt' | ⟨_, hlt'⟩
    · have hle : phase fl idOf t₀ p₀ ≤ 1 := phase_le_one t₀ p₀
      dsimp only at hlt'
      omega
    · dsimp only at hlt'
      refine hstages t (List.idxOf_lt_length_iff.mp (Nat.lt_of_lt_of_le hlt' ?_)) (by omega) htlate
      exact List.idxOf_le_length
  · dsimp only at heq hlt
    by_cases htlate : t ∈ late
    · exact hlate t htlate (by omega)
    · have hone : phase fl idOf t p = 1 := phase_of_not_found htlate fun h => hnot h.1
      rcases Prod.lex_def.mp h.2 with hlt' | ⟨_, hlt'⟩
      · have hle : phase fl idOf t₀ p₀ ≤ 1 := phase_le_one t₀ p₀
        dsimp only at hlt'
        omega
      · dsimp only at hlt'
        omega

end calls

/-! ### Termination -/

section runs
variable {x : Extra} {opts : Options} {z : Zoo} {learned : List (ℕ × ℕ)} {idOf : String → ℕ}

theorem holds_lower : (contract (fun _ _ => True) (fun _ => True)).Holds
    (bridge x opts z learned idOf) (Lower (allFlows x opts z learned) idOf) :=
  holds_of_calls (fun _ _ _ _ _ h => ⟨trivial, lower_of_call h⟩) fun _ _ _ _ _ => trivial

/-- **A packet leaves the bridge.**  No lookup of a packet in a table goes on for ever, whatever
the entities, the options and the learned addresses are, and whatever the packet and its registers
are. -/
theorem processing_terminates (x : Extra) (opts : Options) (z : Zoo) (learned : List (ℕ × ℕ))
    (idOf : String → ℕ) (t : ℕ) (p : Packet) : ¬ (bridge x opts z learned idOf).Diverges t p :=
  Contract.not_diverges (wellFounded_lower _ _) holds_lower trivial

/-! ### Cycles of tables -/

variable (x opts z learned idOf) in
/-- A lookup causes another one. -/
abbrev Causes (l l' : ℕ × Packet) : Prop := (bridge x opts z learned idOf).Causes l l'

variable (x opts z learned idOf) in
/-- On the way from one lookup to another the packet passes the stage of a router that decrements
its TTL. -/
def Passes (l l' : ℕ × Packet) : Prop :=
  ∃ k k', Relation.ReflTransGen (Causes x opts z learned idOf) l k ∧
    Causes x opts z learned idOf k k' ∧ Hops k k' ∧
    Relation.ReflTransGen (Causes x opts z learned idOf) k' l'

variable {l l' : ℕ × Packet}

theorem call_of_causes (h : Causes x opts z learned idOf l l') :
    Call (allFlows x opts z learned) idOf x z l.1 l.2 l'.1 l'.2 := by
  have hholds : (contract (fun _ _ => True) (fun _ => True)).Holds (bridge x opts z learned idOf)
      (fun l' l => Call (allFlows x opts z learned) idOf x z l.1 l.2 l'.1 l'.2) :=
    holds_of_calls (fun _ _ _ _ _ h => ⟨trivial, h⟩) fun _ _ _ _ _ => trivial
  exact (Contract.lower_of_causes hholds trivial h).2

/-- From the stage that decrements the TTL to another lookup. -/
theorem passes_of_stage (hl : l.1 = TABLE_LRP_INGRESS_DROP_UNEXPECT)
    (h : Relation.TransGen (Causes x opts z learned idOf) l l') (hl' : l'.1 ≠ TABLE_DROP_PACKET) :
    Passes x opts z learned idOf l l' := by
  obtain ⟨k, hk, hrest⟩ := Relation.TransGen.head'_iff.mp h
  obtain ⟨t, p⟩ := l
  obtain rfl : t = _ := hl
  rcases hops_or_drop (call_of_causes hk) with hhops | hdrop
  · exact ⟨_, k, .refl, hk, hhops, hrest⟩
  · rcases hrest.cases_head with rfl | ⟨m, hm, _⟩
    · exact absurd hdrop hl'
    · obtain ⟨t', q⟩ := k
      obtain rfl : t' = _ := hdrop
      exact absurd (call_of_causes hm) not_call_of_drop

theorem Passes.head {m : ℕ × Packet} (hm : Causes x opts z learned idOf l m)
    (h : Passes x opts z learned idOf m l') : Passes x opts z learned idOf l l' := by
  obtain ⟨k, k', hk, hrest⟩ := h
  exact ⟨k, k', hk.head hm, hrest⟩

/-- A lookup on such a way that does not pass that stage is later than the one that causes it. -/
theorem advances_of_step {m : ℕ × Packet} (hm : Causes x opts z learned idOf l m)
    (hrest : Relation.TransGen (Causes x opts z learned idOf) m l' ∨
      m.1 ≠ TABLE_LRP_INGRESS_DROP_UNEXPECT ∧ m = l') (hdrop : l'.1 ≠ TABLE_DROP_PACKET)
    (hnot : ¬ Passes x opts z learned idOf l l') :
    Advances (allFlows x opts z learned) idOf l.1 l.2 m.1 m.2 := by
  refine advances_of_call (call_of_causes hm) (fun hanswers => ?_) fun hhops => ?_
  · rcases hrest with hrest | ⟨hne, _⟩
    · exact hnot ((passes_of_stage hanswers.1 hrest hdrop).head hm)
    · exact hne hanswers.1
  · refine hnot ⟨l, m, .refl, hm, hhops, ?_⟩
    rcases hrest with hrest | ⟨_, rfl⟩
    · exact hrest.to_reflTransGen
    · exact .refl

theorem Advances.trans {fl : Flows} {t t' t'' : ℕ} {p q r : Packet} (h : Advances fl idOf t p t' q)
    (h' : Advances fl idOf t' q t'' r) : Advances fl idOf t p t'' r :=
  ⟨h.1.trans h'.1, IsTrans.trans _ _ _ h'.2 h.2⟩

/-- **Along a chain of lookups** that does not pass that stage every lookup is later. -/
theorem advances_of_chain (h : Relation.TransGen (Causes x opts z learned idOf) l l')
    (hdrop : l'.1 ≠ TABLE_DROP_PACKET) (hstage : l'.1 ≠ TABLE_LRP_INGRESS_DROP_UNEXPECT)
    (hnot : ¬ Passes x opts z learned idOf l l') :
    Advances (allFlows x opts z learned) idOf l.1 l.2 l'.1 l'.2 := by
  -- on the chain, from its end
  induction h using Relation.TransGen.head_induction_on with
  | single hl => exact advances_of_step hl (Or.inr ⟨hstage, rfl⟩) hdrop hnot
  | head hl hrest ih =>
      exact (advances_of_step hl (Or.inl hrest) hdrop hnot).trans (ih fun hpass =>
        hnot (hpass.head hl))

/-- **A cycle of tables** that does not pass that stage: the packet has found its port, in the same
switch. -/
theorem found_of_cycle {t : ℕ} {q q' : Packet}
    (h : Relation.TransGen (Causes x opts z learned idOf) (t, q) (t, q'))
    (hnot : ¬ Passes x opts z learned idOf (t, q) (t, q')) :
    ¬ Found (allFlows x opts z learned) idOf t q ∧ Found (allFlows x opts z learned) idOf t q' ∧
      q'.field .regDp = q.field .regDp := by
  have hdrop : t ≠ TABLE_DROP_PACKET := by
    rintro rfl
    obtain ⟨k, hk, _⟩ := Relation.TransGen.head'_iff.mp h
    exact not_call_of_drop (call_of_causes hk)
  have hstage : t ≠ TABLE_LRP_INGRESS_DROP_UNEXPECT := fun ht => hnot (passes_of_stage ht h hdrop)
  have hlt := (advances_of_chain h hdrop hstage hnot).2
  have hphase : phase (allFlows x opts z learned) idOf t q' <
      phase (allFlows x opts z learned) idOf t q := by
    rcases Prod.lex_def.mp hlt with hlt | ⟨_, hlt⟩
    · exact hlt
    · exact absurd hlt (Nat.lt_irrefl _)
  have hlate : t ∉ late := fun ht => by
    rw [phase_of_late ht, phase_of_late ht] at hphase
    exact Nat.lt_irrefl _ hphase
  have hbetween : t ∈ between ∧ Found (allFlows x opts z learned) idOf t q' := by
    by_contra hno
    rw [phase_of_not_found hlate hno] at hphase
    exact absurd (phase_le_one t q) (Nat.not_le.mpr hphase)
  refine ⟨fun hfound => ?_, hbetween.2, ?_⟩
  · rw [phase_of_found hbetween.1 hfound] at hphase
    exact Nat.not_lt_zero _ hphase
  -- from every lookup of the cycle to its end
  have hsame : ∀ m, Relation.TransGen (Causes x opts z learned idOf) m (t, q') →
      (m = (t, q) ∨ Advances (allFlows x opts z learned) idOf t q m.1 m.2) →
      ¬ Passes x opts z learned idOf m (t, q') → q'.field .regDp = m.2.field .regDp := by
    intro m hm
    induction hm using Relation.TransGen.head_induction_on with
    | single hm =>
        exact fun _ _ => dp_of_call (call_of_causes hm) (List.mem_cons_of_mem _ hbetween.1)
    | @head m n hm hn ih =>
        intro hbefore hpass
        have hstep := advances_of_step hm (Or.inl hn) hdrop hpass
        have hpass' : ¬ Passes x opts z learned idOf n (t, q') := fun h => hpass (h.head hm)
        have hafter : Advances (allFlows x opts z learned) idOf t q n.1 n.2 := by
          rcases hbefore with rfl | hbefore
          · exact hstep
          · exact hbefore.trans hstep
        have hturn := mem_turn hbetween.1 hafter (advances_of_chain hn hdrop hstage hpass')
        exact (ih (Or.inr hafter) hpass').trans (dp_of_call (call_of_causes hm) hturn)
  exact hsame _ h (Or.inl rfl) hnot

/-- A packet that has come to where packets are put out has found its port. -/
theorem found_of_reached {p q : Packet} (h : Relation.ReflTransGen (Causes x opts z learned idOf)
    (TABLE_CONVERT_PHY_LOGICAL, p) (TABLE_LSP_INGRESS_OUTPUT_DST_PORT, q)) :
    Found (allFlows x opts z learned) idOf TABLE_LSP_INGRESS_OUTPUT_DST_PORT q := by
  rcases h.cases_tail with heq | ⟨k, _, hk⟩
  · have htable : TABLE_LSP_INGRESS_OUTPUT_DST_PORT = TABLE_CONVERT_PHY_LOGICAL :=
      congrArg Prod.fst heq
    exact absurd htable (by decide)
  · exact found_of_call (call_of_causes hk)

/-- **Processing ends, and cycles of tables are left.**  No lookup of a packet that comes in goes on
for ever.  If a table is looked up again on account of a lookup in it, then the packet has passed
the stage of a router that decrements its TTL, which drops a packet with a TTL of at most `1`; or
else its port has a forwarding flow in the switch, as it had not before, and the table is not looked
up once more without passing that stage. -/
theorem cycles_left (x : Extra) (opts : Options) (z : Zoo) (learned : List (ℕ × ℕ))
    (idOf : String → ℕ) (p : Packet) :
    ¬ (bridge x opts z learned idOf).Diverges TABLE_CONVERT_PHY_LOGICAL p ∧
    (∀ q l', Causes x opts z learned idOf (TABLE_LRP_INGRESS_DROP_UNEXPECT, q) l' →
      Hops (TABLE_LRP_INGRESS_DROP_UNEXPECT, q) l' ∨ l'.1 = TABLE_DROP_PACKET) ∧
    ∀ t q q', Relation.ReflTransGen (Causes x opts z learned idOf) (TABLE_CONVERT_PHY_LOGICAL, p)
        (t, q) → Relation.TransGen (Causes x opts z learned idOf) (t, q) (t, q') →
      Passes x opts z learned idOf (t, q) (t, q') ∨
      (¬ Forwards (allFlows x opts z learned) idOf (q.field .regDp) (q.field .regDst) ∧
        Forwards (allFlows x opts z learned) idOf (q'.field .regDp) (q'.field .regDst) ∧
        q'.field .regDp = q.field .regDp ∧
        ∀ q'', Relation.TransGen (Causes x opts z learned idOf) (t, q') (t, q'') →
          Passes x opts z learned idOf (t, q') (t, q'')) := by
  refine ⟨Contract.not_diverges (wellFounded_lower _ _) holds_lower trivial,
    fun q l' h => hops_or_drop (call_of_causes h), fun t q q' hreach hcycle => ?_⟩
  by_cases hpass : Passes x opts z learned idOf (t, q) (t, q')
  · exact Or.inl hpass
  obtain ⟨hnot, hfound, hdp⟩ := found_of_cycle hcycle hpass
  refine Or.inr ⟨fun h => hnot (Or.inl h), hfound.resolve_right ?_, hdp, fun q'' hcycle' => ?_⟩
  · rintro ⟨rfl, _⟩
    exact hnot (found_of_reached hreach)
  · by_contra hpass'
    exact (found_of_cycle hcycle' hpass').1 hfound

end runs

end TableOrder

end TupleNet
