import TupleNet.Flow.Ecmp

/-! # Maintenance of ECMP bundles

The row of `adding` writes over the flow that is there, so a port that only unchanged pairs have is
lost when another pair of the group is new (`lost_port`, `ecmp_not_maintained`).  `Tidy` is a
condition on the clauses of a round under which the bundles stay those of a build from scratch
(`ecmp_maintained`). -/

namespace TupleNet

open Datalog KeyedTable StepMachine LogicalView IpRoute Redirect

namespace Ecmp

/-! ### Bundles of a build from scratch -/

/-- The bundle of a router and a group has this port, as far as the rows in `S` tell. -/
def Carries (x : Extra) (S : Row → Prop) (lr : Lr) (g : Group) (p : ℤ) : Prop :=
  (lrArray x).DerivesFrom S lr ∧ g.lrUuid = lr.uuid ∧
    ∃ slave, (ecmpPair x).DerivesFrom S slave ∧ slave.group = g ∧ slave.ofport = p

/-- The rows of a node that is started on the present entities. -/
def scratchRows (x : Extra) (z : Zoo) : List (LFlow Match Action) := ecmpStaticRoute x z.scratch

/-- Two ECMP actions with the same slave ports. -/
def SamePorts (a b : Action) : Prop :=
  ∃ ps qs, a = ecmpAction ps ∧ b = ecmpAction qs ∧ ∀ p, p ∈ ps ↔ p ∈ qs

/-- The flows and their slave ports are those of a build from scratch. -/
structure Bundled (x : Extra) (s : FlowNode Match Action) : Prop where
  present_iff : ∀ k, (s.table k).isSome ↔ ∃ l ∈ scratchRows x s.zoo, l.key = k
  ports : ∀ l ∈ scratchRows x s.zoo, ∀ a, s.table l.key = some a → SamePorts a l.action

section scratch
variable {x : Extra} {B : List (Row × State)}

/-- The ports that live members carry. -/
theorem carries_iff {lr : Lr} {g : Group} {p : ℤ} :
    Carries x (fun r => ∃ s : State, (r, s) ∈ B ∧ s.Live) lr g p ↔
      ∃ m ∈ members x B, m.Live ∧ m.lr = lr ∧ m.slave.group = g ∧ m.slave.ofport = p := by
  simp only [Carries, ← Rule.derives_iff_derivesFrom, Rule.derives_iff_eval]
  constructor
  · rintro ⟨⟨s₁, hlr, hlr'⟩, hjoin, slave, ⟨s₂, hd, hd'⟩, rfl, rfl⟩
    exact ⟨⟨lr, s₁, slave, s₂⟩, mem_members.mpr ⟨hlr, hd, hjoin⟩,
      Member.live_iff.mpr ⟨hlr', hd'⟩, rfl, rfl, rfl⟩
  · rintro ⟨m, hm, hlive, rfl, rfl, rfl⟩
    obtain ⟨hlr, hd, hjoin⟩ := mem_members.mp hm
    obtain ⟨hlr', hd'⟩ := Member.live_iff.mp hlive
    exact ⟨⟨_, hlr, hlr'⟩, hjoin, _, ⟨_, hd, hd'⟩, rfl, rfl⟩

/-- A pair reads a static route. -/
theorem exists_lsr_of_mem {d : Slave × List (Row × State)} (hd : d ∈ (ecmpPair x).eval B) :
    ∃ f ∈ d.2, f.1.lsr?.isSome := by
  obtain ⟨⟨route, s₁, s₂, ⟨r, rfl, hr⟩, _, hsup⟩, _⟩ := ((ecmpPair x).mem_eval B d.1 d.2).mp hd
  obtain ⟨f, hf, rfl⟩ : ∃ f ∈ d.2, f.1 = r := by
    rw [← List.mem_map, hsup]
    exact List.mem_append_left _ List.mem_cons_self
  exact ⟨f, hf, by rw [hr]; rfl⟩

section settled
variable {z : Zoo} (hz : z.Settled x)
include hz

theorem carries_scratch_iff {lr : Lr} {g : Group} {p : ℤ} : Carries x z.HasRow lr g p ↔
    ∃ m ∈ members x z.scratch, m.Live ∧ m.lr = lr ∧ m.slave.group = g ∧ m.slave.ofport = p := by
  rw [← carries_iff, funext fun d => propext (hz.hasRow_iff_scratch d)]

omit hz in
theorem not_dying_scratch {f : Row × State} (hf : f ∈ z.scratch) : f.2 ≠ .DEL := by
  obtain ⟨row, s⟩ := f
  rcases Zoo.mem_scratch.mp hf with ⟨_, rfl⟩ | ⟨rfl, _⟩ <;> simp

omit hz in
/-- Starting on present entities, all pairs are new. -/
theorem mem_adding_scratch {d : Slave × List (Row × State)} :
    d ∈ adding x z.scratch ↔ d ∈ (ecmpPair x).eval z.scratch := by
  refine mem_adding.trans ⟨And.left, fun hd => ⟨hd, fun f hf => ?_, ?_⟩⟩
  · exact (State.live_iff _).mpr (not_dying_scratch ((((ecmpPair x).mem_eval _ _ _).mp hd).2 f hf))
  · obtain ⟨⟨row, s⟩, hf, hlsr⟩ := exists_lsr_of_mem hd
    refine ⟨_, hf, ?_⟩
    rcases Zoo.mem_scratch.mp ((((ecmpPair x).mem_eval _ _ _).mp hd).2 _ hf) with ⟨rfl, _⟩ | ⟨h, _⟩
    · cases hlsr
    · exact h

omit hz in
theorem falling_scratch (h : Slave × List (Row × State)) : h ∉ falling x z.scratch := by
  intro hh
  obtain ⟨heval, f, hf, hdel⟩ := mem_falling.mp hh
  exact not_dying_scratch ((((ecmpHop x).mem_eval _ _ _).mp heval).2 f hf) hdel

omit hz in
theorem live_of_mem_scratch {m : Member} (hm : m ∈ members x z.scratch) : m.Live := by
  obtain ⟨hlr, hd, _⟩ := mem_members.mp hm
  refine Member.live_iff.mpr ⟨fun f hf => ?_, fun f hf => ?_⟩
  · exact (State.live_iff _).mpr (not_dying_scratch ((((lrArray x).mem_eval _ _ _).mp hlr).2 f hf))
  · exact (State.live_iff _).mpr (not_dying_scratch ((((ecmpPair x).mem_eval _ _ _).mp hd).2 f hf))

/-- Each bundle that carries a port has a row with this port. -/
theorem exists_scratchRows_of_carries {lr : Lr} {g : Group} {p : ℤ}
    (h : Carries x z.HasRow lr g p) : ∃ l ∈ scratchRows x z, l.key = ecmpKey lr g ∧
      ∃ ps, l.action = ecmpAction ps ∧ p ∈ ps := by
  obtain ⟨m, hm, hlive, rfl, rfl, rfl⟩ := (carries_scratch_iff hz).mp h
  obtain ⟨hlr, hd, hjoin⟩ := mem_members.mp hm
  have hpos := (add_pos_iff hlr).mpr (Member.live_iff.mp hlive).1
  have hadd := mem_adding_scratch.mpr hd
  exact ⟨_, mem_ecmpStaticRoute.mpr ⟨_, hlr, _, mem_ecmpAggregateOutport.mpr
    (Or.inl ⟨_, hadd, rfl⟩), hjoin, hpos.ne', rfl⟩, rfl, _, rfl,
    mem_portsOf.mpr ⟨_, hadd, rfl, rfl⟩⟩

/-- A build from scratch has a flow for each bundle that carries a port. -/
theorem exists_scratchRows_iff {k : FlowKey Match} : (∃ l ∈ scratchRows x z, l.key = k) ↔
    ∃ lr g p, Carries x z.HasRow lr g p ∧ ecmpKey lr g = k := by
  constructor
  · rintro ⟨l, hl, rfl⟩
    obtain ⟨lr, hlr, a, ha, hjoin, _, rfl⟩ := mem_ecmpStaticRoute.mp hl
    rcases mem_ecmpAggregateOutport.mp ha with ⟨d, hd, rfl⟩ | ⟨h, hh, _⟩ | ⟨_, _, ⟨h, hh, _⟩, _⟩
    · have hm : (⟨lr.1, lr.2, d.1, d.2⟩ : Member) ∈ members x z.scratch :=
        mem_members.mpr ⟨hlr, mem_adding_scratch.mp hd, hjoin⟩
      exact ⟨_, _, _, (carries_scratch_iff hz).mpr ⟨_, hm, live_of_mem_scratch hm, rfl, rfl, rfl⟩,
        rfl⟩
    · exact absurd hh (falling_scratch h)
    · exact absurd hh (falling_scratch h)
  · rintro ⟨lr, g, p, h, rfl⟩
    obtain ⟨l, hl, hkey, _⟩ := exists_scratchRows_of_carries hz h
    exact ⟨l, hl, hkey⟩

/-- A row of a build from scratch lists the ports of its bundle. -/
theorem ports_of_scratchRows {l : LFlow Match Action} (hl : l ∈ scratchRows x z) :
    ∃ lr g p₀ ps, Carries x z.HasRow lr g p₀ ∧ l.key = ecmpKey lr g ∧ l.action = ecmpAction ps ∧
      ∀ p, p ∈ ps ↔ Carries x z.HasRow lr g p := by
  simp only [carries_scratch_iff hz]
  obtain ⟨lr, hlr, a, ha, hjoin, _, rfl⟩ := mem_ecmpStaticRoute.mp hl
  rcases mem_ecmpAggregateOutport.mp ha with ⟨d, hd, rfl⟩ | ⟨h, hh, _⟩ | ⟨_, _, ⟨h, hh, _⟩, _⟩
  · have hm : (⟨lr.1, lr.2, d.1, d.2⟩ : Member) ∈ members x z.scratch :=
      mem_members.mpr ⟨hlr, mem_adding_scratch.mp hd, hjoin⟩
    refine ⟨lr.1, d.1.group, d.1.ofport, _, ⟨_, hm, live_of_mem_scratch hm, rfl, rfl, rfl⟩, rfl,
      rfl, fun p => ?_⟩
    rw [mem_portsOf]
    constructor
    · rintro ⟨d', hd', hg, rfl⟩
      have hm' := mem_members_of_group hm (mem_adding_scratch.mp hd') hg
      exact ⟨_, hm', live_of_mem_scratch hm', rfl, hg, rfl⟩
    · rintro ⟨m, hm, _, _, hg, rfl⟩
      exact ⟨_, mem_adding_scratch.mpr (mem_members.mp hm).2.1, hg, rfl⟩
  · exact absurd hh (falling_scratch h)
  · exact absurd hh (falling_scratch h)

end settled

end scratch

/-! ### Rounds -/

section tidy
variable (x : Extra) (B : List (Row × State))

/-- What the clauses of a round must be like for the bundles to be kept up. -/
structure Tidy : Prop where
  /-- Groups with one key have the same ports. -/
  one : ∀ m ∈ members x B, m.Live → ∀ m' ∈ members x B, m'.Live → m'.key = m.key →
    ∃ d ∈ standing x B, d.1.group = m.slave.group ∧ d.1.ofport = m'.slave.ofport
  /-- Where a group has a new pair, its new pairs have all ports of the bundle. -/
  covered : ∀ m ∈ members x B, m.Live → IsBorn m.facts → ∀ m' ∈ members x B, m'.Live →
    m'.key = m.key → ∃ d ∈ adding x B, d.1.group = m.slave.group ∧ d.1.ofport = m'.slave.ofport
  /-- A flow that one group erases and another one needs is written. -/
  apart : ∀ m ∈ members x B, m.Live → Erased x B m.key → Written x B m.key
  /-- A change of the router comes with one of a pair. -/
  noticed : ∀ m ∈ members x B, m.Live ∨ m.Old → ¬ AllKept m.support →
    Written x B m.key ∨ Erased x B m.key

instance : Decidable (Tidy x B) :=
  decidable_of_iff
    ((∀ m ∈ members x B, m.Live → ∀ m' ∈ members x B, m'.Live → m'.key = m.key →
        ∃ d ∈ standing x B, d.1.group = m.slave.group ∧ d.1.ofport = m'.slave.ofport) ∧
      (∀ m ∈ members x B, m.Live → IsBorn m.facts → ∀ m' ∈ members x B, m'.Live →
        m'.key = m.key →
          ∃ d ∈ adding x B, d.1.group = m.slave.group ∧ d.1.ofport = m'.slave.ofport) ∧
      (∀ m ∈ members x B, m.Live → Erased x B m.key → Written x B m.key) ∧
      ∀ m ∈ members x B, m.Live ∨ m.Old → ¬ AllKept m.support →
        Written x B m.key ∨ Erased x B m.key)
    ⟨fun h => ⟨h.1, h.2.1, h.2.2.1, h.2.2.2⟩, fun h => ⟨h.one, h.covered, h.apart, h.noticed⟩⟩

end tidy

/-- The flows of the bundles are there, with their ports, and no others. -/
structure Kept (x : Extra) (s : FlowNode Match Action) : Prop where
  present_iff : ∀ k, (s.table k).isSome ↔
    ∃ lr g p, Carries x s.zoo.HasRow lr g p ∧ ecmpKey lr g = k
  ports : ∀ lr g p₀, Carries x s.zoo.HasRow lr g p₀ → ∀ a, s.table (ecmpKey lr g) = some a →
    ∃ ps, a = ecmpAction ps ∧ ∀ p, p ∈ ps ↔ Carries x s.zoo.HasRow lr g p

theorem Kept.bundled {x : Extra} {s : FlowNode Match Action} (hs : s.zoo.Settled x)
    (h : Kept x s) : Bundled x s where
  present_iff k := (h.present_iff k).trans (exists_scratchRows_iff hs).symm
  ports l hl a ha := by
    obtain ⟨lr, g, p₀, qs, hcarry, hkey, haction, hqs⟩ := ports_of_scratchRows hs hl
    rw [hkey] at ha
    obtain ⟨ps, rfl, hps⟩ := h.ports lr g p₀ hcarry a ha
    exact ⟨ps, qs, rfl, haction, fun p => (hps p).trans (hqs p).symm⟩

section round
variable {x : Extra} {s s' : FlowNode Match Action} {rd : Round Match Action}

/-- A key that a row writes ends with the action of such a row. -/
theorem table_of_written {k : FlowKey Match} (hk : Written x (s.changed x rd).clauses k)
    (hstep : FlowNode.round x (ecmpStaticRoute x) s rd = some s') :
    ∃ l ∈ ecmpStaticRoute x (s.changed x rd).clauses, l.key = k ∧ 0 < l.state ∧
      s'.table k = some l.action := by
  obtain rfl := Option.some.inj hstep
  obtain ⟨l, hl, hlk, hpos⟩ := exists_add_iff.mpr hk
  obtain ⟨l', hl', h'⟩ := commitFlows_of_add (t := s.table) ((rd.mem_order _ l).mpr hl) hlk hpos
  exact ⟨l', (rd.mem_order _ l').mp hl', h'⟩

/-- A key that no row writes is gone if a row erases it, and is as before otherwise. -/
theorem table_of_not_written {k : FlowKey Match} (hk : ¬ Written x (s.changed x rd).clauses k)
    (hstep : FlowNode.round x (ecmpStaticRoute x) s rd = some s') :
    (Erased x (s.changed x rd).clauses k → s'.table k = none) ∧
      (¬ Erased x (s.changed x rd).clauses k → s'.table k = s.table k) := by
  obtain rfl := Option.some.inj hstep
  have hno : ∀ l ∈ rd.order (ecmpStaticRoute x (s.changed x rd).clauses), l.key = k →
      ¬ 0 < l.state :=
    fun l hl hlk hpos => hk (exists_add_iff.mp ⟨l, (rd.mem_order _ l).mp hl, hlk, hpos⟩)
  obtain ⟨hdel, hkeep⟩ := commitFlows_of_no_add (t := s.table) hno
  refine ⟨fun he => ?_, fun he => hkeep fun l hl hlk hl' => ?_⟩
  · obtain ⟨l, hl, hlk, hl'⟩ := exists_delete_iff.mpr he
    exact hdel ⟨l, (rd.mem_order _ l).mpr hl, hlk, hl'⟩
  · exact he (exists_delete_iff.mp ⟨l, (rd.mem_order _ l).mp hl, hlk, hl'⟩)

variable (hs : s.zoo.Settled x)
include hs

/-- After the sweep the bundles carry the ports of the live members. -/
theorem carries_sweep_iff {lr : Lr} {g : Group} {p : ℤ} :
    Carries x (s.changed x rd).sweepZoo.HasRow lr g p ↔
      ∃ m ∈ members x (s.changed x rd).clauses, m.Live ∧ m.lr = lr ∧ m.slave.group = g ∧
        m.slave.ofport = p := by
  rw [← carries_iff]
  have hrow : (s.changed x rd).sweepZoo.HasRow =
      fun d => ∃ st, (d, st) ∈ (s.changed x rd).clauses ∧ st.Live :=
    funext fun d => propext (hs.hasRow_sweep rd.changes d)
  rw [hrow]

/-- What a bundle carried before the round, a member without a new fact carries. -/
theorem old_of_carries (rd : Round Match Action) {lr : Lr} {g : Group} {p : ℤ}
    (h : Carries x s.zoo.HasRow lr g p) :
    ∃ m ∈ members x (s.changed x rd).clauses, m.Old ∧ m.lr = lr ∧ m.slave.group = g ∧
      m.slave.ofport = p := by
  obtain ⟨hlr, hjoin, slave, hslave, rfl, rfl⟩ := h
  have hold : ∀ r, s.zoo.HasRow r → ∃ st, (r, st) ∈ (s.changed x rd).clauses ∧ st.Old :=
    fun r hr => hs.old_of_hasRow rd.changes hr
  obtain ⟨s₁, hlr, hlrold⟩ := Rule.derives_iff_eval.mp
    (Rule.derives_iff_derivesFrom.mpr (hlr.mono hold))
  obtain ⟨s₂, hd, hdold⟩ := Rule.derives_iff_eval.mp
    (Rule.derives_iff_derivesFrom.mpr (hslave.mono hold))
  exact ⟨⟨lr, s₁, slave, s₂⟩, mem_members.mpr ⟨hlr, hd, hjoin⟩,
    Member.old_iff.mpr ⟨hlrold, hdold⟩, rfl, rfl, rfl⟩

/-- What an unchanged member carries, its bundle carried before the round. -/
theorem carries_of_kept {m : Member} (hm : m ∈ members x (s.changed x rd).clauses)
    (hkept : AllKept m.support) :
    Carries x s.zoo.HasRow m.lr m.slave.group m.slave.ofport := by
  obtain ⟨hlr, hd, hjoin⟩ := mem_members.mp hm
  have hrow : ∀ f ∈ m.support, f ∈ (s.changed x rd).clauses → s.zoo.HasRow f.1 := by
    intro f hf hmem
    refine hs.hasRow_of_known rd.changes ?_
    rwa [← Prod.mk.eta (p := f), hkept f hf] at hmem
  obtain ⟨hlrholds, hlrmem⟩ := ((lrArray x).mem_eval _ _ _).mp hlr
  obtain ⟨hholds, hmem⟩ := ((ecmpPair x).mem_eval _ _ _).mp hd
  refine ⟨⟨_, hlrholds, fun r hr => ?_⟩, hjoin, m.slave, ⟨_, hholds, fun r hr => ?_⟩, rfl, rfl⟩
  · obtain ⟨f, hf, rfl⟩ := List.mem_map.mp hr
    exact hrow f (List.mem_append_left _ hf) (hlrmem f hf)
  · obtain ⟨f, hf, rfl⟩ := List.mem_map.mp hr
    exact hrow f (List.mem_append_right _ hf) (hmem f hf)

/-- Where nothing is dying and a pair of a bundle is new, a port of the bundle that no new pair has
is lost. -/
theorem lost_port {m m' : Member} (hm : m ∈ members x (s.changed x rd).clauses) (hlive : m.Live)
    (hborn : IsBorn m.facts) (hfall : falling x (s.changed x rd).clauses = [])
    (hm' : m' ∈ members x (s.changed x rd).clauses) (hlive' : m'.Live) (hkey : m'.key = m.key)
    (hport : ∀ d ∈ adding x (s.changed x rd).clauses, d.1.ofport ≠ m'.slave.ofport)
    (hstep : FlowNode.round x (ecmpStaticRoute x) s rd = some s') : ¬ Bundled x s' := by
  intro h
  have hs' := FlowNode.settled_round x hs hstep
  obtain ⟨l, hl, hlk, hpos, htable⟩ := table_of_written ⟨m, hm, hlive, rfl, Or.inl hborn⟩ hstep
  obtain ⟨m₁, _, _, _, ⟨_, haction⟩ | ⟨⟨d, hd, _⟩, _⟩⟩ := written_of_add hl hpos
  · obtain rfl := Option.some.inj hstep
    obtain ⟨l', hl', hlk', qs', haction', hqs'⟩ := exists_scratchRows_of_carries hs'
      ((carries_sweep_iff hs).mpr ⟨m', hm', hlive', rfl, rfl, rfl⟩)
    have hlk' : l'.key = m'.key := hlk'
    rw [← hkey, ← hlk'] at htable
    obtain ⟨ps, qs, hps, hqs, hsame⟩ := h.ports l' hl' _ htable
    obtain rfl := ecmpAction_injective (haction.symm.trans hps)
    obtain rfl := ecmpAction_injective (haction'.symm.trans hqs)
    obtain ⟨d, hd, _, hp⟩ := mem_portsOf.mp ((hsame _).mpr hqs')
    exact hport d hd hp
  · rw [hfall] at hd
    cases hd

variable (htidy : Tidy x (s.changed x rd).clauses)
include htidy

/-- A bundle that no row touches is what it was. -/
theorem carries_unchanged {lr : Lr} {g : Group} {p : ℤ}
    (hw : ¬ Written x (s.changed x rd).clauses (ecmpKey lr g))
    (he : ¬ Erased x (s.changed x rd).clauses (ecmpKey lr g)) :
    Carries x s.zoo.HasRow lr g p ↔ Carries x (s.changed x rd).sweepZoo.HasRow lr g p := by
  have hkept : ∀ m ∈ members x (s.changed x rd).clauses, m.Live ∨ m.Old → m.lr = lr →
      m.slave.group = g → AllKept m.support := by
    rintro m hm hlo rfl rfl
    by_contra hnot
    exact (htidy.noticed m hm hlo hnot).elim hw he
  constructor
  · intro h
    obtain ⟨m, hm, hold, hlr, hg, hp⟩ := old_of_carries hs rd h
    have hk := hkept m hm (Or.inr hold) hlr hg
    refine (carries_sweep_iff hs).mpr ⟨m, hm, fun f hf => ?_, hlr, hg, hp⟩
    rw [hk f hf]
    trivial
  · intro h
    obtain ⟨m, hm, hlive, rfl, rfl, rfl⟩ := (carries_sweep_iff hs).mp h
    exact carries_of_kept hs hm (hkept m hm (Or.inl hlive) rfl rfl)

/-- A row that writes a flow lists the ports of every bundle with its key. -/
theorem ports_of_add {l : LFlow Match Action}
    (hl : l ∈ ecmpStaticRoute x (s.changed x rd).clauses) (hpos : 0 < l.state) {lr : Lr}
    {g : Group} {p₀ : ℤ} (hcarry : Carries x (s.changed x rd).sweepZoo.HasRow lr g p₀)
    (hkey : ecmpKey lr g = l.key) : ∃ ps, l.action = ecmpAction ps ∧
      ∀ p, p ∈ ps ↔ Carries x (s.changed x rd).sweepZoo.HasRow lr g p := by
  obtain ⟨m₀, hm₀, hlive₀, rfl, rfl, -⟩ := (carries_sweep_iff hs).mp hcarry
  obtain ⟨m, hm, hlive, hmkey, haction⟩ := written_of_add hl hpos
  have hkeys : m₀.key = m.key := hkey.trans hmkey.symm
  -- the ports of live pairs of the group of the row are those of the bundle
  have hstand : ∀ d ∈ standing x (s.changed x rd).clauses, d.1.group = m.slave.group →
      Carries x (s.changed x rd).sweepZoo.HasRow m₀.lr m₀.slave.group d.1.ofport := by
    intro d hd hg
    obtain ⟨heval, hdlive⟩ := mem_standing.mp hd
    have hmem := mem_members_of_group hm heval hg
    have hmemlive : (⟨m.lr, m.lrFacts, d.1, d.2⟩ : Member).Live :=
      Member.live_iff.mpr ⟨(Member.live_iff.mp hlive).1, hdlive⟩
    have hmemkey : (⟨m.lr, m.lrFacts, d.1, d.2⟩ : Member).key = m₀.key := by
      rw [hkeys, Member.key, hg]
      rfl
    obtain ⟨d', hd', hg', hp'⟩ := htidy.one m₀ hm₀ hlive₀ _ hmem hmemlive hmemkey
    obtain ⟨heval', hdlive'⟩ := mem_standing.mp hd'
    exact (carries_sweep_iff hs).mpr ⟨_, mem_members_of_group hm₀ heval' hg',
      Member.live_iff.mpr ⟨(Member.live_iff.mp hlive₀).1, hdlive'⟩, rfl, hg', hp'⟩
  rcases haction with ⟨hborn, haction⟩ | ⟨_, haction⟩
  · refine ⟨_, haction, fun p => mem_portsOf.trans ⟨?_, fun h => ?_⟩⟩
    · rintro ⟨d, hd, hg, rfl⟩
      obtain ⟨heval, hdborn⟩ := mem_adding.mp hd
      exact hstand d (mem_standing.mpr ⟨heval, hdborn.1⟩) hg
    · obtain ⟨m', hm', hlive', hlr', hg', rfl⟩ := (carries_sweep_iff hs).mp h
      refine htidy.covered m hm hlive hborn m' hm' hlive' ?_
      rw [← hkeys, Member.key, hlr', hg']
      rfl
  · refine ⟨_, haction, fun p => mem_portsOf.trans ⟨?_, fun h => ?_⟩⟩
    · rintro ⟨d, hd, hg, rfl⟩
      exact hstand d hd hg
    · obtain ⟨m', hm', hlive', hlr', hg', rfl⟩ := (carries_sweep_iff hs).mp h
      refine htidy.one m hm hlive m' hm' hlive' ?_
      rw [← hkeys, Member.key, hlr', hg']
      rfl

/-- **One round** keeps the bundles. -/
theorem Kept.round (h : Kept x s)
    (hstep : FlowNode.round x (ecmpStaticRoute x) s rd = some s') : Kept x s' := by
  have hsweep : ∀ lr g p, Carries x s'.zoo.HasRow lr g p ↔
      ∃ m ∈ members x (s.changed x rd).clauses, m.Live ∧ m.lr = lr ∧ m.slave.group = g ∧
        m.slave.ofport = p := by
    rw [← Option.some.inj hstep]
    exact fun lr g p => carries_sweep_iff hs
  have hunchanged : ∀ lr g p, ¬ Written x (s.changed x rd).clauses (ecmpKey lr g) →
      ¬ Erased x (s.changed x rd).clauses (ecmpKey lr g) →
      (Carries x s.zoo.HasRow lr g p ↔ Carries x s'.zoo.HasRow lr g p) := by
    rw [← Option.some.inj hstep]
    exact fun lr g p hw he => carries_unchanged hs htidy hw he
  constructor
  · intro k
    by_cases hw : Written x (s.changed x rd).clauses k
    · obtain ⟨l, _, _, _, htable⟩ := table_of_written hw hstep
      obtain ⟨m, hm, hlive, hkey, _⟩ := hw
      exact iff_of_true (Option.isSome_iff_exists.mpr ⟨_, htable⟩)
        ⟨_, _, _, (hsweep _ _ _).mpr ⟨m, hm, hlive, rfl, rfl, rfl⟩, hkey⟩
    · obtain ⟨hdel, hkeep⟩ := table_of_not_written hw hstep
      by_cases he : Erased x (s.changed x rd).clauses k
      · -- nothing needs the flow any more
        refine iff_of_false (by simp [hdel he]) ?_
        rintro ⟨lr, g, p, hcarry, rfl⟩
        obtain ⟨m, hm, hlive, rfl, rfl, _⟩ := (hsweep _ _ _).mp hcarry
        exact hw (htidy.apart m hm hlive he)
      · rw [hkeep he, h.present_iff]
        refine exists_congr fun lr => exists_congr fun g => exists_congr fun p => ?_
        refine and_congr_left fun hkey => ?_
        subst hkey
        exact hunchanged lr g p hw he
  · intro lr g p₀ hcarry a ha
    by_cases hw : Written x (s.changed x rd).clauses (ecmpKey lr g)
    · obtain ⟨l, hl, hlk, hpos, htable⟩ := table_of_written hw hstep
      obtain rfl := Option.some.inj (htable.symm.trans ha)
      rw [← Option.some.inj hstep] at hcarry ⊢
      exact ports_of_add hs htidy hl hpos hcarry hlk.symm
    · have he : ¬ Erased x (s.changed x rd).clauses (ecmpKey lr g) := by
        intro he
        obtain ⟨m, hm, hlive, rfl, rfl, _⟩ := (hsweep _ _ _).mp hcarry
        exact hw (htidy.apart m hm hlive he)
      have hold := (hunchanged lr g p₀ hw he).mpr hcarry
      obtain ⟨ps, rfl, hps⟩ := h.ports lr g p₀ hold a
        (((table_of_not_written hw hstep).2 he).symm.trans ha)
      exact ⟨ps, rfl, fun p => (hps p).trans (hunchanged lr g p hw he)⟩

end round

/-! ### Runs -/

/-- One round of a node that maintains the bundles. -/
abbrev ecmpRound (x : Extra) :
    FlowNode Match Action → Round Match Action → Option (FlowNode Match Action) :=
  FlowNode.round x (ecmpStaticRoute x)

theorem kept_start (x : Extra) : Kept x (FlowNode.start fun _ => none) := by
  have hnone : ∀ lr g p, ¬ Carries x Zoo.empty.HasRow lr g p := by
    rintro lr g p ⟨_, _, slave, hslave, _⟩
    simp only [ecmpPair, lrouteArray, Rule.derivesFrom_bind, Rule.derivesFrom_fact] at hslave
    obtain ⟨route, ⟨r, ⟨st, hst⟩, hroute⟩, _⟩ := hslave
    obtain rfl : r = tunnelRow := congrArg Prod.fst (List.mem_singleton.mp hst)
    cases hroute
  refine ⟨fun k => iff_of_false Bool.false_ne_true ?_, fun lr g p₀ h => absurd h (hnone lr g p₀)⟩
  rintro ⟨lr, g, p, h, _⟩
  exact hnone lr g p h

/-- **ECMP bundles over runs**: where every round is tidy, the bundles are those of a build from
scratch. -/
theorem ecmp_maintained (x : Extra) (rounds : List (Round Match Action))
    (htidy : Meets (ecmpRound x) (fun s rd => Tidy x (s.changed x rd).clauses)
      (FlowNode.start fun _ => none) rounds) (bs : List (Round Match Action))
    (hbs : bs <+: rounds) (s : FlowNode Match Action)
    (hrun : run (ecmpRound x) (FlowNode.start fun _ => none) bs = some s) : Bundled x s := by
  obtain ⟨cs, rfl⟩ := hbs
  have hinv : s.zoo.Settled x ∧ Kept x s := by
    refine run_invariant (ecmpRound x) (I := fun s => s.zoo.Settled x ∧ Kept x s) ?_
      (meets_append _ htidy) ⟨FlowNode.settled_start x _, kept_start x⟩ hrun
    intro s rd s' hok hs hstep
    exact ⟨FlowNode.settled_round x hs.1 hstep, hs.2.round hs.1 hok hstep⟩
  exact hinv.2.bundled hinv.1

/-- Router `n` at `10.0.0.n` on chassis `hyper-n` behind tunnel port `ofport`, attached to a
switch. -/
def attachGateway (n ls : String) (ofport : ℤ) : List Zoo.Change :=
  [.addEntity (.chassis ("hyper-" ++ n) (some ("10.10.0." ++ n)) (some "1")),
    .addEntity (.ovsport ("tun-" ++ n) ("hyper-" ++ n) ofport true),
    .addEntity (.LR ("LR-" ++ n) (some n) (some ("hyper-" ++ n))),
    .addEntity (.lrp ("lrp-" ++ n) (some ("10.0.0." ++ n)) (some "24")
      (some ("f2:01:0a:00:00:0" ++ n)) ("LR-" ++ n) (some ("lsp-" ++ n))),
    .addEntity (.lsp ("lsp-" ++ n) (some ("10.0.0." ++ n)) (some ("f2:01:0a:00:00:0" ++ n)) ls
      none (some ("lrp-" ++ n)))]

/-- Router `1` with a port on each of two switches and a route out of each port. -/
def twoOutports : List Zoo.Change :=
  [.addEntity (.LR "LR-1" (some "1") none),
    .addEntity (.lrp "lrp-a" (some "10.0.0.8") (some "24") (some "f2:01:0a:00:00:08") "LR-1"
      (some "lsp-a")),
    .addEntity (.lsp "lsp-a" (some "10.0.0.8") (some "f2:01:0a:00:00:08") "LS-a" none
      (some "lrp-a")),
    .addEntity (.lrp "lrp-b" (some "10.0.0.9") (some "24") (some "f2:01:0a:00:00:09") "LR-1"
      (some "lsp-b")),
    .addEntity (.lsp "lsp-b" (some "10.0.0.9") (some "f2:01:0a:00:00:09") "LS-b" none
      (some "lrp-b")),
    .addEntity (.lsr "route-a" (some "20.0.0.0") (some "24") (some "10.0.0.7") (some "lrp-a")
      "LR-1"),
    .addEntity (.lsr "route-b" (some "20.0.0.0") (some "24") (some "10.0.0.7") (some "lrp-b")
      "LR-1")]

/-- Behind each of two outports there is a gateway. -/
def twoGateways : Round Match Action :=
  .ofChanges (attachGateway "2" "LS-a" 12 ++ attachGateway "3" "LS-b" 13 ++ twoOutports)

/-- Another one comes behind the first outport. -/
def thirdGateway : Round Match Action := .ofChanges (attachGateway "4" "LS-a" 14)

set_option maxRecDepth 100000 in
/-- Two routes make a bundle, and it goes with one of them. -/
theorem ecmp_maintained_twoGateways : ∃ s,
    run (ecmpRound (.node false "hyper-1")) (FlowNode.start fun _ => none)
      [twoGateways, .ofChanges [.moveEntity2sink .lsr "route-b"]] = some s ∧
    Bundled (.node false "hyper-1") s := by
  obtain ⟨s, hs⟩ := Option.isSome_iff_exists.mp
    (FlowNode.run_isSome (.node false "hyper-1") (ecmpStaticRoute (.node false "hyper-1"))
      (FlowNode.start fun _ => none) [twoGateways, .ofChanges [.moveEntity2sink .lsr "route-b"]])
  exact ⟨s, hs, ecmp_maintained _ _ (by decide +kernel) _ (List.prefix_refl _) s hs⟩

set_option maxRecDepth 100000 in
/-- The new pairs have the ports `13` and `14`, so port `12` is lost. -/
theorem ecmp_not_maintained : ¬ ∀ (x : Extra) (rounds : List (Round Match Action))
    (s : FlowNode Match Action),
    run (ecmpRound x) (FlowNode.start fun _ => none) rounds = some s → Bundled x s := by
  intro h
  have hround : ∀ s ∈ run (ecmpRound (.node false "hyper-1")) (FlowNode.start fun _ => none)
      [twoGateways], ∃ m ∈ members (.node false "hyper-1")
        (s.changed (.node false "hyper-1") thirdGateway).clauses, (m.Live ∧ IsBorn m.facts) ∧
          falling (.node false "hyper-1")
            (s.changed (.node false "hyper-1") thirdGateway).clauses = [] ∧
          ∃ m' ∈ members (.node false "hyper-1")
            (s.changed (.node false "hyper-1") thirdGateway).clauses, (m'.Live ∧ m'.key = m.key) ∧
              ∀ d ∈ adding (.node false "hyper-1")
                (s.changed (.node false "hyper-1") thirdGateway).clauses,
                  d.1.ofport ≠ m'.slave.ofport := by
    decide +kernel
  obtain ⟨s, hs⟩ := Option.isSome_iff_exists.mp
    (FlowNode.run_isSome (.node false "hyper-1") (ecmpStaticRoute (.node false "hyper-1"))
      (FlowNode.start fun _ => none) [twoGateways])
  obtain ⟨m, hm, ⟨hlive, hborn⟩, hfall, m', hm', ⟨hlive', hkey⟩, hport⟩ := hround s hs
  have hsettled := FlowNode.settled_run _ (FlowNode.settled_start _ _) hs
  exact lost_port hsettled hm hlive hborn hfall hm' hlive' hkey hport rfl
    (h _ ([twoGateways] ++ [thirdGateway]) _ ((run_append _).mpr ⟨s, hs, rfl⟩))

end Ecmp

end TupleNet
