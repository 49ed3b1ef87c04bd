import TupleNet.Zoo.Invariant

/-! # The fact base

The clauses that the zoo has asserted are those of the touched entities that are live or wait in the
sink, each with its current state, and besides them the one of the flow based tunnel.  A clause is
retracted by value, so the argument rests on two things: the state tells the clauses of the sink
from those of live entities, and type and name, which are part of a clause, tell live entities
apart. -/

namespace TupleNet

/-! ### Clauses -/

/-- The clause is one that the entity asserts. -/
def Entity.Asserts (e : Entity) (c : Row × State) : Prop := e.touched ∧ e.clause = c

theorem Entity.Asserts.state_eq {e : Entity} {c : Row × State} (h : e.Asserts c) :
    e.state = c.2 := congrArg Prod.snd h.2

theorem Entity.Asserts.row_eq {e : Entity} {c : Row × State} (h : e.Asserts c) :
    e.row = c.1 := congrArg Prod.fst h.2

theorem Entity.mem_addClause {e : Entity} {cs : List (Row × State)} {c : Row × State} :
    c ∈ e.addClause cs ↔ c ∈ cs ∨ e.Asserts c := by
  unfold Entity.addClause Entity.Asserts
  split_ifs with h
  · rw [List.mem_cons, or_comm, eq_comm (a := c)]
    simp [h]
  · simp [h]

theorem Entity.mem_delClause {e : Entity} {cs : List (Row × State)} {c : Row × State} :
    c ∈ e.delClause cs ↔ c ∈ cs ∧ ¬ e.Asserts c := by
  unfold Entity.delClause Entity.Asserts
  split_ifs with h
  · simp only [List.mem_filter, decide_eq_true_eq, h, true_and, ne_eq, eq_comm (a := c)]
  · simp [h]

namespace Zoo

/-- Retracting the clauses of some entities, one after another. -/
theorem mem_foldl_eliminate {c : Row × State} (l : List Entity) (z : Zoo) :
    c ∈ (l.foldl (fun z e => z.eliminate e) z).clauses ↔
      c ∈ z.clauses ∧ ∀ e ∈ l, ¬ e.Asserts c := by
  induction l generalizing z with
  | nil => simp
  | cons e l ih =>
      rw [List.foldl_cons, ih]
      simp only [eliminate, Entity.mem_delClause, List.forall_mem_cons, and_assoc]

/-- The loop of `_sweep_entity_set` over new entities. -/
theorem mem_foldl_mark {c : Row × State} {l : List Entity} (hl : ∀ e ∈ l, e.state = .ADD)
    (cs : List (Row × State)) :
    c ∈ l.foldl (fun cs e => (e.mark .NO).addClause (e.delClause cs)) cs ↔
      (c ∈ cs ∧ ∀ e ∈ l, ¬ e.Asserts c) ∨ ∃ e ∈ l, (e.mark .NO).Asserts c := by
  induction l generalizing cs with
  | nil => simp
  | cons e l ih =>
      have hrest : ∀ e' ∈ l, e'.state = .ADD := fun e' h => hl e' (List.mem_cons_of_mem _ h)
      -- what is asserted anew has state `NO`, so no later entity retracts it
      have hkeep : (e.mark .NO).Asserts c → ∀ e' ∈ l, ¬ e'.Asserts c := by
        rintro ⟨_, rfl⟩ e' he' ⟨_, heq⟩
        have hstate := congrArg Prod.snd heq
        simp only [Entity.clause, Entity.mark, hrest e' he'] at hstate
        cases hstate
      rw [List.foldl_cons, ih hrest, Entity.mem_addClause, Entity.mem_delClause]
      simp only [List.forall_mem_cons, List.exists_mem_cons_iff]
      tauto

/-! ### The invariant -/

/-- A live entity asserts the clause. -/
def AssertedLive (z : Zoo) (c : Row × State) : Prop :=
  ∃ t key e, z.entity? t key = some e ∧ e.Asserts c

/-- An entity in the sink asserts the clause. -/
def AssertedSunk (z : Zoo) (c : Row × State) : Prop := ∃ t, ∃ e ∈ z.entitySinkSet t, e.Asserts c

/-- The clauses are those of the touched entities, which are new or known while live and dying in
the sink. -/
structure Mirrored (z : Zoo) : Prop where
  live_state : ∀ t key e, z.entity? t key = some e → e.state ≠ .DEL
  sunk_state : ∀ t, ∀ e ∈ z.entitySinkSet t, e.state = .DEL
  mem_clauses : ∀ c, c ∈ z.clauses ↔ c = (tunnelRow, .NO) ∨ z.AssertedLive c ∨ z.AssertedSunk c

theorem mirrored_empty : Mirrored empty where
  live_state t key e h := by rw [entity?_empty] at h; cases h
  sunk_state _ _ h := by cases h
  mem_clauses c := by
    have hlive : ¬ empty.AssertedLive c := by
      rintro ⟨t, key, e, he, _⟩
      rw [entity?_empty] at he
      cases he
    have hsunk : ¬ empty.AssertedSunk c := by
      rintro ⟨_, _, he, _⟩
      cases he
    simp only [hlive, hsunk, or_false]
    exact List.mem_singleton

/-- The tunnel is no entity. -/
theorem Indexed.ne_tunnelRow {z : Zoo} (h : Indexed z) {t : EntityType} {key : String} {e : Entity}
    (he : z.entity? t key = some e) : e.row ≠ tunnelRow := by
  intro heq
  have hvalid := h.valid t key e he
  rw [heq] at hvalid
  have hno : ip2int "" = none := by decide
  simp [tunnelRow, Props.Valid, hno] at hvalid

/-- Live entities that assert the same clause are the same. -/
theorem Indexed.asserts_unique {z : Zoo} (h : Indexed z) {t t' : EntityType} {key key' : String}
    {e e' : Entity} (he : z.entity? t key = some e) (he' : z.entity? t' key' = some e')
    (hrow : e.row = e'.row) : t = t' ∧ key = key' := by
  obtain ⟨rfl, rfl⟩ := h.keyed t key e he
  obtain ⟨rfl, rfl⟩ := h.keyed t' key' e' he'
  simp only [Entity.etype, Entity.uuid, hrow, and_self]

section step
variable {z : Zoo} (h : Mirrored z)
include h

theorem Mirrored.setIlk (g : IlkGroup) : Mirrored (z.setIlkGroup g) :=
  ⟨h.live_state, h.sunk_state, h.mem_clauses⟩

theorem Mirrored.refuse (m : Idxmap) : Mirrored (z.setIdxmap m) :=
  ⟨h.live_state, h.sunk_state, h.mem_clauses⟩

theorem Mirrored.enter {e : Entity} (m : Idxmap) (hnew : z.entity? e.etype e.uuid = none)
    (hstate : e.state = .ADD) : Mirrored ((z.setIdxmap m).enter e) where
  live_state := by
    intro t key e' he'
    rw [entity?_enter] at he'
    split_ifs at he' with hkey
    · obtain rfl := Option.some.inj he'
      rw [hstate]
      nofun
    · exact h.live_state t key e' he'
  sunk_state := h.sunk_state
  mem_clauses := by
    intro c
    have hlive : ((z.setIdxmap m).enter e).AssertedLive c ↔ z.AssertedLive c ∨ e.Asserts c := by
      constructor
      · rintro ⟨t, key, e', he', hc⟩
        rw [entity?_enter] at he'
        split_ifs at he' with hkey
        · obtain rfl := Option.some.inj he'
          exact Or.inr hc
        · exact Or.inl ⟨t, key, e', he', hc⟩
      · rintro (⟨t, key, e', he', hc⟩ | hc)
        · refine ⟨t, key, e', ?_, hc⟩
          rw [entity?_enter, if_neg]
          · exact he'
          · rintro ⟨rfl, rfl⟩
            rw [hnew] at he'
            cases he'
        · exact ⟨e.etype, e.uuid, e, by rw [entity?_enter, if_pos ⟨rfl, rfl⟩], hc⟩
    have hsunk : ((z.setIdxmap m).enter e).AssertedSunk c ↔ z.AssertedSunk c := Iff.rfl
    have hclauses : ((z.setIdxmap m).enter e).clauses = e.addClause z.clauses := rfl
    rw [hlive, hsunk, hclauses, Entity.mem_addClause, h.mem_clauses c]
    tauto

theorem Mirrored.touch (t : EntityType) (key : String) : Mirrored (z.touch t key) := by
  cases he : z.entity? t key with
  | none =>
      have hsame : z.touch t key = z := by simp only [Zoo.touch, he]
      rwa [hsame]
  | some e =>
      by_cases htouched : e.touched
      · have hsame : z.touch t key = z := by simp only [Zoo.touch, he, htouched, if_true]
        rwa [hsame]
      · have hsink : (z.touch t key).entitySinkSet = z.entitySinkSet := by
          simp only [Zoo.touch, he, htouched, Bool.false_eq_true, if_false]
        have hclauses : (z.touch t key).clauses = e.touch.addClause z.clauses := by
          simp only [Zoo.touch, he, htouched, Bool.false_eq_true, if_false]
        have hstate : e.touch.state = .ADD := by simp [Entity.touch, htouched]
        refine ⟨fun t' key' e' he' => ?_, fun t' e' he' => ?_, fun c => ?_⟩
        · rw [entity?_touch] at he'
          split_ifs at he'
          · rw [he, Option.map_some, Option.some.injEq] at he'
            rw [← he', hstate]
            intro hdel
            cases hdel
          · exact h.live_state t' key' e' he'
        · rw [hsink] at he'
          exact h.sunk_state t' e' he'
        · have hlive : (z.touch t key).AssertedLive c ↔ z.AssertedLive c ∨ e.touch.Asserts c := by
            constructor
            · rintro ⟨t', key', e', he', hc⟩
              rw [entity?_touch] at he'
              split_ifs at he'
              · rw [he, Option.map_some, Option.some.injEq] at he'
                exact Or.inr (he' ▸ hc)
              · exact Or.inl ⟨t', key', e', he', hc⟩
            · rintro (⟨t', key', e', he', hc⟩ | hc)
              · refine ⟨t', key', e', ?_, hc⟩
                rw [entity?_touch, if_neg]
                · exact he'
                · rintro ⟨rfl, rfl⟩
                  -- an untouched entity asserts nothing
                  obtain rfl := Option.some.inj (he.symm.trans he')
                  exact htouched hc.1
              · refine ⟨t, key, e.touch, ?_, hc⟩
                rw [entity?_touch, if_pos ⟨rfl, rfl⟩, he, Option.map_some]
          have hsunk : (z.touch t key).AssertedSunk c ↔ z.AssertedSunk c := by
            rw [AssertedSunk, hsink]
            rfl
          rw [hclauses, Entity.mem_addClause, h.mem_clauses, hlive, hsunk]
          tauto

variable (hidx : Indexed z)
include hidx

theorem Mirrored.move (t : EntityType) (key : String) : Mirrored (z.moveEntity2sink t key) := by
  cases he : z.entity? t key with
  | none => rwa [move_of_none he]
  | some e =>
      have hsink : ∀ t' e', e' ∈ (z.moveEntity2sink t key).entitySinkSet t' ↔
          e' ∈ z.entitySinkSet t' ∨ t' = t ∧ e' = e.mark .DEL := by
        intro t' e'
        simp only [moveEntity2sink, he]
        by_cases ht : t' = t
        · subst ht
          simp
        · simp [ht]
      have hclauses : (z.moveEntity2sink t key).clauses =
          (e.mark .DEL).addClause (e.delClause z.clauses) := by
        simp only [moveEntity2sink, he]
      refine ⟨fun t' key' e' he' => ?_, fun t' e' he' => ?_, fun c => ?_⟩
      · rw [entity?_moveEntity2sink] at he'
        split_ifs at he'
        exact h.live_state t' key' e' he'
      · rcases (hsink t' e').mp he' with he' | ⟨_, rfl⟩
        · exact h.sunk_state t' e' he'
        · rfl
      · have hlive : (z.moveEntity2sink t key).AssertedLive c ↔
            z.AssertedLive c ∧ ¬ e.Asserts c := by
          constructor
          · rintro ⟨t', key', e', he', hc⟩
            rw [entity?_moveEntity2sink] at he'
            split_ifs at he' with hkey
            refine ⟨⟨t', key', e', he', hc⟩, fun hc' => hkey ?_⟩
            refine hidx.asserts_unique he' he ?_
            exact (congrArg Prod.fst hc.2).trans (congrArg Prod.fst hc'.2).symm
          · rintro ⟨⟨t', key', e', he', hc⟩, hno⟩
            refine ⟨t', key', e', ?_, hc⟩
            rw [entity?_moveEntity2sink, if_neg]
            · exact he'
            · rintro ⟨rfl, rfl⟩
              obtain rfl := Option.some.inj (he.symm.trans he')
              exact hno hc
        have htunnel : e.Asserts c → c ≠ (tunnelRow, .NO) := by
          rintro ⟨_, rfl⟩ heq
          exact hidx.ne_tunnelRow he (congrArg Prod.fst heq)
        have hsunk : e.Asserts c → ¬ z.AssertedSunk c := by
          rintro ⟨_, rfl⟩ ⟨t', e', he', _, heq⟩
          have hstate := congrArg Prod.snd heq
          simp only [Entity.clause, h.sunk_state t' e' he'] at hstate
          exact h.live_state t key e he hstate.symm
        have hsink' : (z.moveEntity2sink t key).AssertedSunk c ↔
            z.AssertedSunk c ∨ (e.mark .DEL).Asserts c := by
          simp only [AssertedSunk, hsink]
          constructor
          · rintro ⟨t', e', he' | ⟨_, rfl⟩, hc⟩
            · exact Or.inl ⟨t', e', he', hc⟩
            · exact Or.inr hc
          · rintro (⟨t', e', he', hc⟩ | hc)
            · exact ⟨t', e', Or.inl he', hc⟩
            · exact ⟨t, _, Or.inr ⟨rfl, rfl⟩, hc⟩
        rw [hclauses, Entity.mem_addClause, Entity.mem_delClause, h.mem_clauses, hlive, hsink']
        tauto

end step

/-! ### The sweep -/

theorem mem_live {z : Zoo} {e : Entity} : e ∈ z.live ↔ ∃ t key, z.entity? t key = some e := by
  simp only [live, List.mem_flatMap, List.mem_map, Prod.exists, exists_eq_right, Dict.mem_items]
  constructor
  · rintro ⟨t, _, key, h⟩
    exact ⟨t, key, h⟩
  · rintro ⟨t, key, h⟩
    exact ⟨t, t.mem_all, key, h⟩

theorem mem_sunk {z : Zoo} {e : Entity} : e ∈ z.sunk ↔ ∃ t, e ∈ z.entitySinkSet t := by
  simp only [sunk, List.mem_flatMap]
  constructor
  · rintro ⟨t, _, h⟩
    exact ⟨t, h⟩
  · rintro ⟨t, h⟩
    exact ⟨t, t.mem_all, h⟩

theorem swept_of_add {e : Entity} (h : e.state = .ADD) : swept e = e.mark .NO := if_pos h

theorem swept_of_ne {e : Entity} (h : e.state ≠ .ADD) : swept e = e := if_neg h

theorem swept_state {e : Entity} (h : e.state ≠ .DEL) : (swept e).state = .NO := by
  by_cases hadd : e.state = .ADD
  · rw [swept_of_add hadd]
    rfl
  · rw [swept_of_ne hadd]
    cases he : e.state with
    | NO => rfl
    | ADD => exact absurd he hadd
    | DEL => exact absurd he h

theorem mem_clauses_sweepZoo (z : Zoo) (c : Row × State) : c ∈ z.sweepZoo.clauses ↔
    ((c ∈ z.clauses ∧ ¬ z.AssertedSunk c) ∧ ∀ e ∈ z.live, e.state = .ADD → ¬ e.Asserts c) ∨
      ∃ e ∈ z.live, e.state = .ADD ∧ (e.mark .NO).Asserts c := by
  have hlive : z.cleanSink.live = z.live := by
    unfold live cleanSink
    simp only [foldl_eliminate_entitySet]
  have hclean : c ∈ z.cleanSink.clauses ↔ c ∈ z.clauses ∧ ¬ z.AssertedSunk c := by
    refine (mem_foldl_eliminate z.sunk z).trans (and_congr_right fun _ => ?_)
    simp only [mem_sunk, AssertedSunk, not_exists, not_and]
    exact ⟨fun h t e he => h e ⟨t, he⟩, fun h e ⟨t, he⟩ => h t e he⟩
  have hnew : ∀ e ∈ z.live.filter (fun e => e.state = .ADD), e.state = .ADD :=
    fun e he => by simpa using (List.mem_filter.mp he).2
  simp only [sweepZoo, sweepEntitySet, hlive]
  rw [mem_foldl_mark hnew, hclean]
  simp only [List.mem_filter, decide_eq_true_eq, and_imp, and_assoc]

theorem Mirrored.sweep {z : Zoo} (h : Mirrored z) : Mirrored z.sweepZoo where
  live_state := by
    intro t key e' he'
    rw [entity?_sweepZoo] at he'
    obtain ⟨e, he, rfl⟩ := Option.map_eq_some_iff.mp he'
    rw [swept_state (h.live_state t key e he)]
    nofun
  sunk_state _ _ he := by cases he
  mem_clauses := by
    intro c
    have hsunk : ¬ z.sweepZoo.AssertedSunk c := by
      rintro ⟨_, _, he, _⟩
      cases he
    simp only [hsunk, or_false]
    rw [mem_clauses_sweepZoo, h.mem_clauses]
    constructor
    · rintro (⟨⟨htunnel | ⟨t, key, e, he, hc⟩ | hsunk, hno⟩, hadd⟩ | ⟨e, he, hadd, hc⟩)
      · exact Or.inl htunnel
      · -- a live clause that stays is one of an entity that was known before
        have hold : e.state ≠ .ADD := fun hstate => hadd e (mem_live.mpr ⟨t, key, he⟩) hstate hc
        refine Or.inr ⟨t, key, e, ?_, hc⟩
        rw [entity?_sweepZoo, he, Option.map_some, swept_of_ne hold]
      · exact absurd hsunk hno
      · obtain ⟨t, key, he⟩ := mem_live.mp he
        refine Or.inr ⟨t, key, e.mark .NO, ?_, hc⟩
        rw [entity?_sweepZoo, he, Option.map_some, swept_of_add hadd]
    · have hstay : ∀ s : State, c.2 = s → s ≠ .DEL → s ≠ .ADD → ¬ z.AssertedSunk c ∧
          ∀ e ∈ z.live, e.state = .ADD → ¬ e.Asserts c := by
        rintro s rfl hdel hadd
        refine ⟨?_, fun e _ hstate hc => hadd (hc.state_eq.symm.trans hstate)⟩
        rintro ⟨t, e, he, hc⟩
        exact hdel (hc.state_eq.symm.trans (h.sunk_state t e he))
      rintro (rfl | ⟨t, key, e', he', hc⟩)
      · obtain ⟨h₁, h₂⟩ := hstay .NO rfl nofun nofun
        exact Or.inl ⟨⟨Or.inl rfl, h₁⟩, h₂⟩
      · rw [entity?_sweepZoo] at he'
        obtain ⟨e, he, rfl⟩ := Option.map_eq_some_iff.mp he'
        by_cases hadd : e.state = .ADD
        · rw [swept_of_add hadd] at hc
          exact Or.inr ⟨e, mem_live.mpr ⟨t, key, he⟩, hadd, hc⟩
        · rw [swept_of_ne hadd] at hc
          obtain ⟨h₁, h₂⟩ := hstay e.state hc.state_eq.symm (h.live_state t key e he) hadd
          exact Or.inl ⟨⟨Or.inr (Or.inl ⟨t, key, e, he, hc⟩), h₁⟩, h₂⟩

theorem mirrored_invariant (x : Extra) : Invariant x (fun z => Indexed z ∧ Mirrored z) where
  empty := ⟨indexed_empty, mirrored_empty⟩
  ilk _ _ _ g h hg := ⟨h.1.setIlk hg, h.2.setIlk g⟩
  move _ t key h := ⟨h.1.move t key, h.2.move h.1 t key⟩
  refuse _ _ m h hm := ⟨h.1.refuse hm, h.2.refuse m⟩
  enter _ _ m h hnew hvalid hstate hm := ⟨h.1.enter hvalid hm, h.2.enter m hnew hstate⟩
  touch _ t key h := ⟨h.1.touch t key, h.2.touch t key⟩
  sweep _ h := ⟨h.1.sweep, h.2.sweep⟩

theorem Reachable.mirrored {x : Extra} {z : Zoo} (h : Reachable x z) : Mirrored z :=
  ((mirrored_invariant x).of_reachable h).2

/-! ### Runs -/

/-- A call on the zoo.  `touch_entity` touches what a function finds among the live entities. -/
inductive Op where
  | addEntity (a : Args)
  | moveEntity2sink (t : EntityType) (key : String)
  | moveAllEntity2sink (types exclude : List EntityType)
  | touchEntity (t : EntityType) (fn : Dict String Entity → List String)
  | sweepZoo

/-- What a call does. -/
def Op.apply (x : Extra) : Op → Zoo → Zoo
  | addEntity a, z => z.addEntity x a
  | moveEntity2sink t key, z => z.moveEntity2sink t key
  | moveAllEntity2sink types exclude, z => z.moveAllEntity2sink types exclude
  | touchEntity t fn, z => z.touchEntity t (fn (z.entitySet t))
  | sweepZoo, z => z.sweepZoo

/-- The zoo after some calls. -/
def runOps (x : Extra) (ops : List Op) : Zoo := ops.foldl (fun z op => op.apply x z) empty

theorem Reachable.foldl {x : Extra} {ι : Type} {f : Zoo → ι → Zoo}
    (hf : ∀ z i, Reachable x z → Reachable x (f z i)) (l : List ι) {z : Zoo} (h : Reachable x z) :
    Reachable x (l.foldl f z) := by
  induction l generalizing z with
  | nil => exact h
  | cons i l ih => exact ih (hf z i h)

theorem Reachable.apply {x : Extra} {z : Zoo} (h : Reachable x z) (op : Op) :
    Reachable x (op.apply x z) := by
  cases op with
  | addEntity a => exact h.addEntity a
  | moveEntity2sink t key => exact h.moveEntity2sink t key
  | moveAllEntity2sink types exclude => exact h.foldl (fun _ k h => h.moveEntity2sink k.1 k.2) _
  | touchEntity t fn => exact h.foldl (fun _ key h => h.touch t key) _
  | sweepZoo => exact h.sweepZoo

theorem reachable_runOps (x : Extra) (ops : List Op) : Reachable x (runOps x ops) :=
  Reachable.empty.foldl (fun _ op h => h.apply op) ops

/-- **The facts mirror the zoo**: after any calls the clauses are the one of the flow based tunnel
and those of the touched entities that are live or in the sink, all of the sink is dying, and a
sweep leaves an empty sink and known entities. -/
theorem facts_mirror (x : Extra) (ops : List Op) :
    (∀ c, c ∈ (runOps x ops).clauses ↔
      c = (tunnelRow, .NO) ∨ (runOps x ops).AssertedLive c ∨ (runOps x ops).AssertedSunk c) ∧
    (∀ t, ∀ e ∈ (runOps x ops).entitySinkSet t, e.state = .DEL) ∧
    (∀ t, (runOps x ops).sweepZoo.entitySinkSet t = []) ∧
    ∀ t key e, (runOps x ops).sweepZoo.entity? t key = some e → e.state = .NO := by
  have h := (reachable_runOps x ops).mirrored
  refine ⟨h.mem_clauses, h.sunk_state, fun _ => rfl, fun t key e he => ?_⟩
  rw [entity?_sweepZoo] at he
  obtain ⟨e', he', rfl⟩ := Option.map_eq_some_iff.mp he
  exact swept_state (h.live_state t key e' he')

/-- The clause of the flow based tunnel belongs to no entity. -/
theorem facts_not_only_entities : ¬ ∀ (x : Extra) (ops : List Op) (c : Row × State),
    c ∈ (runOps x ops).clauses ↔ (runOps x ops).AssertedLive c ∨ (runOps x ops).AssertedSunk c := by
  intro h
  rcases (h (.node false "hyper1") [] (tunnelRow, .NO)).mp (List.mem_singleton.mpr rfl) with
    ⟨t, key, e, he, _⟩ | ⟨t, e, he, _⟩
  · have hnone : empty.entity? t key = some e := he
    rw [entity?_empty] at hnone
    cases hnone
  · cases he

end Zoo

end TupleNet
