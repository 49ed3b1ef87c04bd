import TupleNet.Lib.Machine
import TupleNet.Zoo.Mirror

/-! # The zoo between threads

`add_entity` takes the lock of the zoo to insert the new entity and asserts its clause (`populate`)
after it has given the lock back; in on-demand mode it touches gateways without the lock, too.
`update_ovs_side` holds the lock while it builds the flows and sweeps the zoo.  So the sweep may
meet an entity without a clause, and then it raises, or one whose clause has come after the flows
have been built, and then no flow computation has seen it as new.  Every new entity is seen exactly
as long as, at each sweep, the new entities have been touched and populated when the flows were
built, and no entity is moved into the sink before it is populated (`newSeen_iff`).

A step is what a thread does under one hold of the lock, or between two.  `update_ovs_side` makes
two of them, since other threads may go on where they need no lock.  What an exception leaves behind
is not modelled: a run ends with it. -/

namespace TupleNet

namespace Zoo

/-- The entity becomes live, but its clause is not asserted yet. -/
def place (e : Entity) (z : Zoo) : Zoo := { z.enter e with clauses := z.clauses }

/-- `add_clause` of a live entity, by `populate`. -/
def populate (t : EntityType) (key : String) (z : Zoo) : Zoo :=
  match z.entity? t key with
  | none => z
  | some e => { z with clauses := e.addClause z.clauses }

end Zoo

/-- The zoo and what the threads are about to do. -/
structure SharedZoo where
  zoo : Zoo
  /-- Entities that calls of `add_entity` have constructed and not yet inserted. -/
  made : List Entity
  /-- Touched entities that are inserted and not yet populated: their clause data do not exist. -/
  bare : List (EntityType × String)
  /-- Entities with which calls of `add_entity` have still to look for gateways. -/
  gateways : List Props
  /-- The zoo and `bare` when the flows were built, while the lock is held for the sweep. -/
  built : Option (Zoo × List (EntityType × String))
  /-- A step has raised `AttributeError`. -/
  raised : Bool

/-- The steps of the threads. -/
inductive ZooAct where
  /-- The first critical section of `add_entity`. -/
  | construct (a : Args)
  /-- `_add_entity_in_zoo`. -/
  | insert (e : Entity)
  | populate (t : EntityType) (key : String)
  | touchGateway (p : Props)
  /-- `touch_entity` of one entity. -/
  | touch (t : EntityType) (key : String)
  | moveEntity2sink (t : EntityType) (key : String)
  | buildFlows
  | sweepZoo
deriving DecidableEq

namespace SharedZoo

/-- No thread has done anything. -/
def start : SharedZoo := ⟨.empty, [], [], [], none, false⟩

section machine
variable (x : Extra)

/-- The check for an equal entity and the constructor. -/
def construct (a : Args) (s : SharedZoo) : SharedZoo :=
  match (s.zoo.entity? a.etype a.uuid).elim (some false) (fun e => a.isSame e.row.props) with
  | some false => match a.construct with
      | none => s
      | some p => match Zoo.getIlkIdx x p s.zoo.ilkGroup with
          | none => s
          | some (idx, g) =>
              { s with
                zoo := s.zoo.setIlkGroup g
                made := ⟨⟨p, idx⟩, .ADD, Zoo.shouldTouch x p⟩ :: s.made }
  | _ => s

/-- `_add_entity_in_zoo`: `move_entity2sink` of the entity that has the name, then the uniqueness
keys and the entry. -/
def insert (e : Entity) (s : SharedZoo) : SharedZoo :=
  if (e.etype, e.uuid) ∈ s.bare then { s with raised := true }
  else
    let z := s.zoo.moveEntity2sink e.etype e.uuid
    match Zoo.insertIdxmap e.uniq z.entityIdxmap with
    | (m, true) =>
        { s with
          zoo := (z.setIdxmap m).place e
          made := s.made.erase e
          bare := if e.touched then (e.etype, e.uuid) :: s.bare else s.bare
          gateways := if x.onDemand then e.row.props :: s.gateways else s.gateways }
    | (m, false) => { s with zoo := z.setIdxmap m, made := s.made.erase e }

/-- `move_entity2sink`: `del_clause` needs the clause data. -/
def moveEntity2sink (t : EntityType) (key : String) (s : SharedZoo) : SharedZoo :=
  if (t, key) ∈ s.bare then { s with raised := true }
  else { s with zoo := s.zoo.moveEntity2sink t key }

/-- `sweep_zoo`, after which the lock is free: `mark` needs the clause data of new entities. -/
def sweepZoo (s : SharedZoo) : SharedZoo :=
  if ∃ e ∈ s.zoo.live, e.state = .ADD ∧ (e.etype, e.uuid) ∈ s.bare then { s with raised := true }
  else { s with zoo := s.zoo.sweepZoo, built := none }

/-- What the step of a thread does; one that takes the lock waits while it is held. -/
def act (s : SharedZoo) : ZooAct → Option SharedZoo
  | .construct a => if s.built.isSome then none else some (s.construct x a)
  | .insert e => if s.built.isSome ∨ e ∉ s.made then none else some (s.insert x e)
  | .populate t key =>
      if (t, key) ∈ s.bare then
        some { s with zoo := s.zoo.populate t key, bare := s.bare.erase (t, key) }
      else none
  | .touchGateway p =>
      -- the call has populated its entity before
      if p ∈ s.gateways ∧ (p.etype, p.uuid) ∉ s.bare then
        some { s with zoo := s.zoo.touchGateway p, gateways := s.gateways.erase p }
      else none
  | .touch t key => if s.built.isSome then none else some { s with zoo := s.zoo.touch t key }
  | .moveEntity2sink t key => if s.built.isSome then none else some (s.moveEntity2sink t key)
  | .buildFlows => if s.built.isSome then none else some { s with built := some (s.zoo, s.bare) }
  | .sweepZoo => if s.built.isSome then some s.sweepZoo else none

/-- One step of one thread. -/
def step (s : SharedZoo) (a : ZooAct) : Option SharedZoo := if s.raised then none else s.act x a

/-! ### What a step has to keep -/

/-- A step does not fail, and if it turns a live entity from `ADD` to `NO`, it is the sweep, and the
clause of the entity with the state `ADD` was in the fact base when the flows were built. -/
def NewSeen (s : SharedZoo) (a : ZooAct) : Prop :=
  ∀ s', step x s a = some s' → s'.raised = false ∧
    ∀ t key e e', s.zoo.entity? t key = some e → e.state = .ADD →
      s'.zoo.entity? t key = some e' → e'.state = .NO →
      a = .sweepZoo ∧ ∃ b ∈ s.built, e.clause ∈ b.1.clauses

/-- When the flows were built the entity of a name was touched and populated. -/
def Shown (b : Zoo × List (EntityType × String)) (t : EntityType) (key : String) : Prop :=
  (∃ e ∈ b.1.entity? t key, e.touched) ∧ (t, key) ∉ b.2

instance (b : Zoo × List (EntityType × String)) (t : EntityType) (key : String) :
    Decidable (Shown b t key) := inferInstanceAs (Decidable ((∃ e ∈ b.1.entity? t key, _) ∧ _))

/-- A step that moves an entity into the sink finds it populated, and a sweep finds the new entities
touched and populated before the flows were built. -/
def InOrder (s : SharedZoo) (a : ZooAct) : Prop :=
  (step x s a).isSome → match a with
    | .insert e => (e.etype, e.uuid) ∉ s.bare
    | .moveEntity2sink t key => (t, key) ∉ s.bare
    | .sweepZoo => ∀ b ∈ s.built, ∀ e ∈ s.zoo.live, e.state = .ADD → Shown b e.etype e.uuid
    | _ => True

instance (s : SharedZoo) (a : ZooAct) : Decidable (InOrder x s a) := by
  unfold InOrder
  cases a <;> infer_instance

end machine

end SharedZoo

/-! ### The fact base while clauses are missing -/

namespace Zoo

/-- The zoo as it will be when the entities of these names are populated. -/
def fill (bare : List (EntityType × String)) (z : Zoo) : Zoo :=
  { z with
    clauses := bare.filterMap (fun k => (z.entity? k.1 k.2).map Entity.clause) ++ z.clauses }

theorem mem_fill {bare : List (EntityType × String)} {z : Zoo} {c : Row × State} :
    c ∈ (z.fill bare).clauses ↔
      (∃ k ∈ bare, ∃ e, z.entity? k.1 k.2 = some e ∧ e.clause = c) ∨ c ∈ z.clauses := by
  simp only [fill, List.mem_append, List.mem_filterMap, Option.map_eq_some_iff]

/-- The order and the number of the clauses do not matter. -/
theorem Mirrored.of_mem {z z' : Zoo} (h : Mirrored z) (hset : z'.entitySet = z.entitySet)
    (hsink : z'.entitySinkSet = z.entitySinkSet) (hmem : ∀ c, c ∈ z'.clauses ↔ c ∈ z.clauses) :
    Mirrored z' := by
  have hentity : ∀ t key, z'.entity? t key = z.entity? t key := by
    intro t key
    rw [entity?, hset]
    rfl
  have hlive : ∀ c, z'.AssertedLive c ↔ z.AssertedLive c := by
    intro c
    simp only [AssertedLive, hentity]
  have hsunk : ∀ c, z'.AssertedSunk c ↔ z.AssertedSunk c := by
    intro c
    simp only [AssertedSunk, hsink]
  refine ⟨fun t key e he => ?_, fun t e he => ?_, fun c => ?_⟩
  · rw [hentity] at he
    exact h.live_state t key e he
  · rw [hsink] at he
    exact h.sunk_state t e he
  · rw [hmem, hlive, hsunk]
    exact h.mem_clauses c

/-- The index does not depend on the clauses. -/
theorem Indexed.setClauses {z : Zoo} (h : Indexed z) (cs : List (Row × State)) :
    Indexed { z with clauses := cs } := ⟨h.keyed, h.valid, h.reserved, h.apart, h.ilk⟩

/-- A zoo in which the entities of some names are not yet populated: these are new and touched, and
with their clauses the facts would mirror the zoo. -/
structure Sound (z : Zoo) (bare : List (EntityType × String)) : Prop where
  indexed : Indexed z
  mirrored : Mirrored (z.fill bare)
  fresh : ∀ k ∈ bare, ∃ e, z.entity? k.1 k.2 = some e ∧ e.touched ∧ e.state = .ADD
  missing : ∀ k ∈ bare, ∀ e, z.entity? k.1 k.2 = some e → e.clause ∉ z.clauses
  nodup : bare.Nodup

section sound
variable {z : Zoo} {bare : List (EntityType × String)} {t : EntityType} {key : String} {e : Entity}

theorem sound_empty : Sound empty [] where
  indexed := indexed_empty
  mirrored := mirrored_empty
  fresh _ hk := absurd hk List.not_mem_nil
  missing _ hk := absurd hk List.not_mem_nil
  nodup := List.nodup_nil

/-- The facts about a live entity. -/
theorem Sound.mem_clauses (h : Sound z bare) (he : z.entity? t key = some e) {st : State}
    (hst : st ≠ .DEL) :
    (e.row, st) ∈ z.clauses ↔ st = e.state ∧ e.touched ∧ (t, key) ∉ bare := by
  constructor
  · intro hmem
    rcases (h.mirrored.mem_clauses _).mp (mem_fill.mpr (Or.inr hmem)) with
      htunnel | ⟨t', key', e', he', hc⟩ | ⟨t', e', he', hc⟩
    · exact absurd (congrArg Prod.fst htunnel) (h.indexed.ne_tunnelRow he)
    · obtain ⟨rfl, rfl⟩ := h.indexed.asserts_unique he he' hc.row_eq.symm
      obtain rfl := Option.some.inj (he.symm.trans he')
      refine ⟨hc.state_eq.symm, hc.1, fun hbare => h.missing _ hbare e he ?_⟩
      rw [hc.2]
      exact hmem
    · exact absurd (hc.state_eq.symm.trans (h.mirrored.sunk_state t' e' he')) hst
  · rintro ⟨rfl, htouched, hbare⟩
    have hlive : (z.fill bare).AssertedLive e.clause := ⟨t, key, e, he, htouched, rfl⟩
    rcases mem_fill.mp ((h.mirrored.mem_clauses _).mpr (Or.inr (Or.inl hlive))) with
      ⟨k, hk, e', he', hc⟩ | hmem
    · obtain ⟨rfl, rfl⟩ := h.indexed.asserts_unique he he' (congrArg Prod.fst hc).symm
      exact absurd hk hbare
    · exact hmem

/-- Only the facts of one live entity are changed. -/
theorem Sound.clause_ne (h : Sound z bare) {k : EntityType × String} (hne : k ≠ (t, key))
    {e' : Entity} (hk : z.entity? k.1 k.2 = some e') (he : z.entity? t key = some e) :
    e'.row ≠ e.row := by
  intro hrow
  obtain ⟨h1, h2⟩ := h.indexed.asserts_unique hk he hrow
  exact hne (Prod.ext h1 h2)

theorem Sound.setIlk {x : Extra} (h : Sound z bare) {p : Props} {idx : ℕ} {g : IlkGroup}
    (hg : getIlkIdx x p z.ilkGroup = some (idx, g)) : Sound (z.setIlkGroup g) bare :=
  ⟨h.indexed.setIlk hg, h.mirrored.of_mem rfl rfl fun _ => Iff.rfl, h.fresh, h.missing, h.nodup⟩

theorem Sound.refuse (h : Sound z bare) {us : List (UniqKey × String)} {m : Idxmap}
    (hm : insertIdxmap us z.entityIdxmap = (m, false)) : Sound (z.setIdxmap m) bare :=
  ⟨h.indexed.refuse hm, h.mirrored.of_mem rfl rfl fun _ => Iff.rfl, h.fresh, h.missing, h.nodup⟩

theorem Sound.move (h : Sound z bare) (hbare : (t, key) ∉ bare) :
    Sound (z.moveEntity2sink t key) bare := by
  cases he : z.entity? t key with
  | none => rwa [move_of_none he]
  | some e =>
      have hfill : (z.fill bare).entity? t key = some e := he
      have hentity : ∀ k ∈ bare, (z.moveEntity2sink t key).entity? k.1 k.2 = z.entity? k.1 k.2 := by
        intro k hk
        rw [entity?_moveEntity2sink, if_neg]
        rintro ⟨h1, h2⟩
        have heq : k = (t, key) := Prod.ext h1 h2
        exact hbare (heq ▸ hk)
      have hclauses : (z.moveEntity2sink t key).clauses =
          (e.mark .DEL).addClause (e.delClause z.clauses) := by
        simp only [moveEntity2sink, he]
      have hother : ∀ c, (∃ k ∈ bare, ∃ e', z.entity? k.1 k.2 = some e' ∧ e'.clause = c) →
          ¬ e.Asserts c := by
        rintro c ⟨k, hk, e', he', rfl⟩ hc
        refine h.clause_ne (fun heq => hbare (heq ▸ hk)) he' he ?_
        exact (congrArg Prod.fst hc.2).symm
      refine ⟨h.indexed.move t key, ?_, fun k hk => ?_, fun k hk e' he' => ?_, h.nodup⟩
      · have hmoved : Mirrored ((z.fill bare).moveEntity2sink t key) :=
          h.mirrored.move (h.indexed.setClauses _) t key
        refine hmoved.of_mem ?_ ?_ fun c => ?_
        · simp only [moveEntity2sink, he, hfill]
          rfl
        · simp only [moveEntity2sink, he, hfill]
          rfl
        · have hmove : ((z.fill bare).moveEntity2sink t key).clauses =
              (e.mark .DEL).addClause (e.delClause (z.fill bare).clauses) := by
            simp only [moveEntity2sink, hfill]
          have hsame : (∃ k ∈ bare, ∃ e', (z.moveEntity2sink t key).entity? k.1 k.2 = some e' ∧
              e'.clause = c) ↔ ∃ k ∈ bare, ∃ e', z.entity? k.1 k.2 = some e' ∧ e'.clause = c :=
            exists_congr fun k => and_congr_right fun hk => by rw [hentity k hk]
          have hsplit : ∀ a b c d : Prop, (a → ¬ b) → (a ∨ c ∧ ¬ b ∨ d ↔ (a ∨ c) ∧ ¬ b ∨ d) := by
            intro a b c d hab
            tauto
          rw [mem_fill, hsame, hclauses, hmove, Entity.mem_addClause, Entity.mem_addClause,
            Entity.mem_delClause, Entity.mem_delClause, mem_fill]
          exact hsplit _ _ _ _ (hother c)
      · rw [hentity k hk]
        exact h.fresh k hk
      · rw [hentity k hk] at he'
        rw [hclauses, Entity.mem_addClause, Entity.mem_delClause]
        rintro (⟨hmem, _⟩ | hdel)
        · exact h.missing k hk e' he' hmem
        · obtain ⟨e'', he'', _, hadd⟩ := h.fresh k hk
          obtain rfl := Option.some.inj (he'.symm.trans he'')
          have hstate : State.DEL = e'.state := hdel.state_eq
          rw [hadd] at hstate
          cases hstate

theorem entity?_place (z : Zoo) (e : Entity) (t : EntityType) (key : String) :
    (z.place e).entity? t key = if t = e.etype ∧ key = e.uuid then some e else z.entity? t key :=
  entity?_enter z e t key

theorem Sound.place (h : Sound z bare) {m : Idxmap} (hnew : z.entity? e.etype e.uuid = none)
    (hvalid : e.row.props.Valid) (hadd : e.state = .ADD)
    (hm : insertIdxmap e.uniq z.entityIdxmap = (m, true)) :
    Sound ((z.setIdxmap m).place e)
      (if e.touched then (e.etype, e.uuid) :: bare else bare) := by
  have hindexed : Indexed ((z.setIdxmap m).enter e) := h.indexed.enter hvalid hm
  have hold : ∀ k ∈ bare, ((z.setIdxmap m).place e).entity? k.1 k.2 = z.entity? k.1 k.2 := by
    intro k hk
    rw [entity?_place, if_neg]
    · rfl
    · rintro ⟨h1, h2⟩
      obtain ⟨e', he', _⟩ := h.fresh k hk
      rw [h1, h2, hnew] at he'
      cases he'
  have hself : ((z.setIdxmap m).place e).entity? e.etype e.uuid = some e := by
    rw [entity?_place, if_pos ⟨rfl, rfl⟩]
  have hnot : e.clause ∉ z.clauses := by
    intro hmem
    rcases (h.mirrored.mem_clauses _).mp (mem_fill.mpr (Or.inr hmem)) with
      htunnel | ⟨t', key', e', he', hc⟩ | ⟨t', e', he', hc⟩
    · exact hindexed.ne_tunnelRow hself (congrArg Prod.fst htunnel)
    · obtain ⟨rfl, rfl⟩ := h.indexed.keyed t' key' e' he'
      have hrow : e'.row = e.row := hc.row_eq
      have he'' : z.entity? e'.etype e'.uuid = some e' := he'
      rw [Entity.etype, Entity.uuid, hrow, ← Entity.etype, ← Entity.uuid, hnew] at he''
      cases he''
    · have hstate : e'.state = e.state := hc.state_eq
      rw [h.mirrored.sunk_state t' e' he', hadd] at hstate
      cases hstate
  have hfree : (e.etype, e.uuid) ∉ bare := by
    intro hmem
    obtain ⟨e', he', _⟩ := h.fresh _ hmem
    rw [hnew] at he'
    cases he'
  have hcases : ∀ k ∈ (if e.touched then (e.etype, e.uuid) :: bare else bare),
      k = (e.etype, e.uuid) ∧ e.touched ∨ k ∈ bare := by
    intro k hk
    split_ifs at hk with htouched
    · exact (List.mem_cons.mp hk).imp (fun heq => ⟨heq, htouched⟩) id
    · exact Or.inr hk
  refine ⟨hindexed.setClauses _, ?_, fun k hk => ?_, fun k hk e' he' => ?_, ?_⟩
  · have hentered : Mirrored (((z.fill bare).setIdxmap m).enter e) := h.mirrored.enter m hnew hadd
    refine hentered.of_mem rfl rfl fun c => ?_
    have hclauses : (((z.fill bare).setIdxmap m).enter e).clauses =
        e.addClause (z.fill bare).clauses := rfl
    have hplace : ((z.setIdxmap m).place e).clauses = z.clauses := rfl
    have hsame : (∃ k ∈ bare, ∃ e', ((z.setIdxmap m).place e).entity? k.1 k.2 = some e' ∧
        e'.clause = c) ↔ ∃ k ∈ bare, ∃ e', z.entity? k.1 k.2 = some e' ∧ e'.clause = c :=
      exists_congr fun k => and_congr_right fun hk => by rw [hold k hk]
    rw [hclauses, Entity.mem_addClause, mem_fill, mem_fill, hplace, Entity.Asserts]
    by_cases htouched : e.touched
    · rw [if_pos htouched]
      simp only [List.exists_mem_cons_iff, hself, hsame, Option.some.injEq, exists_eq_left',
        htouched,
        true_and]
      rw [or_assoc, or_comm]
    · rw [if_neg htouched, hsame]
      simp only [htouched, Bool.false_eq_true, false_and, or_false]
  · rcases hcases k hk with ⟨rfl, htouched⟩ | hk
    · exact ⟨e, hself, htouched, hadd⟩
    · rw [hold k hk]
      exact h.fresh k hk
  · rcases hcases k hk with ⟨rfl, _⟩ | hk
    · obtain rfl := Option.some.inj (hself.symm.trans he')
      exact hnot
    · rw [hold k hk] at he'
      exact h.missing k hk e' he'
  · split_ifs
    · exact List.nodup_cons.mpr ⟨hfree, h.nodup⟩
    · exact h.nodup

theorem populate_entity? (z : Zoo) (t t' : EntityType) (key key' : String) :
    (z.populate t key).entity? t' key' = z.entity? t' key' := by
  unfold populate
  split <;> rfl

theorem Sound.populate (h : Sound z bare) (hbare : (t, key) ∈ bare) :
    Sound (z.populate t key) (bare.erase (t, key)) := by
  obtain ⟨e, he, htouched, hadd⟩ := h.fresh _ hbare
  have hz : z.populate t key = { z with clauses := e.addClause z.clauses } := by
    simp only [Zoo.populate, he]
  rw [hz]
  have herase : ∀ k, k ∈ bare.erase (t, key) ↔ k ≠ (t, key) ∧ k ∈ bare :=
    fun k => h.nodup.mem_erase_iff
  refine ⟨h.indexed.setClauses _, ?_, fun k hk => h.fresh k ((herase k).mp hk).2,
    fun k hk e' he' hmem => ?_, h.nodup.erase _⟩
  · refine h.mirrored.of_mem rfl rfl fun c => ?_
    have hentity : ∀ k : EntityType × String,
        ({ z with clauses := e.addClause z.clauses } : Zoo).entity? k.1 k.2 = z.entity? k.1 k.2 :=
      fun _ => rfl
    rw [mem_fill, mem_fill, Entity.mem_addClause, Entity.Asserts]
    simp only [hentity, herase, htouched, true_and]
    constructor
    · rintro (⟨k, ⟨_, hk⟩, hc⟩ | hmem | hc)
      · exact Or.inl ⟨k, hk, hc⟩
      · exact Or.inr hmem
      · exact Or.inl ⟨_, hbare, e, he, hc⟩
    · rintro (⟨k, hk, e', he', hc⟩ | hmem)
      · by_cases hkey : k = (t, key)
        · subst hkey
          obtain rfl := Option.some.inj (he.symm.trans he')
          exact Or.inr (Or.inr hc)
        · exact Or.inl ⟨k, ⟨hkey, hk⟩, e', he', hc⟩
      · exact Or.inr (Or.inl hmem)
  · obtain ⟨hne, hk⟩ := (herase k).mp hk
    rcases Entity.mem_addClause.mp hmem with hmem | hc
    · exact h.missing k hk e' he' hmem
    · exact h.clause_ne hne he' he hc.row_eq.symm

theorem Sound.touch (h : Sound z bare) (t : EntityType) (key : String) :
    Sound (z.touch t key) bare := by
  cases he : z.entity? t key with
  | none =>
      have hsame : z.touch t key = z := by simp only [Zoo.touch, he]
      rwa [hsame]
  | some e =>
      by_cases htouched : e.touched
      · have hsame : z.touch t key = z := by simp only [Zoo.touch, he, htouched, if_true]
        rwa [hsame]
      · have hfill : (z.fill bare).entity? t key = some e := he
        have hne : ∀ k ∈ bare, k ≠ (t, key) := by
          rintro k hk rfl
          obtain ⟨e', he', htouched', _⟩ := h.fresh _ hk
          obtain rfl := Option.some.inj (he.symm.trans he')
          exact htouched htouched'
        have hentity : ∀ k ∈ bare, (z.touch t key).entity? k.1 k.2 = z.entity? k.1 k.2 := by
          intro k hk
          rw [entity?_touch, if_neg]
          rintro ⟨h1, h2⟩
          exact hne k hk (Prod.ext h1 h2)
        have hclauses : (z.touch t key).clauses = e.touch.addClause z.clauses := by
          simp only [Zoo.touch, he, htouched, Bool.false_eq_true, if_false]
        refine ⟨h.indexed.touch t key, ?_, fun k hk => ?_, fun k hk e' he' hmem => ?_, h.nodup⟩
        · refine (h.mirrored.touch t key).of_mem ?_ ?_ fun c => ?_
          · simp only [Zoo.touch, he, hfill, htouched, Bool.false_eq_true, if_false]
            rfl
          · simp only [Zoo.touch, he, hfill, htouched, Bool.false_eq_true, if_false]
            rfl
          · have htouch : ((z.fill bare).touch t key).clauses =
                e.touch.addClause (z.fill bare).clauses := by
              simp only [Zoo.touch, hfill, htouched, Bool.false_eq_true, if_false]
            have hsame : (∃ k ∈ bare, ∃ e', (z.touch t key).entity? k.1 k.2 = some e' ∧
                e'.clause = c) ↔ ∃ k ∈ bare, ∃ e', z.entity? k.1 k.2 = some e' ∧ e'.clause = c :=
              exists_congr fun k => and_congr_right fun hk => by rw [hentity k hk]
            rw [mem_fill, hsame, hclauses, htouch, Entity.mem_addClause, Entity.mem_addClause,
              mem_fill, or_assoc]
        · rw [hentity k hk]
          exact h.fresh k hk
        · rw [hentity k hk] at he'
          rw [hclauses] at hmem
          rcases Entity.mem_addClause.mp hmem with hmem | hc
          · exact h.missing k hk e' he' hmem
          · refine h.clause_ne (hne k hk) he' he ?_
            rw [← touch_row e]
            exact hc.row_eq.symm

theorem Sound.touchGateway (h : Sound z bare) (p : Props) : Sound (z.touchGateway p) bare := by
  unfold Zoo.touchGateway
  split
  · split
    · exact h
    · exact h.touch _ _
  · split_ifs
    · exact h.touch _ _
    · exact h
  · exact h

theorem Sound.sweep (h : Sound z []) : Sound z.sweepZoo [] where
  indexed := h.indexed.sweep
  mirrored := h.mirrored.sweep
  fresh _ hk := absurd hk List.not_mem_nil
  missing _ hk := absurd hk List.not_mem_nil
  nodup := List.nodup_nil

end sound

/-- No new entity becomes a known one. -/
def KeepsNew (z z' : Zoo) : Prop :=
  ∀ t key e e', z.entity? t key = some e → e.state = .ADD → z'.entity? t key = some e' →
    e'.state ≠ .NO

theorem keepsNew_of_same {z z' : Zoo} (h : ∀ t key, z'.entity? t key = z.entity? t key) :
    KeepsNew z z' := by
  intro t key e e' he hadd he'
  rw [h, he, Option.some.injEq] at he'
  rw [← he', hadd]
  intro hno
  cases hno

theorem keepsNew_move (z : Zoo) (t : EntityType) (key : String) :
    KeepsNew z (z.moveEntity2sink t key) := by
  intro t' key' e e' he hadd he'
  rw [entity?_moveEntity2sink] at he'
  split_ifs at he'
  exact keepsNew_of_same (fun _ _ => rfl) t' key' e e' he hadd he'

theorem KeepsNew.place {z z' : Zoo} (h : KeepsNew z z') {e : Entity} (hadd : e.state = .ADD) :
    KeepsNew z (z'.place e) := by
  intro t key e₁ e₂ he₁ hadd₁ he₂
  rw [entity?_place] at he₂
  split_ifs at he₂
  · rw [← Option.some.inj he₂, hadd]
    intro hno
    cases hno
  · exact h t key e₁ e₂ he₁ hadd₁ he₂

theorem Entity.touch_add {e : Entity} (h : e.state = .ADD) : e.touch.state = .ADD := by
  unfold Entity.touch
  split_ifs
  · exact h
  · rfl

theorem Entity.touch_of_touched {e : Entity} (h : e.touched) : e.touch = e := if_pos h

theorem keepsNew_of_touch {z z' : Zoo} (h : ∀ t key e, z'.entity? t key = some e →
    ∃ e₁, z.entity? t key = some e₁ ∧ (e = e₁ ∨ e = e₁.touch)) : KeepsNew z z' := by
  intro t key e e' he hadd he' hno
  obtain ⟨e₁, he₁, hcases⟩ := h t key e' he'
  obtain rfl := Option.some.inj (he.symm.trans he₁)
  rcases hcases with rfl | rfl
  · rw [hadd] at hno
    cases hno
  · rw [Entity.touch_add hadd] at hno
    cases hno

theorem keepsNew_touch (z : Zoo) (t : EntityType) (key : String) : KeepsNew z (z.touch t key) :=
  keepsNew_of_touch fun _ _ _ => entity?_of_touch

end Zoo

/-! ### One step -/

namespace SharedZoo

open Zoo

section step
variable {x : Extra} {s s' : SharedZoo} {a : ZooAct}

/-- What holds in every state of a run.  While the lock is held for a sweep, an entity that was
touched when the flows were built has not changed. -/
structure Inv (s : SharedZoo) : Prop where
  sound : s.zoo.Sound s.bare
  made : ∀ e ∈ s.made, e.row.props.Valid ∧ e.state = .ADD
  built : ∀ b ∈ s.built, b.1.Sound b.2 ∧ s.bare ⊆ b.2 ∧
    ∀ t key e, s.zoo.entity? t key = some e →
      ∃ e₀, b.1.entity? t key = some e₀ ∧ e₀.row = e.row ∧ (e₀.touched → e₀ = e)

theorem inv_start : Inv start where
  sound := sound_empty
  made _ he := absurd he List.not_mem_nil
  built _ hb := by cases hb

/-- A step that takes the lock. -/
theorem Inv.of_free {z : Zoo} {made : List Entity} {bare : List (EntityType × String)}
    {gateways : List Props} {built : Option (Zoo × List (EntityType × String))} {raised : Bool}
    (hsound : z.Sound bare) (hmade : ∀ e ∈ made, e.row.props.Valid ∧ e.state = .ADD)
    (hbuilt : ¬ built.isSome) : Inv ⟨z, made, bare, gateways, built, raised⟩ where
  sound := hsound
  made := hmade
  built := by
    intro b hb
    have hsome : built = some b := hb
    rw [hsome] at hbuilt
    exact absurd rfl hbuilt

theorem Inv.construct (h : Inv s) (hbuilt : ¬ s.built.isSome) (a : Args) :
    Inv (s.construct x a) := by
  unfold SharedZoo.construct
  split
  · split
    · exact h
    · next p hp =>
        split
        · exact h
        · next idx g hg =>
            refine .of_free (h.sound.setIlk hg) (fun e he => ?_) hbuilt
            rcases List.mem_cons.mp he with rfl | he
            · exact ⟨Args.construct_valid hp, rfl⟩
            · exact h.made e he
  · exact h

theorem Inv.insert (h : Inv s) (hbuilt : ¬ s.built.isSome) {e : Entity} (he : e ∈ s.made) :
    Inv (s.insert x e) := by
  have hrest : ∀ e' ∈ s.made.erase e, e'.row.props.Valid ∧ e'.state = .ADD :=
    fun e' he' => h.made e' (List.mem_of_mem_erase he')
  rw [SharedZoo.insert]
  by_cases hbare : (e.etype, e.uuid) ∈ s.bare
  · rw [if_pos hbare]
    exact ⟨h.sound, h.made, h.built⟩
  · rw [if_neg hbare]
    have hmoved : (s.zoo.moveEntity2sink e.etype e.uuid).Sound s.bare := h.sound.move hbare
    have hnew : (s.zoo.moveEntity2sink e.etype e.uuid).entity? e.etype e.uuid = none := by
      rw [entity?_moveEntity2sink, if_pos ⟨rfl, rfl⟩]
    obtain ⟨hvalid, hadd⟩ := h.made e he
    dsimp only
    split
    · next m hm => exact .of_free (hmoved.place hnew hvalid hadd hm) hrest hbuilt
    · next m hm => exact .of_free (hmoved.refuse hm) hrest hbuilt

theorem Inv.populate (h : Inv s) {t : EntityType} {key : String} (hbare : (t, key) ∈ s.bare) :
    Inv { s with zoo := s.zoo.populate t key, bare := s.bare.erase (t, key) } where
  sound := h.sound.populate hbare
  made := h.made
  built := by
    intro b hb
    obtain ⟨hsound, hsub, hold⟩ := h.built b hb
    refine ⟨hsound, fun k hk => hsub (List.mem_of_mem_erase hk), fun t' key' e he => ?_⟩
    rw [populate_entity?] at he
    exact hold t' key' e he

theorem Inv.touchGateway (h : Inv s) (p : Props) (gateways : List Props) :
    Inv { s with zoo := s.zoo.touchGateway p, gateways := gateways } where
  sound := h.sound.touchGateway p
  made := h.made
  built := by
    intro b hb
    obtain ⟨hsound, hsub, hold⟩ := h.built b hb
    refine ⟨hsound, hsub, fun t key e he => ?_⟩
    obtain ⟨e₁, he₁, hcases⟩ := entity?_of_touchGateway he
    obtain ⟨e₀, he₀, hrow, hsame⟩ := hold t key e₁ he₁
    rcases hcases with rfl | rfl
    · exact ⟨e₀, he₀, hrow, hsame⟩
    · refine ⟨e₀, he₀, hrow.trans (touch_row e₁).symm, fun htouched => ?_⟩
      obtain rfl := hsame htouched
      exact (Entity.touch_of_touched htouched).symm

/-- A sweep that does not fail finds every entity populated. -/
theorem Inv.bare_eq_nil (h : Inv s)
    (hno : ¬ ∃ e ∈ s.zoo.live, e.state = .ADD ∧ (e.etype, e.uuid) ∈ s.bare) : s.bare = [] := by
  rw [List.eq_nil_iff_forall_not_mem]
  intro k hk
  obtain ⟨e, he, _, hadd⟩ := h.sound.fresh k hk
  obtain ⟨ht, hkey⟩ := h.sound.indexed.keyed k.1 k.2 e he
  refine hno ⟨e, mem_live.mpr ⟨k.1, k.2, he⟩, hadd, ?_⟩
  rw [ht, hkey]
  exact hk

theorem Inv.sweepZoo (h : Inv s) : Inv s.sweepZoo := by
  unfold SharedZoo.sweepZoo
  split_ifs with hfails
  · exact ⟨h.sound, h.made, h.built⟩
  · have hnil := h.bare_eq_nil hfails
    have hsound := h.sound
    rw [hnil] at hsound
    refine .of_free ?_ h.made (by simp)
    rw [hnil]
    exact hsound.sweep

theorem step_eq_some : SharedZoo.step x s a = some s' ↔ s.raised = false ∧ s.act x a = some s' := by
  unfold SharedZoo.step
  cases s.raised <;> simp

theorem Inv.step (h : Inv s) (hs : SharedZoo.step x s a = some s') : Inv s' := by
  obtain ⟨_, hs⟩ := step_eq_some.mp hs
  unfold act at hs
  cases a with
  | construct a =>
      dsimp only at hs
      split_ifs at hs with hbuilt
      obtain rfl := Option.some.inj hs
      exact h.construct hbuilt a
  | insert e =>
      dsimp only at hs
      split_ifs at hs with hbuilt
      obtain ⟨hbuilt, he⟩ := not_or.mp hbuilt
      obtain rfl := Option.some.inj hs
      exact h.insert hbuilt (not_not.mp he)
  | populate t key =>
      dsimp only at hs
      split_ifs at hs with hbare
      obtain rfl := Option.some.inj hs
      exact h.populate hbare
  | touchGateway p =>
      dsimp only at hs
      split_ifs at hs
      obtain rfl := Option.some.inj hs
      exact h.touchGateway p _
  | touch t key =>
      dsimp only at hs
      split_ifs at hs with hbuilt
      obtain rfl := Option.some.inj hs
      exact .of_free (h.sound.touch t key) h.made hbuilt
  | moveEntity2sink t key =>
      dsimp only at hs
      split_ifs at hs with hbuilt
      obtain rfl := Option.some.inj hs
      unfold SharedZoo.moveEntity2sink
      split_ifs with hbare
      · exact ⟨h.sound, h.made, h.built⟩
      · exact .of_free (h.sound.move hbare) h.made hbuilt
  | buildFlows =>
      dsimp only at hs
      split_ifs at hs
      obtain rfl := Option.some.inj hs
      refine ⟨h.sound, h.made, fun b hb => ?_⟩
      obtain rfl := Option.some.inj hb
      exact ⟨h.sound, List.Subset.refl _, fun t key e he => ⟨e, he, rfl, fun _ => rfl⟩⟩
  | sweepZoo =>
      dsimp only at hs
      split_ifs at hs
      obtain rfl := Option.some.inj hs
      exact h.sweepZoo

/-! ### New entities are seen -/

/-- A step that does not fail and makes no new entity a known one. -/
theorem newSeen_of_keepsNew (hs : SharedZoo.step x s a = some s') (hraised : s'.raised = false)
    (hkeeps : KeepsNew s.zoo s'.zoo) : NewSeen x s a := by
  intro s₁ hs₁
  obtain rfl := Option.some.inj (hs.symm.trans hs₁)
  exact ⟨hraised, fun t key e e' he hadd he' hno => absurd hno (hkeeps t key e e' he hadd he')⟩

/-- A step that fails. -/
theorem not_newSeen_of_raised (hs : SharedZoo.step x s a = some s') (hraised : s'.raised = true) :
    ¬ NewSeen x s a := by
  intro h
  have hfalse := (h s' hs).1
  rw [hraised] at hfalse
  cases hfalse

/-- The flows have been built with the clause of a new entity iff it was touched and populated. -/
theorem Inv.clause_mem_iff (h : Inv s) {b : Zoo × List (EntityType × String)} (hb : b ∈ s.built)
    {t : EntityType} {key : String} {e : Entity} (he : s.zoo.entity? t key = some e)
    (hadd : e.state = .ADD) : e.clause ∈ b.1.clauses ↔ Shown b t key := by
  obtain ⟨hsound, _, hold⟩ := h.built b hb
  obtain ⟨e₀, he₀, hrow, hsame⟩ := hold t key e he
  have hclause : e.clause = (e₀.row, State.ADD) := by
    rw [Entity.clause, hadd, hrow]
  rw [hclause, hsound.mem_clauses he₀ (by decide), Shown, he₀]
  simp only [Option.mem_def, Option.some.injEq, exists_eq_left']
  constructor
  · rintro ⟨_, hshown⟩
    exact hshown
  · intro hshown
    refine ⟨?_, hshown⟩
    rw [hsame hshown.1, hadd]

theorem Inv.newSeen_sweep (h : Inv s) (hbuilt : s.built.isSome)
    (hs : SharedZoo.step x s .sweepZoo = some s.sweepZoo) :
    NewSeen x s .sweepZoo ↔
      ∀ b ∈ s.built, ∀ e ∈ s.zoo.live, e.state = .ADD → Shown b e.etype e.uuid := by
  have hkeyed : ∀ e ∈ s.zoo.live, s.zoo.entity? e.etype e.uuid = some e := by
    intro e he
    obtain ⟨t, key, he⟩ := mem_live.mp he
    obtain ⟨rfl, rfl⟩ := h.sound.indexed.keyed t key e he
    exact he
  have hraised : s.raised = false := (step_eq_some.mp hs).1
  constructor
  · intro hseen b hb e he hadd
    obtain ⟨hok, hmarked⟩ := hseen _ hs
    have hfails : ¬ ∃ e ∈ s.zoo.live, e.state = .ADD ∧ (e.etype, e.uuid) ∈ s.bare := by
      intro hfails
      rw [SharedZoo.sweepZoo, if_pos hfails] at hok
      cases hok
    have hswept : s.sweepZoo.zoo.entity? e.etype e.uuid = some (swept e) := by
      rw [SharedZoo.sweepZoo, if_neg hfails, entity?_sweepZoo, hkeyed e he, Option.map_some]
    obtain ⟨_, b', hb', hmem⟩ := hmarked e.etype e.uuid e (swept e) (hkeyed e he) hadd hswept
      (by rw [swept_of_add hadd]; rfl)
    obtain rfl := Option.some.inj (hb.symm.trans hb')
    exact (h.clause_mem_iff hb (hkeyed e he) hadd).mp hmem
  · intro hshown s₁ hs₁
    obtain rfl := Option.some.inj (hs.symm.trans hs₁)
    obtain ⟨b, hb⟩ := Option.isSome_iff_exists.mp hbuilt
    refine ⟨?_, fun t key e e' he hadd _ _ => ⟨rfl, b, hb, ?_⟩⟩
    · -- what is bare now has been bare when the flows were built
      have hfails : ¬ ∃ e ∈ s.zoo.live, e.state = .ADD ∧ (e.etype, e.uuid) ∈ s.bare := by
        rintro ⟨e, he, hadd, hbare⟩
        exact (hshown b hb e he hadd).2 ((h.built b hb).2.1 hbare)
      rw [SharedZoo.sweepZoo, if_neg hfails]
      exact hraised
    · obtain ⟨rfl, rfl⟩ := h.sound.indexed.keyed t key e he
      exact (h.clause_mem_iff hb he hadd).mpr (hshown b hb e (mem_live.mpr ⟨_, _, he⟩) hadd)

theorem keepsNew_insert {e : Entity} (hadd : e.state = .ADD) (s : SharedZoo) :
    KeepsNew s.zoo (s.insert x e).zoo := by
  rw [SharedZoo.insert]
  split_ifs
  · exact keepsNew_of_same fun _ _ => rfl
  all_goals
    dsimp only
    split
    · exact (keepsNew_move s.zoo _ _).place hadd
    · exact keepsNew_move s.zoo _ _

theorem raised_insert {e : Entity} (hraised : s.raised = false) :
    (s.insert x e).raised = true ↔ (e.etype, e.uuid) ∈ s.bare := by
  rw [SharedZoo.insert]
  by_cases hbare : (e.etype, e.uuid) ∈ s.bare
  · rw [if_pos hbare]
    exact iff_of_true rfl hbare
  · rw [if_neg hbare]
    dsimp only
    split <;> simp [hraised, hbare]

/-- A step that may meet an entity that is not populated. -/
theorem newSeen_iff_not_mem {k : EntityType × String} (hs : SharedZoo.step x s a = some s')
    (hkeeps : KeepsNew s.zoo s'.zoo) (hraised : s'.raised = true ↔ k ∈ s.bare) :
    NewSeen x s a ↔ k ∉ s.bare := by
  by_cases hk : k ∈ s.bare
  · exact iff_of_false (not_newSeen_of_raised hs (hraised.mpr hk)) (not_not_intro hk)
  · refine iff_of_true (newSeen_of_keepsNew hs ?_ hkeeps) hk
    exact Bool.eq_false_iff.mpr (mt hraised.mp hk)

/-- **One step**: it sees every new entity iff it is in order. -/
theorem Inv.newSeen_iff_inOrder (h : Inv s) (a : ZooAct) : NewSeen x s a ↔ InOrder x s a := by
  cases hs : SharedZoo.step x s a with
  | none =>
      refine iff_of_true (fun s' hs' => ?_) (fun hsome => ?_)
      · rw [hs] at hs'
        cases hs'
      · rw [hs] at hsome
        cases hsome
  | some s' =>
      have hcond : ∀ p : Prop, ((SharedZoo.step x s a).isSome → p) ↔ p := by
        intro p
        rw [hs]
        exact forall_prop_of_true rfl
      obtain ⟨hraised, hact⟩ := step_eq_some.mp hs
      unfold act at hact
      cases a with
      | construct a =>
          dsimp only at hact
          split_ifs at hact
          obtain rfl := Option.some.inj hact
          refine iff_of_true (newSeen_of_keepsNew hs ?_ (keepsNew_of_same fun t key => ?_))
            fun _ => trivial
          · unfold SharedZoo.construct
            repeat' split
            all_goals exact hraised
          · unfold SharedZoo.construct
            repeat' split
            all_goals rfl
      | insert e =>
          dsimp only at hact
          split_ifs at hact with hbuilt
          obtain rfl := Option.some.inj hact
          have he : e ∈ s.made := not_not.mp (not_or.mp hbuilt).2
          have hadd : e.state = .ADD := (h.made e he).2
          exact (newSeen_iff_not_mem hs (keepsNew_insert hadd s) (raised_insert hraised)).trans
            (hcond _).symm
      | populate t key =>
          dsimp only at hact
          split_ifs at hact
          obtain rfl := Option.some.inj hact
          exact iff_of_true (newSeen_of_keepsNew hs hraised
            (keepsNew_of_same fun t' key' => populate_entity? _ _ _ _ _)) fun _ => trivial
      | touchGateway p =>
          dsimp only at hact
          split_ifs at hact
          obtain rfl := Option.some.inj hact
          exact iff_of_true (newSeen_of_keepsNew hs hraised
            (keepsNew_of_touch fun _ _ _ => entity?_of_touchGateway)) fun _ => trivial
      | touch t key =>
          dsimp only at hact
          split_ifs at hact
          obtain rfl := Option.some.inj hact
          exact iff_of_true (newSeen_of_keepsNew hs hraised (keepsNew_touch s.zoo t key))
            fun _ => trivial
      | moveEntity2sink t key =>
          dsimp only at hact
          split_ifs at hact
          obtain rfl := Option.some.inj hact
          refine (newSeen_iff_not_mem hs ?_ ?_).trans (hcond _).symm
          · unfold SharedZoo.moveEntity2sink
            split_ifs
            · exact keepsNew_of_same fun _ _ => rfl
            · exact keepsNew_move s.zoo t key
          · unfold SharedZoo.moveEntity2sink
            split_ifs with hbare <;> simp [hraised, hbare]
      | buildFlows =>
          dsimp only at hact
          split_ifs at hact
          obtain rfl := Option.some.inj hact
          exact iff_of_true (newSeen_of_keepsNew hs hraised (keepsNew_of_same fun _ _ => rfl))
            fun _ => trivial
      | sweepZoo =>
          dsimp only at hact
          split_ifs at hact with hbuilt
          obtain rfl := Option.some.inj hact
          exact (h.newSeen_sweep hbuilt hs).trans (hcond _).symm

end step

/-! ### Runs -/

/-- **New entities are seen**: in every interleaving no step fails for missing clause data, and an
entity turns from new to known only in a sweep whose flows have been built with its clause, iff no
entity is moved into the sink before it is populated and every sweep finds the new entities touched
and populated when the flows were built. -/
theorem newSeen_iff (x : Extra) (as : List ZooAct) :
    StepMachine.Meets (step x) (NewSeen x) start as ↔
      StepMachine.Meets (step x) (InOrder x) start as :=
  StepMachine.meets_congr (step x) (fun _ _ _ h hs => h.step hs)
    (fun _ a h => h.newSeen_iff_inOrder a) inv_start as

/-- A thread adds a network.  The flows are built before it has asserted the clause, and the sweep
comes after that. -/
def unseenNetwork : List ZooAct :=
  let ls : Entity := ⟨⟨.LS ⟨"ls1", some "1"⟩, 0⟩, .ADD, true⟩
  [.construct (.LS "ls1" (some "1")), .insert ls, .buildFlows, .populate .LS "ls1", .sweepZoo]

set_option maxRecDepth 100000 in
/-- The network is known, and no flows have been built for it. -/
theorem newSeen_unseenNetwork : ¬ ∀ (x : Extra) (as : List ZooAct),
    StepMachine.Meets (step x) (NewSeen x) start as := by
  intro h
  have hall : ∀ s a, Inv s → (NewSeen (.node false "hv1") s a ↔ InOrder (.node false "hv1") s a) :=
    fun _ a hs => hs.newSeen_iff_inOrder a
  have horder : StepMachine.Meets (step (.node false "hv1")) (InOrder (.node false "hv1")) start
      unseenNetwork :=
    (StepMachine.meets_congr _ (fun _ _ _ hs hstep => hs.step hstep) hall inv_start _).mp (h _ _)
  revert horder
  decide +kernel

/-- A sweep that comes before the clause raises. -/
example : (StepMachine.run (step (.node false "hv1")) start
    (unseenNetwork.take 3 ++ [.sweepZoo])).map raised = some true := by
  decide +kernel

end SharedZoo

end TupleNet
