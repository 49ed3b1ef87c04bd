import TupleNet.Lib.Machine
import TupleNet.Zoo.Mirror
import TupleNet.Zoo.Touched

/-! # Rounds

A round is what `update_logical_view` does when the zoo has changed: entities are added, moved into
the sink and touched, the rows of the flow rules are computed from the clauses, the zoo is swept and
the flows are committed, first the deletes and then the adds.

Between two rounds all clauses have state `NO` (`Settled`).  During the changes of a round a clause
that was there stays or turns into a dying one, and no other clause has state `NO` (`Evolved`); the
sweep leaves the rows of the clauses that are not dying.  With `commit_exact_iff` this gives the
exact condition under which incremental maintenance equals a build from scratch, for one round
(`round_exact_iff`) and for runs (`maintained_iff`). -/

namespace TupleNet

open Datalog KeyedTable StepMachine

namespace Zoo

/-! ### Changes -/

/-- What happens to the zoo between two computations. -/
inductive Change where
  | addEntity (a : Args)
  | moveEntity2sink (t : EntityType) (key : String)
  | moveAllEntity2sink (types exclude : List EntityType)
  | touchEntity (t : EntityType) (fn : Dict String Entity → List String)

/-- The call on the zoo. -/
def Change.op : Change → Op
  | addEntity a => .addEntity a
  | moveEntity2sink t key => .moveEntity2sink t key
  | moveAllEntity2sink types exclude => .moveAllEntity2sink types exclude
  | touchEntity t fn => .touchEntity t fn

/-- The zoo after some changes. -/
def changed (x : Extra) (cs : List Change) (z : Zoo) : Zoo :=
  cs.foldl (fun z c => c.op.apply x z) z

theorem Reachable.changed {x : Extra} {z : Zoo} (h : Reachable x z) (cs : List Change) :
    Reachable x (z.changed x cs) := h.foldl (fun _ c h => h.apply c.op) cs

theorem foldl_preserves {I : Zoo → Prop} {ι : Type} {f : Zoo → ι → Zoo}
    (hf : ∀ z i, I z → I (f z i)) (l : List ι) {z : Zoo} (hz : I z) : I (l.foldl f z) := by
  induction l generalizing z with
  | nil => exact hz
  | cons i l ih => exact ih (hf z i hz)

/-- What additions, moves and touches keep, the changes of a round keep. -/
theorem Preserved.changed {x : Extra} {I : Zoo → Prop} (h : Preserved x I) (cs : List Change)
    {z : Zoo} (hz : I z) : I (z.changed x cs) := by
  refine foldl_preserves (fun z c hz => ?_) cs hz
  cases c with
  | addEntity a => exact h.addEntity hz a
  | moveEntity2sink t key => exact h.move z t key hz
  | moveAllEntity2sink types exclude =>
      exact foldl_preserves (fun z k hz => h.move z k.1 k.2 hz) _ hz
  | touchEntity t fn => exact foldl_preserves (fun z key hz => h.touch z t key hz) _ hz

/-! ### Clauses under changes -/

section clauses
variable {z : Zoo} {t : EntityType} {key : String}

theorem mem_clauses_move {e : Entity} (he : z.entity? t key = some e) (c : Row × State) :
    c ∈ (z.moveEntity2sink t key).clauses ↔
      (c ∈ z.clauses ∧ ¬ e.Asserts c) ∨ (e.mark .DEL).Asserts c := by
  have hclauses : (z.moveEntity2sink t key).clauses =
      (e.mark .DEL).addClause (e.delClause z.clauses) := by
    simp only [moveEntity2sink, he]
  rw [hclauses, Entity.mem_addClause, Entity.mem_delClause]

/-- A touch adds nothing but a new clause. -/
theorem mem_clauses_touch (c : Row × State) :
    (c ∈ z.clauses → c ∈ (z.touch t key).clauses) ∧
      (c ∈ (z.touch t key).clauses → c ∈ z.clauses ∨ c.2 = .ADD) := by
  unfold touch
  split
  · exact ⟨id, Or.inl⟩
  · next e _ =>
      split_ifs with htouched
      · exact ⟨id, Or.inl⟩
      · simp only [Entity.mem_addClause]
        refine ⟨Or.inl, fun h => h.imp_right fun hc => ?_⟩
        rw [← hc.state_eq, Entity.touch, if_neg htouched]

end clauses

/-- How the clauses can differ from those before the round. -/
structure Evolved (z₀ z : Zoo) : Prop where
  known : ∀ r, (r, State.NO) ∈ z.clauses → (r, State.NO) ∈ z₀.clauses
  before : ∀ r, (r, State.NO) ∈ z₀.clauses → (r, State.NO) ∈ z.clauses ∨ (r, State.DEL) ∈ z.clauses

theorem Evolved.refl (z : Zoo) : Evolved z z := ⟨fun _ h => h, fun _ h => Or.inl h⟩

/-- New clauses make no difference. -/
theorem Evolved.of_new {z₀ z z' : Zoo} (h : Evolved z₀ z)
    (hsub : ∀ c, c ∈ z.clauses → c ∈ z'.clauses)
    (hnew : ∀ c, c ∈ z'.clauses → c ∈ z.clauses ∨ c.2 = .ADD) : Evolved z₀ z' where
  known r hr := (hnew _ hr).elim (h.known r) (fun hadd => by cases hadd)
  before r hr := (h.before r hr).imp (hsub _) (hsub _)

theorem Evolved.move {z₀ z : Zoo} (h : Evolved z₀ z) (hz : Mirrored z) (t : EntityType)
    (key : String) : Evolved z₀ (z.moveEntity2sink t key) := by
  cases he : z.entity? t key with
  | none => rwa [move_of_none he]
  | some e =>
      refine ⟨fun r hr => ?_, fun r hr => ?_⟩
      · rw [mem_clauses_move he] at hr
        rcases hr with ⟨hr, _⟩ | hr
        · exact h.known r hr
        · cases hr.state_eq
      · rw [mem_clauses_move he, mem_clauses_move he]
        rcases h.before r hr with hno | hdel
        · by_cases hc : e.Asserts (r, .NO)
          · refine Or.inr (Or.inr ⟨hc.1, ?_⟩)
            rw [Entity.clause, Entity.mark, hc.row_eq]
          · exact Or.inl (Or.inl ⟨hno, hc⟩)
        · refine Or.inr (Or.inl ⟨hdel, fun hc => ?_⟩)
          exact hz.live_state t key e he hc.state_eq

theorem evolved_preserved (x : Extra) (z₀ : Zoo) :
    Preserved x (fun z => (Indexed z ∧ Mirrored z) ∧ Evolved z₀ z) where
  ilk z p idx g h hg := ⟨(mirrored_invariant x).ilk z p idx g h.1 hg, h.2.known, h.2.before⟩
  move z t key h := ⟨(mirrored_invariant x).move z t key h.1, h.2.move h.1.2 t key⟩
  refuse z us m h hm := ⟨(mirrored_invariant x).refuse z us m h.1 hm, h.2.known, h.2.before⟩
  enter z e m h hnew hvalid hstate hm := by
    refine ⟨(mirrored_invariant x).enter z e m h.1 hnew hvalid hstate hm,
      h.2.of_new (fun c hc => Entity.mem_addClause.mpr (Or.inl hc)) fun c hc => ?_⟩
    exact (Entity.mem_addClause.mp hc).imp_right fun hc => hc.state_eq.symm.trans hstate
  touch z t key h := ⟨(mirrored_invariant x).touch z t key h.1,
    h.2.of_new (fun c => (mem_clauses_touch c).1) (fun c => (mem_clauses_touch c).2)⟩

/-! ### Rows -/

/-- The row of a clause. -/
def HasRow (z : Zoo) (r : Row) : Prop := ∃ s, (r, s) ∈ z.clauses

/-- The rows are those of the touched entities, where nothing waits in the sink. -/
theorem Mirrored.hasRow_iff {z : Zoo} (h : Mirrored z) (hsink : ∀ t, z.entitySinkSet t = [])
    (r : Row) : z.HasRow r ↔
      r = tunnelRow ∨ ∃ t key e, z.entity? t key = some e ∧ e.touched ∧ e.row = r := by
  constructor
  · rintro ⟨s, hs⟩
    rcases (h.mem_clauses _).mp hs with heq | ⟨t, key, e, he, hc⟩ | ⟨t, e, he, _⟩
    · exact Or.inl (Prod.mk.inj heq).1
    · exact Or.inr ⟨t, key, e, he, hc.1, congrArg Prod.fst hc.2⟩
    · rw [hsink] at he
      cases he
  · rintro (rfl | ⟨t, key, e, he, htouched, rfl⟩)
    · exact ⟨.NO, (h.mem_clauses _).mpr (Or.inl rfl)⟩
    · exact ⟨e.state, (h.mem_clauses _).mpr (Or.inr (Or.inl ⟨t, key, e, he, htouched, rfl⟩))⟩

/-- An entity with these properties is live. -/
def Lives (z : Zoo) (p : Props) : Prop := ∃ t key e, z.entity? t key = some e ∧ e.row.props = p

/-- A zoo between two rounds. -/
structure Settled (x : Extra) (z : Zoo) : Prop where
  reachable : Reachable x z
  known : ∀ c ∈ z.clauses, c.2 = .NO
  sink : ∀ t, z.entitySinkSet t = []

theorem settled_empty (x : Extra) : Settled x empty where
  reachable := .empty
  known c hc := by rw [List.mem_singleton.mp hc]
  sink _ := rfl

theorem mem_clauses_sweep_iff {z : Zoo} (h : Mirrored z) (r : Row) (s : State) :
    (r, s) ∈ z.sweepZoo.clauses ↔ s = .NO ∧ ∃ s', s'.Live ∧ (r, s') ∈ z.clauses := by
  constructor
  · intro hc
    rcases (h.sweep.mem_clauses _).mp hc with heq | ⟨t, key, e', he', hc⟩ | ⟨t, e, he, _⟩
    · obtain ⟨rfl, rfl⟩ := Prod.mk.inj heq
      exact ⟨rfl, .NO, trivial, (h.mem_clauses _).mpr (Or.inl rfl)⟩
    · rw [entity?_sweepZoo] at he'
      obtain ⟨e, he, rfl⟩ := Option.map_eq_some_iff.mp he'
      have hstate := h.live_state t key e he
      have htouched : e.touched := by
        have := hc.1
        unfold swept at this
        split_ifs at this <;> exact this
      refine ⟨hc.state_eq.symm.trans (swept_state hstate), e.state, (State.live_iff _).mpr hstate,
        (h.mem_clauses _).mpr (Or.inr (Or.inl ⟨t, key, e, he, htouched, ?_⟩))⟩
      rw [Entity.clause, ← swept_row e, hc.row_eq]
    · cases he
  · rintro ⟨rfl, s', hlive, hc⟩
    rw [h.sweep.mem_clauses]
    rcases (h.mem_clauses _).mp hc with heq | ⟨t, key, e, he, hc⟩ | ⟨t, e, he, hc⟩
    · exact Or.inl (by rw [(Prod.mk.inj heq).1])
    · refine Or.inr (Or.inl ⟨t, key, swept e, by rw [entity?_sweepZoo, he]; rfl, ?_, ?_⟩)
      · have := hc.1
        unfold swept
        split_ifs <;> exact this
      · rw [Entity.clause, swept_row, swept_state (h.live_state t key e he), hc.row_eq]
    · exact absurd (hc.state_eq.symm.trans (h.sunk_state t e he)) ((State.live_iff s').mp hlive)

/-- A row other than that of the tunnel belongs to a live entity. -/
theorem Settled.lives_of_hasRow {x : Extra} {z : Zoo} (h : Settled x z) {r : Row} (hr : z.HasRow r)
    (hne : r.props ≠ tunnelRow.props) : z.Lives r.props := by
  rcases (h.reachable.mirrored.hasRow_iff h.sink r).mp hr with rfl | ⟨t, key, e, he, _, hrow⟩
  · exact absurd rfl hne
  · exact ⟨t, key, e, he, by rw [hrow]⟩

/-- A live entity that is touched in any case has a row. -/
theorem Settled.hasRow_of_lives {x : Extra} {z : Zoo} (h : Settled x z) {p : Props}
    (hp : z.Lives p) (hown : shouldTouch x p) : ∃ r, z.HasRow r ∧ r.props = p := by
  obtain ⟨t, key, e, he, rfl⟩ := hp
  have htouched := h.reachable.touched.own t key e he hown
  exact ⟨e.row, (h.reachable.mirrored.hasRow_iff h.sink e.row).mpr
    (Or.inr ⟨t, key, e, he, htouched, rfl⟩), rfl⟩

/-- A live chassis on which a live router is pinned has a row. -/
theorem Settled.hasRow_of_pinned {x : Extra} {z : Zoo} (h : Settled x z) {lr : Lr} {c : Chassis}
    (hlr : z.Lives (.LR lr)) (hc : z.Lives (.chassis c)) (hpin : lr.chassis = some c.uuid) :
    ∃ r, z.HasRow r ∧ r.props = .chassis c := by
  obtain ⟨t, key, e, he, hlr⟩ := hlr
  obtain ⟨t', key', e', he', hc⟩ := hc
  have hidx := h.reachable.indexed
  obtain ⟨rfl, rfl⟩ : t = .LR ∧ key = lr.uuid := by
    obtain ⟨ht, hkey⟩ := hidx.keyed t key e he
    rw [← ht, ← hkey, Entity.etype, Entity.uuid, hlr]
    exact ⟨rfl, rfl⟩
  obtain ⟨rfl, rfl⟩ : t' = .chassis ∧ key' = c.uuid := by
    obtain ⟨ht, hkey⟩ := hidx.keyed t' key' e' he'
    rw [← ht, ← hkey, Entity.etype, Entity.uuid, hc]
    exact ⟨rfl, rfl⟩
  have hpinned : pinnedTo e.row.props = some c.uuid := by rw [hlr]; exact hpin
  have htouched := h.reachable.touched.pinned _ e _ e' he hpinned he'
  exact ⟨e'.row, (h.reachable.mirrored.hasRow_iff h.sink e'.row).mpr
    (Or.inr ⟨_, _, e', he', htouched, rfl⟩), hc⟩

theorem Reachable.settled_sweep {x : Extra} {z : Zoo} (h : Reachable x z) :
    Settled x z.sweepZoo where
  reachable := h.sweepZoo
  known c hc := ((mem_clauses_sweep_iff h.mirrored c.1 c.2).mp hc).1
  sink _ := rfl

section changed
variable {x : Extra} {z : Zoo} (hz : Settled x z) (cs : List Change)
include hz

theorem Settled.evolved : Evolved z (z.changed x cs) :=
  ((evolved_preserved x z).changed cs
    ⟨⟨hz.reachable.indexed, hz.reachable.mirrored⟩, Evolved.refl z⟩).2

/-- A clause in state `NO` was there before. -/
theorem Settled.hasRow_of_known {r : Row} (h : (r, State.NO) ∈ (z.changed x cs).clauses) :
    z.HasRow r := ⟨.NO, (hz.evolved cs).known r h⟩

/-- What was there before is there still or is dying. -/
theorem Settled.old_of_hasRow {r : Row} (h : z.HasRow r) :
    ∃ s : State, (r, s) ∈ (z.changed x cs).clauses ∧ s.Old := by
  obtain ⟨s, hs⟩ := h
  obtain rfl : s = .NO := hz.known _ hs
  rcases (hz.evolved cs).before r hs with h | h
  · exact ⟨.NO, h, trivial⟩
  · exact ⟨.DEL, h, trivial⟩

/-- After the round there is what was not dying. -/
theorem Settled.hasRow_sweep (r : Row) : (z.changed x cs).sweepZoo.HasRow r ↔
    ∃ s : State, (r, s) ∈ (z.changed x cs).clauses ∧ s.Live := by
  have hm := (hz.reachable.changed cs).mirrored
  constructor
  · rintro ⟨s, hs⟩
    obtain ⟨_, s', hlive, hc⟩ := (mem_clauses_sweep_iff hm r s).mp hs
    exact ⟨s', hc, hlive⟩
  · rintro ⟨s', hc, hlive⟩
    exact ⟨.NO, (mem_clauses_sweep_iff hm r .NO).mpr ⟨rfl, s', hlive, hc⟩⟩

end changed

/-! ### Starting on present entities -/

/-- The clauses of a node that has just been started and then given the touched live entities. -/
def scratch (z : Zoo) : List (Row × State) :=
  (tunnelRow, .NO) :: (z.live.filter (·.touched)).map (fun e => (e.row, .ADD))

theorem mem_scratch {z : Zoo} {r : Row} {s : State} : (r, s) ∈ z.scratch ↔
    (r = tunnelRow ∧ s = .NO) ∨
      s = .ADD ∧ ∃ t key e, z.entity? t key = some e ∧ e.touched ∧ e.row = r := by
  simp only [scratch, List.mem_cons, List.mem_map, List.mem_filter, mem_live, Prod.mk.injEq]
  refine or_congr Iff.rfl ⟨?_, ?_⟩
  · rintro ⟨e, ⟨⟨t, key, he⟩, htouched⟩, rfl, rfl⟩
    exact ⟨rfl, t, key, e, he, htouched, rfl⟩
  · rintro ⟨rfl, t, key, e, he, htouched, rfl⟩
    exact ⟨e, ⟨⟨t, key, he⟩, htouched⟩, rfl, rfl⟩

theorem Settled.hasRow_iff_scratch {x : Extra} {z : Zoo} (h : Settled x z) (r : Row) :
    z.HasRow r ↔ ∃ s : State, (r, s) ∈ z.scratch ∧ s.Live := by
  rw [h.reachable.mirrored.hasRow_iff h.sink]
  simp only [mem_scratch]
  constructor
  · rintro (rfl | hr)
    · exact ⟨.NO, Or.inl ⟨rfl, rfl⟩, trivial⟩
    · exact ⟨.ADD, Or.inr ⟨rfl, hr⟩, trivial⟩
  · rintro ⟨s, ⟨rfl, _⟩ | ⟨_, hr⟩, _⟩
    · exact Or.inl rfl
    · exact Or.inr hr

end Zoo

/-! ### The node -/

/-- The zoo and the flow table. -/
structure FlowNode (μ α : Type) where
  zoo : Zoo
  table : Table (FlowKey μ) α

/-- The changes of a round and the order in which its rows are read. -/
structure Round (μ α : Type) where
  changes : List Zoo.Change
  order : List (LFlow μ α) → List (LFlow μ α)
  mem_order : ∀ ls l, l ∈ order ls ↔ l ∈ ls

/-- A round that reads its rows in the order in which they come. -/
def Round.ofChanges {μ α : Type} (changes : List Zoo.Change) : Round μ α :=
  ⟨changes, id, fun _ _ => Iff.rfl⟩

namespace FlowNode

variable {μ α : Type} [DecidableEq μ]

section round
variable (x : Extra) (rows : List (Row × State) → List (LFlow μ α))

/-- The zoo from which the flows of a round are computed. -/
def changed (s : FlowNode μ α) (rd : Round μ α) : Zoo := s.zoo.changed x rd.changes

/-- One round. -/
def round (s : FlowNode μ α) (rd : Round μ α) : Option (FlowNode μ α) :=
  some ⟨(s.changed x rd).sweepZoo,
    commitFlows s.table (convertTuple2flow (rd.order (rows (s.changed x rd).clauses)))⟩

/-- A node that has just been started. -/
def start (table : Table (FlowKey μ) α) : FlowNode μ α := ⟨Zoo.empty, table⟩

omit [DecidableEq μ] in
theorem settled_start (table : Table (FlowKey μ) α) : (start table).zoo.Settled x :=
  Zoo.settled_empty x

variable {rows}

theorem settled_round {s s' : FlowNode μ α} {rd : Round μ α} (hs : s.zoo.Settled x)
    (h : round x rows s rd = some s') : s'.zoo.Settled x := by
  rw [← Option.some.inj h]
  exact (hs.reachable.changed rd.changes).settled_sweep

theorem settled_run {s s' : FlowNode μ α} {rounds : List (Round μ α)} (hs : s.zoo.Settled x)
    (h : run (round x rows) s rounds = some s') : s'.zoo.Settled x :=
  run_preserves (round x rows) (fun _ _ _ hs h => settled_round x hs h) hs h

variable (rows) in
theorem run_isSome (s : FlowNode μ α) (rounds : List (Round μ α)) :
    (run (round x rows) s rounds).isSome := by
  induction rounds generalizing s with
  | nil => rfl
  | cons rd rounds ih => exact ih _

end round

/-! ### Incremental maintenance -/

omit [DecidableEq μ] in
/-- What a build from scratch on the present rows derives.  The rows have the `ilk` indexes that
this node has allocated; a node that is started again reads the rows in another order and may
allocate other ones. -/
def Fresh (r : Rule Row State (FlowKey μ × α)) (z : Zoo) (k : FlowKey μ) (a : α) : Prop :=
  r.DerivesFrom z.HasRow (k, a)

omit [DecidableEq μ] in
/-- A derivation on the clauses of a zoo is a fresh flow. -/
theorem fresh_of_mem_eval {r : Rule Row State (FlowKey μ × α)} {z : Zoo} {k : FlowKey μ} {a : α}
    {sup : List (Row × State)} (h : ((k, a), sup) ∈ r.eval z.clauses) : Fresh r z k a := by
  obtain ⟨hholds, hmem⟩ := (r.mem_eval _ _ _).mp h
  refine ⟨_, hholds, fun d hd => ?_⟩
  obtain ⟨f, hf, rfl⟩ := List.mem_map.mp hd
  exact ⟨f.2, hmem f hf⟩

/-- A build from scratch gives the fresh flows, if no flow comes from the flow based tunnel
alone. -/
theorem exact_scratch {x : Extra} {r : Rule Row State (FlowKey μ × α)} {n : ℕ} (hr : r.AtMost n)
    (hn : n < 100) (hneed : ∀ a, ¬ r.DerivesFrom (· = tunnelRow) a) {z : Zoo}
    (hz : z.Settled x) {ls : List (LFlow μ α)} (hls : ∀ l, l ∈ ls ↔ l ∈ buildFlows r z.scratch) :
    Exact (commitFlows (fun _ => none) (convertTuple2flow ls)) (Fresh r z) := by
  have hstate : ∀ f ∈ z.scratch, f.2.Live ∧ (f.2 = .NO → f.1 = tunnelRow) := by
    rintro ⟨row, s⟩ hf
    rcases Zoo.mem_scratch.mp hf with ⟨rfl, rfl⟩ | ⟨rfl, _⟩
    · exact ⟨trivial, fun _ => rfl⟩
    · exact ⟨trivial, fun h => by cases h⟩
  have hcommit := commit_exact_iff (t := fun _ => none) (D := fun _ _ => False) hr hn exact_empty
    ?_ (fun _ _ h => h.elim) hls
  · have hfresh : ∀ k a, r.Derives z.scratch State.Live (k, a) ↔ Fresh r z k a := by
      intro k a
      rw [Rule.derives_iff_derivesFrom, Fresh]
      simp only [funext fun d => propext (hz.hasRow_iff_scratch d)]
    refine (hcommit.mpr ?_).congr hfresh
    -- nothing is dying
    rintro k ⟨a, sup, hsup, _, f, hf, hdel⟩
    have hlive := (hstate f (((r.mem_eval _ _ _).mp hsup).2 f hf)).1
    rw [hdel] at hlive
    exact hlive.elim
  · rintro k a ⟨sup, hsup, hkept⟩
    obtain ⟨hholds, hmem⟩ := (r.mem_eval _ _ _).mp hsup
    refine hneed (k, a) ⟨_, hholds, fun d hd => ?_⟩
    obtain ⟨f, hf, rfl⟩ := List.mem_map.mp hd
    exact (hstate f (hmem f hf)).2 (hkept f hf)

section maintenance
variable {x : Extra} {r : Rule Row State (FlowKey μ × α)} {n : ℕ} (hr : r.AtMost n) (hn : n < 100)
include hr hn

/-- **One round** of incremental maintenance. -/
theorem round_exact_iff {s s' : FlowNode μ α} {rd : Round μ α} (hs : s.zoo.Settled x)
    (ht : Exact s.table (Fresh r s.zoo)) (h : round x (buildFlows r) s rd = some s') :
    Exact s'.table (Fresh r s'.zoo) ↔ NoOrphan r (s.changed x rd).clauses := by
  obtain rfl := Option.some.inj h
  have hcommit := commit_exact_iff (B := (s.changed x rd).clauses) hr hn ht ?_ ?_
    (fun l => rd.mem_order (buildFlows r (s.changed x rd).clauses) l)
  · rw [← hcommit]
    have hsweep : ∀ k a, r.Derives (s.changed x rd).clauses State.Live (k, a) ↔
        Fresh r (s.changed x rd).sweepZoo k a := by
      intro k a
      rw [Rule.derives_iff_derivesFrom, Fresh]
      simp only [changed, funext fun d => propext (hs.hasRow_sweep rd.changes d)]
    exact ⟨fun h => h.congr fun k a => (hsweep k a).symm, fun h => h.congr hsweep⟩
  · rintro k a ⟨sup, hsup, hkept⟩
    obtain ⟨hholds, hmem⟩ := (r.mem_eval _ _ _).mp hsup
    refine ⟨sup.map Prod.fst, hholds, fun d hd => ?_⟩
    obtain ⟨f, hf, rfl⟩ := List.mem_map.mp hd
    refine hs.hasRow_of_known rd.changes ?_
    have := hmem f hf
    rwa [← Prod.mk.eta (p := f), hkept f hf] at this
  · intro k a hfresh
    rw [Rule.derives_iff_derivesFrom]
    exact hfresh.mono fun d hd => hs.old_of_hasRow rd.changes hd

/-- **Incremental maintenance over runs**: the table is that of a build from scratch after every
round iff no round orphans a flow. -/
theorem maintained_iff (hneed : ∀ a, ¬ r.DerivesFrom (· = tunnelRow) a)
    (rounds : List (Round μ α)) :
    (∀ bs, bs <+: rounds → ∀ s, run (round x (buildFlows r)) (start fun _ => none) bs = some s →
        Exact s.table (Fresh r s.zoo)) ↔
      Meets (round x (buildFlows r)) (fun s rd => NoOrphan r (s.changed x rd).clauses)
        (start fun _ => none) rounds := by
  have hnone : ∀ k a, ¬ Fresh r Zoo.empty k a := by
    refine fun k a h => hneed (k, a) (h.mono fun d hd => ?_)
    obtain ⟨st, hst⟩ := hd
    exact congrArg Prod.fst (List.mem_singleton.mp hst)
  refine forall_prefix_iff_meets (round x (buildFlows r)) (I := fun s => s.zoo.Settled x)
    (fun s rd s' (_ : True) hs h => settled_round x hs h)
    (fun s rd s' _ hs ht h => round_exact_iff hr hn hs ht h) (settled_start x _)
    (exact_empty.congr fun k a => iff_of_false id (hnone k a))
    (meets_of_forall _ (fun _ _ => trivial) _ _) (run_isSome x _ _ _)

end maintenance

end FlowNode

end TupleNet
