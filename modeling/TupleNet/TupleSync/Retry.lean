import TupleNet.TupleSync.OvsSide

/-! # A call of `update_ovs_side` that fails

`need_recompute` remembers the version of the zoo before anything is computed, the sweep makes new
entities known and empties the sink before anything is committed, and `had_clean_ovs_flows` is set
before the table is replaced.  `updateOvsSide` takes the step that raises, `Fault`, and leaves the
node as the code leaves it.  A change of the flow table that did not reach OVS is installed by a
later iteration (`Retried`) exactly in the cases of `Retriable`: for an iteration that nothing
disturbs, only when nothing was missing (`retried_iff`). -/

namespace TupleNet

open Datalog KeyedTable

variable {δ μ α : Type}

/-! ### The sweep of some entities -/

/-- The facts after a sweep that has handled some of them and raised at the next one. -/
def sweepPart (done : δ × State → Bool) (B : List (δ × State)) : List (δ × State) :=
  B.filterMap (fun x =>
    if done x then if x.2 = .DEL then none else some (x.1, .NO) else some x)

/-- How a fact of the partial sweep comes from one before. -/
def SweptTo (done : δ × State → Bool) (x y : δ × State) : Prop :=
  y = x ∧ done x = false ∨ y = (x.1, .NO) ∧ x.2 ≠ .DEL ∧ done x = true

theorem mem_sweepPart {done : δ × State → Bool} {B : List (δ × State)} {y : δ × State} :
    y ∈ sweepPart done B ↔ ∃ x ∈ B, SweptTo done x y := by
  simp only [sweepPart, List.mem_filterMap, SweptTo]
  refine exists_congr fun x => and_congr_right fun _ => ?_
  cases hdone : done x with
  | false => simp [eq_comm]
  | true => by_cases hdel : x.2 = .DEL <;> simp [hdel, eq_comm]

/-- A new flow that rests on a new fact that has not been handled. -/
def BornLeft (r : FlowRule δ μ α) (B : List (δ × State)) (done : δ × State → Bool)
    (k : FlowKey μ) (a : α) : Prop :=
  ∃ sup, ((k, a), sup) ∈ r.eval B ∧ (∀ x ∈ sup, x.2.Live) ∧ ∃ x ∈ sup, x.2 = .ADD ∧ done x = false

/-- A dying flow all of whose dying facts are still there, its new facts being known already. -/
def DyingLeft (r : FlowRule δ μ α) (B : List (δ × State)) (done : δ × State → Bool)
    (k : FlowKey μ) : Prop :=
  ∃ a sup, ((k, a), sup) ∈ r.eval B ∧
    (∀ x ∈ sup, x.2 = .NO ∨ x.2 = .ADD ∧ done x = true ∨ x.2 = .DEL ∧ done x = false) ∧
    ∃ x ∈ sup, x.2 = .DEL

section part
variable {r : FlowRule δ μ α} {B : List (δ × State)} {done : δ × State → Bool} {k : FlowKey μ}
    {a : α}

/-- A derivation before, as it is after the partial sweep. -/
theorem eval_sweepPart {sup : List (δ × State)} (h : ((k, a), sup) ∈ r.eval B)
    (hstay : ∀ x ∈ sup, x.2 = .DEL → done x = false) :
    ((k, a), sup.map (fun x => if done x then (x.1, State.NO) else x)) ∈
      r.eval (sweepPart done B) := by
  obtain ⟨hholds, hmem⟩ := (r.mem_eval B (k, a) sup).mp h
  refine (r.mem_eval _ _ _).mpr ⟨?_, fun y hy => ?_⟩
  · have hfst : ∀ x : δ × State, (if done x then (x.1, State.NO) else x).1 = x.1 := by
      intro x
      split_ifs <;> rfl
    simpa only [List.map_map, Function.comp_def, hfst] using hholds
  · obtain ⟨x, hx, rfl⟩ := List.mem_map.mp hy
    refine mem_sweepPart.mpr ⟨x, hmem x hx, ?_⟩
    cases hdone : done x with
    | false => exact Or.inl ⟨rfl, hdone⟩
    | true =>
        refine Or.inr ⟨rfl, fun hdel => ?_, hdone⟩
        rw [hstay x hx hdel] at hdone
        cases hdone

theorem eval_of_sweepPart {sup' : List (δ × State)}
    (h : ((k, a), sup') ∈ r.eval (sweepPart done B)) :
    ∃ sup, ((k, a), sup) ∈ r.eval B ∧ List.Forall₂ (SweptTo done) sup sup' := by
  refine Rule.exists_eval_of_forall (fun y hy => ?_) h
  obtain ⟨x, hx, hxy⟩ := mem_sweepPart.mp hy
  refine ⟨x, hx, ?_, hxy⟩
  rcases hxy with ⟨rfl, _⟩ | ⟨rfl, _, _⟩ <;> rfl

/-- Every member of one list has a partner in the other one. -/
theorem forall₂_sides {R : δ × State → δ × State → Prop} {sup sup' : List (δ × State)}
    (h : List.Forall₂ R sup sup') : (∀ y ∈ sup', ∃ x ∈ sup, R x y) ∧ ∀ x ∈ sup, ∃ y ∈ sup',
    R x y := by
  induction h with
  | nil => exact ⟨nofun, nofun⟩
  | cons hxy _ ih =>
      refine ⟨fun z hz => ?_, fun z hz => ?_⟩
      · rcases List.mem_cons.mp hz with rfl | hz
        · exact ⟨_, List.mem_cons_self, hxy⟩
        · obtain ⟨x, hx, hR⟩ := ih.1 z hz
          exact ⟨x, List.mem_cons_of_mem _ hx, hR⟩
      · rcases List.mem_cons.mp hz with rfl | hz
        · exact ⟨_, List.mem_cons_self, hxy⟩
        · obtain ⟨y, hy, hR⟩ := ih.2 z hz
          exact ⟨y, List.mem_cons_of_mem _ hy, hR⟩

theorem born_sweepPart : Born r (sweepPart done B) k a ↔ BornLeft r B done k a := by
  constructor
  · rintro ⟨sup', hsup', hlive, y, hy, hadd⟩
    obtain ⟨sup, hsup, hall⟩ := eval_of_sweepPart hsup'
    obtain ⟨hright, hleft⟩ := forall₂_sides hall
    refine ⟨sup, hsup, fun x hx => ?_, ?_⟩
    · obtain ⟨y', hy', hxy⟩ := hleft x hx
      rcases hxy with ⟨rfl, _⟩ | ⟨_, hdel, _⟩
      · exact hlive _ hy'
      · exact (State.live_iff x.2).mpr hdel
    · obtain ⟨x, hx, hxy⟩ := hright y hy
      rcases hxy with ⟨rfl, hdone⟩ | ⟨rfl, _, _⟩
      · exact ⟨y, hx, hadd, hdone⟩
      · cases hadd
  · rintro ⟨sup, hsup, hlive, x, hx, hadd, hdone⟩
    refine ⟨_, eval_sweepPart hsup fun z hz hdel => ?_, fun y hy => ?_,
      x, List.mem_map.mpr ⟨x, hx, by simp [hdone]⟩, hadd⟩
    · exact absurd hdel ((State.live_iff z.2).mp (hlive z hz))
    · obtain ⟨z, hz, rfl⟩ := List.mem_map.mp hy
      split_ifs
      · trivial
      · exact hlive z hz

theorem dying_sweepPart : Dying r (sweepPart done B) k ↔ DyingLeft r B done k := by
  constructor
  · rintro ⟨a, sup', hsup', hold, y, hy, hdel⟩
    obtain ⟨sup, hsup, hall⟩ := eval_of_sweepPart hsup'
    obtain ⟨hright, hleft⟩ := forall₂_sides hall
    refine ⟨a, sup, hsup, fun x hx => ?_, ?_⟩
    · obtain ⟨y', hy', hxy⟩ := hleft x hx
      rcases hxy with ⟨rfl, hdone⟩ | ⟨_, hne, hdone⟩
      · cases hs : y'.2 with
        | NO => exact Or.inl rfl
        | ADD => exact absurd hs ((State.old_iff y'.2).mp (hold y' hy'))
        | DEL => exact Or.inr (Or.inr ⟨rfl, hdone⟩)
      · cases hs : x.2 with
        | NO => exact Or.inl rfl
        | ADD => exact Or.inr (Or.inl ⟨rfl, hdone⟩)
        | DEL => exact absurd hs hne
    · obtain ⟨x, hx, hxy⟩ := hright y hy
      rcases hxy with ⟨rfl, _⟩ | ⟨rfl, _, _⟩
      · exact ⟨y, hx, hdel⟩
      · cases hdel
  · rintro ⟨a, sup, hsup, hstate, x, hx, hdel⟩
    have hstay : ∀ z ∈ sup, z.2 = .DEL → done z = false := by
      intro z hz hzdel
      rcases hstate z hz with h | ⟨h, _⟩ | ⟨_, h⟩
      · rw [h] at hzdel; cases hzdel
      · rw [h] at hzdel; cases hzdel
      · exact h
    refine ⟨a, _, eval_sweepPart hsup hstay, fun y hy => ?_,
      x, List.mem_map.mpr ⟨x, hx, by simp [hstay x hx hdel]⟩, hdel⟩
    obtain ⟨z, hz, rfl⟩ := List.mem_map.mp hy
    cases hdone : done z with
    | true => trivial
    | false =>
        rcases hstate z hz with h | ⟨_, h⟩ | ⟨h, _⟩
        · simp [h, State.Old]
        · rw [hdone] at h; cases h
        · simp [h, State.Old]

end part

/-! ### A call and its failures -/

/-- The facts of the zoo, its version and the remembered one, the flag, the file of learned
addresses and the flow table. -/
structure SyncNode (δ μ α : Type) where
  facts : List (δ × State)
  zooVer : ℕ
  prevZooVer : ℕ
  hadCleanOvsFlows : Bool
  arpFile : List (FlowKey μ × α)
  table : Table (FlowKey μ) α

/-- A change of the flow table: a flow that is added or deleted, and in the first call the
replacement by the constant flows and the learned address at each place of the file. -/
inductive FlowChange (μ α : Type) where
  | add (k : FlowKey μ) (a : α)
  | del (k : FlowKey μ)
  | init
  | bind (i : ℕ) (e : FlowKey μ × α)

/-- The step of `update_ovs_side` that raises. -/
inductive Fault (δ μ α : Type) where
  /-- A query of the flow rules. -/
  | build
  /-- The sweep, after it has handled some entities. -/
  | sweep (done : δ × State → Bool)
  /-- The text of a flow. -/
  | convert
  /-- The file of learned addresses after `n` lines; the exception is caught. -/
  | readBindings (n : ℕ)
  /-- The file with the replacement. -/
  | writeFile
  /-- `ovs-ofctl replace-flows`. -/
  | replaceFlows
  /-- The removal of the file with the replacement. -/
  | removeFile
  /-- `ovs-ofctl` for the flows of some changes; `commit_flows` logs them and goes on. -/
  | commitFlows (rejected : FlowChange μ α → Bool)
  /-- Tunnels, bfd and patch ports. -/
  | configPorts

namespace SyncNode

variable (r : FlowRule δ μ α) (constFlows : List (FlowKey μ × α))

/-- What `convert_tuple2flow` gives for the flows of the rules. -/
def batch (s : SyncNode δ μ α) : Batch μ α := convertTuple2flow (buildFlows r s.facts)

/-- `update_ovs_side`, with the step that raises if there is one. -/
def updateOvsSide [DecidableEq μ] (fault : Option (Fault δ μ α)) (s : SyncNode δ μ α) :
    SyncNode δ μ α :=
  let b := s.batch r
  let swept := { s with facts := sweepFacts s.facts }
  let replace (arp : List (FlowKey μ × α)) (file : List (FlowKey μ × α)) : SyncNode δ μ α :=
    { swept with
      hadCleanOvsFlows := true
      arpFile := file
      table := addEntries (b.1 ++ constFlows ++ arp) (fun _ => none) }
  match fault with
  | some .build => s
  | some (.sweep done) => { s with facts := sweepPart done s.facts }
  | some .convert => swept
  | some (.readBindings n) =>
      if s.hadCleanOvsFlows then { swept with table := commitFlows s.table b }
      else replace (s.arpFile.take n) (if n < s.arpFile.length then s.arpFile else [])
  | some .writeFile | some .replaceFlows =>
      if s.hadCleanOvsFlows then { swept with table := commitFlows s.table b }
      else { swept with hadCleanOvsFlows := true, arpFile := [] }
  | some (.commitFlows rejected) =>
      if s.hadCleanOvsFlows then
        { swept with
          table := commitFlows s.table (b.1.filter (fun e => !rejected (.add e.1 e.2)),
            b.2.filter (fun k => !rejected (.del k))) }
      else replace s.arpFile []
  | none | some .removeFile | some .configPorts =>
      if s.hadCleanOvsFlows then { swept with table := commitFlows s.table b }
      else replace s.arpFile []

/-- The last part of an iteration of `update_logical_view` when all goes well and the zoo has not
been changed by others. -/
def iterate [DecidableEq μ] (s : SyncNode δ μ α) : SyncNode δ μ α :=
  if s.zooVer = s.prevZooVer then s
  else updateOvsSide r constFlows none { s with prevZooVer := s.zooVer }

/-- The changes that a call of `update_ovs_side` computes. -/
def Changes (s : SyncNode δ μ α) : FlowChange μ α → Prop
  | .add k a => (k, a) ∈ (s.batch r).1
  | .del k => s.hadCleanOvsFlows = true ∧ k ∈ (s.batch r).2
  | .init => s.hadCleanOvsFlows = false
  | .bind i e => s.hadCleanOvsFlows = false ∧ s.arpFile[i]? = some e

/-- The changes that reach OVS. -/
def Reached (s : SyncNode δ μ α) : Fault δ μ α → FlowChange μ α → Prop
  | .build, _ => False
  | .sweep _, _ => False
  | .convert, _ => False
  | .readBindings n, .bind i _ => s.hadCleanOvsFlows = true ∨ i < n
  | .readBindings _, _ => True
  | .writeFile, _ => s.hadCleanOvsFlows = true
  | .replaceFlows, _ => s.hadCleanOvsFlows = true
  | .removeFile, _ => True
  | .commitFlows rejected, c => s.hadCleanOvsFlows = false ∨ rejected c = false
  | .configPorts, _ => True

/-- An iteration installs the change. -/
def Installs (s : SyncNode δ μ α) (c : FlowChange μ α) : Prop :=
  s.zooVer ≠ s.prevZooVer ∧ s.Changes r c

/-- Every change that did not reach OVS is installed by a later iteration. -/
def Retried [DecidableEq μ] (s : SyncNode δ μ α) (fault : Fault δ μ α) : Prop :=
  ∀ c, s.Changes r c → ¬ s.Reached fault c →
    ∃ n, ((iterate r constFlows)^[n] (updateOvsSide r constFlows (some fault) s)).Installs r c

/-- There is nothing to change. -/
def Settled (s : SyncNode δ μ α) : Prop :=
  s.hadCleanOvsFlows = true ∧ (∀ k a, ¬ Born r s.facts k a) ∧ ∀ k, ¬ Dying r s.facts k

/-- When this is so.  Up to the commit the zoo must have got a new version since it was remembered,
and the facts that the sweep has left must still give what was to be changed; from then on nothing
may be missing. -/
def Retriable (s : SyncNode δ μ α) : Fault δ μ α → Prop
  | .build => s.zooVer ≠ s.prevZooVer ∨ s.Settled r
  | .sweep done => s.zooVer ≠ s.prevZooVer ∧
      (∀ k a, Born r s.facts k a → BornLeft r s.facts done k a) ∧
      (s.hadCleanOvsFlows = true → ∀ k, Dying r s.facts k → DyingLeft r s.facts done k) ∨
      s.Settled r
  | .convert => s.zooVer ≠ s.prevZooVer ∧ s.hadCleanOvsFlows = false ∧
      (∀ k a, ¬ Born r s.facts k a) ∨ s.Settled r
  | .readBindings n => s.hadCleanOvsFlows = true ∨ s.arpFile.length ≤ n
  | .writeFile => s.hadCleanOvsFlows = true
  | .replaceFlows => s.hadCleanOvsFlows = true
  | .removeFile => True
  | .commitFlows rejected => s.hadCleanOvsFlows = false ∨
      (∀ k a, Born r s.facts k a → rejected (.add k a) = false) ∧
        ∀ k, Dying r s.facts k → rejected (.del k) = false
  | .configPorts => True

/-! ### What a later iteration installs -/

section iterate
variable {r constFlows} [DecidableEq μ]

variable (r constFlows) in
theorem updateOvsSide_versions (fault : Option (Fault δ μ α)) (s : SyncNode δ μ α) :
    (updateOvsSide r constFlows fault s).zooVer = s.zooVer ∧
      (updateOvsSide r constFlows fault s).prevZooVer = s.prevZooVer := by
  unfold updateOvsSide
  split <;> first | exact ⟨rfl, rfl⟩ | (split_ifs <;> exact ⟨rfl, rfl⟩)

/-- After an iteration the version of the zoo is the remembered one. -/
theorem iterate_versions (s : SyncNode δ μ α) :
    (iterate r constFlows s).zooVer = (iterate r constFlows s).prevZooVer := by
  unfold iterate
  split_ifs with h
  · exact h
  · obtain ⟨hver, hprev⟩ := updateOvsSide_versions r constFlows none
      { s with prevZooVer := s.zooVer }
    rw [hver, hprev]

/-- What the next iteration does not install is never installed. -/
theorem installs_iterate {s : SyncNode δ μ α} {c : FlowChange μ α} {n : ℕ}
    (h : ((iterate r constFlows)^[n] s).Installs r c) : s.Installs r c := by
  cases n with
  | zero => exact h
  | succ n =>
      rw [Function.iterate_succ_apply'] at h
      exact absurd (iterate_versions _) h.1

theorem retried_iff_next {s : SyncNode δ μ α} {fault : Fault δ μ α} :
    Retried r constFlows s fault ↔ ∀ c, s.Changes r c → ¬ s.Reached fault c →
      s.zooVer ≠ s.prevZooVer ∧ (updateOvsSide r constFlows (some fault) s).Changes r c := by
  obtain ⟨hver, hprev⟩ := updateOvsSide_versions r constFlows (some fault) s
  refine forall_congr' fun c => forall_congr' fun _ => forall_congr' fun _ => ⟨fun ⟨n, hn⟩ => ?_,
    fun ⟨hne, hch⟩ => ⟨0, ?_, hch⟩⟩
  · obtain ⟨hne, hch⟩ := installs_iterate hn
    rw [hver, hprev] at hne
    exact ⟨hne, hch⟩
  · rw [Function.iterate_zero_apply, hver, hprev]
    exact hne

end iterate

/-! ### When a failed call is made up for -/

theorem not_born_sweepFacts (r : FlowRule δ μ α) (B : List (δ × State)) (k : FlowKey μ) (a : α) :
    ¬ Born r (sweepFacts B) k a := by
  rintro ⟨sup, hsup, _, x, hx, hadd⟩
  have hmem := ((r.mem_eval _ _ _).mp hsup).2 x hx
  have hno := (mem_sweepFacts.mp (show (x.1, x.2) ∈ sweepFacts B from hmem)).1
  rw [hno] at hadd
  cases hadd

theorem not_dying_sweepFacts (r : FlowRule δ μ α) (B : List (δ × State)) (k : FlowKey μ) :
    ¬ Dying r (sweepFacts B) k := by
  rintro ⟨a, sup, hsup, _, x, hx, hdel⟩
  have hmem := ((r.mem_eval _ _ _).mp hsup).2 x hx
  have hno := (mem_sweepFacts.mp (show (x.1, x.2) ∈ sweepFacts B from hmem)).1
  rw [hno] at hdel
  cases hdel

/-- In the first call something has to be changed. -/
theorem forall_reached_iff {r : FlowRule δ μ α} {s : SyncNode δ μ α} :
    (∀ c, s.Changes r c → s.hadCleanOvsFlows = true) ↔ s.hadCleanOvsFlows = true := by
  refine ⟨fun h => ?_, fun h _ _ => h⟩
  by_contra hno
  exact hno (h .init (Bool.eq_false_of_not_eq_true hno))

/-- The step comes after the conversion. -/
def Late : Fault δ μ α → Prop
  | .build => False
  | .sweep _ => False
  | .convert => False
  | _ => True

/-- From then on the zoo is swept and the flag is set. -/
theorem updateOvsSide_late [DecidableEq μ] (r : FlowRule δ μ α) (constFlows : List (FlowKey μ × α))
    (s : SyncNode δ μ α) (fault : Fault δ μ α) (h : Late fault) :
    (updateOvsSide r constFlows (some fault) s).facts = sweepFacts s.facts ∧
      (updateOvsSide r constFlows (some fault) s).hadCleanOvsFlows = true := by
  cases fault with
  | build => exact h.elim
  | sweep done => exact h.elim
  | convert => exact h.elim
  | _ =>
      unfold updateOvsSide
      cases s.hadCleanOvsFlows <;> simp

/-- One flow for each fact. -/
def factRule : Rule ℕ State (FlowKey ℕ × ℕ) := do
  let d ← Rule.fact some
  pure (⟨0, 1, d⟩, d)

theorem factRule_atMost : factRule.AtMost 1 :=
  Rule.atMost_bind (Rule.atMost_fact _) (fun _ => Rule.atMost_pure _)

/-- A node that has read one entity and calls `update_ovs_side` for the first time. -/
def bootNode : SyncNode ℕ ℕ ℕ where
  facts := [(7, .ADD)]
  zooVer := 1
  prevZooVer := 1
  hadCleanOvsFlows := false
  arpFile := []
  table _ := none

section retry
variable {r : FlowRule δ μ α} {n : ℕ} (hr : r.AtMost n) (hn : n < 100) {s : SyncNode δ μ α}
include hr hn

theorem changes_add {k : FlowKey μ} {a : α} : s.Changes r (.add k a) ↔ Born r s.facts k a :=
  mem_add_iff_born hr hn (fun _ => Iff.rfl) k a

theorem changes_del {k : FlowKey μ} :
    s.Changes r (.del k) ↔ s.hadCleanOvsFlows = true ∧ Dying r s.facts k :=
  and_congr_right fun _ => mem_del_iff_dying hr hn (fun _ => Iff.rfl) k

theorem settled_iff : s.Settled r ↔ ∀ c, ¬ s.Changes r c := by
  constructor
  · rintro ⟨hflag, hborn, hdying⟩ c hc
    cases c with
    | add k a => exact hborn k a ((changes_add hr hn).mp hc)
    | del k => exact hdying k ((changes_del hr hn).mp hc).2
    | init => exact absurd (hflag.symm.trans hc) nofun
    | bind i e => exact absurd (hflag.symm.trans hc.1) nofun
  · intro h
    have hflag : s.hadCleanOvsFlows = true := by
      cases hs : s.hadCleanOvsFlows with
      | true => rfl
      | false => exact absurd hs (h .init)
    exact ⟨hflag, fun k a hb => h (.add k a) ((changes_add hr hn).mpr hb),
      fun k hd => h (.del k) ((changes_del hr hn).mpr ⟨hflag, hd⟩)⟩

/-- When nothing has reached OVS. -/
theorem unreached_iff {Q : FlowChange μ α → Prop} :
    (∀ c, s.Changes r c → ¬ False → s.zooVer ≠ s.prevZooVer ∧ Q c) ↔
      s.zooVer ≠ s.prevZooVer ∧ (∀ c, s.Changes r c → Q c) ∨ s.Settled r := by
  constructor
  · intro h
    by_cases hsettled : s.Settled r
    · exact Or.inr hsettled
    · have hsome : ∃ c, s.Changes r c := by
        by_contra hno
        exact hsettled ((settled_iff hr hn).mpr (not_exists.mp hno))
      obtain ⟨c, hc⟩ := hsome
      exact Or.inl ⟨(h c hc id).1, fun c hc => (h c hc id).2⟩
  · rintro (⟨hne, hq⟩ | hsettled) c hc _
    · exact ⟨hne, hq c hc⟩
    · exact absurd hc ((settled_iff hr hn).mp hsettled c)

/-- The changes of a call whose sweep has raised. -/
theorem changes_sweepPart_iff (done : δ × State → Bool) :
    (∀ c, s.Changes r c → Changes r { s with facts := sweepPart done s.facts } c) ↔
      (∀ k a, Born r s.facts k a → BornLeft r s.facts done k a) ∧
      (s.hadCleanOvsFlows = true → ∀ k, Dying r s.facts k → DyingLeft r s.facts done k) := by
  constructor
  · intro h
    refine ⟨fun k a hb => ?_, fun hflag k hd => ?_⟩
    · have hadd := h (.add k a) ((changes_add hr hn).mpr hb)
      exact born_sweepPart.mp ((changes_add hr hn).mp hadd)
    · have hdel := h (.del k) ((changes_del hr hn).mpr ⟨hflag, hd⟩)
      exact dying_sweepPart.mp ((changes_del hr hn).mp hdel).2
  · rintro ⟨hborn, hdying⟩ c hc
    cases c with
    | add k a =>
        have hb := hborn k a ((changes_add hr hn).mp hc)
        exact (changes_add hr hn).mpr (born_sweepPart.mpr hb)
    | del k =>
        obtain ⟨hflag, hd⟩ := (changes_del hr hn).mp hc
        exact (changes_del hr hn).mpr ⟨hflag, dying_sweepPart.mpr (hdying hflag k hd)⟩
    | init => exact hc
    | bind i e => exact hc

/-- The changes of a call that comes after the sweep. -/
theorem changes_swept {s' : SyncNode δ μ α} (hfacts : s'.facts = sweepFacts s.facts)
    {c : FlowChange μ α} (hc : s'.Changes r c) : s'.hadCleanOvsFlows = false := by
  cases c with
  | add k a =>
      have hb := (changes_add hr hn).mp hc
      rw [hfacts] at hb
      exact absurd hb (not_born_sweepFacts r _ k a)
  | del k =>
      have hd := ((changes_del hr hn).mp hc).2
      rw [hfacts] at hd
      exact absurd hd (not_dying_sweepFacts r _ k)
  | init => exact hc
  | bind i e => exact hc.1

variable [DecidableEq μ] (constFlows : List (FlowKey μ × α))

/-- Once the flag is set, only a change that has reached OVS is not lost. -/
theorem retried_iff_reached {fault : Fault δ μ α}
    (hfacts : (updateOvsSide r constFlows (some fault) s).facts = sweepFacts s.facts)
    (hflag : (updateOvsSide r constFlows (some fault) s).hadCleanOvsFlows = true) :
    Retried r constFlows s fault ↔ ∀ c, s.Changes r c → s.Reached fault c := by
  rw [retried_iff_next]
  refine forall_congr' fun c => forall_congr' fun _ => ⟨fun h => ?_, fun h hno => absurd h hno⟩
  by_contra hno
  exact absurd (hflag.symm.trans (changes_swept hr hn hfacts (h hno).2)) nofun

theorem retried_convert_iff :
    Retried r constFlows s .convert ↔ s.Retriable r .convert := by
  rw [retried_iff_next]
  refine (unreached_iff hr hn).trans (or_congr_left' fun hsettled => and_congr_right fun _ => ?_)
  constructor
  · intro h
    have hflag : s.hadCleanOvsFlows = false := by
      by_contra hset
      refine hsettled ((settled_iff hr hn).mpr fun c hc => hset ?_)
      have hswept : (updateOvsSide r constFlows (some .convert) s).facts = sweepFacts s.facts := rfl
      have hflag := changes_swept hr hn hswept (h c hc)
      exact hflag
    refine ⟨hflag, fun k a hb => ?_⟩
    have hadd := h (.add k a) ((changes_add hr hn).mpr hb)
    exact not_born_sweepFacts r _ k a ((changes_add hr hn).mp hadd)
  · rintro ⟨hflag, hborn⟩ c hc
    cases c with
    | add k a => exact absurd ((changes_add hr hn).mp hc) (hborn k a)
    | del k => exact absurd (hflag.symm.trans ((changes_del hr hn).mp hc).1) nofun
    | init => exact hc
    | bind i e => exact hc

/-- **A failed call of `update_ovs_side`** is made up for by a later iteration iff nothing of it was
missing, or it failed before the commit, the zoo has got a new version since it was remembered and
what was to be changed still follows from the facts. -/
theorem retried_iff (fault : Fault δ μ α) :
    Retried r constFlows s fault ↔ s.Retriable r fault := by
  cases fault with
  | build =>
      rw [retried_iff_next]
      refine (unreached_iff hr hn).trans (or_congr_left (and_iff_left ?_))
      exact fun c hc => hc
  | sweep done =>
      rw [retried_iff_next]
      exact (unreached_iff hr hn).trans
        (or_congr_left (and_congr_right fun _ => changes_sweepPart_iff hr hn done))
  | convert => exact retried_convert_iff hr hn constFlows
  | readBindings m =>
      obtain ⟨hfacts, hflag⟩ := updateOvsSide_late r constFlows s (.readBindings m) trivial
      rw [retried_iff_reached hr hn constFlows hfacts hflag]
      constructor
      · intro h
        by_cases hs : s.hadCleanOvsFlows = true
        · exact Or.inl hs
        · refine Or.inr (not_lt.mp fun hlt => ?_)
          have hbind : s.Changes r (.bind m s.arpFile[m]) :=
            ⟨Bool.eq_false_of_not_eq_true hs, List.getElem?_eq_getElem hlt⟩
          rcases h _ hbind with h | h
          · exact hs h
          · exact lt_irrefl m h
      · rintro h c hc
        cases c with
        | add k a => trivial
        | del k => trivial
        | init => trivial
        | bind i e =>
            refine h.imp id fun hle => ?_
            exact lt_of_lt_of_le (List.getElem?_eq_some_iff.mp hc.2).1 hle
  | writeFile =>
      obtain ⟨hfacts, hflag⟩ := updateOvsSide_late r constFlows s .writeFile trivial
      rw [retried_iff_reached hr hn constFlows hfacts hflag]
      exact forall_reached_iff
  | replaceFlows =>
      obtain ⟨hfacts, hflag⟩ := updateOvsSide_late r constFlows s .replaceFlows trivial
      rw [retried_iff_reached hr hn constFlows hfacts hflag]
      exact forall_reached_iff
  | removeFile =>
      obtain ⟨hfacts, hflag⟩ := updateOvsSide_late r constFlows s .removeFile trivial
      rw [retried_iff_reached hr hn constFlows hfacts hflag]
      exact ⟨fun _ => trivial, fun _ _ _ => trivial⟩
  | commitFlows rejected =>
      obtain ⟨hfacts, hflag⟩ := updateOvsSide_late r constFlows s (.commitFlows rejected) trivial
      rw [retried_iff_reached hr hn constFlows hfacts hflag]
      constructor
      · intro h
        by_cases hs : s.hadCleanOvsFlows = false
        · exact Or.inl hs
        · refine Or.inr ⟨fun k a hb => ?_, fun k hd => ?_⟩
          · exact (h (.add k a) ((changes_add hr hn).mpr hb)).resolve_left hs
          · have hset := Bool.eq_true_of_not_eq_false hs
            exact (h (.del k) ((changes_del hr hn).mpr ⟨hset, hd⟩)).resolve_left hs
      · rintro h c hc
        cases c with
        | add k a => exact h.imp id fun h => h.1 k a ((changes_add hr hn).mp hc)
        | del k => exact h.imp id fun h => h.2 k ((changes_del hr hn).mp hc).2
        | init => exact Or.inl hc
        | bind i e => exact Or.inl hc.1
  | configPorts =>
      obtain ⟨hfacts, hflag⟩ := updateOvsSide_late r constFlows s .configPorts trivial
      rw [retried_iff_reached hr hn constFlows hfacts hflag]
      exact ⟨fun _ => trivial, fun _ _ _ => trivial⟩

end retry

theorem retried_iff_boot : ¬ Retried factRule [] bootNode .replaceFlows ∧
    Retried factRule [] bootNode .removeFile :=
  ⟨fun h => absurd ((retried_iff factRule_atMost (by decide) [] .replaceFlows).mp h) nofun,
    (retried_iff factRule_atMost (by decide) [] .removeFile).mpr trivial⟩

/-! ### What has reached OVS -/

theorem eq_nil_of_settled {r : FlowRule δ μ α} {s : SyncNode δ μ α} (h : ∀ c, ¬ s.Changes r c) :
    s.hadCleanOvsFlows = true ∧ s.batch r = ([], []) := by
  have hflag : s.hadCleanOvsFlows = true := Bool.eq_true_of_not_eq_false (h .init)
  exact ⟨hflag, Prod.ext (List.eq_nil_iff_forall_not_mem.mpr fun e he => h (.add e.1 e.2) he)
    (List.eq_nil_iff_forall_not_mem.mpr fun k hk => h (.del k) ⟨hflag, hk⟩)⟩

/-- When every change has reached OVS, the flow table is that of a call in which nothing raises. -/
theorem table_of_reached [DecidableEq μ] {r : FlowRule δ μ α} {constFlows : List (FlowKey μ × α)}
    {s : SyncNode δ μ α} {fault : Fault δ μ α} (h : ∀ c, s.Changes r c → s.Reached fault c) :
    (updateOvsSide r constFlows (some fault) s).table = (updateOvsSide r constFlows none
      s).table := by
  have hsettled : (∀ c, ¬ s.Changes r c) →
      (updateOvsSide r constFlows none s).table = s.table := by
    intro hno
    obtain ⟨hflag, hbatch⟩ := eq_nil_of_settled hno
    simp only [updateOvsSide, hflag, if_true, hbatch]
    rfl
  cases fault with
  | build => exact (hsettled h).symm
  | sweep done => exact (hsettled h).symm
  | convert => exact (hsettled h).symm
  | readBindings m =>
      cases hs : s.hadCleanOvsFlows with
      | true => simp [updateOvsSide, hs]
      | false =>
          have hlen : s.arpFile.length ≤ m := by
            by_contra hlt
            have hlt := not_le.mp hlt
            rcases h (.bind m s.arpFile[m]) ⟨hs, List.getElem?_eq_getElem hlt⟩ with h | h
            · exact absurd (hs.symm.trans h) (by simp)
            · exact lt_irrefl m h
          simp [updateOvsSide, hs, List.take_of_length_le hlen]
  | writeFile =>
      have hs := forall_reached_iff.mp h
      simp [updateOvsSide, hs]
  | replaceFlows =>
      have hs := forall_reached_iff.mp h
      simp [updateOvsSide, hs]
  | removeFile => rfl
  | commitFlows rejected =>
      cases hs : s.hadCleanOvsFlows with
      | false => simp [updateOvsSide, hs]
      | true =>
          have hkept : ∀ c, s.Changes r c → rejected c = false :=
            fun c hc => (h c hc).resolve_left (by simp [hs])
          have hadd : (s.batch r).1.filter (fun e => !rejected (.add e.1 e.2)) = (s.batch r).1 :=
            List.filter_eq_self.mpr fun e he => by simp [hkept (.add e.1 e.2) he]
          have hdel : (s.batch r).2.filter (fun k => !rejected (.del k)) = (s.batch r).2 :=
            List.filter_eq_self.mpr fun k hk => by simp [hkept (.del k) ⟨hs, hk⟩]
          simp [updateOvsSide, hs, hadd, hdel]
  | configPorts => rfl

/-- The replacement of the flows fails, and nobody installs them any more. -/
theorem boot_forgotten : ¬ ∀ (r : FlowRule ℕ ℕ ℕ) (constFlows : List (FlowKey ℕ × ℕ))
    (s : SyncNode ℕ ℕ ℕ) (fault : Fault ℕ ℕ ℕ), r.AtMost 1 → Retried r constFlows s fault := by
  intro h
  have hnext := retried_iff_next.mp (h factRule [] bootNode .replaceFlows factRule_atMost)
  exact (hnext .init rfl nofun).1 rfl

end SyncNode

end TupleNet
