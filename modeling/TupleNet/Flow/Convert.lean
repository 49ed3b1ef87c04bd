import TupleNet.Lib.Rule
import TupleNet.Lib.Table
import Mathlib.Algebra.Order.Ring.Abs

/-! # The NO/ADD/DEL arithmetic of flow updates

Every entity fact carries a state: `NO` (known to the flow table), `ADD` (new since the last
computation) or `DEL` (waiting in the sink).  A flow rule joins facts and adds up their states;
`convertTuple2flow` reads from the sign of the sum and from its remainder modulo `100` whether
the flow is installed, removed or left alone, and `commitFlows` first deletes and then adds.

The text of a flow is kept as its fields: `FlowKey` is what a strict delete matches on (table,
priority, match), and match and action range over arbitrary types.

A derivation is *kept* when all its facts are `NO`, *born* when it has a new fact and no dying
one, *dying* when it has a dying fact and no new one.  For joins of fewer than a hundred facts
the arithmetic recognises exactly the born and the dying derivations (`stateSum_pos_iff`,
`stateSum_del_iff`), so a committed update leaves an exact table iff no flow loses a derivation,
keeps another one and gains none (`commit_exact_iff`). -/

namespace TupleNet

open Datalog KeyedTable

/-! ### States -/

/-- `State_NO`, `State_ADD`, `State_DEL` of `logicalview.py`. -/
inductive State where
  | NO
  | ADD
  | DEL
deriving DecidableEq, Repr

namespace State

/-- The numbers that the flow rules add up. -/
def val : State → ℤ
  | NO => 0
  | ADD => 1
  | DEL => -100

/-- The fact was there at the last computation. -/
def Old : State → Prop
  | NO => True
  | ADD => False
  | DEL => True

/-- The fact is there now. -/
def Live : State → Prop
  | NO => True
  | ADD => True
  | DEL => False

instance : DecidablePred Old := fun s => by cases s <;> unfold Old <;> infer_instance
instance : DecidablePred Live := fun s => by cases s <;> unfold Live <;> infer_instance

theorem old_iff (s : State) : Old s ↔ s ≠ ADD := by cases s <;> simp [Old]
theorem live_iff (s : State) : Live s ↔ s ≠ DEL := by cases s <;> simp [Live]

end State

variable {δ μ α : Type}

/-- `State == State1 + … + Staten`. -/
def stateSum (sup : List (δ × State)) : ℤ := (sup.map (fun x => x.2.val)).sum

/-- Number of facts in state `s`. -/
def stateCount (s : State) (sup : List (δ × State)) : ℕ := sup.countP (fun x => decide (x.2 = s))

@[simp] theorem stateSum_nil : stateSum ([] : List (δ × State)) = 0 := rfl

@[simp] theorem stateSum_cons (x : δ × State) (sup : List (δ × State)) :
    stateSum (x :: sup) = x.2.val + stateSum sup := rfl

theorem stateCount_pos_iff {s : State} {sup : List (δ × State)} :
    0 < stateCount s sup ↔ ∃ x ∈ sup, x.2 = s := by
  simp [stateCount, List.countP_pos_iff]

/-- The sum counts the new facts and, by hundreds, the dying ones. -/
theorem stateSum_eq (sup : List (δ × State)) :
    stateSum sup = (stateCount .ADD sup : ℤ) - 100 * stateCount .DEL sup := by
  induction sup with
  | nil => rfl
  | cons x sup ih =>
      obtain ⟨d, s⟩ := x
      simp only [stateSum_cons, ih, stateCount, List.countP_cons]
      cases s <;> simp [State.val] <;> omega

theorem stateCount_add_le (sup : List (δ × State)) :
    stateCount .ADD sup + stateCount .DEL sup ≤ sup.length := by
  induction sup with
  | nil => simp [stateCount]
  | cons x sup ih =>
      obtain ⟨d, s⟩ := x
      simp only [stateCount, List.countP_cons, List.length_cons] at ih ⊢
      cases s <;> simp <;> omega

/-! ### Kept, born and dying derivations -/

/-- All facts are unchanged. -/
def AllKept (sup : List (δ × State)) : Prop := ∀ x ∈ sup, x.2 = .NO

/-- A new fact and no dying one. -/
def IsBorn (sup : List (δ × State)) : Prop := (∀ x ∈ sup, x.2.Live) ∧ ∃ x ∈ sup, x.2 = .ADD

/-- A dying fact and no new one. -/
def IsDying (sup : List (δ × State)) : Prop := (∀ x ∈ sup, x.2.Old) ∧ ∃ x ∈ sup, x.2 = .DEL

instance (sup : List (δ × State)) : Decidable (AllKept sup) :=
  inferInstanceAs (Decidable (∀ x ∈ sup, x.2 = .NO))
instance (sup : List (δ × State)) : Decidable (IsBorn sup) :=
  inferInstanceAs (Decidable (_ ∧ _))
instance (sup : List (δ × State)) : Decidable (IsDying sup) :=
  inferInstanceAs (Decidable (_ ∧ _))

theorem isBorn_iff_count {sup : List (δ × State)} :
    IsBorn sup ↔ stateCount .DEL sup = 0 ∧ 0 < stateCount .ADD sup := by
  rw [IsBorn, stateCount_pos_iff, stateCount, List.countP_eq_zero]
  simp only [State.live_iff, decide_eq_true_eq]

theorem isDying_iff_count {sup : List (δ × State)} :
    IsDying sup ↔ stateCount .ADD sup = 0 ∧ 0 < stateCount .DEL sup := by
  rw [IsDying, stateCount_pos_iff, stateCount, List.countP_eq_zero]
  simp only [State.old_iff, decide_eq_true_eq]

theorem live_iff_kept_or_born {sup : List (δ × State)} :
    (∀ x ∈ sup, x.2.Live) ↔ AllKept sup ∨ IsBorn sup := by
  constructor
  · intro h
    by_cases ha : ∃ x ∈ sup, x.2 = .ADD
    · exact Or.inr ⟨h, ha⟩
    · refine Or.inl fun x hx => ?_
      have hl := h x hx
      cases hs : x.2 with
      | NO => rfl
      | ADD => exact absurd ⟨x, hx, hs⟩ ha
      | DEL => rw [hs] at hl; exact hl.elim
  · rintro (h | h) x hx
    · rw [h x hx]; trivial
    · exact h.1 x hx

theorem old_iff_kept_or_dying {sup : List (δ × State)} :
    (∀ x ∈ sup, x.2.Old) ↔ AllKept sup ∨ IsDying sup := by
  constructor
  · intro h
    by_cases hd : ∃ x ∈ sup, x.2 = .DEL
    · exact Or.inr ⟨h, hd⟩
    · refine Or.inl fun x hx => ?_
      have ho := h x hx
      cases hs : x.2 with
      | NO => rfl
      | ADD => rw [hs] at ho; exact ho.elim
      | DEL => exact absurd ⟨x, hx, hs⟩ hd
  · rintro (h | h) x hx
    · rw [h x hx]; trivial
    · exact h.1 x hx

/-- Below a hundred facts, a sum that is not negative means that no fact is dying. -/
theorem stateSum_nonneg_iff {sup : List (δ × State)} (h : sup.length < 100) :
    0 ≤ stateSum sup ↔ ∀ x ∈ sup, x.2.Live := by
  have hle := stateCount_add_le sup
  have hcount : stateCount .DEL sup = 0 ↔ ∀ x ∈ sup, x.2.Live := by
    simp only [stateCount, List.countP_eq_zero, State.live_iff, decide_eq_true_eq]
  rw [← hcount, stateSum_eq]
  omega

/-- Below a hundred facts, a positive sum means born. -/
theorem stateSum_pos_iff {sup : List (δ × State)} (h : sup.length < 100) :
    0 < stateSum sup ↔ IsBorn sup := by
  have hle := stateCount_add_le sup
  rw [isBorn_iff_count, stateSum_eq]
  omega

/-- Below a hundred facts, a negative multiple of `State_DEL` means dying. -/
theorem stateSum_del_iff {sup : List (δ × State)} (h : sup.length < 100) :
    stateSum sup < 0 ∧ Int.fmod |stateSum sup| State.DEL.val = 0 ↔ IsDying sup := by
  have hle := stateCount_add_le sup
  rw [isDying_iff_count, ← Int.dvd_iff_fmod_eq_zero, dvd_abs, stateSum_eq]
  simp only [State.val, Int.neg_dvd]
  omega

/-! ### Flow rules and their conversion -/

/-- What a strict delete matches on. -/
structure FlowKey (μ : Type) where
  table : ℕ
  priority : ℕ
  mtch : μ
deriving DecidableEq, Repr

/-- A row `(table, priority, match, action, state)` of `build_flows`. -/
structure LFlow (μ α : Type) where
  key : FlowKey μ
  action : α
  state : ℤ
deriving DecidableEq, Repr

/-- A rule that derives flows from entity facts. -/
abbrev FlowRule (δ μ α : Type) := Rule δ State (FlowKey μ × α)

/-- The rows of a rule on a fact base: `State` is the sum of the states and must not be `0`. -/
def buildFlows (r : FlowRule δ μ α) (B : List (δ × State)) : List (LFlow μ α) :=
  (r.eval B).filterMap (fun x =>
    if stateSum x.2 ≠ 0 then some ⟨x.1.1, x.1.2, stateSum x.2⟩ else none)

/-- `convert_tuple2flow`: the add list and the delete list. -/
def convertTuple2flow : List (LFlow μ α) → List (FlowKey μ × α) × List (FlowKey μ)
  | [] => ([], [])
  | l :: ls =>
      let rest := convertTuple2flow ls
      if l.state > 0 then ((l.key, l.action) :: rest.1, rest.2)
      else if l.state < 0 then
        -- "no need to delete this flow"
        if Int.fmod |l.state| State.DEL.val ≠ 0 then rest
        else (rest.1, l.key :: rest.2)
      else rest

/-- `commit_flows` when `ovs-ofctl` accepts every flow: the deletes, then the adds. -/
def commitFlows [DecidableEq μ] (t : Table (FlowKey μ) α)
    (fl : List (FlowKey μ × α) × List (FlowKey μ)) : Table (FlowKey μ) α :=
  addEntries fl.1 (delKeys fl.2 t)

theorem mem_convertTuple2flow_add {ls : List (LFlow μ α)} {k : FlowKey μ} {a : α} :
    (k, a) ∈ (convertTuple2flow ls).1 ↔ ∃ l ∈ ls, 0 < l.state ∧ l.key = k ∧ l.action = a := by
  induction ls with
  | nil => simp [convertTuple2flow]
  | cons l ls ih =>
      simp only [convertTuple2flow, List.exists_mem_cons_iff, ← ih]
      split_ifs with h1 h2 h3
      · simp only [List.mem_cons, Prod.mk.injEq, h1, true_and]
        rw [eq_comm (a := k), eq_comm (a := a)]
      all_goals simp [show ¬ 0 < l.state by omega]

theorem mem_convertTuple2flow_del {ls : List (LFlow μ α)} {k : FlowKey μ} :
    k ∈ (convertTuple2flow ls).2 ↔
      ∃ l ∈ ls, (l.state < 0 ∧ Int.fmod |l.state| State.DEL.val = 0) ∧ l.key = k := by
  induction ls with
  | nil => simp [convertTuple2flow]
  | cons l ls ih =>
      simp only [convertTuple2flow, List.exists_mem_cons_iff, ← ih]
      split_ifs with h1 h2 h3
      · simp [show ¬ l.state < 0 by omega]
      · simp [h3]
      · simp only [ne_eq, not_not] at h3
        simp only [List.mem_cons, h2, h3, true_and]
        rw [eq_comm (a := k)]
      · simp [h2]

/-- The row makes `convert_tuple2flow` delete its key. -/
def LFlow.Deletes (l : LFlow μ α) : Prop :=
  l.state < 0 ∧ Int.fmod |l.state| State.DEL.val = 0

section commit_apply
variable [DecidableEq μ] {t : Table (FlowKey μ) α} {ls : List (LFlow μ α)} {k : FlowKey μ}

/-- A key that a row adds ends with the action of such a row. -/
theorem commitFlows_of_add {l : LFlow μ α} (hl : l ∈ ls) (hk : l.key = k) (hpos : 0 < l.state) :
    ∃ l ∈ ls, l.key = k ∧ 0 < l.state ∧ commitFlows t (convertTuple2flow ls) k = some l.action := by
  obtain ⟨b, hb, hv⟩ := addEntries_of_mem (mem_convertTuple2flow_add.mpr ⟨l, hl, hpos, hk, rfl⟩)
    (delKeys (convertTuple2flow ls).2 t)
  obtain ⟨l', hl', hpos', hk', rfl⟩ := mem_convertTuple2flow_add.mp hb
  exact ⟨l', hl', hk', hpos', hv⟩

/-- A key that no row adds is gone if a row deletes it, and is as before otherwise. -/
theorem commitFlows_of_no_add (h : ∀ l ∈ ls, l.key = k → ¬ 0 < l.state) :
    ((∃ l ∈ ls, l.key = k ∧ l.Deletes) → commitFlows t (convertTuple2flow ls) k = none) ∧
      ((∀ l ∈ ls, l.key = k → ¬ l.Deletes) → commitFlows t (convertTuple2flow ls) k = t k) := by
  have hno : ∀ a, (k, a) ∉ (convertTuple2flow ls).1 := by
    intro a ha
    obtain ⟨l, hl, hpos, hk, _⟩ := mem_convertTuple2flow_add.mp ha
    exact h l hl hk hpos
  rw [commitFlows, addEntries_of_not_mem hno, delKeys_apply]
  refine ⟨fun ⟨l, hl, hk, hdel⟩ => if_pos (mem_convertTuple2flow_del.mpr ⟨l, hl, hdel, hk⟩),
    fun hdel => if_neg fun hmem => ?_⟩
  obtain ⟨l, hl, hd, hk⟩ := mem_convertTuple2flow_del.mp hmem
  exact hdel l hl hk hd

end commit_apply

/-! ### What an update does -/

/-- `k` has a derivation whose facts are all unchanged. -/
def Kept (r : FlowRule δ μ α) (B : List (δ × State)) (k : FlowKey μ) (a : α) : Prop :=
  ∃ sup, ((k, a), sup) ∈ r.eval B ∧ AllKept sup

/-- `k` has a derivation with a new fact and no dying one. -/
def Born (r : FlowRule δ μ α) (B : List (δ × State)) (k : FlowKey μ) (a : α) : Prop :=
  ∃ sup, ((k, a), sup) ∈ r.eval B ∧ IsBorn sup

/-- `k` has a derivation with a dying fact and no new one. -/
def Dying (r : FlowRule δ μ α) (B : List (δ × State)) (k : FlowKey μ) : Prop :=
  ∃ a sup, ((k, a), sup) ∈ r.eval B ∧ IsDying sup

/-- No flow loses a derivation, keeps an unchanged one and gains none. -/
def NoOrphan (r : FlowRule δ μ α) (B : List (δ × State)) : Prop :=
  ∀ k, Dying r B k → (∃ a, Kept r B k a) → ∃ a, Born r B k a

theorem derives_live_iff {r : FlowRule δ μ α} {B : List (δ × State)} {k : FlowKey μ} {a : α} :
    r.Derives B State.Live (k, a) ↔ Kept r B k a ∨ Born r B k a := by
  rw [Rule.derives_iff_eval]
  simp only [live_iff_kept_or_born, and_or_left, exists_or]
  rfl

theorem derives_old_iff {r : FlowRule δ μ α} {B : List (δ × State)} {k : FlowKey μ} {a : α} :
    r.Derives B State.Old (k, a) ↔
      Kept r B k a ∨ ∃ sup, ((k, a), sup) ∈ r.eval B ∧ IsDying sup := by
  rw [Rule.derives_iff_eval]
  simp only [old_iff_kept_or_dying, and_or_left, exists_or]
  rfl

section commit
variable {r : FlowRule δ μ α} {B : List (δ × State)} {n : ℕ} (hr : r.AtMost n) (hn : n < 100)
include hr hn

theorem length_lt_of_mem_eval {x : (FlowKey μ × α) × List (δ × State)} (hx : x ∈ r.eval B) :
    x.2.length < 100 := by
  have := hr x.1 _ ((r.mem_eval B x.1 x.2).mp hx).1
  rw [List.length_map] at this
  omega

/-- The add list holds exactly the born flows, whatever the order of the rows. -/
theorem mem_add_iff_born {ls : List (LFlow μ α)} (hls : ∀ l, l ∈ ls ↔ l ∈ buildFlows r B)
    (k : FlowKey μ) (a : α) : (k, a) ∈ (convertTuple2flow ls).1 ↔ Born r B k a := by
  rw [mem_convertTuple2flow_add]
  simp only [hls, buildFlows, List.mem_filterMap]
  constructor
  · rintro ⟨l, ⟨x, hx, hl⟩, hpos, rfl, rfl⟩
    split_ifs at hl
    obtain rfl := Option.some.inj hl
    exact ⟨x.2, hx, (stateSum_pos_iff (length_lt_of_mem_eval hr hn hx)).mp hpos⟩
  · rintro ⟨sup, hx, hb⟩
    have hpos := (stateSum_pos_iff (length_lt_of_mem_eval hr hn hx)).mpr hb
    refine ⟨⟨k, a, stateSum sup⟩, ⟨_, hx, ?_⟩, hpos, rfl, rfl⟩
    have hne : stateSum sup ≠ 0 := hpos.ne'
    simp only [hne, ne_eq, not_false_eq_true, if_true]

/-- The delete list holds exactly the keys of dying flows. -/
theorem mem_del_iff_dying {ls : List (LFlow μ α)} (hls : ∀ l, l ∈ ls ↔ l ∈ buildFlows r B)
    (k : FlowKey μ) : k ∈ (convertTuple2flow ls).2 ↔ Dying r B k := by
  rw [mem_convertTuple2flow_del]
  simp only [hls, buildFlows, List.mem_filterMap]
  constructor
  · rintro ⟨l, ⟨x, hx, hl⟩, hneg, rfl⟩
    split_ifs at hl
    obtain rfl := Option.some.inj hl
    exact ⟨x.1.2, x.2, hx, (stateSum_del_iff (length_lt_of_mem_eval hr hn hx)).mp hneg⟩
  · rintro ⟨a, sup, hx, hd⟩
    have hneg := (stateSum_del_iff (length_lt_of_mem_eval hr hn hx)).mpr hd
    refine ⟨⟨k, a, stateSum sup⟩, ⟨_, hx, ?_⟩, hneg, rfl⟩
    have hne : stateSum sup ≠ 0 := hneg.1.ne
    simp only [hne, ne_eq, not_false_eq_true, if_true]

/-- **One update**: if the table is exact for `D`, and `D` lies between the unchanged derivations
and those of the facts in state `NO` or `DEL`, then the committed table is exact for the live
facts iff no flow is orphaned. -/
theorem commit_exact_iff [DecidableEq μ] {t : Table (FlowKey μ) α} {D : FlowKey μ → α → Prop}
    (ht : Exact t D) (hkept : ∀ k a, Kept r B k a → D k a)
    (hold : ∀ k a, D k a → r.Derives B State.Old (k, a)) {ls : List (LFlow μ α)}
    (hls : ∀ l, l ∈ ls ↔ l ∈ buildFlows r B) :
    Exact (commitFlows t (convertTuple2flow ls)) (fun k a => r.Derives B State.Live (k, a)) ↔
      NoOrphan r B := by
  have hupd := exact_update_iff ht hkept
    (fun k a h => (derives_old_iff.mp (hold k a h)).imp_right (fun h' => ⟨a, h'⟩))
    (mem_del_iff_dying hr hn hls) (mem_add_iff_born hr hn hls)
  unfold NoOrphan
  rw [← hupd]
  constructor
  · exact fun h => h.congr (fun k a => derives_live_iff)
  · exact fun h => h.congr (fun k a => derives_live_iff.symm)

end commit

/-- `sweep_zoo` on the facts: the sink is emptied and what was new is known now. -/
def sweepFacts (B : List (δ × State)) : List (δ × State) :=
  B.filterMap (fun x => if x.2 = .DEL then none else some (x.1, .NO))

theorem mem_sweepFacts {B : List (δ × State)} {d : δ} {s : State} :
    (d, s) ∈ sweepFacts B ↔ s = .NO ∧ ∃ s', (d, s') ∈ B ∧ s'.Live := by
  simp only [sweepFacts, List.mem_filterMap, Prod.exists]
  constructor
  · rintro ⟨d', s', hmem, h⟩
    split_ifs at h with hs
    obtain ⟨rfl, rfl⟩ := Prod.mk.inj (Option.some.inj h)
    exact ⟨rfl, s', hmem, (State.live_iff s').mpr hs⟩
  · rintro ⟨rfl, s', hmem, hl⟩
    exact ⟨d, s', hmem, if_neg ((State.live_iff s').mp hl)⟩

/-! ### One derivation for a flow -/

/-- Within the facts whose state satisfies `P`, a key has at most one derivation. -/
def OneDerivation (r : FlowRule δ μ α) (B : List (δ × State)) (P : State → Prop) : Prop :=
  ∀ x ∈ r.eval B, ∀ y ∈ r.eval B, (∀ f ∈ x.2, P f.2) → (∀ f ∈ y.2, P f.2) →
    x.1.1 = y.1.1 → x = y

theorem OneDerivation.functional {r : FlowRule δ μ α} {B : List (δ × State)} {P : State → Prop}
    (h : OneDerivation r B P) (k : FlowKey μ) (a b : α) (ha : r.Derives B P (k, a))
    (hb : r.Derives B P (k, b)) : a = b := by
  obtain ⟨s, hs, hsP⟩ := Rule.derives_iff_eval.mp ha
  obtain ⟨s', hs', hsP'⟩ := Rule.derives_iff_eval.mp hb
  have := h _ hs _ hs' hsP hsP' rfl
  simp only [Prod.mk.injEq, true_and] at this
  exact this.1

/-- With one derivation for a key in the old snapshot no flow is orphaned. -/
theorem OneDerivation.noOrphan {r : FlowRule δ μ α} {B : List (δ × State)}
    (h : OneDerivation r B State.Old) : NoOrphan r B := by
  rintro k ⟨a, sup, hx, hd⟩ ⟨b, sup', hx', hk⟩
  have heq := h _ hx _ hx' hd.1 (fun f hf => by rw [hk f hf]; trivial) rfl
  obtain ⟨x, hxs, hxd⟩ := hd.2
  rw [Prod.mk.injEq] at heq
  have := hk x (heq.2 ▸ hxs)
  rw [hxd] at this
  cases this

/-- **Soundness of the state arithmetic.**  For a rule that joins fewer than a hundred facts and
has one derivation for a key in the old and in the new snapshot: if the table holds exactly the
flows of the old snapshot, then after the committed update it holds exactly those of the new. -/
theorem stateArith_sound [DecidableEq μ] (r : FlowRule δ μ α) (n : ℕ) (hr : r.AtMost n)
    (hn : n < 100) (B : List (δ × State)) (hOld : OneDerivation r B State.Old)
    (hLive : OneDerivation r B State.Live) (ls : List (LFlow μ α))
    (hls : ∀ l, l ∈ ls ↔ l ∈ buildFlows r B) (t : Table (FlowKey μ) α)
    (ht : ∀ k a, t k = some a ↔ r.Derives B State.Old (k, a)) (k : FlowKey μ) (a : α) :
    commitFlows t (convertTuple2flow ls) k = some a ↔ r.Derives B State.Live (k, a) := by
  have hexact : Exact t (fun k a => r.Derives B State.Old (k, a)) :=
    (exact_iff_of_functional hOld.functional).mpr ht
  have hcommit := (commit_exact_iff hr hn hexact (fun k a h => derives_old_iff.mpr (Or.inl h))
    (fun k a h => h) hls).mpr hOld.noOrphan
  exact (exact_iff_of_functional hLive.functional).mp hcommit k a

/-- A switch port (`1`) of router `0` is replaced by another one (`2`) with the same match. -/
theorem stateArith_sound_replacedPort :
    let r : Rule ℕ State (FlowKey ℕ × ℕ) := do
      let lr ← Rule.fact (fun d => if d = 0 then some d else none)
      let port ← Rule.fact (fun d => if d = 0 then none else some d)
      pure (⟨7, 5, lr⟩, port)
    commitFlows (fun k => if k = ⟨7, 5, 0⟩ then some 1 else none)
      (convertTuple2flow (buildFlows r [(0, .NO), (1, .DEL), (2, .ADD)])) ⟨7, 5, 0⟩ = some 2 ↔
    r.Derives [(0, .NO), (1, .DEL), (2, .ADD)] State.Live (⟨7, 5, 0⟩, 2) := by
  intro r
  refine stateArith_sound r 2 ?_ (by decide) [(0, .NO), (1, .DEL), (2, .ADD)] ?_ ?_ _
    (fun _ => Iff.rfl) _ ?_ ⟨7, 5, 0⟩ 2
  · exact Rule.atMost_bind (Rule.atMost_fact _)
      (fun lr => Rule.atMost_bind (Rule.atMost_fact _) (fun port => Rule.atMost_pure _))
  · unfold OneDerivation; decide
  · unfold OneDerivation; decide
  · intro k a
    rw [Rule.derives_iff_eval]
    have heval : r.eval [(0, .NO), (1, .DEL), (2, .ADD)] =
        [((⟨7, 5, 0⟩, 1), [(0, .NO), (1, .DEL)]), ((⟨7, 5, 0⟩, 2), [(0, .NO), (2, .ADD)])] := rfl
    rw [heval]
    constructor
    · intro h
      split_ifs at h with hk
      obtain rfl := Option.some.inj h
      exact ⟨[(0, .NO), (1, .DEL)], by rw [hk]; decide, by decide⟩
    · rintro ⟨sup, hx, hs⟩
      rcases List.mem_pair.mp hx with hx | hx
      · obtain ⟨⟨rfl, rfl⟩, rfl⟩ := by simpa only [Prod.mk.injEq] using hx
        rfl
      · -- the second derivation needs a new fact
        obtain ⟨_, rfl⟩ := Prod.mk.inj hx
        exact absurd (hs (2, .ADD) (by decide)) (by decide)

end TupleNet
