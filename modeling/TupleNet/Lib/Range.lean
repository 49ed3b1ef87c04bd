import TupleNet.Lib.Txn
import Mathlib.Data.List.Dedup

/-! # Clients that list a prefix

A store can be listed when its keys are in a list (`KeyedStore`): a listing gives the stored keys
with a prefix and their texts.  A `RangeProg` is a client that may also list; `ofProg` embeds one
that does not.  A `RangeSystem` runs any number of such clients on one store, one read, one listing
or one transaction at a time.  `Issues` and `step_cases` are what statements about all interleavings
need (`forall_prefix_iff_commits`), `exec_ofProg` what statements about a client alone need. -/

namespace TxnStore

open StepMachine

variable {V ρ : Type} (raw : V → String)

/-- A store and a list with all its keys. -/
structure KeyedStore (V : Type) where
  db : Store V
  keys : List String
  covers : ∀ key, db key ≠ none → key ∈ keys

namespace KeyedStore

/-- The stored keys with a prefix, each once, and their texts. -/
def range (s : KeyedStore V) (pre : String) : List (String × String) :=
  s.keys.dedup.filterMap (fun key =>
    if pre.toList <+: key.toList then (s.db key).map (fun v => (key, raw v)) else none)

theorem mem_range {s : KeyedStore V} {pre key text : String} : (key, text) ∈ s.range raw pre ↔
    pre.toList <+: key.toList ∧ (s.db key).map raw = some text := by
  rw [range, List.mem_filterMap]
  constructor
  · rintro ⟨key', _, h⟩
    split_ifs at h with hpre
    obtain ⟨v, hv, heq⟩ := Option.map_eq_some_iff.mp h
    obtain ⟨rfl, rfl⟩ := Prod.mk.inj heq
    exact ⟨hpre, by rw [hv, Option.map_some]⟩
  · rintro ⟨hpre, h⟩
    obtain ⟨v, hv, rfl⟩ := Option.map_eq_some_iff.mp h
    have hmem : key ∈ s.keys := s.covers key (by rw [hv]; exact Option.some_ne_none v)
    refine ⟨key, List.mem_dedup.mpr hmem, ?_⟩
    rw [if_pos hpre, hv, Option.map_some]

/-- The store after a committed transaction. -/
def commit (s : KeyedStore V) (t : Txn V) : KeyedStore V where
  db := t.apply s.db
  keys := s.keys ++ putKeys t.ops
  covers := by
    intro key h
    obtain ⟨v, hv⟩ := Option.ne_none_iff_exists'.mp h
    rcases applyOps_eq_some hv with hold | hput
    · exact List.mem_append_left _ (s.covers key (by rw [hold]; exact Option.some_ne_none v))
    · exact List.mem_append_right _ (mem_putKeys.mpr ⟨v, hput⟩)

end KeyedStore

/-! ### Clients -/

/-- A client that may list. -/
inductive RangeProg (V ρ : Type) where
  | ret (r : ρ)
  | get (key : String) (next : Option (Option String) → RangeProg V ρ)
  | range (pre : String) (next : Option (List (String × String)) → RangeProg V ρ)
  | txn (t : Txn V) (next : TxnResult → RangeProg V ρ)

namespace RangeProg

/-- A client that does not list. -/
def ofProg : Prog V ρ → RangeProg V ρ
  | .ret r => ret r
  | .get key next => get key (fun answer => ofProg (next answer))
  | .txn t next => txn t (fun answer => ofProg (next answer))

/-- Whatever the answers, every transaction that is issued satisfies `G`. -/
def Issues (G : Txn V → Prop) : RangeProg V ρ → Prop
  | ret _ => True
  | get _ next => ∀ r, Issues G (next r)
  | range _ next => ∀ r, Issues G (next r)
  | txn t next => G t ∧ ∀ r, Issues G (next r)

/-- A client that runs alone on a store that answers: the store in the end, and the result. -/
def exec : RangeProg V ρ → KeyedStore V → KeyedStore V × ρ
  | ret r, s => (s, r)
  | get key next, s => exec (next (some ((s.db key).map raw))) s
  | range pre next, s => exec (next (some (s.range raw pre))) s
  | txn t next, s =>
      if ¬ t.Accepted then exec (next .error) s
      else if t.Holds raw s.db then exec (next .succeeded) (s.commit t)
      else exec (next .failed) s

theorem issues_ofProg {G : Txn V → Prop} {p : Prog V ρ} (h : p.Issues G) : (ofProg p).Issues G := by
  induction p with
  | ret _ => trivial
  | get _ next ih => exact fun r => ih r (h r)
  | txn t next ih => exact ⟨h.1, fun r => ih r (h.2 r)⟩

/-- Alone, such a client does what it does on a store without a list of keys. -/
theorem exec_ofProg (p : Prog V ρ) (s : KeyedStore V) :
    ((ofProg p).exec raw s).1.db = (p.exec raw s.db).1 ∧
      ((ofProg p).exec raw s).2 = (p.exec raw s.db).2 := by
  induction p generalizing s with
  | ret r => exact ⟨rfl, rfl⟩
  | get key next ih => exact ih _ s
  | txn t next ih =>
      rw [ofProg, exec, Prog.exec]
      by_cases hacc : t.Accepted
      · rw [if_neg (not_not.mpr hacc), if_neg (not_not.mpr hacc)]
        by_cases hholds : t.Holds raw s.db
        · rw [if_pos hholds, if_pos hholds]
          exact ih _ (s.commit t)
        · rw [if_neg hholds, if_neg hholds]
          exact ih _ s
      · rw [if_pos hacc, if_pos hacc]
        exact ih _ s

end RangeProg

/-! ### Concurrent clients -/

/-- Any number of clients on one store. -/
structure RangeSystem (V ρ : Type) where
  store : KeyedStore V
  prog : ℕ → RangeProg V ρ

namespace RangeSystem

/-- A client goes on. -/
def goOn (s : RangeSystem V ρ) (client : ℕ) (p : RangeProg V ρ) : RangeSystem V ρ :=
  { s with prog := Function.update s.prog client p }

/-- One read, listing or transaction of one client; the store may fail to answer. -/
def step (s : RangeSystem V ρ) (a : ℕ × Bool) : Option (RangeSystem V ρ) :=
  match s.prog a.1 with
  | .ret _ => none
  | .get key next =>
      some (s.goOn a.1 (next (if a.2 then some ((s.store.db key).map raw) else none)))
  | .range pre next =>
      some (s.goOn a.1 (next (if a.2 then some (s.store.range raw pre) else none)))
  | .txn t next =>
      if a.2 = false ∨ ¬ t.Accepted then some (s.goOn a.1 (next .error))
      else if t.Holds raw s.store.db then
        some { s.goOn a.1 (next .succeeded) with store := s.store.commit t }
      else some (s.goOn a.1 (next .failed))

/-- The transaction that a client issues next. -/
def pending (s : RangeSystem V ρ) (client : ℕ) : Option (Txn V) :=
  match s.prog client with
  | .txn t _ => some t
  | _ => none

/-- The client commits this transaction in its next step. -/
def Commits (s : RangeSystem V ρ) (a : ℕ × Bool) (t : Txn V) : Prop :=
  a.2 = true ∧ (∃ next, s.prog a.1 = .txn t next) ∧ t.Accepted ∧ t.Holds raw s.store.db

/-- The transaction that the client commits in its next step, if there is one. -/
def committed (s : RangeSystem V ρ) (a : ℕ × Bool) : Option (Txn V) :=
  (s.pending a.1).filter (fun t => a.2 = true ∧ t.Accepted ∧ t.Holds raw s.store.db)

theorem mem_committed {s : RangeSystem V ρ} {a : ℕ × Bool} {t : Txn V} :
    t ∈ s.committed raw a ↔ s.Commits raw a t := by
  have hpending : t ∈ s.pending a.1 ↔ ∃ next, s.prog a.1 = .txn t next := by
    unfold pending
    cases s.prog a.1 <;> simp
  unfold committed Commits
  rw [Option.mem_filter_iff, hpending, decide_eq_true_iff]
  tauto

/-- A step commits a transaction of the client, or leaves the store alone. -/
theorem step_cases {s s' : RangeSystem V ρ} {a : ℕ × Bool} (h : step raw s a = some s') :
    (∃ t, s.Commits raw a t ∧ s'.store = s.store.commit t) ∨
      (∀ t, ¬ s.Commits raw a t) ∧ s'.store = s.store := by
  unfold step at h
  unfold Commits
  cases hp : s.prog a.1 with
  | ret r => simp [hp] at h
  | get key next =>
      simp only [hp, Option.some.injEq] at h
      exact Or.inr ⟨by simp, by rw [← h]; rfl⟩
  | range pre next =>
      simp only [hp, Option.some.injEq] at h
      exact Or.inr ⟨by simp, by rw [← h]; rfl⟩
  | txn t next =>
      simp only [hp] at h
      split_ifs at h with h1 h2
      · refine Or.inr ⟨?_, by rw [← Option.some.inj h]; rfl⟩
        rintro t' ⟨hanswer, ⟨next', heq⟩, hacc, _⟩
        obtain ⟨rfl, _⟩ := RangeProg.txn.inj heq
        rcases h1 with h1 | h1
        · rw [hanswer] at h1
          cases h1
        · exact h1 hacc
      · obtain ⟨hanswer, hacc⟩ := not_or.mp h1
        refine Or.inl ⟨t, ⟨by simpa using hanswer, ⟨next, rfl⟩, not_not.mp hacc, h2⟩, ?_⟩
        rw [← Option.some.inj h]
      · refine Or.inr ⟨?_, by rw [← Option.some.inj h]; rfl⟩
        rintro t' ⟨_, ⟨next', heq⟩, _, hholds⟩
        obtain ⟨rfl, _⟩ := RangeProg.txn.inj heq
        exact h2 hholds

/-- Every client keeps issuing transactions of its kind. -/
theorem step_issues {G : ℕ → Txn V → Prop} {s s' : RangeSystem V ρ} {a : ℕ × Bool}
    (hG : ∀ c, (s.prog c).Issues (G c)) (h : step raw s a = some s') (c : ℕ) :
    (s'.prog c).Issues (G c) := by
  have hgo : ∀ p : RangeProg V ρ, p.Issues (G a.1) →
      (Function.update s.prog a.1 p c).Issues (G c) := by
    intro p hp
    by_cases hc : c = a.1
    · subst hc
      rw [Function.update_self]
      exact hp
    · rw [Function.update_of_ne hc]
      exact hG c
  have ha := hG a.1
  unfold step at h
  cases hp : s.prog a.1 with
  | ret r => simp [hp] at h
  | get key next =>
      rw [hp] at ha
      simp only [hp, Option.some.injEq] at h
      rw [← h]
      exact hgo _ (ha _)
  | range pre next =>
      rw [hp] at ha
      simp only [hp, Option.some.injEq] at h
      rw [← h]
      exact hgo _ (ha _)
  | txn t next =>
      rw [hp] at ha
      simp only [hp] at h
      split_ifs at h with h1 h2
      · rw [← Option.some.inj h]
        exact hgo _ (ha.2 _)
      · rw [← Option.some.inj h]
        exact hgo _ (ha.2 _)
      · rw [← Option.some.inj h]
        exact hgo _ (ha.2 _)

theorem Commits.issued {G : Txn V → Prop} {s : RangeSystem V ρ} {a : ℕ × Bool} {t : Txn V}
    (h : s.Commits raw a t) (hG : (s.prog a.1).Issues G) : G t := by
  obtain ⟨_, ⟨next, hp⟩, _⟩ := h
  rw [hp] at hG
  exact hG.1

theorem Commits.pending {s : RangeSystem V ρ} {a : ℕ × Bool} {t : Txn V} (h : s.Commits raw a t) :
    t ∈ s.pending a.1 := by
  obtain ⟨_, ⟨next, hp⟩, _⟩ := h
  rw [RangeSystem.pending, hp]
  rfl

theorem Commits.unique {s : RangeSystem V ρ} {a : ℕ × Bool} {t t' : Txn V} (h : s.Commits raw a t)
    (h' : s.Commits raw a t') : t' = t := by
  exact Option.some.inj ((h'.pending raw).symm.trans (h.pending raw))

/-- **Exact conditions of clients**: if a transaction leads from a store with `J` to one with `J`
iff it is `ok` there, `J` holds all along a run iff every transaction that it commits is `ok`.  `I`
is an invariant that the transactions in `G` keep in any case. -/
theorem forall_prefix_iff_commits {raw : V → String} {G : Txn V → Prop} {I J : Store V → Prop}
    {ok : Store V → Txn V → Prop}
    (hI : ∀ db t, I db → G t → t.Accepted → t.Holds raw db → I (t.apply db))
    (hJ : ∀ db t, I db → J db → G t → t.Accepted → t.Holds raw db → (J (t.apply db) ↔ ok db t))
    {s : RangeSystem V ρ} {as : List (ℕ × Bool)} (hG : ∀ c, (s.prog c).Issues G)
    (hs : I s.store.db) (hj : J s.store.db) (hrun : (run (step raw) s as).isSome) :
    (∀ bs, bs <+: as → ∀ s', run (step raw) s bs = some s' → J s'.store.db) ↔
      Meets (step raw) (fun s a => ∀ t, s.Commits raw a t → ok s.store.db t) s as := by
  have hall : Meets (step raw) (fun _ _ => True) s as :=
    meets_of_forall _ (fun _ _ => trivial) s as
  refine forall_prefix_iff_meets (step raw)
    (I := fun s => (∀ c, (s.prog c).Issues G) ∧ I s.store.db) (J := fun s => J s.store.db)
    (fun s a s' _ h hstep => ⟨step_issues raw h.1 hstep, ?_⟩)
    (fun s a s' _ h hj hstep => ?_) ⟨hG, hs⟩ hj hall hrun
  · rcases step_cases raw hstep with ⟨t, hcommits, heq⟩ | ⟨_, heq⟩
    · rw [heq]
      exact hI _ t h.2 (hcommits.issued raw (h.1 a.1)) hcommits.2.2.1 hcommits.2.2.2
    · rw [heq]
      exact h.2
  · rcases step_cases raw hstep with ⟨t, hcommits, heq⟩ | ⟨hno, heq⟩
    · rw [heq]
      refine (hJ _ t h.2 hj (hcommits.issued raw (h.1 a.1)) hcommits.2.2.1 hcommits.2.2.2).trans ?_
      constructor
      · intro hok t' ht'
        rw [hcommits.unique raw ht']
        exact hok
      · exact fun hok => hok t hcommits
    · rw [heq]
      exact iff_of_true hj fun t ht => absurd ht (hno t)

end RangeSystem

end TxnStore
