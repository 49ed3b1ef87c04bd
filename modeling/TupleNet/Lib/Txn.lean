import TupleNet.Lib.Machine
import Mathlib.Data.List.Nodup
import Mathlib.Logic.Function.Basic

/-! # A key-value store with guarded transactions

A store maps keys to values; what a client sees of a value is its text (`raw`).  A transaction
compares keys and, if all comparisons hold, applies its operations in order, all in one step.  A
request that puts a key twice, or puts a key that it also deletes, is refused.

A client is a `Prog`: it reads keys, issues transactions and goes on with the answers, each of which
may be a failure.  A `System` runs any number of clients on one store, one read or transaction at a
time; its label is the client that moves and whether the store answers.  `log` records the committed
transactions with their clients.

`Issues G p` says that whatever the answers, every transaction of `p` satisfies `G`, and
`OneCommit Q p` that after a committed transaction `p` is over with a result in `Q`.  With them a
statement about all interleavings reduces to statements about single transactions
(`run_store_invariant`, `run_oneCommit`). -/

namespace TxnStore

open StepMachine

/-- What is stored under a key. -/
abbrev Store (V : Type) := String → Option V

/-- A comparison. -/
inductive Cmp where
  | keyMissing (key : String)
  | keyExists (key : String)
  | valueIs (key raw : String)
deriving DecidableEq, Repr

/-- An operation. -/
inductive Op (V : Type) where
  | put (key : String) (v : V)
  | delete (key : String)
  | deletePrefix (pre : String)
deriving DecidableEq, Repr

/-- A transaction without an else branch. -/
structure Txn (V : Type) where
  cmps : List Cmp
  ops : List (Op V)

/-- The answer to a transaction: committed, not committed because a comparison fails, or refused. -/
inductive TxnResult where
  | succeeded
  | failed
  | error
deriving DecidableEq, Repr

variable {V ρ : Type} (raw : V → String)

/-- A comparison holds; the value of a missing key equals nothing. -/
def Cmp.Holds (db : Store V) : Cmp → Prop
  | keyMissing key => db key = none
  | keyExists key => db key ≠ none
  | valueIs key text => (db key).map raw = some text

/-- The keys of the puts, in order. -/
def putKeys (ops : List (Op V)) : List String :=
  ops.filterMap (fun o => match o with
    | .put key _ => some key
    | _ => none)

/-- The operation deletes the key. -/
def Op.Deletes (key : String) : Op V → Prop
  | put _ _ => False
  | delete k => k = key
  | deletePrefix pre => pre.toList <+: key.toList

/-- No key is put twice or both put and deleted. -/
def Txn.Accepted (t : Txn V) : Prop :=
  (putKeys t.ops).Nodup ∧ ∀ key ∈ putKeys t.ops, ∀ o ∈ t.ops, ¬ o.Deletes key

/-- All comparisons hold. -/
def Txn.Holds (t : Txn V) (db : Store V) : Prop := ∀ c ∈ t.cmps, c.Holds raw db

instance (db : Store V) : DecidablePred (Cmp.Holds raw db) := fun c => by
  cases c with
  | keyMissing key => exact decidable_of_iff ((db key).isNone) Option.isNone_iff_eq_none
  | keyExists key => exact decidable_of_iff ((db key).isSome) Option.isSome_iff_ne_none
  | valueIs key text => exact inferInstanceAs (Decidable (_ = _))

instance (key : String) : DecidablePred (Op.Deletes (V := V) key) := fun o => by
  cases o <;> unfold Op.Deletes <;> infer_instance

instance (t : Txn V) : Decidable t.Accepted := inferInstanceAs (Decidable (_ ∧ _))
instance (t : Txn V) (db : Store V) : Decidable (t.Holds raw db) :=
  inferInstanceAs (Decidable (∀ _ ∈ _, _))

/-- The store after an operation. -/
def Op.apply (db : Store V) : Op V → Store V
  | put key v => Function.update db key (some v)
  | delete key => Function.update db key none
  | deletePrefix pre => fun key => if pre.toList <+: key.toList then none else db key

/-- The store after a list of operations. -/
def applyOps : List (Op V) → Store V → Store V
  | [], db => db
  | o :: ops, db => applyOps ops (o.apply db)

/-- The store after a committed transaction. -/
def Txn.apply (t : Txn V) (db : Store V) : Store V := applyOps t.ops db

/-! ### What a transaction writes -/

theorem Op.apply_of_deletes {o : Op V} {key : String} (h : o.Deletes key) (db : Store V) :
    o.apply db key = none := by
  cases o with
  | put k v => exact h.elim
  | delete k => obtain rfl := h; exact Function.update_self ..
  | deletePrefix pre => exact if_pos h

theorem Op.apply_of_untouched {o : Op V} {key : String} (hd : ¬ o.Deletes key)
    (hp : ∀ v, o ≠ .put key v) (db : Store V) : o.apply db key = db key := by
  cases o with
  | put k v =>
      have hne : key ≠ k := fun h => hp v (by rw [h])
      exact Function.update_of_ne hne ..
  | delete k => exact Function.update_of_ne (fun h => hd h.symm) ..
  | deletePrefix pre => exact if_neg hd

theorem mem_putKeys {ops : List (Op V)} {key : String} :
    key ∈ putKeys ops ↔ ∃ v, .put key v ∈ ops := by
  simp only [putKeys, List.mem_filterMap]
  constructor
  · rintro ⟨o, ho, h⟩
    cases o <;> simp only [reduceCtorEq, Option.some.injEq] at h
    exact ⟨_, h ▸ ho⟩
  · rintro ⟨v, hv⟩
    exact ⟨_, hv, rfl⟩

theorem putKeys_cons_sublist (o : Op V) (ops : List (Op V)) :
    (putKeys ops).Sublist (putKeys (o :: ops)) :=
  List.Sublist.filterMap _ (List.sublist_cons_self o ops)

/-- A key that no operation touches keeps its value. -/
theorem applyOps_of_untouched {ops : List (Op V)} {key : String}
    (hd : ∀ o ∈ ops, ¬ o.Deletes key) (hp : key ∉ putKeys ops) (db : Store V) :
    applyOps ops db key = db key := by
  induction ops generalizing db with
  | nil => rfl
  | cons o ops ih =>
      rw [applyOps, ih (fun o' h => hd o' (List.mem_cons_of_mem _ h))
        (fun h => hp ((putKeys_cons_sublist o ops).subset h))]
      refine Op.apply_of_untouched (hd o List.mem_cons_self) (fun v h => hp ?_) db
      exact mem_putKeys.mpr ⟨v, h ▸ List.mem_cons_self⟩

/-- A key that is put once and not deleted gets the value. -/
theorem applyOps_of_put {ops : List (Op V)} {key : String} {v : V} (hnd : (putKeys ops).Nodup)
    (hd : ∀ o ∈ ops, ¬ o.Deletes key) (hv : .put key v ∈ ops) (db : Store V) :
    applyOps ops db key = some v := by
  induction ops generalizing db with
  | nil => cases hv
  | cons o ops ih =>
      have hd' : ∀ o' ∈ ops, ¬ o'.Deletes key := fun o' h => hd o' (List.mem_cons_of_mem _ h)
      rw [applyOps]
      rcases List.mem_cons.mp hv with rfl | hv
      · -- no later operation touches the key
        have hnd' : (key :: putKeys ops).Nodup := hnd
        rw [applyOps_of_untouched hd' (List.nodup_cons.mp hnd').1]
        exact Function.update_self ..
      · exact ih (hnd.sublist (putKeys_cons_sublist o ops)) hd' hv _

/-- A key that is deleted and not put is gone. -/
theorem applyOps_of_delete {ops : List (Op V)} {key : String} (hp : key ∉ putKeys ops)
    (hd : ∃ o ∈ ops, o.Deletes key) (db : Store V) : applyOps ops db key = none := by
  induction ops generalizing db with
  | nil => obtain ⟨o, ho, _⟩ := hd; cases ho
  | cons o ops ih =>
      have hp' : key ∉ putKeys ops := fun h => hp ((putKeys_cons_sublist o ops).subset h)
      rw [applyOps]
      by_cases hlater : ∃ o' ∈ ops, o'.Deletes key
      · exact ih hp' hlater _
      · obtain ⟨o', ho', hdel⟩ := hd
        rcases List.mem_cons.mp ho' with rfl | ho'
        · rw [applyOps_of_untouched (fun o'' h h' => hlater ⟨o'', h, h'⟩) hp']
          exact Op.apply_of_deletes hdel db
        · exact absurd ⟨o', ho', hdel⟩ hlater

theorem Op.apply_eq_some {o : Op V} {db : Store V} {key : String} {v : V}
    (h : o.apply db key = some v) : db key = some v ∨ o = .put key v := by
  by_cases hd : o.Deletes key
  · rw [Op.apply_of_deletes hd] at h
    cases h
  · by_cases hp : ∃ w, o = .put key w
    · obtain ⟨w, rfl⟩ := hp
      have hw : Op.apply db (.put key w) key = some w := Function.update_self ..
      exact Or.inr (by rw [Option.some.inj (hw.symm.trans h)])
    · rw [Op.apply_of_untouched hd (not_exists.mp hp)] at h
      exact Or.inl h

/-- What is stored afterwards was stored before or has been put. -/
theorem applyOps_eq_some {ops : List (Op V)} {db : Store V} {key : String} {v : V}
    (h : applyOps ops db key = some v) : db key = some v ∨ .put key v ∈ ops := by
  induction ops generalizing db with
  | nil => exact Or.inl h
  | cons o ops ih =>
      rcases ih h with h | h
      · refine (Op.apply_eq_some h).imp id fun ho => ?_
        rw [ho]
        exact List.mem_cons_self
      · exact Or.inr (List.mem_cons_of_mem _ h)

theorem Txn.apply_of_put {t : Txn V} {key : String} {v : V} (ht : t.Accepted)
    (hv : .put key v ∈ t.ops) (db : Store V) : t.apply db key = some v :=
  applyOps_of_put ht.1 (ht.2 key (mem_putKeys.mpr ⟨v, hv⟩)) hv db

/-! ### Clients -/

/-- A client of the store. -/
inductive Prog (V ρ : Type) where
  | ret (r : ρ)
  | get (key : String) (next : Option (Option String) → Prog V ρ)
  | txn (t : Txn V) (next : TxnResult → Prog V ρ)

/-- Any number of clients on one store, and the transactions committed so far. -/
structure System (V ρ : Type) where
  db : Store V
  prog : ℕ → Prog V ρ
  log : List (ℕ × Txn V)

namespace System

/-- Nobody has moved yet. -/
def start (db : Store V) (prog : ℕ → Prog V ρ) : System V ρ where
  db := db
  prog := prog
  log := []

/-- A client goes on. -/
def goOn (s : System V ρ) (client : ℕ) (p : Prog V ρ) : System V ρ :=
  { s with prog := Function.update s.prog client p }

/-- One read or transaction of one client; the store may fail to answer.  Here a transaction
without an answer has not been carried out; `Unanswered` has those that may have been. -/
def step (s : System V ρ) (a : ℕ × Bool) : Option (System V ρ) :=
  match s.prog a.1 with
  | .ret _ => none
  | .get key next =>
      some (s.goOn a.1 (next (if a.2 then some ((s.db key).map raw) else none)))
  | .txn t next =>
      if a.2 = false ∨ ¬ t.Accepted then some (s.goOn a.1 (next .error))
      else if t.Holds raw s.db then
        some { s.goOn a.1 (next .succeeded) with
          db := t.apply s.db
          log := s.log ++ [(a.1, t)] }
      else some (s.goOn a.1 (next .failed))

end System

namespace Prog

/-- Whatever the answers, every transaction that is issued satisfies `G`. -/
def Issues (G : Txn V → Prop) : Prog V ρ → Prop
  | .ret _ => True
  | .get _ next => ∀ r, Issues G (next r)
  | .txn t next => G t ∧ ∀ r, Issues G (next r)

/-- After a committed transaction the client is over, with a result in `Q`. -/
def OneCommit (Q : ρ → Prop) : Prog V ρ → Prop
  | .ret _ => True
  | .get _ next => ∀ r, OneCommit Q (next r)
  | .txn _ next => (∃ r, next .succeeded = .ret r ∧ Q r) ∧ OneCommit Q (next .failed) ∧
      OneCommit Q (next .error)

/-- A client that runs alone on a store that answers: the store in the end, and the result. -/
def exec : Prog V ρ → Store V → Store V × ρ
  | .ret r, db => (db, r)
  | .get key next, db => exec (next (some ((db key).map raw))) db
  | .txn t next, db =>
      if ¬ t.Accepted then exec (next .error) db
      else if t.Holds raw db then exec (next .succeeded) (t.apply db)
      else exec (next .failed) db

theorem Issues.mono {G G' : Txn V → Prop} (h : ∀ t, G t → G' t) {p : Prog V ρ} (hp : p.Issues G) :
    p.Issues G' := by
  induction p with
  | ret _ => trivial
  | get _ next ih => exact fun r => ih r (hp r)
  | txn t next ih => exact ⟨h t hp.1, fun r => ih r (hp.2 r)⟩

theorem issues_of_forall {G : Txn V → Prop} (h : ∀ t, G t) (p : Prog V ρ) : p.Issues G := by
  induction p with
  | ret _ => trivial
  | get _ next ih => exact ih
  | txn t next ih => exact ⟨h t, ih⟩

end Prog

namespace System

/-- What one step does to the store and the clients. -/
theorem step_cases {s s' : System V ρ} {a : ℕ × Bool} (h : step raw s a = some s') :
    (∃ key next r, s.prog a.1 = .get key next ∧ s' = s.goOn a.1 (next r)) ∨
    (∃ t next r, s.prog a.1 = .txn t next ∧ (r = .failed ∨ r = .error) ∧
      s' = s.goOn a.1 (next r)) ∨
    (∃ t next, s.prog a.1 = .txn t next ∧ t.Accepted ∧ t.Holds raw s.db ∧
      s' = { s.goOn a.1 (next .succeeded) with
        db := t.apply s.db
        log := s.log ++ [(a.1, t)] }) := by
  cases hp : s.prog a.1 with
  | ret r => simp [step, hp] at h
  | get key next =>
      simp only [step, hp, Option.some.injEq] at h
      exact Or.inl ⟨key, next, _, rfl, h.symm⟩
  | txn t next =>
      simp only [step, hp] at h
      split_ifs at h with h1 h2
      · exact Or.inr (Or.inl ⟨t, next, .error, rfl, Or.inr rfl, (Option.some.inj h).symm⟩)
      · obtain ⟨_, hacc⟩ := not_or.mp h1
        exact Or.inr (Or.inr ⟨t, next, rfl, not_not.mp hacc, h2, (Option.some.inj h).symm⟩)
      · exact Or.inr (Or.inl ⟨t, next, .failed, rfl, Or.inl rfl, (Option.some.inj h).symm⟩)

section rules
variable {raw} {G : Txn V → Prop} {I : Store V → Prop}

/-- Every client keeps issuing transactions of its kind. -/
theorem step_issues {G : ℕ → Txn V → Prop} {s s' : System V ρ} {a : ℕ × Bool}
    (hG : ∀ c, (s.prog c).Issues (G c)) (h : step raw s a = some s') (c : ℕ) :
    (s'.prog c).Issues (G c) := by
  have hgo : ∀ p : Prog V ρ, p.Issues (G a.1) → ((s.goOn a.1 p).prog c).Issues (G c) := by
    intro p hp
    by_cases hc : c = a.1
    · subst hc
      simp only [goOn, Function.update_self]
      exact hp
    · simp only [goOn, Function.update_of_ne hc]
      exact hG c
  have ha := hG a.1
  rcases step_cases raw h with ⟨_, _, r, hp, rfl⟩ | ⟨_, _, r, hp, _, rfl⟩ | ⟨_, _, hp, _, _, rfl⟩
  · rw [hp] at ha; exact hgo _ (ha r)
  · rw [hp] at ha; exact hgo _ (ha.2 r)
  · rw [hp] at ha; exact hgo _ (ha.2 .succeeded)

/-- A step leaves the store alone or commits a transaction in `G`. -/
theorem step_db {s s' : System V ρ} {a : ℕ × Bool} (ha : (s.prog a.1).Issues G)
    (h : step raw s a = some s') :
    s'.db = s.db ∧ s'.log = s.log ∨ ∃ t, G t ∧ t.Accepted ∧ t.Holds raw s.db ∧
      s'.db = t.apply s.db ∧ s'.log = s.log ++ [(a.1, t)] := by
  rcases step_cases raw h with ⟨_, _, _, _, rfl⟩ | ⟨_, _, _, _, _, rfl⟩ |
    ⟨t, next, hp, hacc, hholds, rfl⟩
  · exact Or.inl ⟨rfl, rfl⟩
  · exact Or.inl ⟨rfl, rfl⟩
  · rw [hp] at ha
    exact Or.inr ⟨t, ha.1, hacc, hholds, rfl, rfl⟩

/-- **Concurrent clients**: an invariant of the store that every transaction in `G` preserves holds
after every interleaving of clients that issue only such transactions. -/
theorem run_store_invariant (hI : ∀ db t, I db → G t → t.Accepted → t.Holds raw db → I (t.apply db))
    {s s' : System V ρ} {as : List (ℕ × Bool)} (hG : ∀ c, (s.prog c).Issues G) (hs : I s.db)
    (hrun : run (step raw) s as = some s') : (∀ c, (s'.prog c).Issues G) ∧ I s'.db := by
  refine run_preserves (step raw) (I := fun s => (∀ c, (s.prog c).Issues G) ∧ I s.db) ?_
    ⟨hG, hs⟩ hrun
  rintro s a s' ⟨hG, hs⟩ h
  refine ⟨step_issues hG h, ?_⟩
  rcases step_db (hG a.1) h with ⟨heq, _⟩ | ⟨t, ht, hacc, hholds, heq, _⟩
  · rw [heq]; exact hs
  · rw [heq]; exact hI s.db t hs ht hacc hholds

/-- A client that commits once has committed nothing or is over with a result in `Q`. -/
theorem run_oneCommit {Q : ρ → Prop} {db : Store V} {prog : ℕ → Prog V ρ}
    (hQ : ∀ c, (prog c).OneCommit Q) {s : System V ρ} {as : List (ℕ × Bool)}
    (hrun : run (step raw) (start db prog) as = some s) (c : ℕ) :
    (s.prog c).OneCommit Q ∧ (∀ t, (c, t) ∉ s.log) ∨ ∃ r, s.prog c = .ret r ∧ Q r := by
  refine run_preserves (step raw) (I := fun s => ∀ c,
    (s.prog c).OneCommit Q ∧ (∀ t, (c, t) ∉ s.log) ∨ ∃ r, s.prog c = .ret r ∧ Q r) ?_
    (fun c => Or.inl ⟨hQ c, by simp [start]⟩) hrun c
  rintro s a s' hinv h c
  have hother : ∀ p : Prog V ρ, c ≠ a.1 → (s.goOn a.1 p).prog c = s.prog c :=
    fun p hc => Function.update_of_ne hc ..
  by_cases hc : c = a.1
  · subst hc
    have hc := hinv a.1
    rcases step_cases raw h with ⟨_, _, r, hp, rfl⟩ | ⟨_, _, r, hp, hr, rfl⟩ |
      ⟨t, next, hp, _, _, rfl⟩ <;> rw [hp] at hc <;>
      simp only [reduceCtorEq, false_and, exists_false, or_false] at hc <;>
      simp only [goOn, Function.update_self]
    · exact Or.inl ⟨hc.1 r, hc.2⟩
    · rcases hr with rfl | rfl
      · exact Or.inl ⟨hc.1.2.1, hc.2⟩
      · exact Or.inl ⟨hc.1.2.2, hc.2⟩
    · exact Or.inr hc.1.1
  · have hc' := hinv c
    rcases step_cases raw h with ⟨_, _, r, hp, rfl⟩ | ⟨_, _, r, hp, hr, rfl⟩ |
      ⟨t, next, hp, _, _, rfl⟩ <;> simp only [hother _ hc]
    · exact hc'
    · exact hc'
    · refine hc'.imp (fun h => ⟨h.1, fun t' ht' => ?_⟩) id
      rcases List.mem_append.mp ht' with ht' | ht'
      · exact h.2 t' ht'
      · exact hc (Prod.mk.inj (List.mem_singleton.mp ht')).1

/-- The store is what the committed transactions make of it. -/
theorem run_db_eq {db : Store V} {prog : ℕ → Prog V ρ} {s : System V ρ} {as : List (ℕ × Bool)}
    (hrun : run (step raw) (start db prog) as = some s) :
    s.db = s.log.foldl (fun db e => e.2.apply db) db := by
  refine run_preserves (step raw)
    (I := fun s => s.db = s.log.foldl (fun db e => e.2.apply db) db) ?_ rfl hrun
  rintro s a s' hinv h
  rcases step_cases raw h with ⟨_, _, r, hp, rfl⟩ | ⟨_, _, r, hp, hr, rfl⟩ |
    ⟨t, next, hp, _, _, rfl⟩
  · exact hinv
  · exact hinv
  · simp only [List.foldl_append, ← hinv]
    rfl

/-- What is stored was there from the start or has been put by a committed transaction. -/
theorem run_db_eq_some {db : Store V} {prog : ℕ → Prog V ρ} {s : System V ρ} {as : List (ℕ × Bool)}
    (hrun : run (step raw) (start db prog) as = some s) {key : String} {v : V}
    (h : s.db key = some v) : db key = some v ∨ ∃ e ∈ s.log, .put key v ∈ e.2.ops := by
  rw [run_db_eq hrun] at h
  clear hrun
  generalize s.log = log at h ⊢
  induction log generalizing db with
  | nil => exact Or.inl h
  | cons e log ih =>
      rcases ih h with h | ⟨e', he', hput⟩
      · exact (applyOps_eq_some h).imp id fun hput => ⟨e, List.mem_cons_self, hput⟩
      · exact Or.inr ⟨e', List.mem_cons_of_mem _ he', hput⟩

/-- A step commits nothing or one transaction of its client. -/
theorem step_log {s s' : System V ρ} {a : ℕ × Bool} (h : step raw s a = some s') :
    s'.db = s.db ∧ s'.log = s.log ∨ ∃ t, s'.log = s.log ++ [(a.1, t)] := by
  rcases step_cases raw h with ⟨_, _, _, _, rfl⟩ | ⟨_, _, _, _, _, rfl⟩ | ⟨t, _, _, _, _, rfl⟩
  · exact Or.inl ⟨rfl, rfl⟩
  · exact Or.inl ⟨rfl, rfl⟩
  · exact Or.inr ⟨t, rfl⟩

theorem run_log_subset {s s' : System V ρ} {as : List (ℕ × Bool)}
    (hrun : run (step raw) s as = some s') : s.log ⊆ s'.log := by
  refine run_preserves (step raw) (I := fun s' => s.log ⊆ s'.log) ?_ (List.Subset.refl _) hrun
  rintro s₁ a s₂ hsub h
  rcases step_log h with ⟨_, heq⟩ | ⟨t, heq⟩
  · rw [heq]; exact hsub
  · rw [heq]; exact List.subset_append_of_subset_left _ hsub

/-- No step of a client that does not end with a result in `Q` has changed the store. -/
theorem run_unchanged {Q : ρ → Prop} {db : Store V} {prog : ℕ → Prog V ρ}
    (hQ : ∀ c, (prog c).OneCommit Q) {s s₁ s₂ : System V ρ} {as₁ as₂ : List (ℕ × Bool)}
    {a : ℕ × Bool} (hrun₁ : run (step raw) (start db prog) as₁ = some s₁)
    (hstep : step raw s₁ a = some s₂) (hrun₂ : run (step raw) s₂ as₂ = some s)
    (hres : ∀ r, s.prog a.1 = .ret r → ¬ Q r) : s₂.db = s₁.db := by
  rcases step_log hstep with ⟨heq, _⟩ | ⟨t, heq⟩
  · exact heq
  · have hmem : (a.1, t) ∈ s.log := run_log_subset hrun₂ (by rw [heq]; simp)
    have hrun : run (step raw) (start db prog) (as₁ ++ a :: as₂) = some s :=
      (run_append _).mpr ⟨s₁, hrun₁, (run_cons_eq_some _).mpr ⟨s₂, hstep, hrun₂⟩⟩
    rcases run_oneCommit hQ hrun a.1 with ⟨_, hno⟩ | ⟨r, hr, hq⟩
    · exact absurd hmem (hno t)
    · exact absurd hq (hres r hr)

end rules

end System

end TxnStore
