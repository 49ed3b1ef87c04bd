import Mathlib.Data.List.Basic

/-! # Joins over a base of tagged facts

A `Rule δ τ α` derives values of type `α` from a base of facts `δ × τ`: a datum and a tag that
records its standing (`τ` is whatever the user of the rule attaches to facts).  Every derived
value comes with the facts that support it, in the order in which the join reads them.

A rule is built from `fact` (match one fact), `guard` (a condition on what was matched),
monadic sequencing (join) and `orElse` (union), so a rule body is written in the order of the
source.  The field `mem_eval` is what makes a rule a rule: a value is derived from a base with a
given support iff the support satisfies the body (`holds`, which does not see the tags) and
consists of facts of the base.  Hence derivability is local and monotone, and restricting the
base to the facts with certain tags restricts the derivations to those supported there. -/

namespace Datalog

variable {δ τ α β : Type}

/-- A join over tagged facts. -/
structure Rule (δ τ α : Type) where
  /-- The derived values with their supports. -/
  eval : List (δ × τ) → List (α × List (δ × τ))
  /-- The data `sup` satisfy the body and give the value. -/
  holds : α → List δ → Prop
  /-- A derivation is a satisfied body whose support lies in the base. -/
  mem_eval : ∀ B a sup, (a, sup) ∈ eval B ↔ holds a (sup.map Prod.fst) ∧ ∀ x ∈ sup, x ∈ B

namespace Rule

/-- No premise. -/
def pure (a : α) : Rule δ τ α where
  eval _ := [(a, [])]
  holds b sup := b = a ∧ sup = []
  mem_eval B b sup := by
    simp only [List.mem_singleton, Prod.mk.injEq, List.map_eq_nil_iff]
    constructor
    · rintro ⟨rfl, rfl⟩; simp
    · rintro ⟨⟨rfl, rfl⟩, _⟩; simp

/-- One fact that `p` recognises. -/
def fact (p : δ → Option α) : Rule δ τ α where
  eval B := B.filterMap (fun x => (p x.1).map (fun a => (a, [x])))
  holds a sup := ∃ d, sup = [d] ∧ p d = some a
  mem_eval B a sup := by
    simp only [List.mem_filterMap, Option.map_eq_some_iff, Prod.mk.injEq]
    constructor
    · rintro ⟨x, hx, b, hb, rfl, rfl⟩
      exact ⟨⟨x.1, rfl, hb⟩, by simpa using hx⟩
    · rintro ⟨⟨d, hd, hp⟩, hB⟩
      obtain ⟨x, rfl, rfl⟩ : ∃ x, sup = [x] ∧ x.1 = d := by
        match sup, hd with
        | [x], h => exact ⟨x, rfl, by simpa using h⟩
      exact ⟨x, hB x List.mem_cons_self, a, hp, rfl, rfl⟩

/-- Join: first `m`, then `f` of what it derived. -/
def bind (m : Rule δ τ α) (f : α → Rule δ τ β) : Rule δ τ β where
  eval B := (m.eval B).flatMap
    (fun x => ((f x.1).eval B).map (fun y => (y.1, x.2 ++ y.2)))
  holds b sup := ∃ a s₁ s₂, m.holds a s₁ ∧ (f a).holds b s₂ ∧ sup = s₁ ++ s₂
  mem_eval B b sup := by
    simp only [List.mem_flatMap, List.mem_map, Prod.mk.injEq, Prod.exists]
    constructor
    · rintro ⟨a, s₁, h1, b', s₂, h2, rfl, rfl⟩
      rw [m.mem_eval] at h1
      rw [(f a).mem_eval] at h2
      refine ⟨⟨a, _, _, h1.1, h2.1, List.map_append⟩, fun x hx => ?_⟩
      rcases List.mem_append.mp hx with hx | hx
      · exact h1.2 x hx
      · exact h2.2 x hx
    · rintro ⟨⟨a, s₁, s₂, h1, h2, hs⟩, hB⟩
      obtain ⟨t₁, t₂, rfl, rfl, rfl⟩ := List.map_eq_append_iff.mp hs
      refine ⟨a, t₁, (m.mem_eval B a t₁).mpr ⟨h1, fun x hx => hB x ?_⟩, b, t₂,
        ((f a).mem_eval B b t₂).mpr ⟨h2, fun x hx => hB x ?_⟩, rfl, rfl⟩
      · exact List.mem_append_left _ hx
      · exact List.mem_append_right _ hx

/-- A condition; it reads no fact. -/
def guard (p : Prop) [Decidable p] : Rule δ τ Unit where
  eval _ := if p then [((), [])] else []
  holds _ sup := p ∧ sup = []
  mem_eval B a sup := by
    by_cases hp : p
    · simp only [hp, if_true, List.mem_singleton, Prod.mk.injEq, List.map_eq_nil_iff, true_and]
      constructor
      · rintro rfl; simp
      · rintro ⟨rfl, _⟩; rfl
    · simp [hp]

/-- Union of two rules. -/
def orElse (m₁ m₂ : Rule δ τ α) : Rule δ τ α where
  eval B := m₁.eval B ++ m₂.eval B
  holds a sup := m₁.holds a sup ∨ m₂.holds a sup
  mem_eval B a sup := by
    rw [List.mem_append, m₁.mem_eval, m₂.mem_eval, or_and_right]

instance : Monad (Rule δ τ) where
  pure := Rule.pure
  bind := Rule.bind

/-- Union of a list of rules. -/
def oneOf : List (Rule δ τ α) → Rule δ τ α
  | [] => { eval := fun _ => [], holds := fun _ _ => False, mem_eval := by simp }
  | m :: ms => m.orElse (oneOf ms)

/-! ### Derivability -/

/-- `a` is derivable from facts of the base whose tags satisfy `P`. -/
def Derives (r : Rule δ τ α) (B : List (δ × τ)) (P : τ → Prop) (a : α) : Prop :=
  ∃ sup : List (δ × τ), r.holds a (sup.map Prod.fst) ∧ ∀ x ∈ sup, x ∈ B ∧ P x.2

/-- `a` is derivable from the data in `S`, whatever their tags. -/
def DerivesFrom (r : Rule δ τ α) (S : δ → Prop) (a : α) : Prop :=
  ∃ sup, r.holds a sup ∧ ∀ d ∈ sup, S d

theorem derives_iff_eval {r : Rule δ τ α} {B : List (δ × τ)} {P : τ → Prop} {a : α} :
    r.Derives B P a ↔ ∃ sup, (a, sup) ∈ r.eval B ∧ ∀ x ∈ sup, P x.2 := by
  constructor
  · rintro ⟨sup, h, hs⟩
    exact ⟨sup, (r.mem_eval B a sup).mpr ⟨h, fun x hx => (hs x hx).1⟩, fun x hx => (hs x hx).2⟩
  · rintro ⟨sup, h, hs⟩
    rw [r.mem_eval] at h
    exact ⟨sup, h.1, fun x hx => ⟨h.2 x hx, hs x hx⟩⟩

/-- Derivability with admissible tags is derivability from the data that carry such a tag. -/
theorem derives_iff_derivesFrom {r : Rule δ τ α} {B : List (δ × τ)} {P : τ → Prop} {a : α} :
    r.Derives B P a ↔ r.DerivesFrom (fun d => ∃ t, (d, t) ∈ B ∧ P t) a := by
  constructor
  · rintro ⟨sup, h, hs⟩
    refine ⟨sup.map Prod.fst, h, fun d hd => ?_⟩
    obtain ⟨x, hx, rfl⟩ := List.mem_map.mp hd
    exact ⟨x.2, hs x hx⟩
  · rintro ⟨sup, h, hs⟩
    -- choose a tag for every datum of the support
    have : ∃ sup' : List (δ × τ), sup'.map Prod.fst = sup ∧ ∀ x ∈ sup', x ∈ B ∧ P x.2 := by
      clear h
      induction sup with
      | nil => exact ⟨[], rfl, by simp⟩
      | cons d sup ih =>
          obtain ⟨t, ht⟩ := hs d List.mem_cons_self
          obtain ⟨sup', h1, h2⟩ := ih (fun e he => hs e (List.mem_cons_of_mem _ he))
          refine ⟨(d, t) :: sup', by rw [List.map_cons, h1], fun x hx => ?_⟩
          rcases List.mem_cons.mp hx with rfl | hx
          · exact ht
          · exact h2 x hx
    obtain ⟨sup', rfl, h2⟩ := this
    exact ⟨sup', h, h2⟩

/-- Facts of one base that stand for facts of another one, with the same data, support the same
values. -/
theorem exists_eval_of_forall {r : Rule δ τ α} {B B' : List (δ × τ)} {R : δ × τ → δ × τ → Prop}
    (hR : ∀ y ∈ B', ∃ x ∈ B, x.1 = y.1 ∧ R x y) {a : α} {sup' : List (δ × τ)}
    (h : (a, sup') ∈ r.eval B') : ∃ sup, (a, sup) ∈ r.eval B ∧ List.Forall₂ R sup sup' := by
  obtain ⟨hholds, hmem⟩ := (r.mem_eval B' a sup').mp h
  have hlift : ∃ sup : List (δ × τ), sup.map Prod.fst = sup'.map Prod.fst ∧ (∀ x ∈ sup, x ∈ B) ∧
      List.Forall₂ R sup sup' := by
    clear h hholds
    induction sup' with
    | nil => exact ⟨[], rfl, nofun, List.Forall₂.nil⟩
    | cons y sup' ih =>
        obtain ⟨x, hx, hfst, hxy⟩ := hR y (hmem y List.mem_cons_self)
        obtain ⟨sup, hmap, hB, hall⟩ := ih fun z hz => hmem z (List.mem_cons_of_mem _ hz)
        refine ⟨x :: sup, by rw [List.map_cons, List.map_cons, hfst, hmap], fun z hz => ?_,
          hall.cons hxy⟩
        rcases List.mem_cons.mp hz with rfl | hz
        · exact hx
        · exact hB z hz
  obtain ⟨sup, hmap, hB, hall⟩ := hlift
  exact ⟨sup, (r.mem_eval B a sup).mpr ⟨hmap ▸ hholds, hB⟩, hall⟩

theorem DerivesFrom.mono {r : Rule δ τ α} {S S' : δ → Prop} {a : α} (h : r.DerivesFrom S a)
    (hS : ∀ d, S d → S' d) : r.DerivesFrom S' a := by
  obtain ⟨sup, h1, h2⟩ := h
  exact ⟨sup, h1, fun d hd => hS d (h2 d hd)⟩

@[simp] theorem derivesFrom_pure {S : δ → Prop} {a b : α} :
    (Pure.pure a : Rule δ τ α).DerivesFrom S b ↔ b = a := by
  constructor
  · rintro ⟨sup, ⟨h, _⟩, _⟩
    exact h
  · rintro rfl
    exact ⟨[], ⟨rfl, rfl⟩, by simp⟩

@[simp] theorem derivesFrom_guard {S : δ → Prop} {p : Prop} [Decidable p] {u : Unit} :
    (guard p : Rule δ τ Unit).DerivesFrom S u ↔ p := by
  constructor
  · rintro ⟨sup, ⟨h, _⟩, _⟩
    exact h
  · intro h
    exact ⟨[], ⟨h, rfl⟩, by simp⟩

@[simp] theorem derivesFrom_fact {S : δ → Prop} {p : δ → Option α} {a : α} :
    (fact p : Rule δ τ α).DerivesFrom S a ↔ ∃ d, S d ∧ p d = some a := by
  constructor
  · rintro ⟨sup, ⟨d, rfl, hp⟩, hS⟩
    exact ⟨d, hS d List.mem_cons_self, hp⟩
  · rintro ⟨d, hd, hp⟩
    exact ⟨[d], ⟨d, rfl, hp⟩, by simpa using hd⟩

@[simp] theorem derivesFrom_bind {S : δ → Prop} {m : Rule δ τ α} {f : α → Rule δ τ β} {b : β} :
    (m >>= f).DerivesFrom S b ↔ ∃ a, m.DerivesFrom S a ∧ (f a).DerivesFrom S b := by
  constructor
  · rintro ⟨sup, ⟨a, s₁, s₂, h₁, h₂, rfl⟩, hS⟩
    exact ⟨a, ⟨s₁, h₁, fun d hd => hS d (List.mem_append_left _ hd)⟩,
      ⟨s₂, h₂, fun d hd => hS d (List.mem_append_right _ hd)⟩⟩
  · rintro ⟨a, ⟨s₁, h₁, hS₁⟩, ⟨s₂, h₂, hS₂⟩⟩
    refine ⟨s₁ ++ s₂, ⟨a, s₁, s₂, h₁, h₂, rfl⟩, fun d hd => ?_⟩
    exact (List.mem_append.mp hd).elim (hS₁ d) (hS₂ d)

@[simp] theorem derivesFrom_oneOf_nil {S : δ → Prop} {a : α} :
    ¬ (oneOf [] : Rule δ τ α).DerivesFrom S a := by
  rintro ⟨sup, h, _⟩
  exact h

@[simp] theorem derivesFrom_oneOf_cons {S : δ → Prop} {r : Rule δ τ α} {rs : List (Rule δ τ α)}
    {a : α} :
    (oneOf (r :: rs)).DerivesFrom S a ↔ r.DerivesFrom S a ∨ (oneOf rs).DerivesFrom S a := by
  constructor
  · rintro ⟨sup, h | h, hS⟩
    · exact Or.inl ⟨sup, h, hS⟩
    · exact Or.inr ⟨sup, h, hS⟩
  · rintro (⟨sup, h, hS⟩ | ⟨sup, h, hS⟩)
    · exact ⟨sup, Or.inl h, hS⟩
    · exact ⟨sup, Or.inr h, hS⟩

/-- A rule that only computes from what another one derives. -/
theorem mem_eval_bind_pure {m : Rule δ τ α} {g : α → β} {B : List (δ × τ)} {b : β}
    {sup : List (δ × τ)} : (b, sup) ∈ (m >>= fun a => Pure.pure (g a)).eval B ↔
      ∃ a, (a, sup) ∈ m.eval B ∧ b = g a := by
  change (b, sup) ∈ (m.eval B).flatMap (fun y => [(g y.1, y.2 ++ [])]) ↔ _
  simp only [List.append_nil, List.mem_flatMap, List.mem_singleton, Prod.mk.injEq]
  constructor
  · rintro ⟨y, hy, rfl, rfl⟩
    exact ⟨y.1, hy, rfl⟩
  · rintro ⟨a, ha, rfl⟩
    exact ⟨_, ha, rfl, rfl⟩

/-! ### Number of premises -/

/-- Every derivation reads at most `n` facts. -/
def AtMost (n : ℕ) (r : Rule δ τ α) : Prop := ∀ a sup, r.holds a sup → sup.length ≤ n

theorem AtMost.mono {m n : ℕ} {r : Rule δ τ α} (h : AtMost m r) (hmn : m ≤ n) : AtMost n r :=
  fun a sup ha => Nat.le_trans (h a sup ha) hmn

theorem atMost_pure (a : α) : AtMost 0 (Pure.pure a : Rule δ τ α) := by
  rintro b sup ⟨_, rfl⟩
  simp

theorem atMost_guard (p : Prop) [Decidable p] : AtMost 0 (guard p : Rule δ τ Unit) := by
  rintro b sup ⟨_, rfl⟩
  simp

theorem atMost_fact (p : δ → Option α) : AtMost 1 (fact p : Rule δ τ α) := by
  rintro a sup ⟨d, rfl, _⟩
  simp

theorem atMost_bind {m n : ℕ} {r : Rule δ τ α} {f : α → Rule δ τ β} (hr : AtMost m r)
    (hf : ∀ a, AtMost n (f a)) : AtMost (m + n) (r >>= f) := by
  rintro b sup ⟨a, s₁, s₂, h1, h2, rfl⟩
  rw [List.length_append]
  exact Nat.add_le_add (hr a s₁ h1) (hf a b s₂ h2)

theorem atMost_guard_bind {n : ℕ} {p : Prop} [Decidable p] {f : Unit → Rule δ τ β}
    (hf : ∀ u, AtMost n (f u)) : AtMost n ((guard p : Rule δ τ Unit) >>= f) :=
  (atMost_bind (atMost_guard p) hf).mono (Nat.le_of_eq (Nat.zero_add n))

theorem atMost_fact_bind {n : ℕ} {p : δ → Option α} {f : α → Rule δ τ β}
    (hf : ∀ a, AtMost n (f a)) : AtMost (n + 1) ((fact p : Rule δ τ α) >>= f) :=
  (atMost_bind (atMost_fact p) hf).mono (Nat.le_of_eq (Nat.add_comm 1 n))

theorem atMost_pure_le {n : ℕ} (a : α) : AtMost n (Pure.pure a : Rule δ τ α) :=
  (atMost_pure a).mono (Nat.zero_le n)

theorem atMost_orElse {n : ℕ} {r₁ r₂ : Rule δ τ α} (h₁ : AtMost n r₁) (h₂ : AtMost n r₂) :
    AtMost n (r₁.orElse r₂) := by
  rintro a sup (h | h)
  · exact h₁ a sup h
  · exact h₂ a sup h

theorem atMost_oneOf {n : ℕ} {rs : List (Rule δ τ α)} (h : ∀ r ∈ rs, AtMost n r) :
    AtMost n (oneOf rs) := by
  induction rs with
  | nil => rintro a sup ⟨⟩
  | cons r rs ih =>
      exact atMost_orElse (h r List.mem_cons_self)
        (ih (fun r' hr => h r' (List.mem_cons_of_mem _ hr)))

theorem holds_oneOf {rs : List (Rule δ τ α)} {r : Rule δ τ α} (hr : r ∈ rs) {a : α} {sup : List δ}
    (h : r.holds a sup) : (oneOf rs).holds a sup := by
  induction rs with
  | nil => cases hr
  | cons r' rs ih =>
      rcases List.mem_cons.mp hr with rfl | hr
      · exact Or.inl h
      · exact Or.inr (ih hr)

theorem DerivesFrom.oneOf {rs : List (Rule δ τ α)} {r : Rule δ τ α} (hr : r ∈ rs) {S : δ → Prop}
    {a : α} (h : r.DerivesFrom S a) : (Rule.oneOf rs).DerivesFrom S a := by
  obtain ⟨sup, hholds, hS⟩ := h
  exact ⟨sup, holds_oneOf hr hholds, hS⟩

/-! ### Shapes -/

/-- Everything that is derived satisfies `P`. -/
def Only (P : α → Prop) (r : Rule δ τ α) : Prop := ∀ a sup, r.holds a sup → P a

theorem Only.of_derives {P : α → Prop} {r : Rule δ τ α} (h : Only P r) {S : δ → Prop} {a : α}
    (ha : r.DerivesFrom S a) : P a := by
  obtain ⟨sup, hholds, _⟩ := ha
  exact h a sup hholds

theorem only_pure {P : α → Prop} {a : α} (h : P a) : Only P (Pure.pure a : Rule δ τ α) := by
  rintro b sup ⟨rfl, _⟩
  exact h

theorem only_bind {P : β → Prop} {r : Rule δ τ α} {f : α → Rule δ τ β} (h : ∀ a, Only P (f a)) :
    Only P (r >>= f) := by
  rintro b sup ⟨a, s₁, s₂, _, h2, _⟩
  exact h a b s₂ h2

theorem only_oneOf {P : α → Prop} {rs : List (Rule δ τ α)} (h : ∀ r ∈ rs, Only P r) :
    Only P (oneOf rs) := by
  induction rs with
  | nil => rintro a sup ⟨⟩
  | cons r rs ih =>
      rintro a sup (ha | ha)
      · exact h r List.mem_cons_self a sup ha
      · exact ih (fun r' hr => h r' (List.mem_cons_of_mem _ hr)) a sup ha

/-- What is computed from values of one shape. -/
theorem Only.map {P : α → Prop} {Q : β → Prop} {r : Rule δ τ α} (h : Only P r) {g : α → β}
    (hg : ∀ a, P a → Q (g a)) : Only Q (r >>= fun a => Pure.pure (g a)) := by
  rintro b sup ⟨a, s₁, s₂, h1, ⟨rfl, _⟩, _⟩
  exact hg a (h a s₁ h1)

end Rule

end Datalog
