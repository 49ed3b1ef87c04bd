import Mathlib.Data.List.Basic
import Mathlib.Logic.Function.Basic

/-! # Keyed tables under delete-then-add updates

A table holds at most one entry for a key: `Table κ α := κ → Option α`.  `delKeys` removes keys,
`addEntries` writes entries in order, a later one over an earlier one.

`Exact t D` says that `t` is a table of the derivable entries `D`: it holds a key iff some entry
of that key is derivable, and what it holds is derivable.  When every key has one derivable
entry this is equality (`exact_iff_of_functional`).

`exact_update_iff` is the law of incremental maintenance.  The derivable entries before the
update are split into those that are untouched (`kept`) and those that lose their support
(`dying`), those after it are the untouched and the new ones (`born`).  Deleting the keys of the
dying entries and then adding the new ones gives an exact table iff no key loses an entry, keeps
another one and gains none. -/

namespace KeyedTable

variable {κ α : Type}

/-- At most one entry for every key. -/
abbrev Table (κ α : Type) := κ → Option α

section updates
variable [DecidableEq κ]

/-- Remove the keys, in order. -/
def delKeys : List κ → Table κ α → Table κ α
  | [], t => t
  | k :: ks, t => delKeys ks (Function.update t k none)

/-- Write the entries, in order. -/
def addEntries : List (κ × α) → Table κ α → Table κ α
  | [], t => t
  | e :: es, t => addEntries es (Function.update t e.1 (some e.2))

theorem delKeys_apply (ks : List κ) (t : Table κ α) (k : κ) :
    delKeys ks t k = if k ∈ ks then none else t k := by
  induction ks generalizing t with
  | nil => simp [delKeys]
  | cons j ks ih =>
      rw [delKeys, ih]
      by_cases hk : k ∈ ks
      · simp [hk]
      · by_cases hj : k = j
        · subst hj; simp
        · simp [hk, hj]

theorem addEntries_append (es fs : List (κ × α)) (t : Table κ α) :
    addEntries (es ++ fs) t = addEntries fs (addEntries es t) := by
  induction es generalizing t with
  | nil => rfl
  | cons e es ih => exact ih _

/-- A key that no entry writes keeps its entry. -/
theorem addEntries_of_not_mem {es : List (κ × α)} {k : κ} (h : ∀ a, (k, a) ∉ es) (t : Table κ α) :
    addEntries es t k = t k := by
  induction es generalizing t with
  | nil => rfl
  | cons e es ih =>
      have hne : k ≠ e.1 := fun hk => h e.2 (by rw [hk]; exact List.mem_cons_self)
      rw [addEntries, ih (fun a ha => h a (List.mem_cons_of_mem _ ha)), Function.update_of_ne hne]

/-- A key that some entry writes ends with one of these entries. -/
theorem addEntries_of_mem {es : List (κ × α)} {k : κ} {a : α} (h : (k, a) ∈ es) (t : Table κ α) :
    ∃ b, (k, b) ∈ es ∧ addEntries es t k = some b := by
  induction es generalizing t a with
  | nil => cases h
  | cons e es ih =>
      by_cases hes : ∃ b, (k, b) ∈ es
      · obtain ⟨b, hb⟩ := hes
        obtain ⟨c, hc, hcv⟩ := ih hb (Function.update t e.1 (some e.2))
        exact ⟨c, List.mem_cons_of_mem _ hc, hcv⟩
      · have hes' : ∀ b, (k, b) ∉ es := fun b hb => hes ⟨b, hb⟩
        rcases List.mem_cons.mp h with rfl | h
        · refine ⟨a, List.mem_cons_self, ?_⟩
          rw [addEntries, addEntries_of_not_mem hes', Function.update_self]
        · exact absurd h (hes' a)

/-- Entries that are written before all of a list that contains them make no difference. -/
theorem addEntries_absorb {es es' : List (κ × α)} (h : es ⊆ es') (t : Table κ α) :
    addEntries es' (addEntries es t) = addEntries es' t := by
  have hagree : ∀ (l : List (κ × α)) (t₁ t₂ : Table κ α) (k : κ),
      (∃ a, (k, a) ∈ l) ∨ t₁ k = t₂ k → addEntries l t₁ k = addEntries l t₂ k := by
    intro l
    induction l with
    | nil =>
        intro t₁ t₂ k hk
        rcases hk with ⟨_, hk⟩ | hk
        · cases hk
        · exact hk
    | cons e l ih =>
        intro t₁ t₂ k hk
        refine ih _ _ k ?_
        by_cases he : k = e.1
        · subst he
          exact Or.inr (by rw [Function.update_self, Function.update_self])
        · rw [Function.update_of_ne he, Function.update_of_ne he]
          rcases hk with ⟨a, hk⟩ | hk
          · rcases List.mem_cons.mp hk with rfl | hk
            · exact absurd rfl he
            · exact Or.inl ⟨a, hk⟩
          · exact Or.inr hk
  funext k
  refine hagree es' _ _ k ?_
  by_cases hk : ∃ a, (k, a) ∈ es
  · obtain ⟨a, ha⟩ := hk
    exact Or.inl ⟨a, h ha⟩
  · exact Or.inr (addEntries_of_not_mem (fun a ha => hk ⟨a, ha⟩) t)

end updates

/-- `t` is a table of the derivable entries `D`. -/
def Exact (t : Table κ α) (D : κ → α → Prop) : Prop :=
  ∀ k, (∀ a, t k = some a → D k a) ∧ (t k = none → ∀ a, ¬ D k a)

theorem exact_empty : Exact (fun _ : κ => (none : Option α)) (fun _ _ => False) :=
  fun _ => ⟨nofun, fun _ _ h => h⟩

theorem Exact.congr {t : Table κ α} {D D' : κ → α → Prop} (h : Exact t D)
    (hD : ∀ k a, D k a ↔ D' k a) : Exact t D' :=
  fun k => ⟨fun a ha => (hD k a).mp ((h k).1 a ha), fun hn a ha => (h k).2 hn a ((hD k a).mpr ha)⟩

/-- With one derivable entry for a key, an exact table holds exactly the derivable entries. -/
theorem exact_iff_of_functional {t : Table κ α} {D : κ → α → Prop}
    (hD : ∀ k a b, D k a → D k b → a = b) : Exact t D ↔ ∀ k a, t k = some a ↔ D k a := by
  constructor
  · intro h k a
    refine ⟨(h k).1 a, fun ha => ?_⟩
    cases ht : t k with
    | none => exact absurd ha ((h k).2 ht a)
    | some b => rw [hD k a b ha ((h k).1 b ht)]
  · intro h k
    refine ⟨fun a => (h k a).mp, fun hn a ha => ?_⟩
    rw [(h k a).mpr ha] at hn
    cases hn

section maintenance
variable [DecidableEq κ] {t : Table κ α} {old kept born : κ → α → Prop} {dying : κ → Prop}
  {dels : List κ} {adds : List (κ × α)}

/-- **Incremental maintenance**: delete the keys of dying entries, then add the new entries.  The
result is exact iff every key that loses an entry while another one is untouched gains one. -/
theorem exact_update_iff (ht : Exact t old) (hkept : ∀ k a, kept k a → old k a)
    (hold : ∀ k a, old k a → kept k a ∨ dying k) (hdels : ∀ k, k ∈ dels ↔ dying k)
    (hadds : ∀ k a, (k, a) ∈ adds ↔ born k a) :
    Exact (addEntries adds (delKeys dels t)) (fun k a => kept k a ∨ born k a) ↔
      ∀ k, dying k → (∃ a, kept k a) → ∃ a, born k a := by
  have hcase : ∀ k, (¬ ∃ a, born k a) →
      addEntries adds (delKeys dels t) k = if k ∈ dels then none else t k := by
    intro k hk
    rw [addEntries_of_not_mem (fun a ha => hk ⟨a, (hadds k a).mp ha⟩), delKeys_apply]
  constructor
  · intro h k hd ⟨a, ha⟩
    by_contra hb
    have hnone := hcase k hb
    rw [if_pos ((hdels k).mpr hd)] at hnone
    exact (h k).2 hnone a (Or.inl ha)
  · intro h k
    by_cases hb : ∃ a, born k a
    · obtain ⟨a, ha⟩ := hb
      obtain ⟨b, hmem, hv⟩ := addEntries_of_mem ((hadds k a).mpr ha) (delKeys dels t)
      refine ⟨fun c hc => ?_, fun hn => ?_⟩
      · rw [hv, Option.some.injEq] at hc
        rw [← hc]
        exact Or.inr ((hadds k b).mp hmem)
      · rw [hv] at hn; cases hn
    · rw [hcase k hb]
      by_cases hd : k ∈ dels
      · -- nothing is untouched and nothing is new: the key has no derivable entry left
        rw [if_pos hd]
        refine ⟨nofun, fun _ a ha => ?_⟩
        rcases ha with ha | ha
        · exact hb (h k ((hdels k).mp hd) ⟨a, ha⟩)
        · exact hb ⟨a, ha⟩
      · -- nothing dies: the table keeps the entry it held
        rw [if_neg hd]
        refine ⟨fun a ha => ?_, fun hn a ha => ?_⟩
        · rcases hold k a ((ht k).1 a ha) with h' | h'
          · exact Or.inl h'
          · exact absurd ((hdels k).mpr h') hd
        · rcases ha with ha | ha
          · exact (ht k).2 hn a (hkept k a ha)
          · exact hb ⟨a, ha⟩

end maintenance

end KeyedTable
