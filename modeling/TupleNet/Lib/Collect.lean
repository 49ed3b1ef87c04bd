import TupleNet.Lib.Machine
import Mathlib.Data.Finset.Card
import Mathlib.Algebra.Group.Nat.Defs

/-! # Collecting different keys

A loop draws from a pool, throws away what has a key that it has met before, and goes on until it
has as many different keys as it wants.  Which draws come is left open.  The loop can always be
brought to its end exactly when it wants no more keys than the pool has (`canFinish_iff`). -/

namespace Collect

open StepMachine

variable {δ κ : Type} [DecidableEq δ] [DecidableEq κ] (key : δ → κ) (pool : List δ) (goal : ℤ)

/-- The keys of the pool. -/
def keys : Finset κ := (pool.map key).toFinset

/-- A draw, while keys are missing; the state has the keys that are collected. -/
def step (s : Finset κ) (d : δ) : Option (Finset κ) :=
  if (s.card : ℤ) < goal ∧ d ∈ pool then some (insert (key d) s) else none

/-- From every state of a run the loop can be brought to its end. -/
def CanFinish : Prop :=
  ∀ ds s, run (step key pool goal) ∅ ds = some s →
    ∃ ds' s', run (step key pool goal) s ds' = some s' ∧ goal ≤ s'.card

section
variable {key pool goal}

omit [DecidableEq δ] in
theorem mem_keys {d : δ} (h : d ∈ pool) : key d ∈ keys key pool :=
  List.mem_toFinset.mpr (List.mem_map_of_mem h)

theorem subset_step {s s' : Finset κ} {d : δ} (hs : s ⊆ keys key pool)
    (h : step key pool goal s d = some s') : s' ⊆ keys key pool := by
  unfold step at h
  split_ifs at h with hdraw
  obtain rfl := Option.some.inj h
  exact Finset.insert_subset (mem_keys hdraw.2) hs

theorem subset_run {s s' : Finset κ} {ds : List δ} (hs : s ⊆ keys key pool)
    (h : run (step key pool goal) s ds = some s') : s' ⊆ keys key pool :=
  run_preserves _ (fun _ _ _ hs hstep => subset_step hs hstep) hs h

/-- With enough keys in the pool there is a way to the end. -/
theorem exists_run (hgoal : goal ≤ (keys key pool).card) (n : ℕ) {s : Finset κ}
    (hs : s ⊆ keys key pool) (hn : goal ≤ s.card + n) :
    ∃ ds s', run (step key pool goal) s ds = some s' ∧ goal ≤ s'.card := by
  induction n generalizing s with
  | zero => exact ⟨[], s, rfl, by omega⟩
  | succ n ih =>
      by_cases hdone : goal ≤ s.card
      · exact ⟨[], s, rfl, hdone⟩
      · have hlt : s.card < (keys key pool).card := by omega
        obtain ⟨k, hk, hnew⟩ := Finset.exists_mem_notMem_of_card_lt_card hlt
        obtain ⟨d, hd, rfl⟩ := List.mem_map.mp (List.mem_toFinset.mp hk)
        have hstep : step key pool goal s d = some (insert (key d) s) :=
          if_pos ⟨by omega, hd⟩
        have hcard := Finset.card_insert_of_notMem hnew
        obtain ⟨ds, s', hrun, hend⟩ :=
          ih (Finset.insert_subset hk hs) (by rw [hcard]; omega)
        exact ⟨d :: ds, s', (run_cons_eq_some _).mpr ⟨_, hstep, hrun⟩, hend⟩

end

/-- **The loop can always finish** iff it wants no more keys than there are. -/
theorem canFinish_iff : CanFinish key pool goal ↔ goal ≤ (keys key pool).card := by
  constructor
  · intro h
    obtain ⟨ds, s, hrun, hend⟩ := h [] ∅ rfl
    have hle := Finset.card_le_card (subset_run (Finset.empty_subset _) hrun)
    omega
  · intro h ds s hrun
    exact exists_run h goal.toNat (subset_run (Finset.empty_subset _) hrun) (by omega)

end Collect
