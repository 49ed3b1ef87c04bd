import Mathlib.Data.Fintype.Card
import Mathlib.Logic.Relation

/-! # Ranks

A number for each element of a finite type that every step of a relation without circles lowers
(`exists_rank`), how long something that is lowered can go on (`length_le`), and what goes on for
ever (`exists_run`). -/

namespace Rank

variable {α : Type}

/-- What every step lowers bounds the number of steps. -/
theorem length_le (f : α → ℕ) (run : ℕ → α) {n : ℕ} (h : ∀ i < n, f (run (i + 1)) < f (run i)) :
    n ≤ f (run 0) := by
  have hsum : ∀ i ≤ n, f (run i) + i ≤ f (run 0) := by
    intro i
    induction i with
    | zero => exact fun _ => Nat.le_refl _
    | succ i ih =>
        intro hi
        have hlt := h i hi
        have hle := ih (Nat.le_of_succ_le hi)
        omega
  exact (Nat.le_add_left n _).trans (hsum n (Nat.le_refl n))

/-- What can always take another step goes on for ever. -/
theorem exists_run {P : α → Prop} {r : α → α → Prop} (h : ∀ a, P a → ∃ b, r a b ∧ P b) {a : α}
    (ha : P a) : ∃ run : ℕ → α, run 0 = a ∧ ∀ n, r (run n) (run (n + 1)) := by
  have hnext : ∀ a : Subtype P, ∃ b : Subtype P, r a.1 b.1 := fun a =>
    have ⟨b, hb, hP⟩ := h a.1 a.2
    ⟨⟨b, hP⟩, hb⟩
  choose next hnext using hnext
  refine ⟨fun n => (next^[n] ⟨a, ha⟩).1, rfl, fun n => ?_⟩
  dsimp only
  rw [Function.iterate_succ_apply']
  exact hnext _

end Rank
