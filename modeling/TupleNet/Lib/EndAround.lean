import Mathlib.Data.Nat.ModEq
import Mathlib.Algebra.BigOperators.Group.List.Basic
import Mathlib.Algebra.GroupWithZero.Nat

/-! # End-around carry

Sums of digits in a base `b` in which every carry is added at the lowest digit again: addition in
the one's complement, when `b` is a power of two.  `fold` brings a number below `b` in this way.
The result is `0` for `0` only and else agrees with the number modulo `b - 1` (`fold_unique`), so it
does not matter in which order one adds and folds (`fold_add_fold`, `foldl_addCarry`), and a sum
together with its complement folds to the largest digit (`fold_add_complement`). -/

namespace EndAround

/-- All carries are added at the lowest digit. -/
def fold (b x : ℕ) : ℕ :=
  if 2 ≤ b ∧ b ≤ x then fold b (x % b + x / b) else x
termination_by x
decreasing_by
  have hmul := Nat.div_add_mod x b
  have hpos : 1 ≤ x / b := (Nat.one_le_div_iff (by omega)).mpr (by omega)
  have hle := Nat.mul_le_mul_right (x / b) (by omega : 2 ≤ b)
  omega

/-- The sum of two digits, with its carry. -/
def addCarry (b s h : ℕ) : ℕ := fold b (s + h)

section fold
variable {b : ℕ} (hb : 2 ≤ b)

theorem fold_of_lt {x : ℕ} (h : x < b) : fold b x = x := by
  rw [fold, if_neg]
  omega

include hb

theorem fold_of_le {x : ℕ} (h : b ≤ x) : fold b x = fold b (x % b + x / b) := by
  rw [fold, if_pos ⟨hb, h⟩]

/-- What the number has become: below the base, `0` for `0` only, the same modulo `b - 1`. -/
theorem fold_spec (x : ℕ) : fold b x < b ∧ (fold b x = 0 ↔ x = 0) ∧ fold b x ≡ x [MOD b - 1] := by
  induction x using fold.induct (b := b) with
  | case1 x h ih =>
      obtain ⟨hlt, hzero, hmod⟩ := ih
      have hdiv := Nat.div_add_mod x b
      have hpos : 1 ≤ x / b := (Nat.one_le_div_iff (by omega)).mpr h.2
      rw [fold_of_le hb h.2]
      refine ⟨hlt, hzero.trans (iff_of_false (by omega) (by omega)), hmod.trans ?_⟩
      have hone : b ≡ 1 [MOD b - 1] := by
        have hself : b - 1 + 1 ≡ 0 + 1 [MOD b - 1] :=
          (Nat.modEq_zero_iff_dvd.mpr (Nat.dvd_refl _)).add_right 1
        rwa [Nat.sub_add_cancel (by omega), Nat.zero_add] at hself
      calc x % b + x / b = 1 * (x / b) + x % b := by omega
        _ ≡ b * (x / b) + x % b [MOD b - 1] := (hone.symm.mul_right _).add_right _
        _ = x := hdiv
  | case2 x h =>
      have hx : x < b := by omega
      rw [fold_of_lt hx]
      exact ⟨hx, Iff.rfl, Nat.ModEq.refl x⟩

/-- No other number is like that. -/
theorem fold_unique {x y : ℕ} (hy : y < b) (hzero : y = 0 ↔ x = 0) (hmod : y ≡ x [MOD b - 1]) :
    fold b x = y := by
  obtain ⟨hlt, hzero', hmod'⟩ := fold_spec hb x
  by_cases hx : x = 0
  · rw [hzero'.mpr hx, hzero.mpr hx]
  · have h1 : fold b x ≠ 0 := mt hzero'.mp hx
    have h2 : y ≠ 0 := mt hzero.mp hx
    have hsame : fold b x - 1 + 1 ≡ y - 1 + 1 [MOD b - 1] := by
      rw [Nat.sub_add_cancel (by omega), Nat.sub_add_cancel (by omega)]
      exact hmod'.trans hmod.symm
    have heq := (hsame.add_right_cancel' 1).eq_of_lt_of_lt (by omega) (by omega)
    omega

theorem fold_add_fold (x y : ℕ) : fold b (fold b x + y) = fold b (x + y) := by
  obtain ⟨_, hzero, hmod⟩ := fold_spec hb x
  obtain ⟨hlt, hzero', hmod'⟩ := fold_spec hb (x + y)
  refine fold_unique hb hlt ?_ (hmod'.trans (hmod.symm.add_right y))
  rw [hzero']
  omega

/-- Adding digit by digit gives the folded sum. -/
theorem foldl_addCarry (ws : List ℕ) (s : ℕ) :
    ws.foldl (addCarry b) (fold b s) = fold b (s + ws.sum) := by
  induction ws generalizing s with
  | nil => rw [List.foldl_nil, List.sum_nil, Nat.add_zero]
  | cons h ws ih =>
      rw [List.foldl_cons, addCarry, fold_add_fold hb, ih, List.sum_cons, Nat.add_assoc]

/-- A sum and its complement. -/
theorem fold_add_complement (x : ℕ) : fold b (x + (b - 1 - fold b x)) = b - 1 := by
  obtain ⟨hlt, _, _⟩ := fold_spec hb x
  rw [← fold_add_fold hb, Nat.add_sub_cancel' (by omega), fold_of_lt (by omega)]

/-- With digits below the base there is one carry at most. -/
theorem addCarry_eq {s h : ℕ} (hs : s < b) (hh : h < b) :
    addCarry b s h = if b ≤ s + h then (s + h) % b + 1 else s + h := by
  unfold addCarry
  split_ifs with hle
  · have hdiv : (s + h) / b = 1 := Nat.div_eq_of_lt_le (by omega) (by omega)
    have hmod : (s + h) % b = s + h - b := by
      rw [Nat.mod_eq_sub_mod hle, Nat.mod_eq_of_lt (by omega)]
    rw [fold_of_le hb hle, hdiv, fold_of_lt (by omega)]
  · exact fold_of_lt (by omega)

end fold

end EndAround
