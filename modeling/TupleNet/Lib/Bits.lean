import Mathlib.Data.Nat.Bitwise

/-! # Ranges of bits

Reading and writing some consecutive bits of a number. -/

namespace Bits

/-- The bits `start..stop` of a number. -/
def slice (n start stop : ℕ) : ℕ := n / 2 ^ start % 2 ^ (stop + 1 - start)

/-- A number whose bits `start..stop` have been replaced by the low bits of `n`. -/
def splice (old start stop n : ℕ) : ℕ :=
  old % 2 ^ start + n % 2 ^ (stop + 1 - start) * 2 ^ start + old / 2 ^ (stop + 1) * 2 ^ (stop + 1)

theorem testBit_slice (n start stop i : ℕ) :
    (slice n start stop).testBit i = (decide (i < stop + 1 - start) && n.testBit (start + i)) := by
  rw [slice, Nat.testBit_mod_two_pow, Nat.testBit_div_two_pow, Nat.add_comm i]

theorem slice_lt (n start stop : ℕ) : slice n start stop < 2 ^ (stop + 1 - start) :=
  Nat.mod_lt _ (Nat.two_pow_pos _)

/-- The low bits of a number. -/
theorem slice_zero (n stop : ℕ) : slice n 0 stop = n % 2 ^ (stop + 1) := by
  rw [slice, Nat.pow_zero, Nat.div_one, Nat.sub_zero]

section splice
variable {old start stop n : ℕ}

theorem splice_eq (h : start ≤ stop) : splice old start stop n =
    2 ^ start * (2 ^ (stop + 1 - start) * (old / 2 ^ (stop + 1)) + n % 2 ^ (stop + 1 - start)) +
      old % 2 ^ start := by
  have hpow : 2 ^ (stop + 1) = 2 ^ start * 2 ^ (stop + 1 - start) := by
    rw [← Nat.pow_add]
    congr 1
    omega
  unfold splice
  rw [Nat.mul_add, ← Nat.mul_assoc, ← hpow, Nat.mul_comm (2 ^ (stop + 1)), Nat.mul_comm (2 ^ start)]
  omega

theorem testBit_splice (h : start ≤ stop) (i : ℕ) : (splice old start stop n).testBit i =
    if start ≤ i ∧ i ≤ stop then n.testBit (i - start) else old.testBit i := by
  have hlow : old % 2 ^ start < 2 ^ start := Nat.mod_lt _ (Nat.two_pow_pos _)
  have hmid : n % 2 ^ (stop + 1 - start) < 2 ^ (stop + 1 - start) :=
    Nat.mod_lt _ (Nat.two_pow_pos _)
  rw [splice_eq h, Nat.testBit_two_pow_mul_add _ hlow]
  by_cases h1 : i < start
  · rw [if_pos h1, if_neg (by omega), Nat.testBit_mod_two_pow]
    simp [h1]
  · rw [if_neg h1, Nat.testBit_two_pow_mul_add _ hmid]
    by_cases h2 : i ≤ stop
    · rw [if_pos (by omega), if_pos (by omega), Nat.testBit_mod_two_pow]
      simp [show i - start < stop + 1 - start by omega]
    · rw [if_neg (by omega), if_neg (by omega), Nat.testBit_div_two_pow]
      congr 1
      omega

theorem splice_zero (stop n : ℕ) : splice 0 0 stop n = n % 2 ^ (stop + 1) := by
  simp [splice]

/-- Reading what has been written. -/
theorem slice_splice (h : start ≤ stop) :
    slice (splice old start stop n) start stop = n % 2 ^ (stop + 1 - start) := by
  refine Nat.eq_of_testBit_eq fun i => ?_
  rw [testBit_slice, testBit_splice h, Nat.testBit_mod_two_pow]
  by_cases hi : i < stop + 1 - start
  · rw [if_pos (by omega), Nat.add_sub_cancel_left]
  · simp [hi]

/-- Reading other bits than those that have been written. -/
theorem slice_splice_of_disjoint {start' stop' : ℕ} (h : start ≤ stop)
    (hdisj : stop' < start ∨ stop < start') :
    slice (splice old start stop n) start' stop' = slice old start' stop' := by
  refine Nat.eq_of_testBit_eq fun i => ?_
  rw [testBit_slice, testBit_slice, testBit_splice h]
  by_cases hi : i < stop' + 1 - start'
  · rw [if_neg (by omega)]
  · simp [hi]

end splice

end Bits
