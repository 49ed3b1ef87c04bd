import TupleNet.Control.Controller
import Mathlib.Data.Nat.Bitwise

/-! # The address of a new switch port

`allocSwitchPortIP` takes the first free number of the ip book from the third address of a subnet
on, and `SaveSwitchPort` stores the address made of the network and this number.  The counter of
`NextIDFrom` has 16 bits and goes round, so the number need not lie in the subnet; `Roomy` says when
the low 16 bits of the address are the number (`masked_or_of_roomy`). -/

namespace TupleNet.Control

open Text

/-! ### Numbers and texts -/

/-- The loop of `NextIDFrom` over at most `n` numbers; the counter has 16 bits. -/
def freeFrom (m : IDMap) : ℕ → ℕ → Option ℕ
  | 0, _ => none
  | n + 1, i => if i ∈ m then freeFrom m n ((i + 1) % 2 ^ 16) else some i

/-- `NextIDFrom`; `none` when no number is free, where the loop does not end. -/
def nextIDFrom (m : IDMap) (idx : ℕ) : Option (ℕ × IDMap) :=
  (freeFrom m (2 ^ 16) idx).map (fun id => (id, insert id m))

/-- `U32ToIPv4`. -/
def u32ToIPv4 (ipInt : ℕ) : String :=
  ".".intercalate [toString ((ipInt >>> 24) % 2 ^ 8), toString ((ipInt >>> 16) % 2 ^ 8),
    toString ((ipInt >>> 8) % 2 ^ 8), toString (ipInt % 2 ^ 8)]

/-- `%02x` of a number below 256. -/
def hexByte (n : ℕ) : String := String.ofList [Nat.digitChar (n / 16), Nat.digitChar (n % 16)]

/-- `MacFromIP`; with fewer than four parts the code indexes past the end. -/
def macFromIP (ip : String) : Option String :=
  match split '.' ip with
  | a :: b :: c :: d :: _ =>
      some ("f2:01:" ++ ":".intercalate ([a, b, c, d].map (fun part => hexByte (parseUint8 part))))
  | _ => none

example : macFromIP (u32ToIPv4 2886729729) = some "f2:01:ac:10:00:01" := by decide

/-- `32 - cprefixLen` of a `uint8`. -/
def hostBits (cprefixLen : ℕ) : ℕ := (256 + 32 - cprefixLen) % 256

/-- `(cipInt >> (32 - cprefixLen)) << (32 - cprefixLen)`. -/
def networkOf (cipInt cprefixLen : ℕ) : ℕ :=
    (cipInt >>> hostBits cprefixLen) <<< hostBits cprefixLen

/-- `uint16(cipInt) + 2`. -/
def firstID (cipInt : ℕ) : ℕ := (masked cipInt + 2) % 2 ^ 16

/-- `(((1 << (32 - cprefixLen)) - 1) | cipInt) & 0xffff` with 32-bit numbers. -/
def maxID (cipInt cprefixLen : ℕ) : ℕ :=
  masked (((1 <<< hostBits cprefixLen) % 2 ^ 32 + (2 ^ 32 - 1)) % 2 ^ 32 ||| cipInt)

/-- What `allocSwitchPortIP` returns. -/
structure Allocation where
  ip : String
  oldVal : String
  newVal : String
deriving DecidableEq, Repr

/-- How `allocSwitchPortIP` ends once it has read the book. -/
inductive AllocResult where
  | got (a : Allocation)
  | error
  | panic
  /-- The loop of `NextIDFrom` does not end. -/
  | loops
deriving DecidableEq, Repr

/-- `allocSwitchPortIP` after its reads; `value` is the text of the book. -/
def allocSwitchPortIP (codec : BitmapCodec) (value cip : String) (cprefixLen : ℕ) : AllocResult :=
  let ipMap := codec.fromBase64 value
  match iPv4ToU32 cip with
  | none => .panic
  | some x =>
      let cipInt := networkOf x cprefixLen
      match nextIDFrom ipMap (firstID cipInt) with
      | none => .loops
      | some (id, m) =>
          if id ≥ maxID cipInt cprefixLen then .error
          else .got ⟨u32ToIPv4 (cipInt ||| id), codec.toBase64 ipMap, codec.toBase64 m⟩

/-! ### The address and its number -/

theorem parseUint8_toString {n : ℕ} (h : n < 2 ^ 8) : parseUint8 (toString n) = n := by
  have hall : ∀ n < 2 ^ 8, parseUint8 (toString n) = n := by decide +kernel
  exact hall n h

theorem dot_not_mem {n : ℕ} (h : n < 2 ^ 8) : '.' ∉ (toString n).toList := by
  have hall : ∀ n < 2 ^ 8, '.' ∉ (toString n).toList := by decide +kernel
  exact hall n h

theorem split_u32ToIPv4 (x : ℕ) : split '.' (u32ToIPv4 x) =
    [toString ((x >>> 24) % 2 ^ 8), toString ((x >>> 16) % 2 ^ 8),
      toString ((x >>> 8) % 2 ^ 8), toString (x % 2 ^ 8)] := by
  have hlt : ∀ y : ℕ, y % 2 ^ 8 < 2 ^ 8 := fun y => Nat.mod_lt y (by decide)
  refine split_intercalate (fun p hp => ?_) (by simp)
  simp only [List.mem_cons, List.not_mem_nil, or_false] at hp
  rcases hp with rfl | rfl | rfl | rfl <;> exact dot_not_mem (hlt _)

/-- Reading an address that was written. -/
theorem iPv4ToU32_u32ToIPv4 (x : ℕ) : iPv4ToU32 (u32ToIPv4 x) =
    some (((x >>> 24) % 2 ^ 8) <<< 24 ||| ((x >>> 16) % 2 ^ 8) <<< 16 |||
      ((x >>> 8) % 2 ^ 8) <<< 8 ||| x % 2 ^ 8) := by
  have hlt : ∀ y : ℕ, y % 2 ^ 8 < 2 ^ 8 := fun y => Nat.mod_lt y (by decide)
  rw [iPv4ToU32, split_u32ToIPv4]
  simp only [parseUint8_toString (hlt _)]

theorem masked_u32ToIPv4 (x : ℕ) : (iPv4ToU32 (u32ToIPv4 x)).map masked = some (masked x) := by
  rw [iPv4ToU32_u32ToIPv4, Option.map_some, Option.some.injEq]
  apply Nat.eq_of_testBit_eq
  intro i
  simp only [masked, Nat.testBit_mod_two_pow, Nat.testBit_or, Nat.testBit_shiftLeft,
    Nat.testBit_shiftRight]
  by_cases h8 : i < 8
  · simp [h8, show ¬ 8 ≤ i by omega, show ¬ 16 ≤ i by omega, show ¬ 24 ≤ i by omega]
  · by_cases h16 : i < 16
    · simp [h8, h16, show 8 ≤ i by omega, show ¬ 16 ≤ i by omega, show ¬ 24 ≤ i by omega,
        show i - 8 < 8 by omega, show 8 + (i - 8) = i by omega]
    · simp [h16]

/-! ### The number and the subnet -/

/-- The search goes up from `i`, and from `0` once it has passed the last number. -/
theorem freeFrom_eq_some {m : IDMap} {n i id : ℕ} (h : freeFrom m n i = some id)
    (hi : i < 2 ^ 16) : id ∉ m ∧ id < 2 ^ 16 ∧
      (i ≤ id ∧ (∀ x, i ≤ x → x < id → x ∈ m) ∨
        id < i ∧ (∀ x, i ≤ x → x < 2 ^ 16 → x ∈ m) ∧ ∀ x < id, x ∈ m) := by
  induction n generalizing i with
  | zero => cases h
  | succ n ih =>
      rw [freeFrom] at h
      split_ifs at h with hmem
      · obtain ⟨hfree, hlt, hpassed⟩ := ih h (Nat.mod_lt _ (by decide))
        have hne : id ≠ i := fun heq => hfree (heq ▸ hmem)
        refine ⟨hfree, hlt, ?_⟩
        by_cases hlast : i + 1 < 2 ^ 16
        · rw [Nat.mod_eq_of_lt hlast] at hpassed
          rcases hpassed with ⟨hle, hall⟩ | ⟨hlt', hup, hall⟩
          · refine Or.inl ⟨by omega, fun x h1 h2 => ?_⟩
            by_cases hx : x = i
            · exact hx ▸ hmem
            · exact hall x (by omega) h2
          · refine Or.inr ⟨by omega, fun x h1 h2 => ?_, hall⟩
            by_cases hx : x = i
            · exact hx ▸ hmem
            · exact hup x (by omega) h2
        · -- the counter goes round
          have hzero : (i + 1) % 2 ^ 16 = 0 := by omega
          rw [hzero] at hpassed
          rcases hpassed with ⟨_, hall⟩ | ⟨hlt', _, _⟩
          · refine Or.inr ⟨by omega, fun x h1 h2 => ?_, fun x hx => hall x (by omega) hx⟩
            have hx : x = i := by omega
            exact hx ▸ hmem
          · omega
      · obtain rfl := Option.some.inj h
        exact ⟨hmem, hi, Or.inl ⟨le_refl i, fun x h1 h2 => by omega⟩⟩

/-- A number of the upper part is free, or none below the subnet. -/
def Roomy (m : IDMap) (cipInt : ℕ) : Prop :=
  (∃ x, masked cipInt + 2 ≤ x ∧ x < 2 ^ 16 ∧ x ∉ m) ∨ ∀ x < masked cipInt, x ∈ m

instance (m : IDMap) (cipInt : ℕ) : Decidable (Roomy m cipInt) :=
  decidable_of_iff
    ((∃ x ∈ List.range' (masked cipInt + 2) (2 ^ 16 - (masked cipInt + 2)), x ∉ m) ∨
      ∀ x < masked cipInt, x ∈ m) (by
    refine or_congr_left (exists_congr fun x => ?_)
    rw [List.mem_range'_1, ← and_assoc]
    refine and_congr_left fun _ => and_congr_right fun hx => ?_
    omega)

theorem masked_or (x y : ℕ) : masked (x ||| y) = masked x ||| masked y := Nat.or_mod_two_pow ..

theorem masked_of_lt {x : ℕ} (h : x < 2 ^ 16) : masked x = x := Nat.mod_eq_of_lt h

/-- The low bits of a network. -/
theorem masked_networkOf (x cprefixLen : ℕ) : masked (networkOf x cprefixLen) = 0 ∨
    hostBits cprefixLen < 16 ∧ ∃ q, masked (networkOf x cprefixLen) = 2 ^ hostBits cprefixLen *
    q := by
  have hmul : networkOf x cprefixLen = 2 ^ hostBits cprefixLen * (x >>> hostBits cprefixLen) := by
    rw [networkOf, Nat.shiftLeft_eq, Nat.mul_comm]
  by_cases hs : hostBits cprefixLen < 16
  · refine Or.inr ⟨hs, (x >>> hostBits cprefixLen) % 2 ^ (16 - hostBits cprefixLen), ?_⟩
    have hpow : 2 ^ 16 = 2 ^ hostBits cprefixLen * 2 ^ (16 - hostBits cprefixLen) := by
      rw [← pow_add, Nat.add_sub_cancel' (by omega)]
    rw [hmul, masked, hpow, Nat.mul_mod_mul_left]
  · refine Or.inl ?_
    have hdvd : 2 ^ 16 ∣ 2 ^ hostBits cprefixLen := pow_dvd_pow 2 (by omega)
    rw [hmul, masked]
    exact Nat.mod_eq_zero_of_dvd (hdvd.mul_right _)

/-- The last address of a subnet of at most 16 host bits. -/
theorem maxID_eq {x cprefixLen q : ℕ} (hs : hostBits cprefixLen < 16)
    (hq : masked (networkOf x cprefixLen) = 2 ^ hostBits cprefixLen * q) :
    maxID (networkOf x cprefixLen) cprefixLen = 2 ^ hostBits cprefixLen *
    q + (2 ^ hostBits cprefixLen - 1) := by
  have hpos : 0 < 2 ^ hostBits cprefixLen := Nat.two_pow_pos _
  have hlt : 2 ^ hostBits cprefixLen < 2 ^ 16 := Nat.pow_lt_pow_right (by omega) hs
  have hmask : (1 <<< hostBits cprefixLen % 2 ^ 32 + (2 ^ 32 - 1)) % 2 ^ 32 =
      2 ^ hostBits cprefixLen - 1 := by
    rw [Nat.one_shiftLeft]
    omega
  rw [maxID, hmask, masked_or, hq, masked_of_lt (by omega), Nat.or_comm,
    ← Nat.two_pow_add_eq_or_of_lt (by omega)]

/-- Below the last address of the subnet the low bits of the address are the number iff the number
is at least the network. -/
theorem masked_networkOf_or {x cprefixLen id : ℕ} (hid : id < 2 ^ 16)
    (hmax : id < maxID (networkOf x cprefixLen) cprefixLen) :
    masked (networkOf x cprefixLen ||| id) = id ↔ masked (networkOf x cprefixLen) ≤ id := by
  rw [masked_or, masked_of_lt hid]
  constructor
  · intro h
    rw [← h]
    exact Nat.left_le_or
  · intro h
    rcases masked_networkOf x cprefixLen with hzero | ⟨hs, q, hq⟩
    · rw [hzero, Nat.zero_or]
    · rw [maxID_eq hs hq] at hmax
      rw [hq] at h ⊢
      obtain ⟨r, rfl⟩ := Nat.exists_eq_add_of_le h
      have hr : r < 2 ^ hostBits cprefixLen := by omega
      rw [Nat.two_pow_add_eq_or_of_lt hr, ← Nat.or_assoc, Nat.or_self]

/-- **The low 16 bits of the new address are the number that was taken** iff there is room. -/
theorem masked_or_iff_roomy {m m' : IDMap} {x cprefixLen id : ℕ}
    (h : nextIDFrom m (firstID (networkOf x cprefixLen)) = some (id, m'))
    (hmax : id < maxID (networkOf x cprefixLen) cprefixLen) :
    masked (networkOf x cprefixLen ||| id) = id ↔ Roomy m (networkOf x cprefixLen) := by
  obtain ⟨id', hfree, heq⟩ := Option.map_eq_some_iff.mp h
  obtain ⟨rfl, rfl⟩ := Prod.mk.inj heq
  obtain ⟨hnew, hlt, hpassed⟩ := freeFrom_eq_some hfree (Nat.mod_lt _ (by decide))
  rw [masked_networkOf_or hlt hmax]
  have hmasked := masked_lt (networkOf x cprefixLen)
  have hmaxlt : maxID (networkOf x cprefixLen) cprefixLen < 2 ^ 16 := masked_lt _
  -- an odd network of one address has no number below its last one
  have hsingle : masked (networkOf x cprefixLen) ≠ 2 ^ 16 - 1 ∨ id' < 2 ^ 16 - 1 := by omega
  unfold firstID at hpassed
  constructor
  · intro hle
    by_cases hup : masked (networkOf x cprefixLen) + 2 ≤ id'
    · exact Or.inl ⟨id', hup, hlt, hnew⟩
    · refine Or.inr fun y hy => ?_
      rcases hpassed with ⟨hstart, hall⟩ | ⟨_, _, hall⟩
      · exact hall y (by omega) (by omega)
      · exact hall y (by omega)
  · rintro (⟨y, hy, hylt, hyfree⟩ | hall)
    · rcases hpassed with ⟨hstart, _⟩ | ⟨_, hup, _⟩
      · omega
      · exact absurd (hup y (by omega) hylt) hyfree
    · by_contra hlow
      exact hnew (hall id' (by omega))

end TupleNet.Control
