import TupleNet.Lib.Text
import Mathlib.Data.Finset.Lattice.Fold
import Mathlib.Order.Lattice.Nat
import Mathlib.Data.Finset.Range

/-! # Bitmaps of ids and addresses

`bookkeeping/id.go`: an `IDMap` is a set of 32-bit numbers that is stored as text.  The text format
is that of a third-party package and is a parameter, `BitmapCodec`, with the laws on which the code
relies. -/

namespace TupleNet.Control

open Text

/-- A bitmap. -/
abbrev IDMap := Finset ℕ

/-- The text format of bitmaps: `ToBase64` and `FromBase64`, which gives the empty bitmap for the
empty text.  What it gives for other texts that are no bitmap is left open. -/
structure BitmapCodec where
  toBase64 : IDMap → String
  fromBase64 : String → IDMap
  fromBase64_toBase64 : ∀ m : IDMap, (∀ x ∈ m, x < 2 ^ 32) → fromBase64 (toBase64 m) = m
  fromBase64_empty : fromBase64 "" = ∅
  fromBase64_lt : ∀ text, ∀ x ∈ fromBase64 text, x < 2 ^ 32

/-- The loop of `NextID`: the first free id among the next `n` ones from `i` on. -/
def firstFree (m : IDMap) : ℕ → ℕ → Option ℕ
  | 0, _ => none
  | n + 1, i => if i ∈ m then firstFree m n (i + 1) else some i

/-- `NextID`: the least free id from `1` to `65535` and the bitmap with it, else an error. -/
def nextID (m : IDMap) : Option (ℕ × IDMap) :=
  (firstFree m 65535 1).map (fun id => (id, insert id m))

/-- The low 16 bits of a number. -/
def masked (x : ℕ) : ℕ := x % 2 ^ 16

/-- `OccupyMasked`; `none` when the bit is set already. -/
def occupyMasked (m : IDMap) (x : ℕ) : Option IDMap :=
  if masked x ∈ m then none else some (insert (masked x) m)

/-- `ReturnMasked`. -/
def returnMasked (m : IDMap) (x : ℕ) : IDMap := m.erase (masked x)

/-- The loop of `strconv.ParseUint(s, 10, 8)`; its error is ignored by the callers, the value is
`0` after a bad character and `255` once the number is too large. -/
def parseUint8Loop : List Char → ℕ → ℕ
  | [], n => n
  | c :: cs, n =>
      if c.isDigit then
        let n := n * 10 + (c.toNat - '0'.toNat)
        if n > 255 then 255 else parseUint8Loop cs n
      else 0

/-- `strconv.ParseUint(s, 10, 8)` without its error. -/
def parseUint8 (s : String) : ℕ := parseUint8Loop s.toList 0

/-- `IPv4ToU32`; with fewer than four parts the code indexes past the end. -/
def iPv4ToU32 (ip : String) : Option ℕ :=
  match split '.' ip with
  | a :: b :: c :: d :: _ =>
      some (parseUint8 a <<< 24 ||| parseUint8 b <<< 16 ||| parseUint8 c <<< 8 ||| parseUint8 d)
  | _ => none

example : iPv4ToU32 "183.6.129.98" = some 3070656866 := by decide

theorem firstFree_eq_some {m : IDMap} {n i id : ℕ} (h : firstFree m n i = some id) :
    id ∉ m ∧ id < i + n := by
  induction n generalizing i with
  | zero => cases h
  | succ n ih =>
      rw [firstFree] at h
      split_ifs at h with hi
      · obtain ⟨h1, h2⟩ := ih h
        exact ⟨h1, by omega⟩
      · obtain rfl := Option.some.inj h
        exact ⟨hi, by omega⟩

theorem nextID_eq_some {m m' : IDMap} {id : ℕ} (h : nextID m = some (id, m')) :
    id ∉ m ∧ id < 2 ^ 16 ∧ m' = insert id m := by
  obtain ⟨id', hfree, heq⟩ := Option.map_eq_some_iff.mp h
  obtain ⟨rfl, rfl⟩ := Prod.mk.inj heq
  obtain ⟨h1, h2⟩ := firstFree_eq_some hfree
  exact ⟨h1, by omega, rfl⟩

theorem occupyMasked_eq_some {m m' : IDMap} {x : ℕ} (h : occupyMasked m x = some m') :
    masked x ∉ m ∧ m' = insert (masked x) m := by
  unfold occupyMasked at h
  split_ifs at h with hx
  exact ⟨hx, (Option.some.inj h).symm⟩

theorem masked_lt (x : ℕ) : masked x < 2 ^ 16 := Nat.mod_lt _ (by decide)

/-! ### A text format with these laws -/

/-- One text for each bitmap: that of the package for `{1}` and `{1, 2}`, else a digit per
number. -/
def sampleToBase64 (m : IDMap) : String :=
  if m = {1} then "OjAAAAEAAAAAAAAAEAAAAAEA"
  else if m = {1, 2} then "OjAAAAEAAAAAAAEAEAAAAAEAAgA="
  else String.ofList ((List.range (m.sup id + 1)).map (fun i => if i ∈ m then '1' else '0'))

/-- The bitmap of such a text. -/
def sampleFromBase64 (text : String) : IDMap :=
  if text = "OjAAAAEAAAAAAAAAEAAAAAEA" then {1}
  else if text = "OjAAAAEAAAAAAAEAEAAAAAEAAgA=" then {1, 2}
  else (Finset.range text.toList.length).filter
    (fun i => text.toList[i]? = some '1' ∧ i < 2 ^ 32)

theorem digits_head (m : IDMap) : ∃ c cs, (String.ofList ((List.range (m.sup id + 1)).map
    (fun i => if i ∈ m then '1' else '0'))).toList = c :: cs ∧ (c = '1' ∨ c = '0') := by
  rw [String.toList_ofList, List.range_succ_eq_map, List.map_cons]
  refine ⟨_, _, rfl, ?_⟩
  split_ifs
  · exact Or.inl rfl
  · exact Or.inr rfl

theorem sampleFromBase64_toBase64 (m : IDMap) (hm : ∀ x ∈ m, x < 2 ^ 32) :
    sampleFromBase64 (sampleToBase64 m) = m := by
  unfold sampleToBase64
  split_ifs with h1 h2
  · rw [h1]
    rfl
  · rw [h2]
    rfl
  · obtain ⟨c, cs, hhead, hc⟩ := digits_head m
    have hne : ∀ text : String, text.toList.head? = some 'O' → String.ofList
        ((List.range (m.sup id + 1)).map (fun i => if i ∈ m then '1' else '0')) ≠ text := by
      intro text htext heq
      rw [← heq, hhead] at htext
      rcases hc with rfl | rfl <;> cases htext
    rw [sampleFromBase64, if_neg (hne _ (by decide)), if_neg (hne _ (by decide))]
    ext x
    have hle : x ∈ m → x < m.sup id + 1 := fun h => Nat.lt_succ_of_le (Finset.le_sup (f := id) h)
    simp only [String.toList_ofList, List.length_map, List.length_range, Finset.mem_filter,
      Finset.mem_range, List.getElem?_map]
    constructor
    · rintro ⟨hx, h, _⟩
      rw [List.getElem?_range hx, Option.map_some, Option.some.injEq] at h
      by_contra hno
      rw [if_neg hno] at h
      cases h
    · intro hx
      rw [List.getElem?_range (hle hx), Option.map_some, if_pos hx]
      exact ⟨hle hx, rfl, hm x hx⟩

/-- The laws can be met. -/
def sampleCodec : BitmapCodec where
  toBase64 := sampleToBase64
  fromBase64 := sampleFromBase64
  fromBase64_toBase64 := sampleFromBase64_toBase64
  fromBase64_empty := by decide
  fromBase64_lt := by
    intro text x hx
    unfold sampleFromBase64 at hx
    split_ifs at hx
    · rw [Finset.mem_singleton.mp hx]
      decide
    · rcases Finset.mem_insert.mp hx with rfl | hx
      · decide
      · rw [Finset.mem_singleton.mp hx]
        decide
    · exact (Finset.mem_filter.mp hx).2.2

end TupleNet.Control
