import TupleNet.Control.SubnetAllocation

/-! # The search for a free id

`NextIDFrom` tries one number after the other and is to return the least free one from its argument
on, or an error when they are all taken.  Its counter is a `uint16`, so it never exceeds
`roaring.MaxUint16`: the condition of the loop always holds, and behind the last number the counter
goes on with `0`.  The search does what it should exactly when there is a number to be found
(`searchesLeast_iff`).  Otherwise it returns a number below its argument, or, when the bitmap has
every number, does not end (`not_ends_of_full`). -/

namespace TupleNet.Control

/-- What `NextIDFrom` returns, and the bitmap it leaves. -/
inductive SearchEnd where
  | got (id : ℕ) (m : IDMap)
  | error (m : IDMap)
deriving DecidableEq

/-- `roaring.MaxUint16`. -/
def maxUint16 : UInt16 := 65535

/-- The first `n` rounds of the loop of `NextIDFrom`; `none` when it has not ended. -/
def nextIDRounds (m : IDMap) : ℕ → UInt16 → Option SearchEnd
  | 0, _ => none
  | n + 1, i =>
      if i ≤ maxUint16 then
        if i.toNat ∈ m then nextIDRounds m n (i + 1) else some (.got i.toNat (insert i.toNat m))
      else some (.error m)

/-- The loop ends. -/
def Ends (m : IDMap) (idx : UInt16) (r : SearchEnd) : Prop := ∃ n, nextIDRounds m n idx = some r

/-- What a call should return: the least free number from `idx` on, recorded in the bitmap and
nothing else, or an error that leaves the bitmap as it is; never a number below `idx`. -/
structure LeastFrom (m : IDMap) (idx : UInt16) (r : SearchEnd) : Prop where
  least : ∀ id, idx.toNat ≤ id → id ≤ maxUint16.toNat → id ∉ m →
    (∀ w, idx.toNat ≤ w → w < id → w ∈ m) → r = .got id (insert id m)
  error : (∀ w, idx.toNat ≤ w → w ≤ maxUint16.toNat → w ∈ m) → r = .error m
  above : ∀ id m', r = .got id m' → idx.toNat ≤ id

/-- The call returns what it should. -/
def SearchesLeast (m : IDMap) (idx : UInt16) : Prop := ∃ r, Ends m idx r ∧ LeastFrom m idx r

/-! ### The loop and its bounded form -/

section loop
variable {m : IDMap} {idx : UInt16}

/-- The condition of the loop holds for every value of the counter. -/
theorem le_maxUint16 (i : UInt16) : i ≤ maxUint16 := by
  have hlt := i.toNat_lt
  rw [UInt16.le_iff_toNat_le]
  have hmax : maxUint16.toNat = 65535 := rfl
  omega

theorem nextIDRounds_eq (m : IDMap) (n : ℕ) (i : UInt16) :
    nextIDRounds m n i = (freeFrom m n i.toNat).map (fun id => .got id (insert id m)) := by
  induction n generalizing i with
  | zero => rfl
  | succ n ih =>
      have hnext : (i + 1).toNat = (i.toNat + 1) % 2 ^ 16 := UInt16.toNat_add i 1
      rw [nextIDRounds, if_pos (le_maxUint16 i), freeFrom, ih, hnext]
      split_ifs <;> rfl

/-- More rounds do not change what has been found. -/
theorem freeFrom_mono {n k i id : ℕ} (h : freeFrom m n i = some id) (hle : n ≤ k) :
    freeFrom m k i = some id := by
  induction n generalizing k i with
  | zero => cases h
  | succ n ih =>
      obtain ⟨k, rfl⟩ : ∃ k', k = k' + 1 := ⟨k - 1, by omega⟩
      rw [freeFrom] at h ⊢
      split_ifs at h ⊢ with hmem
      · exact ih h (by omega)
      · exact h

/-- If the loop ends it does so within one round trip of the counter. -/
theorem ends_iff {r : SearchEnd} :
    Ends m idx r ↔ ∃ id, freeFrom m (2 ^ 16) idx.toNat = some id ∧ r = .got id (insert id m) := by
  have hidx : idx.toNat < 2 ^ 16 := idx.toNat_lt
  constructor
  · rintro ⟨n, hn⟩
    rw [nextIDRounds_eq] at hn
    obtain ⟨id, hid, hr⟩ := Option.map_eq_some_iff.mp hn
    obtain ⟨hfree, hlt, _⟩ := freeFrom_eq_some hid hidx
    obtain ⟨id', hid'⟩ : ∃ id', freeFrom m (2 ^ 16) idx.toNat = some id' := by
      have hne := nextIDFrom_ne_none hidx hlt hfree
      rw [nextIDFrom, ne_eq, Option.map_eq_none_iff] at hne
      exact Option.ne_none_iff_exists'.mp hne
    have hsame : some id = some id' := by
      rw [← freeFrom_mono hid (Nat.le_add_right n (2 ^ 16)),
        ← freeFrom_mono hid' (Nat.le_add_left (2 ^ 16) n)]
    rw [Option.some.inj hsame] at hr
    exact ⟨id', hid', hr.symm⟩
  · rintro ⟨id, hid, rfl⟩
    exact ⟨2 ^ 16, by rw [nextIDRounds_eq, hid, Option.map_some]⟩

/-- `nextIDFrom` is what the loop returns, and `none` if it does not end. -/
theorem nextIDFrom_eq_some_iff {id : ℕ} {m' : IDMap} :
    nextIDFrom m idx.toNat = some (id, m') ↔ Ends m idx (.got id m') := by
  rw [ends_iff, nextIDFrom, Option.map_eq_some_iff]
  simp only [Prod.mk.injEq, SearchEnd.got.injEq]
  constructor
  · rintro ⟨id, hid, rfl, rfl⟩
    exact ⟨id, hid, rfl, rfl⟩
  · rintro ⟨id, hid, rfl, rfl⟩
    exact ⟨id, hid, rfl, rfl⟩

/-- A bitmap that has every number is searched for ever. -/
theorem not_ends_of_full (h : ∀ w, w ≤ maxUint16.toNat → w ∈ m) (r : SearchEnd) :
    ¬ Ends m idx r := by
  intro hends
  obtain ⟨id, hid, _⟩ := ends_iff.mp hends
  obtain ⟨hfree, hlt, _⟩ := freeFrom_eq_some hid idx.toNat_lt
  have hmax : maxUint16.toNat = 65535 := rfl
  exact hfree (h id (by omega))

end loop

/-! ### The least free number -/

/-- **The search for a free id** does what it should iff a number from its argument on is free. -/
theorem searchesLeast_iff (m : IDMap) (idx : UInt16) :
    SearchesLeast m idx ↔ ∃ w, idx.toNat ≤ w ∧ w ≤ maxUint16.toNat ∧ w ∉ m := by
  have hmax : maxUint16.toNat = 65535 := rfl
  have hidx : idx.toNat < 2 ^ 16 := idx.toNat_lt
  constructor
  · rintro ⟨r, hends, hleast⟩
    by_contra hnone
    have herror : r = .error m := by
      refine hleast.error fun w h1 h2 => ?_
      by_contra hfree
      exact hnone ⟨w, h1, h2, hfree⟩
    obtain ⟨id, _, hgot⟩ := ends_iff.mp hends
    rw [herror] at hgot
    cases hgot
  · rintro ⟨w, hw, hlast, hfree⟩
    have hne := nextIDFrom_ne_none hidx (by omega : w < 2 ^ 16) hfree
    obtain ⟨id, hid⟩ : ∃ id, freeFrom m (2 ^ 16) idx.toNat = some id := by
      rw [nextIDFrom, ne_eq, Option.map_eq_none_iff] at hne
      exact Option.ne_none_iff_exists'.mp hne
    refine ⟨_, ends_iff.mpr ⟨id, hid, rfl⟩, ?_⟩
    obtain ⟨hidfree, hidlt, hpassed⟩ := freeFrom_eq_some hid hidx
    -- the counter has not gone round, since it would have met the free number
    have hup : idx.toNat ≤ id ∧ ∀ x, idx.toNat ≤ x → x < id → x ∈ m := by
      rcases hpassed with hup | ⟨_, hall, _⟩
      · exact hup
      · exact absurd (hall w hw (by omega)) hfree
    refine ⟨fun v hv hvlast hvfree hbelow => ?_, fun hall => ?_, fun v m' hgot => ?_⟩
    · have hle : id ≤ v := by
        by_contra hlt
        exact hvfree (hup.2 v hv (by omega))
      have hge : v ≤ id := by
        by_contra hlt
        exact hidfree (hbelow id hup.1 (by omega))
      rw [Nat.le_antisymm hle hge]
    · exact absurd (hall w hw hlast) hfree
    · rw [← (SearchEnd.got.inj hgot).1]
      exact hup.1

/-- With the last number taken a search that begins there returns `0`. -/
theorem searchesLeast_wraps : ¬ ∀ (m : IDMap) (idx : UInt16), SearchesLeast m idx := by
  intro h
  obtain ⟨r, hends, hleast⟩ := h {65535} 65535
  obtain ⟨id, hid, rfl⟩ := ends_iff.mp hends
  have hzero : freeFrom {65535} 2 (65535 : UInt16).toNat = some 0 := by decide
  obtain rfl := Option.some.inj (hid.symm.trans (freeFrom_mono hzero (by decide)))
  exact absurd (hleast.above 0 _ rfl) (by decide)

end TupleNet.Control
