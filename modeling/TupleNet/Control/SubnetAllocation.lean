import TupleNet.Control.PortAllocation

/-! # The address that an allocation gives

`allocSwitchPortIP` is to give the least free address of a subnet, the first two and the last one
left out, or an error when there is none.  It does so when a number above the second address of the
subnet is free in the book, in or behind the subnet (`allocates_iff`).  Otherwise the 16-bit counter
goes round and the search takes a number below the subnet, or finds none and does not end. -/

namespace TupleNet.Control

open TxnStore

/-! ### What is to be allocated -/

/-- The network address of a subnet. -/
def netAddr (x cprefixLen : ℕ) : ℕ := x / 2 ^ (32 - cprefixLen) * 2 ^ (32 - cprefixLen)

/-- The last address of a subnet. -/
def lastAddr (x cprefixLen : ℕ) : ℕ := netAddr x cprefixLen + (2 ^ (32 - cprefixLen) - 1)

/-- The number can be given to a port of the subnet. -/
def Available (m : IDMap) (x cprefixLen v : ℕ) : Prop :=
  masked (netAddr x cprefixLen) + 2 ≤ v ∧ v < masked (lastAddr x cprefixLen) ∧ v ∉ m

/-- The address of the subnet's network with these low 16 bits. -/
def addrOf (x cprefixLen v : ℕ) : ℕ := netAddr x cprefixLen / 2 ^ 16 * 2 ^ 16 + v

/-- `allocSwitchPortIP` with its reads of the switch and the book, both of which etcd answers. -/
def allocSwitchPortIPAt (codec : BitmapCodec) (db : Store Stored) (switchName cip : String)
    (cprefixLen : ℕ) : AllocResult :=
  if (db (switchPath switchName)).isSome then
    allocSwitchPortIP codec (rawAt db (switchIPBookPath switchName)) cip cprefixLen
  else .error

/-- What the result should be for the subnet of address `x` and a book: the least available number
if there is one, else an error; a returned address is an inner one of the subnet and its low 16 bits
were free and are recorded. -/
structure Allocates (codec : BitmapCodec) (m : IDMap) (x cprefixLen : ℕ) (r : AllocResult) :
    Prop where
  least : ∀ v, Available m x cprefixLen v → (∀ w, Available m x cprefixLen w → v ≤ w) →
    r = .got ⟨u32ToIPv4 (addrOf x cprefixLen v), codec.toBase64 m, codec.toBase64 (insert v m)⟩
  error : (∀ v, ¬ Available m x cprefixLen v) → r = .error
  inner : ∀ a, r = .got a → ∃ y, a.ip = u32ToIPv4 y ∧ netAddr x cprefixLen + 1 < y ∧
    y < lastAddr x cprefixLen ∧ masked y ∉ m ∧ a.newVal = codec.toBase64 (insert (masked y) m)

/-- A number from the third address of the subnet on is free, or the subnet has no third address,
a number from its last address on is free and none below it that the search meets. -/
def Findable (m : IDMap) (x cprefixLen : ℕ) : Prop :=
  (∃ w, masked (netAddr x cprefixLen) + 2 ≤ w ∧ w < 2 ^ 16 ∧ w ∉ m) ∨
    (∃ w, masked (lastAddr x cprefixLen) ≤ w ∧ w < 2 ^ 16 ∧ w ∉ m) ∧
      ∀ y, masked (netAddr x cprefixLen) + 2 - 2 ^ 16 ≤ y → y < masked (lastAddr x cprefixLen) →
        y ∈ m

/-! ### Numbers of the code -/

section numbers
variable {x cprefixLen : ℕ}

theorem hostBits_eq (h : cprefixLen ≤ 32) : hostBits cprefixLen = 32 - cprefixLen := by
  unfold hostBits
  omega

theorem networkOf_eq (h : cprefixLen ≤ 32) : networkOf x cprefixLen = netAddr x cprefixLen := by
  rw [networkOf, hostBits_eq h, Nat.shiftLeft_eq, Nat.shiftRight_eq_div_pow, netAddr]

/-- A subnet of 16 host bits or more ends with all low bits set. -/
theorem maxID_of_le {net : ℕ} (hs : 16 ≤ hostBits cprefixLen) (h : cprefixLen ≤ 32)
    (hnet : masked net = 0) : maxID net cprefixLen = 2 ^ 16 - 1 := by
  obtain ⟨k, hk⟩ : ∃ k, hostBits cprefixLen = 16 + k := Nat.exists_eq_add_of_le hs
  have hle : hostBits cprefixLen ≤ 32 := by rw [hostBits_eq h]; omega
  have hpow : 2 ^ hostBits cprefixLen = 2 ^ 16 * 2 ^ k := by rw [hk, pow_add]
  have hpos : 0 < 2 ^ k := Nat.two_pow_pos k
  have hlt : 2 ^ hostBits cprefixLen ≤ 2 ^ 32 := Nat.pow_le_pow_right (by decide) hle
  have hmask : (1 <<< hostBits cprefixLen % 2 ^ 32 + (2 ^ 32 - 1)) % 2 ^ 32 =
      2 ^ hostBits cprefixLen - 1 := by
    rw [Nat.one_shiftLeft]
    omega
  rw [maxID, hmask, masked_or, hnet, Nat.or_zero, masked]
  omega

/-- The low bits of the network and of the last address, as the code has them. -/
theorem maxID_networkOf (h : cprefixLen ≤ 32) :
    maxID (networkOf x cprefixLen) cprefixLen = masked (lastAddr x cprefixLen) := by
  have hpos : 0 < 2 ^ hostBits cprefixLen := Nat.two_pow_pos _
  by_cases hs : hostBits cprefixLen < 16
  · obtain ⟨q, hq⟩ : ∃ q, masked (networkOf x cprefixLen) = 2 ^ hostBits cprefixLen * q := by
      rcases masked_networkOf x cprefixLen with hzero | ⟨_, hq⟩
      · exact ⟨0, hzero⟩
      · exact hq
    have hlt : masked (networkOf x cprefixLen) + (2 ^ hostBits cprefixLen - 1) < 2 ^ 16 := by
      -- both are multiples of the size of the subnet
      have hdvd : 2 ^ 16 = 2 ^ hostBits cprefixLen * 2 ^ (16 - hostBits cprefixLen) := by
        rw [← pow_add, Nat.add_sub_cancel' (by omega)]
      have hlow := masked_lt (networkOf x cprefixLen)
      rw [hq, hdvd] at hlow
      have hq' : q + 1 ≤ 2 ^ (16 - hostBits cprefixLen) := Nat.lt_of_mul_lt_mul_left hlow
      have hmul := Nat.mul_le_mul_left (2 ^ hostBits cprefixLen) hq'
      rw [hq, hdvd]
      rw [Nat.mul_add] at hmul
      omega
    rw [maxID_eq hs hq, ← hq, lastAddr, ← networkOf_eq h, ← hostBits_eq h]
    unfold masked at hlt ⊢
    omega
  · have hzero : masked (networkOf x cprefixLen) = 0 := by
      rcases masked_networkOf x cprefixLen with hzero | ⟨hlt, _⟩
      · exact hzero
      · exact absurd hlt hs
    obtain ⟨k, hk⟩ : ∃ k, hostBits cprefixLen = 16 + k := Nat.exists_eq_add_of_le (by omega)
    have hpow : 2 ^ hostBits cprefixLen = 2 ^ 16 * 2 ^ k := by rw [hk, pow_add]
    have hk' : 0 < 2 ^ k := Nat.two_pow_pos k
    rw [maxID_of_le (by omega) h hzero, lastAddr, ← networkOf_eq h, ← hostBits_eq h, hpow]
    unfold masked at hzero ⊢
    omega

/-- The last address is not below the network. -/
theorem masked_netAddr_le (h : cprefixLen ≤ 32) :
    masked (netAddr x cprefixLen) ≤ masked (lastAddr x cprefixLen) := by
  rw [← maxID_networkOf h, ← networkOf_eq h, maxID, masked_or]
  exact Nat.right_le_or

/-- The address for a number of the subnet. -/
theorem networkOf_or (h : cprefixLen ≤ 32) {v : ℕ} (hlow : masked (netAddr x cprefixLen) ≤ v)
    (hlast : v < masked (lastAddr x cprefixLen)) :
    networkOf x cprefixLen ||| v = addrOf x cprefixLen v := by
  have hv : v < 2 ^ 16 := lt_trans hlast (masked_lt _)
  have hmasked : masked (networkOf x cprefixLen ||| v) = v :=
    (masked_networkOf_or hv (by rwa [maxID_networkOf h])).mpr (by rwa [networkOf_eq h])
  have hhigh : (networkOf x cprefixLen ||| v) / 2 ^ 16 = networkOf x cprefixLen / 2 ^ 16 := by
    rw [← Nat.shiftRight_eq_div_pow, Nat.shiftRight_or_distrib, Nat.shiftRight_eq_div_pow,
      Nat.shiftRight_eq_div_pow, Nat.div_eq_of_lt hv, Nat.or_zero]
  unfold masked at hmasked
  rw [addrOf, ← networkOf_eq h, ← hhigh]
  omega

/-- The address of an available number is an inner one of the subnet. -/
theorem addrOf_inner {v : ℕ} (hlow : masked (netAddr x cprefixLen) + 2 ≤ v)
    (hlast : v < masked (lastAddr x cprefixLen)) :
    netAddr x cprefixLen + 1 < addrOf x cprefixLen v ∧
      addrOf x cprefixLen v < lastAddr x cprefixLen ∧ masked (addrOf x cprefixLen v) = v := by
  have hv : v < 2 ^ 16 := lt_trans hlast (masked_lt _)
  have hle : netAddr x cprefixLen ≤ lastAddr x cprefixLen := Nat.le_add_right _ _
  unfold masked at hlow hlast ⊢
  unfold addrOf
  omega

end numbers

/-! ### The search -/

/-- The search finds a free number if there is one. -/
theorem exists_freeFrom {m : IDMap} {n i x : ℕ} (hfree : (i + x) % 2 ^ 16 ∉ m) (hx : x < n)
    (hi : i < 2 ^ 16) : ∃ id, freeFrom m n i = some id := by
  induction n generalizing i x with
  | zero => exact absurd hx (Nat.not_lt_zero x)
  | succ n ih =>
      rw [freeFrom]
      split_ifs with hmem
      · cases x with
        | zero => exact absurd hmem (by rwa [Nat.add_zero, Nat.mod_eq_of_lt hi] at hfree)
        | succ x =>
            refine ih (x := x) ?_ (by omega) (Nat.mod_lt _ (by decide))
            rwa [Nat.mod_add_mod, Nat.add_assoc, Nat.add_comm 1 x]
      · exact ⟨i, rfl⟩

theorem nextIDFrom_ne_none {m : IDMap} {i w : ℕ} (hi : i < 2 ^ 16) (hw : w < 2 ^ 16)
    (hfree : w ∉ m) : nextIDFrom m i ≠ none := by
  obtain ⟨id, hid⟩ := exists_freeFrom (m := m) (n := 2 ^ 16) (i := i) (x :=
    (w + 2 ^ 16 - i) % 2 ^ 16)
    (by rwa [show (i + (w + 2 ^ 16 - i) % 2 ^ 16) % 2 ^ 16 = w by omega])
    (Nat.mod_lt _ (by decide)) hi
  rw [nextIDFrom, hid]
  simp

/-- What the search has found and what it has passed. -/
structure Found (m : IDMap) (x cprefixLen id : ℕ) : Prop where
  free : id ∉ m
  lt : id < 2 ^ 16
  passed : (masked (netAddr x cprefixLen) + 2) % 2 ^ 16 ≤ id ∧
      (∀ y, (masked (netAddr x cprefixLen) + 2) % 2 ^ 16 ≤ y → y < id → y ∈ m) ∨
    id < (masked (netAddr x cprefixLen) + 2) % 2 ^ 16 ∧
      (∀ y, (masked (netAddr x cprefixLen) + 2) % 2 ^ 16 ≤ y → y < 2 ^ 16 → y ∈ m) ∧
      ∀ y < id, y ∈ m

section found
variable {m : IDMap} {x cprefixLen id : ℕ} (hfound : Found m x cprefixLen id)
include hfound

/-- Every number from the third address on is taken when the search has gone round. -/
theorem Found.round (hid : id < masked (netAddr x cprefixLen) + 2) (w : ℕ)
    (hw : masked (netAddr x cprefixLen) + 2 ≤ w) (hlt : w < 2 ^ 16) : w ∈ m := by
  rcases hfound.passed with ⟨hle, _⟩ | ⟨_, hup, _⟩
  · omega
  · exact hup w (by omega) hlt

/-- The search ends at the last address or behind it. -/
theorem Found.last (h : cprefixLen ≤ 32) (hid : masked (lastAddr x cprefixLen) ≤ id) :
    Findable m x cprefixLen ∧ ∀ v, ¬ Available m x cprefixLen v := by
  have hLM := masked_netAddr_le (x := x) h
  have hL := masked_lt (netAddr x cprefixLen)
  refine ⟨?_, fun v ⟨hlow, hlast, hfree⟩ => hfree ?_⟩
  · by_cases hlow : masked (netAddr x cprefixLen) + 2 ≤ id
    · exact Or.inl ⟨id, hlow, hfound.lt, hfound.free⟩
    · refine Or.inr ⟨⟨id, hid, hfound.lt, hfound.free⟩, fun y hy hylast => ?_⟩
      rcases hfound.passed with ⟨_, hall⟩ | ⟨_, _, hall⟩
      · exact hall y (by omega) (by omega)
      · exact hall y (by omega)
  · rcases hfound.passed with ⟨_, hall⟩ | ⟨_, hup, _⟩
    · exact hall v (by omega) (by omega)
    · exact hup v (by omega) (by omega)

/-- The search ends within the subnet. -/
theorem Found.available (hlow : masked (netAddr x cprefixLen) + 2 ≤ id)
    (hlast : id < masked (lastAddr x cprefixLen)) :
    Findable m x cprefixLen ∧ Available m x cprefixLen id ∧
      ∀ w, Available m x cprefixLen w → id ≤ w := by
  have hlt := hfound.lt
  refine ⟨Or.inl ⟨id, hlow, hlt, hfound.free⟩, ⟨hlow, hlast, hfound.free⟩, fun w hw => ?_⟩
  by_contra hlt'
  have hlow' := hw.1
  rcases hfound.passed with ⟨_, hall⟩ | ⟨hlt'', _⟩
  · exact hw.2.2 (hall w (by omega) (by omega))
  · omega

/-- The search has gone round and ends below the last address. -/
theorem Found.wrapped (h : cprefixLen ≤ 32) (hlow : id < masked (netAddr x cprefixLen) + 2)
    (hlast : id < masked (lastAddr x cprefixLen)) :
    ¬ Findable m x cprefixLen ∧ ∀ v, ¬ Available m x cprefixLen v := by
  have hLM := masked_netAddr_le (x := x) h
  have hM := masked_lt (lastAddr x cprefixLen)
  refine ⟨?_, fun v ⟨hv, hvlast, hfree⟩ => hfree (hfound.round hlow v hv (by omega))⟩
  rintro (⟨w, hw, hwlt, hfree⟩ | ⟨⟨w, hw, hwlt, hfree⟩, hall⟩)
  · exact hfree (hfound.round hlow w hw hwlt)
  · by_cases hid : masked (netAddr x cprefixLen) + 2 - 2 ^ 16 ≤ id
    · exact hfound.free (hall id hid hlast)
    · -- only the number 0 lies before the start
      rcases hfound.passed with ⟨hle, _⟩ | ⟨_, hup, _⟩
      · omega
      · exact hfree (hup w (by omega) hwlt)

end found

/-! ### The result -/

section result
variable {codec : BitmapCodec} {db : Store Stored} {switchName cip : String} {x cprefixLen : ℕ}
  (hsw : (db (switchPath switchName)).isSome) (hcip : iPv4ToU32 cip = some x)
  (h : cprefixLen ≤ 32)
include hsw hcip h

theorem allocSwitchPortIPAt_eq : allocSwitchPortIPAt codec db switchName cip cprefixLen =
    match nextIDFrom (bits codec db (switchIPBookPath switchName))
        ((masked (netAddr x cprefixLen) + 2) % 2 ^ 16) with
    | none => .loops
    | some (id, m) =>
        if id ≥ masked (lastAddr x cprefixLen) then .error
        else .got ⟨u32ToIPv4 (networkOf x cprefixLen ||| id),
          codec.toBase64 (bits codec db (switchIPBookPath switchName)), codec.toBase64 m⟩ := by
  have hmax := maxID_networkOf (x := x) h
  rw [networkOf_eq h] at hmax
  rw [allocSwitchPortIPAt, if_pos hsw, allocSwitchPortIP]
  simp only [hcip, firstID, networkOf_eq h, hmax]
  rfl

/-- **Automatic allocation** gives the least available address or an error iff a free number can be
found. -/
theorem allocates_iff :
    Allocates codec (bits codec db (switchIPBookPath switchName)) x cprefixLen
      (allocSwitchPortIPAt codec db switchName cip cprefixLen) ↔
    Findable (bits codec db (switchIPBookPath switchName)) x cprefixLen := by
  have hM := masked_lt (lastAddr x cprefixLen)
  have hstart : (masked (netAddr x cprefixLen) + 2) % 2 ^ 16 < 2 ^ 16 := Nat.mod_lt _ (by decide)
  rw [allocSwitchPortIPAt_eq hsw hcip h]
  generalize hm : bits codec db (switchIPBookPath switchName) = m
  cases hnext : nextIDFrom m ((masked (netAddr x cprefixLen) + 2) % 2 ^ 16) with
  | none =>
      -- the book is full and the search does not end
      have hfull : ∀ w < 2 ^ 16, w ∈ m := by
        intro w hw
        by_contra hfree
        exact nextIDFrom_ne_none hstart hw hfree hnext
      refine iff_of_false (fun hr => ?_) ?_
      · have herror := hr.error fun v hv => hv.2.2 (hfull v (by have := hv.2.1; omega))
        cases herror
      · rintro (⟨w, _, hw, hfree⟩ | ⟨⟨w, _, hw, hfree⟩, _⟩) <;> exact hfree (hfull w hw)
  | some found =>
      obtain ⟨id, m'⟩ := found
      obtain ⟨id', hfree, heq⟩ := Option.map_eq_some_iff.mp hnext
      obtain ⟨rfl, rfl⟩ := Prod.mk.inj heq
      obtain ⟨hnew, hlt, hpassed⟩ := freeFrom_eq_some hfree hstart
      have hfound : Found m x cprefixLen id' := ⟨hnew, hlt, hpassed⟩
      dsimp only
      split_ifs with hlast
      · obtain ⟨hcond, hnone⟩ := hfound.last h hlast
        refine iff_of_true ⟨fun v hv => absurd hv (hnone v), fun _ => rfl, fun a ha => ?_⟩ hcond
        cases ha
      · rw [not_le] at hlast
        by_cases hlow : masked (netAddr x cprefixLen) + 2 ≤ id'
        · obtain ⟨hcond, havail, hleast⟩ := hfound.available hlow hlast
          have haddr := networkOf_or (x := x) h (by omega) hlast
          obtain ⟨hfirst, hlast', hmasked⟩ := addrOf_inner hlow hlast
          rw [haddr]
          refine iff_of_true ⟨fun v hv hall => ?_, fun hnone => absurd havail (hnone id'),
            fun a ha => ?_⟩ hcond
          · rw [Nat.le_antisymm (hall id' havail) (hleast v hv)]
          · rw [← AllocResult.got.inj ha]
            refine ⟨_, rfl, hfirst, hlast', ?_, ?_⟩
            · rwa [hmasked]
            · rw [hmasked]
        · obtain ⟨hcond, hnone⟩ := hfound.wrapped h (by omega) hlast
          refine iff_of_false (fun hr => ?_) hcond
          cases hr.error hnone

end result

/-! ### Runs on fixed books -/

/-- A book that is empty, and the subnet `10.0.0.0/24`. -/
theorem allocates_iff_emptyBook :
    Allocates sampleCodec (bits sampleCodec oneSwitchStore (switchIPBookPath "a")) 167772160 24
      (allocSwitchPortIPAt sampleCodec oneSwitchStore "a" "10.0.0.0" 24) := by
  refine (allocates_iff (by decide) (by decide) (by decide)).mpr
    (Or.inl ⟨2, by decide, by decide, ?_⟩)
  decide

/-- In the subnet of the two addresses `10.0.255.254` and `10.0.255.255` the counter goes round at
once, and the first address is handed out as number `0`. -/
theorem allocates_network_address : ¬ ∀ (codec : BitmapCodec) (db : Store Stored)
    (switchName cip : String) (x cprefixLen : ℕ), (db (switchPath switchName)).isSome →
    iPv4ToU32 cip = some x → cprefixLen ≤ 32 →
    Allocates codec (bits codec db (switchIPBookPath switchName)) x cprefixLen
      (allocSwitchPortIPAt codec db switchName cip cprefixLen) := by
  intro hall
  have hlow : masked (netAddr 167837694 31) = 65534 := by decide
  have hlast : masked (lastAddr 167837694 31) = 65535 := by decide
  have h := hall sampleCodec oneSwitchStore "a" "10.0.255.254" 167837694 31 (by decide) (by decide)
    (by decide)
  have hne : allocSwitchPortIPAt sampleCodec oneSwitchStore "a" "10.0.255.254" 31 ≠ .error := by
    decide
  refine hne (h.error fun v hv => ?_)
  obtain ⟨h1, h2, _⟩ := hv
  omega

end TupleNet.Control
