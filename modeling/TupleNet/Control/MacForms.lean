import TupleNet.Control.AddCommand
import TupleNet.Control.PortAddress
import TupleNet.Lib.InetAddr
import TupleNet.Flow.Nat

/-! # Addresses and MACs on both sides

The control side and the nodes turn addresses into numbers and back, and make MACs of them, each
with functions of its own: `ip2int` and `_gen_mac_by_ip` of `logicalview.py`, `IPv4ToU32` and
`U32ToIPv4` of `bookkeeping/id.go`, and `MacFromIP` twice, in `etcd3/shared.go` and in
`comm/comm.go`.  They all agree (`addressForms_agree`), so a router port that `tpctl` creates and
the answer that a node gives for a translated address have the MACs that the other side expects. -/

namespace TupleNet

open Text Control InetAddr

/-- `_gen_mac_by_ip`. -/
def genMacByIp (ipInt : ℕ) : String :=
  "f2:01:" ++ hex02 (ipInt >>> 24 &&& 0xff) ++ ":" ++ hex02 (ipInt >>> 16 &&& 0xff) ++ ":" ++
    hex02 (ipInt >>> 8 &&& 0xff) ++ ":" ++ hex02 (ipInt &&& 0xff)

example : genMacByIp 167772161 = "f2:01:0a:00:00:01" := by decide

/-- `ip2int` is the number of `inet_aton` if `inet_ntoa` gives the text back. -/
theorem ip2int_eq (s : String) : ip2int s = (inetAton s).filter (fun n => inetNtoa n = s) :=
  (roundTrip_eq_dottedQuad s).symm

/-! ### Numbers -/

theorem and_0xff (n : ℕ) : n &&& 0xff = n % 2 ^ 8 := Nat.and_two_pow_sub_one_eq_mod n 8

theorem u32ToIPv4_eq (n : ℕ) : u32ToIPv4 n = inetNtoa n := by
  simp only [u32ToIPv4, inetNtoa, quadText, Nat.shiftRight_eq_div_pow]
  rfl

/-- The four octets make up the number. -/
theorem octets_or {n : ℕ} (h : n < 2 ^ 32) : ((n >>> 24) % 2 ^ 8) <<< 24 |||
    ((n >>> 16) % 2 ^ 8) <<< 16 ||| ((n >>> 8) % 2 ^ 8) <<< 8 ||| n % 2 ^ 8 = n := by
  have hjoin : ∀ a b j : ℕ, b < 2 ^ 8 → a <<< (8 + j) ||| b <<< j = (a * 2 ^ 8 + b) <<< j := by
    intro a b j hb
    rw [Nat.shiftLeft_add, ← Nat.shiftLeft_or_distrib, ← Nat.shiftLeft_add_eq_or_of_lt hb,
      Nat.shiftLeft_eq a 8]
  have hlt : ∀ y : ℕ, y % 2 ^ 8 < 2 ^ 8 := fun y => Nat.mod_lt y (by decide)
  have hlast := hjoin ((((n >>> 24) % 2 ^ 8) * 2 ^ 8 + (n >>> 16) % 2 ^ 8) * 2 ^ 8 +
    (n >>> 8) % 2 ^ 8) (n % 2 ^ 8) 0 (hlt _)
  rw [hjoin _ _ 16 (hlt _), hjoin _ _ 8 (hlt _)]
  refine hlast.trans ?_
  simp only [Nat.shiftLeft_zero, Nat.shiftRight_eq_div_pow]
  omega

theorem iPv4ToU32_inetNtoa {n : ℕ} (h : n < 2 ^ 32) : iPv4ToU32 (inetNtoa n) = some n := by
  rw [← u32ToIPv4_eq, iPv4ToU32_u32ToIPv4, octets_or h]

/-! ### MACs -/

/-- The text of a byte is the same in the three functions. -/
theorem hexByte_eq {n : ℕ} (h : n < 2 ^ 8) :
    Control.hexByte n = hex02 n ∧ Tpctl.hexByte n = hex02 n := by
  have hall : ∀ n < 2 ^ 8, Control.hexByte n = hex02 n := by decide +kernel
  exact ⟨hall n h, rfl⟩

theorem macFromIP_inetNtoa (n : ℕ) : Control.macFromIP (inetNtoa n) = some (genMacByIp n) ∧
    Tpctl.macFromIP (inetNtoa n) = some (genMacByIp n) := by
  have hlt : ∀ y : ℕ, y % 2 ^ 8 < 2 ^ 8 := fun y => Nat.mod_lt y (by decide)
  have hbyte : ∀ y : ℕ, Control.hexByte (y % 2 ^ 8) = hex02 (y % 2 ^ 8) :=
    fun y => (hexByte_eq (hlt y)).1
  rw [← u32ToIPv4_eq, Control.macFromIP, Tpctl.macFromIP, split_u32ToIPv4]
  simp only [List.map_cons, List.map_nil, parseUint8_toString (hlt _), hbyte, genMacByIp, and_0xff]
  constructor <;> rfl

/-- The two digits of a byte. -/
def byteDigits (b : ℕ) : List Char := [Nat.digitChar (b / 16), Nat.digitChar (b % 16)]

theorem digitsVal_byteDigits {b : ℕ} (hb : b < 2 ^ 8) (cs : List Char) (m : ℕ) :
    digitsVal 16 (byteDigits b ++ cs) m = digitsVal 16 cs (m * 2 ^ 8 + b) := by
  have hdigit : ∀ d < 16, digitVal 16 (Nat.digitChar d) = some d := by decide
  have hval : (m * 16 + b / 16) * 16 + b % 16 = m * 2 ^ 8 + b := by omega
  rw [byteDigits, List.cons_append, List.cons_append, List.nil_append, digitsVal,
    hdigit _ (by omega), Option.bind_some, digitsVal, hdigit _ (by omega), Option.bind_some, hval]

/-- The MAC of an address as a number. -/
theorem mac2int_genMacByIp {n : ℕ} (h : n < 2 ^ 32) :
    mac2int (genMacByIp n) = some (0xf201 <<< 32 + n) := by
  have hlt : ∀ y : ℕ, y % 2 ^ 8 < 2 ^ 8 := fun y => Nat.mod_lt y (by decide)
  have hbyte : ∀ b < 2 ^ 8, (hex02 b).toList.filter (fun c => c ∉ [':', '.', '-', ' ']) =
      byteDigits b ∧ (byteDigits b).all (fun c => (digitVal 16 c).isSome) := by
    decide +kernel
  have hstart : "f2:01:".toList.filter (fun c => c ∉ [':', '.', '-', ' ']) = ['f', '2', '0',
      '1'] := by
    decide
  have hcolon : ":".toList.filter (fun c => c ∉ [':', '.', '-', ' ']) = [] := by decide
  have hdigits : (genMacByIp n).toList.filter (fun c => c ∉ [':', '.', '-', ' ']) =
      ['f', '2', '0', '1'] ++
      (byteDigits ((n >>> 24) % 2 ^ 8) ++ (byteDigits ((n >>> 16) % 2 ^ 8) ++
        (byteDigits ((n >>> 8) % 2 ^ 8) ++ (byteDigits (n % 2 ^ 8) ++ [])))) := by
    simp only [genMacByIp, and_0xff, String.toList_append, List.filter_append, hstart, hcolon,
      (hbyte _ (hlt _)).1, List.append_nil, List.nil_append, List.append_assoc]
  have hall : ∀ c ∈ (genMacByIp n).toList.filter (fun c => c ∉ [':', '.', '-', ' ']),
      (digitVal 16 c).isSome := by
    rw [hdigits]
    intro c hc
    simp only [List.mem_append, List.not_mem_nil, or_false] at hc
    have hmem : ∀ y : ℕ, c ∈ byteDigits (y % 2 ^ 8) → (digitVal 16 c).isSome :=
      fun y hy => List.all_eq_true.mp (hbyte _ (hlt y)).2 c hy
    rcases hc with hc | hc | hc | hc | hc
    · exact List.all_eq_true.mp (by decide : ['f', '2', '0', '1'].all
        (fun c => (digitVal 16 c).isSome)) c hc
    all_goals exact hmem _ hc
  have hf201 : ∀ cs : List Char, digitsVal 16 (['f', '2', '0', '1'] ++ cs) 0 =
      digitsVal 16 cs 0xf201 := fun _ => rfl
  rw [mac2int, parseHex_eq _ hall, hdigits, hf201, digitsVal_byteDigits (hlt _),
    digitsVal_byteDigits (hlt _), digitsVal_byteDigits (hlt _), digitsVal_byteDigits (hlt _),
    digitsVal, Option.some.injEq]
  · simp only [Nat.shiftRight_eq_div_pow, Nat.shiftLeft_eq]
    omega
  · rw [hdigits]
    exact List.cons_ne_nil _ _

theorem genMacByIp_injective {n n' : ℕ} (hn : n < 2 ^ 32) (hn' : n' < 2 ^ 32)
    (h : genMacByIp n = genMacByIp n') : n = n' := by
  have hint := mac2int_genMacByIp hn
  rw [h, mac2int_genMacByIp hn', Option.some.injEq] at hint
  omega

/-- The source MAC of a translated packet is that of the address, as a number. -/
theorem Lnat.mac2int_genMacByIp (p : Lnat) (h : p.xlateIpInt < 2 ^ 32) :
    mac2int (genMacByIp p.xlateIpInt) = some p.xlateMacInt := TupleNet.mac2int_genMacByIp h

/-! ### All conversions -/

theorem ip2int_eq_some {s : String} {n : ℕ} (h : ip2int s = some n) :
    n < 2 ^ 32 ∧ inetNtoa n = s := by
  rw [ip2int_eq] at h
  obtain ⟨hn, hsame⟩ := Option.filter_eq_some_iff.mp h
  exact ⟨inetAton_lt hn, of_decide_eq_true hsame⟩

/-- **All conversions agree**: on every address that a node accepts the two sides compute the same
number, the same text and the same MAC, every number survives being written and read again, and
different addresses have different MACs. -/
theorem addressForms_agree :
    (∀ s n, ip2int s = some n → iPv4ToU32 s = some n ∧ u32ToIPv4 n = s ∧
      Control.macFromIP s = some (genMacByIp n) ∧ Tpctl.macFromIP s = some (genMacByIp n)) ∧
    (∀ n : UInt32, iPv4ToU32 (u32ToIPv4 n.toNat) = some n.toNat) ∧
    ∀ n n' : UInt32, n ≠ n' → genMacByIp n.toNat ≠ genMacByIp n'.toNat := by
  refine ⟨fun s n h => ?_, fun n => ?_, fun n n' hne hmac => hne ?_⟩
  · obtain ⟨hlt, rfl⟩ := ip2int_eq_some h
    exact ⟨iPv4ToU32_inetNtoa hlt, u32ToIPv4_eq n, macFromIP_inetNtoa n⟩
  · rw [u32ToIPv4_eq]
    exact iPv4ToU32_inetNtoa n.toNat_lt
  · exact UInt32.toNat_inj.mp (genMacByIp_injective n.toNat_lt n'.toNat_lt hmac)

/-- On the address `10.0.0.1`. -/
theorem addressForms_agree_quad : iPv4ToU32 "10.0.0.1" = some 167772161 ∧
    u32ToIPv4 167772161 = "10.0.0.1" ∧ Control.macFromIP "10.0.0.1" = some (genMacByIp 167772161) ∧
    Tpctl.macFromIP "10.0.0.1" = some (genMacByIp 167772161) :=
  addressForms_agree.1 "10.0.0.1" 167772161 (by decide)

end TupleNet
