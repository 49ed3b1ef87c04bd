import TupleNet.Lib.EndAround
import TupleNet.Lib.InetAddr

/-! # The probe packet

`_construct_icmp` of `pkt-trace.py` writes an ICMP packet as text, and `cal_checksum` computes the
checksum of its IP header: the words are added with the carry brought round after each of them, and
the sum is complemented digit by digit in its binary text.  That is the complement of the folded
sum, so the header with the checksum in its place adds up to `0xffff` (`calChecksum_valid`), and so
does the header of every packet that is written (`icmpPacket_valid`). -/

namespace TupleNet.PktTrace

open Text InetAddr EndAround

/-! ### The checksum -/

/-- The big-endian 16-bit words of a text of bytes. -/
def words : List UInt8 → List ℕ
  | hi :: lo :: rest => (hi.toNat * 2 ^ 8 + lo.toNat) :: words rest
  | _ => []

/-- `struct.unpack("!10H", header)`. -/
def unpack10H (header : List UInt8) : Option (List ℕ) :=
  if header.length = 20 then some (words header) else none

/-- `struct.pack("!H", n)`. -/
def packH (n : ℕ) : Option (List UInt8) :=
  if n < 2 ^ 16 then some [UInt8.ofNat (n / 2 ^ 8), UInt8.ofNat (n % 2 ^ 8)] else none

/-- One round of the loop over the words. -/
def addWord (sumNum h : ℕ) : ℕ :=
  let sumNum := sumNum + h
  if sumNum > 0xffff then (sumNum &&& 0xffff) + 1 else sumNum

/-- `"{:0>16b}".format(n)`. -/
def binText (n : ℕ) : List Char :=
  List.replicate (16 - (Nat.toDigits 2 n).length) '0' ++ Nat.toDigits 2 n

/-- The digit that the complement has. -/
def flip (c : Char) : Char := if c = '0' then '1' else '0'

/-- The loop that complements the first `n` digits; the text must have so many. -/
def reverseText : ℕ → List Char → Option (List Char)
  | 0, _ => some []
  | _ + 1, [] => none
  | n + 1, c :: cs => (reverseText n cs).map (fun r => flip c :: r)

/-- `cal_checksum`. -/
def calChecksum (header : List UInt8) : Option (List UInt8) := do
  let header ← unpack10H header
  let sumNum := header.foldl addWord 0
  let reverseStr ← reverseText 16 (binText sumNum)
  let reverse ← parseNat 2 reverseStr
  packH reverse

/-- The header with these bytes in the checksum field. -/
def withChecksum (header : List UInt8) (hi lo : UInt8) : List UInt8 :=
  header.take 10 ++ [hi, lo] ++ header.drop 12

/-- The sum of words in the one's complement. -/
def onesSum (ws : List ℕ) : ℕ := ws.foldl (addCarry (2 ^ 16)) 0

/-! ### Sums -/

theorem words_lt (bs : List UInt8) : ∀ w ∈ words bs, w < 2 ^ 16 := by
  induction bs using words.induct with
  | case1 hi lo rest ih =>
      intro w hw
      rw [words, List.mem_cons] at hw
      have hhi := hi.toNat_lt
      have hlo := lo.toNat_lt
      rcases hw with rfl | hw
      · omega
      · exact ih w hw
  | case2 bs h =>
      intro w hw
      rw [words] at hw
      · exact absurd hw List.not_mem_nil
      · exact h

theorem onesSum_eq (ws : List ℕ) : onesSum ws = fold (2 ^ 16) ws.sum := by
  have hsum := foldl_addCarry (by decide : 2 ≤ 2 ^ 16) ws 0
  rwa [fold_of_lt (by decide), Nat.zero_add] at hsum

theorem addWord_eq {s h : ℕ} (hs : s < 2 ^ 16) (hh : h < 2 ^ 16) :
    addWord s h = addCarry (2 ^ 16) s h := by
  rw [addCarry_eq (by decide) hs hh, addWord,
    show s + h &&& 0xffff = (s + h) % 2 ^ 16 from Nat.and_two_pow_sub_one_eq_mod _ 16]
  split_ifs <;> omega

/-- The loop adds in the one's complement. -/
theorem foldl_addWord {ws : List ℕ} (hws : ∀ w ∈ ws, w < 2 ^ 16) {s : ℕ} (hs : s < 2 ^ 16) :
    ws.foldl addWord s = ws.foldl (addCarry (2 ^ 16)) s := by
  induction ws generalizing s with
  | nil => rfl
  | cons h ws ih =>
      have hh : h < 2 ^ 16 := hws h List.mem_cons_self
      have hnext : addCarry (2 ^ 16) s h < 2 ^ 16 := (fold_spec (by decide) _).1
      rw [List.foldl_cons, List.foldl_cons, addWord_eq hs hh]
      exact ih (fun w hw => hws w (List.mem_cons_of_mem h hw)) hnext

/-- After any number of rounds the sum is the folded sum of the words so far. -/
theorem foldl_addWord_eq {ws : List ℕ} (hws : ∀ w ∈ ws, w < 2 ^ 16) :
    ws.foldl addWord 0 = fold (2 ^ 16) ws.sum := by
  rw [foldl_addWord hws (by decide)]
  exact onesSum_eq ws

/-! ### The complement in the text -/

/-- A text of binary digits. -/
def IsBin (cs : List Char) : Prop := ∀ c ∈ cs, c = '0' ∨ c = '1'

theorem isBin_toDigits (n : ℕ) : IsBin (Nat.toDigits 2 n) := by
  induction n using Nat.strongRecOn with
  | ind n ih =>
      have hdigit : ∀ d < 2, IsBin [d.digitChar] := by
        intro d hd c hc
        have hcases : d = 0 ∨ d = 1 := by omega
        rw [List.mem_singleton] at hc
        exact hcases.imp (fun h => by rw [hc, h]; rfl) (fun h => by rw [hc, h]; rfl)
      by_cases hn : n < 2
      · rw [Nat.toDigits_of_lt_base hn]
        exact hdigit n hn
      · rw [Nat.toDigits_of_base_le (by decide) (by omega)]
        intro c hc
        exact (List.mem_append.mp hc).elim (ih _ (by omega) c) (hdigit _ (by omega) c)

theorem binText_spec {n : ℕ} (h : n < 2 ^ 16) : (binText n).length = 16 ∧ IsBin (binText n) ∧
    digitsVal 2 (binText n) 0 = some n := by
  have hlen : (Nat.toDigits 2 n).length ≤ 16 :=
    (Nat.length_toDigits_le_iff (by decide) (by decide)).mpr h
  refine ⟨?_, fun c hc => ?_, ?_⟩
  · rw [binText, List.length_append, List.length_replicate]
    omega
  · rcases List.mem_append.mp hc with hc | hc
    · exact Or.inl (List.eq_of_mem_replicate hc)
    · exact isBin_toDigits n c hc
  · have hzeros : ∀ (k : ℕ) (cs : List Char),
        digitsVal 2 (List.replicate k '0' ++ cs) 0 = digitsVal 2 cs 0 := by
      intro k cs
      induction k with
      | zero => rfl
      | succ k ih => exact ih
    have hdigits := digitsVal_toDigits (by decide : 1 < 2) (by decide) n []
    rw [List.append_nil] at hdigits
    rw [binText, hzeros, hdigits, digitsVal]

theorem reverseText_eq (cs : List Char) : reverseText cs.length cs = some (cs.map flip) := by
  induction cs with
  | nil => rfl
  | cons c cs ih => rw [List.length_cons, reverseText, ih, Option.map_some, List.map_cons]

/-- Both texts together are all ones. -/
theorem digitsVal_flip {cs : List Char} (hbin : IsBin cs) {m n : ℕ}
    (h : digitsVal 2 cs m = some n) (m' : ℕ) :
    ∃ n', digitsVal 2 (cs.map flip) m' = some n' ∧ n + n' + 1 = (m + m' + 1) * 2 ^ cs.length := by
  induction cs generalizing m m' with
  | nil =>
      obtain rfl := Option.some.inj h
      exact ⟨m', rfl, by simp⟩
  | cons c cs ih =>
      have hrest : IsBin cs := fun c' hc' => hbin c' (List.mem_cons_of_mem c hc')
      have hstep : ∃ d, d ≤ 1 ∧ digitVal 2 c = some d ∧ digitVal 2 (flip c) = some (1 - d) := by
        rcases hbin c List.mem_cons_self with rfl | rfl
        · exact ⟨0, by decide, by decide, by decide⟩
        · exact ⟨1, by decide, by decide, by decide⟩
      obtain ⟨d, hd, hval, hflip⟩ := hstep
      rw [digitsVal, hval, Option.bind_some] at h
      obtain ⟨n', hn', hsum⟩ := ih hrest h (m' * 2 + (1 - d))
      refine ⟨n', ?_, ?_⟩
      · rw [List.map_cons, digitsVal, hflip, Option.bind_some, hn']
      · have hnext : m * 2 + d + (m' * 2 + (1 - d)) + 1 = (m + m' + 1) * 2 := by omega
        rw [hsum, hnext, List.length_cons, Nat.pow_succ', Nat.mul_assoc]

/-- The complement that is computed. -/
theorem reverse_binText {n : ℕ} (h : n < 2 ^ 16) :
    ((reverseText 16 (binText n)).bind (parseNat 2)) = some (0xffff - n) := by
  obtain ⟨hlen, hbin, hval⟩ := binText_spec h
  have hreverse := reverseText_eq (binText n)
  obtain ⟨n', hn', hsum⟩ := digitsVal_flip hbin hval 0
  have hne : (binText n).map flip ≠ [] := by
    intro hnil
    rw [List.map_eq_nil_iff] at hnil
    rw [hnil] at hlen
    cases hlen
  rw [hlen] at hreverse hsum
  rw [hreverse, Option.bind_some, parseNat, if_neg hne, hn', Option.some.injEq]
  omega

/-! ### The header -/

/-- What is returned is the complement of the folded sum. -/
theorem calChecksum_eq {header : List UInt8} (hlen : header.length = 20) :
    calChecksum header = packH (0xffff - fold (2 ^ 16) (words header).sum) := by
  have hlt : fold (2 ^ 16) (words header).sum < 2 ^ 16 := (fold_spec (by decide) _).1
  have hreverse := reverse_binText hlt
  rw [calChecksum, unpack10H, if_pos hlen]
  simp only [Option.bind_eq_bind, Option.bind_some, foldl_addWord_eq (words_lt header)]
  rw [← Option.bind_assoc, hreverse, Option.bind_some]

theorem words_append {bs : List UInt8} (h : bs.length % 2 = 0) (cs : List UInt8) :
    words (bs ++ cs) = words bs ++ words cs := by
  induction bs using words.induct with
  | case1 hi lo rest ih =>
      rw [List.length_cons, List.length_cons] at h
      rw [List.cons_append, List.cons_append, words, words, ih (by omega), List.cons_append]
  | case2 bs hbs =>
      cases bs with
      | nil => rfl
      | cons b bs =>
          cases bs with
          | nil => cases h
          | cons b' bs => exact absurd rfl (hbs b b' bs)

/-- The checksum word comes on top of the words of a header without checksum. -/
theorem sum_withChecksum {header : List UInt8} (hlen : header.length = 20)
    (hfield : (header.drop 10).take 2 = [0, 0]) (hi lo : UInt8) :
    (words (withChecksum header hi lo)).sum =
      (words header).sum + (hi.toNat * 2 ^ 8 + lo.toNat) := by
  have hparts : ∀ hi lo : UInt8, (words (header.take 10 ++ [hi, lo] ++ header.drop 12)).sum =
      (words (header.take 10)).sum + (hi.toNat * 2 ^ 8 + lo.toNat) +
        (words (header.drop 12)).sum := by
    intro hi lo
    rw [List.append_assoc, words_append (by rw [List.length_take]; omega), List.cons_append,
      List.cons_append, List.nil_append, words, List.sum_append, List.sum_cons]
    omega
  have hheader : header = header.take 10 ++ [0, 0] ++ header.drop 12 := by
    rw [← hfield, List.append_assoc, ← List.drop_drop (i := 2) (j := 10), List.take_append_drop,
      List.take_append_drop]
  have hzero := hparts 0 0
  rw [← hheader] at hzero
  rw [withChecksum, hparts, hzero]
  have h0 : (0 : UInt8).toNat = 0 := rfl
  omega

/-- **The checksum is valid**: two bytes that make the words of the header add up to `0xffff` in the
one's complement.  They are the complement of the folded plain sum, and in every round the sum has
sixteen binary digits. -/
theorem calChecksum_valid {header : List UInt8} (hlen : header.length = 20)
    (hfield : (header.drop 10).take 2 = [0, 0]) :
    ∃ hi lo : UInt8, calChecksum header = some [hi, lo] ∧
      onesSum (words (withChecksum header hi lo)) = 0xffff ∧
      hi.toNat * 2 ^ 8 + lo.toNat = 0xffff - fold (2 ^ 16) (words header).sum ∧
      ∀ k, ((words header).take k).foldl addWord 0 ≤ 0xffff ∧
        (binText (((words header).take k).foldl addWord 0)).length = 16 := by
  have hlt : ∀ x, fold (2 ^ 16) x < 2 ^ 16 := fun x => (fold_spec (by decide) x).1
  have hbytes : ∀ n, n ≤ 0xffff →
      (UInt8.ofNat (n / 2 ^ 8)).toNat * 2 ^ 8 + (UInt8.ofNat (n % 2 ^ 8)).toNat = n := by
    intro n hn
    rw [UInt8.toNat_ofNat', UInt8.toNat_ofNat']
    omega
  have hsum := hlt (words header).sum
  refine ⟨_, _, (calChecksum_eq hlen).trans (if_pos (by omega)), ?_, hbytes _ (by omega),
    fun k => ?_⟩
  · rw [onesSum_eq, sum_withChecksum hlen hfield, hbytes _ (by omega)]
    exact fold_add_complement (by decide) _
  · have hwords : ∀ w ∈ (words header).take k, w < 2 ^ 16 :=
      fun w hw => words_lt header w (List.mem_of_mem_take hw)
    have hround := hlt ((words header).take k).sum
    rw [← foldl_addWord_eq hwords] at hround
    exact ⟨by omega, (binText_spec hround).1⟩

/-- The header of a packet from `10.0.0.1` to `10.0.0.2`. -/
theorem calChecksum_valid_probe : ∃ hi lo : UInt8,
    calChecksum [0x45, 0, 0, 0x54, 0, 0, 0x40, 0, 9, 1, 0, 0, 10, 0, 0, 1, 10, 0, 0, 2] =
      some [hi, lo] ∧
    onesSum (words (withChecksum
      [0x45, 0, 0, 0x54, 0, 0, 0x40, 0, 9, 1, 0, 0, 10, 0, 0, 1, 10, 0, 0, 2] hi lo)) = 0xffff := by
  obtain ⟨hi, lo, hck, hsum, _⟩ := calChecksum_valid
    (by decide :
      [(0x45 : UInt8), 0, 0, 0x54, 0, 0, 0x40, 0, 9, 1, 0, 0, 10, 0, 0, 1, 10, 0, 0, 2].length = 20)
    (by decide)
  exact ⟨hi, lo, hck, hsum⟩

/-! ### The packet -/

/-- The two kinds of packets. -/
inductive IcmpType where
  | request
  | reply
deriving DecidableEq, Repr

/-- The six bytes of a MAC: of its parts the first six, each of which has to be a byte. -/
def macBytes (mac : String) : Option (List UInt8) :=
  match split ':' mac with
  | a :: b :: c :: d :: e :: f :: _ =>
      [a, b, c, d, e, f].mapM (fun part =>
        ((parseHex part.toList).filter (· < 2 ^ 8)).map UInt8.ofNat)
  | _ => none

/-- `struct.pack("!L", n)` of a number of 32 bits. -/
def packL (n : ℕ) : List UInt8 := [n / 2 ^ 24, n / 2 ^ 16, n / 2 ^ 8, n].map UInt8.ofNat

/-- The fields before the checksum: `l3_head`, `ttl` and `protocol`. -/
def l3Head : List UInt8 := [0x45, 0x00, 0x00, 0x54, 0x00, 0x00, 0x40, 0x00, 9, 1]

/-- The IP header. -/
def ipHeader (srcIp dstIp : ℕ) : Option (List UInt8) :=
  (calChecksum (l3Head ++ [0, 0] ++ packL srcIp ++ packL dstIp)).map
    (fun ipChecksum => l3Head ++ ipChecksum ++ packL srcIp ++ packL dstIp)

/-- The ICMP message: type, checksum, id, sequence number and the data `1` to `56`. -/
def icmpPayload (type : IcmpType) : List UInt8 :=
  (if type = .request then [0x08, 0x00] else [0x00, 0x00]) ++ [0x85, 0x10] ++ [0x5f, 0xbf] ++
    [0x00, 0x01] ++ (List.range' 1 56).map UInt8.ofNat

/-- The bytes of the packet. -/
def icmpPacket (srcMac dstMac srcIp dstIp : String) (type : IcmpType) : Option (List UInt8) := do
  let srcMac ← macBytes srcMac
  let dstMac ← macBytes dstMac
  let srcIp ← inetAton srcIp
  let dstIp ← inetAton dstIp
  let header ← ipHeader srcIp dstIp
  some (dstMac ++ srcMac ++ [0x08, 0x00] ++ header ++ icmpPayload type)

/-- `_construct_icmp`; `struct.unpack` wants 98 bytes. -/
def constructIcmp (srcMac dstMac srcIp dstIp : String) (type : IcmpType) : Option String :=
  ((icmpPacket srcMac dstMac srcIp dstIp type).filter (fun icmp => icmp.length = 98)).map
    (fun icmp => String.join (icmp.map (fun b => hex02 b.toNat)))

theorem ipHeader_valid (srcIp dstIp : ℕ) :
    ∃ header, ipHeader srcIp dstIp = some header ∧ header.length = 20 ∧
      onesSum (words header) = 0xffff := by
  have hlen : (l3Head ++ [0, 0] ++ packL srcIp ++ packL dstIp).length = 20 := rfl
  obtain ⟨hi, lo, hck, hsum, _⟩ := calChecksum_valid hlen rfl
  refine ⟨_, by rw [ipHeader, hck, Option.map_some], rfl, ?_⟩
  have hplace : withChecksum (l3Head ++ [0, 0] ++ packL srcIp ++ packL dstIp) hi lo =
      l3Head ++ [hi, lo] ++ packL srcIp ++ packL dstIp := rfl
  rwa [hplace] at hsum

theorem length_macBytes {mac : String} {bs : List UInt8} (h : macBytes mac = some bs) :
    bs.length = 6 := by
  unfold macBytes at h
  split at h
  · simp only [List.mapM_cons, List.mapM_nil, Option.pure_def, Option.bind_eq_bind,
      Option.bind_eq_some_iff, Option.some.injEq] at h
    obtain ⟨_, _, _, ⟨_, _, _, ⟨_, _, _, ⟨_, _, _, ⟨_, _, _, ⟨_, _, _, rfl, rfl⟩, rfl⟩, rfl⟩,
      rfl⟩, rfl⟩, rfl⟩ := h
    rfl
  · cases h

/-- **A probe packet** has 98 bytes and an IP header that adds up to `0xffff`. -/
theorem icmpPacket_valid {srcMac dstMac srcIp dstIp : String} {type : IcmpType} {icmp : List UInt8}
    (h : icmpPacket srcMac dstMac srcIp dstIp type = some icmp) :
    icmp.length = 98 ∧ onesSum (words ((icmp.drop 14).take 20)) = 0xffff := by
  simp only [icmpPacket, Option.bind_eq_bind, Option.bind_eq_some_iff, Option.some.injEq] at h
  obtain ⟨src, hsrc, dst, hdst, _, _, _, _, header, hheader, rfl⟩ := h
  obtain ⟨header', hheader', hlen, hsum⟩ := ipHeader_valid _ _
  obtain rfl := Option.some.inj (hheader.symm.trans hheader')
  have heth : (dst ++ src ++ [0x08, 0x00]).length = 14 := by
    rw [List.length_append, List.length_append, length_macBytes hdst, length_macBytes hsrc]
    rfl
  have hpayload : (icmpPayload type).length = 64 := by cases type <;> rfl
  constructor
  · rw [List.length_append, List.length_append, heth, hlen, hpayload]
  · rw [List.append_assoc, ← heth, List.drop_left, ← hlen, List.take_left]
    exact hsum

end TupleNet.PktTrace
