import TupleNet.Lib.Text
import Mathlib.Algebra.Group.Nat.Defs
import Mathlib.Tactic.NormNum

/-! # IPv4 addresses of the C library

`inet_aton` reads an address of one to four numbers, each of them decimal, octal or hexadecimal as
in C, the last of which fills the bytes that are left; behind a blank anything may stand.
`inet_ntoa` writes an address with four decimal octets.  What is read and written again is unchanged
exactly when it is in this form (`roundTrip_eq_dottedQuad`). -/

namespace InetAddr

open Text

/-- The digits at the start of a text as a number, and what follows. -/
def number (base : ℕ) (cs : List Char) : Option (ℕ × List Char) :=
  let digits := cs.takeWhile (fun c => (digitVal base c).isSome)
  (digitsVal base digits 0).map (fun n => (n, cs.drop digits.length))

/-- The base that a number announces, and the text with its digits. -/
def radix : List Char → ℕ × List Char
  | '0' :: x :: d :: cs =>
      if (x = 'x' ∨ x = 'X') ∧ (digitVal 16 d).isSome then (16, d :: cs) else
        (8, '0' :: x :: d :: cs)
  | '0' :: cs => (8, '0' :: cs)
  | cs => (10, cs)

/-- `strtoul(s, &end, 0)` of a text that begins with a digit: the value and what follows. -/
def strtoul (cs : List Char) : Option (ℕ × List Char) :=
  if cs.head?.any Char.isDigit then number (radix cs).1 (radix cs).2 else none

/-- The last number fills `k + 1` bytes. -/
def lastPart (k n val : ℕ) (rest : List Char) : Option ℕ :=
  if rest.head?.all isSpace ∧ val < 256 ^ (k + 1) then some (n * 256 ^ (k + 1) + val) else none

/-- The loop of `inet_aton`: at most `k` dots follow, and `n` is the value of the bytes before. -/
def atonLoop : ℕ → ℕ → List Char → Option ℕ
  | 0, n, cs => (strtoul cs).bind (fun p => lastPart 0 n p.1 p.2)
  | k + 1, n, cs => (strtoul cs).bind (fun p =>
      if p.2.head? = some '.' then
        if p.1 ≤ 255 then atonLoop k (n * 256 + p.1) p.2.tail else none
      else lastPart (k + 1) n p.1 p.2)

/-- `inet_aton`, as a number. -/
def inetAton (s : String) : Option ℕ := atonLoop 3 0 s.toList

/-- `inet_ntoa` of a number. -/
def inetNtoa (n : ℕ) : String :=
  quadText (n / 2 ^ 24 % 2 ^ 8) (n / 2 ^ 16 % 2 ^ 8) (n / 2 ^ 8 % 2 ^ 8) (n % 2 ^ 8)

/-- The number of a text that `inet_ntoa` gives back. -/
def roundTrip (s : String) : Option ℕ := (inetAton s).filter (fun n => inetNtoa n = s)

example : inetAton "10.1" = some 167772161 := by decide
example : inetAton "0x0a.0.0.010 gw" = some 167772168 := by decide
example : roundTrip "10.1" = none := by decide

theorem atonLoop_lt {k n v : ℕ} {cs : List Char} (h : atonLoop k n cs = some v) :
    v < (n + 1) * 256 ^ (k + 1) := by
  have hlast : ∀ {k n val v : ℕ} {rest : List Char}, lastPart k n val rest = some v →
      v < (n + 1) * 256 ^ (k + 1) := by
    intro k n val v rest h
    unfold lastPart at h
    split_ifs at h with hcond
    rw [← Option.some.inj h, Nat.add_mul, Nat.one_mul]
    exact Nat.add_lt_add_left hcond.2 _
  induction k generalizing n cs with
  | zero =>
      obtain ⟨p, _, hp⟩ := Option.bind_eq_some_iff.mp h
      exact hlast hp
  | succ k ih =>
      obtain ⟨p, _, hp⟩ := Option.bind_eq_some_iff.mp h
      split_ifs at hp with hdot hbyte
      · refine lt_of_lt_of_le (ih hp) ?_
        rw [Nat.pow_succ' (n := k + 1), ← Nat.mul_assoc]
        exact Nat.mul_le_mul_right _ (by omega)
      · exact hlast hp

theorem inetAton_lt {s : String} {n : ℕ} (h : inetAton s = some n) : n < 2 ^ 32 := by
  have hlt := atonLoop_lt h
  norm_num at hlt ⊢
  exact hlt

/-! ### The canonical form -/

/-- Digits are read up to the first character that is none. -/
theorem number_append {base n : ℕ} {digits rest : List Char}
    (hdigits : ∀ c ∈ digits, (digitVal base c).isSome) (hval : digitsVal base digits 0 = some n)
    (hrest : rest.head?.all (fun c => (digitVal base c).isNone)) :
    number base (digits ++ rest) = some (n, rest) := by
  have hstop : rest.takeWhile (fun c => (digitVal base c).isSome) = [] := by
    cases rest with
    | nil => rfl
    | cons c rest =>
        have hc : (digitVal base c).isNone := by simpa using hrest
        rw [List.takeWhile_cons, if_neg]
        simpa using hc
  rw [number, List.takeWhile_append_of_pos hdigits, hstop, List.append_nil, hval,
    List.drop_left, Option.map_some]

/-- An octet is read back. -/
theorem strtoul_toDigits {a : ℕ} (ha : a ≤ 255) {rest : List Char}
    (hrest : rest.head?.all (· = '.')) :
    strtoul (Nat.toDigits 10 a ++ rest) = some (a, rest) := by
  have hall : ∀ a < 256, digitsVal 10 (Nat.toDigits 10 a) 0 = some a ∧
      (Nat.toDigits 10 a).all (fun c => (digitVal 10 c).isSome) ∧
      (Nat.toDigits 10 a).head?.any Char.isDigit ∧
      (a = 0 ∨ (Nat.toDigits 10 a).head?.any (· ≠ '0')) := by
    decide +kernel
  obtain ⟨hval, hdigits, hhead, hzero⟩ := hall a (by omega)
  have hstop : ∀ base, rest.head?.all (fun c => (digitVal base c).isNone) := by
    intro base
    cases rest with
    | nil => rfl
    | cons c rest =>
        have hc : c = '.' := by simpa using hrest
        subst hc
        rfl
  rcases hzero with rfl | hzero
  · have hradix : radix ('0' :: rest) = (8, '0' :: rest) := by
      cases rest with
      | nil => rfl
      | cons c rest =>
          have hc : c = '.' := by simpa using hrest
          subst hc
          cases rest <;> rfl
    rw [Nat.toDigits_zero, List.singleton_append, strtoul, hradix]
    have hdigit : ∀ c ∈ ['0'], (digitVal 8 c).isSome := List.forall_mem_singleton.mpr rfl
    exact number_append hdigit rfl (hstop 8)
  · obtain ⟨c, cs, hcs⟩ : ∃ c cs, Nat.toDigits 10 a = c :: cs := by
      cases hcs : Nat.toDigits 10 a with
      | nil => rw [hcs] at hhead; cases hhead
      | cons c cs => exact ⟨c, cs, rfl⟩
    have hne : c ≠ '0' := by
      rw [hcs] at hzero
      simpa using hzero
    have hradix : radix (c :: cs ++ rest) = (10, c :: cs ++ rest) := by
      rw [List.cons_append]
      unfold radix
      split
      · next h => exact absurd (List.cons.inj h).1 hne
      · next h => exact absurd (List.cons.inj h).1 hne
      · rfl
    have hdigit : (c :: cs ++ rest).head?.any Char.isDigit := by
      rw [hcs] at hhead
      exact hhead
    rw [hcs] at hval hdigits ⊢
    rw [strtoul, if_pos hdigit, hradix]
    exact number_append (List.all_eq_true.mp hdigits) hval (hstop 10)

theorem inetAton_quadText {a b c d : ℕ} (ha : a ≤ 255) (hb : b ≤ 255) (hc : c ≤ 255)
    (hd : d ≤ 255) : inetAton (quadText a b c d) = some (((a * 256 + b) * 256 + c) * 256 + d) := by
  have hdot : ∀ {k n v : ℕ}, v ≤ 255 → ∀ rest : List Char,
      atonLoop (k + 1) n (Nat.toDigits 10 v ++ '.' :: rest) = atonLoop k (n * 256 + v) rest := by
    intro k n v hv rest
    rw [atonLoop, strtoul_toDigits hv rfl, Option.bind_some]
    exact (if_pos rfl).trans (if_pos hv)
  have hend : strtoul (Nat.toDigits 10 d) = some (d, []) := by
    have hread : strtoul (Nat.toDigits 10 d ++ []) = some (d, []) := strtoul_toDigits hd rfl
    rwa [List.append_nil] at hread
  rw [inetAton, toList_quadText, hdot ha, hdot hb, hdot hc, atonLoop, hend, Option.bind_some,
    lastPart, if_pos ⟨rfl, by omega⟩]
  norm_num

theorem inetNtoa_octets {a b c d : ℕ} (hb : b ≤ 255) (hc : c ≤ 255) (hd : d ≤ 255) :
    inetNtoa (((a * 256 + b) * 256 + c) * 256 + d) = quadText (a % 2 ^ 8) b c d := by
  have h1 : (((a * 256 + b) * 256 + c) * 256 + d) / 2 ^ 24 % 2 ^ 8 = a % 2 ^ 8 := by omega
  have h2 : (((a * 256 + b) * 256 + c) * 256 + d) / 2 ^ 16 % 2 ^ 8 = b := by omega
  have h3 : (((a * 256 + b) * 256 + c) * 256 + d) / 2 ^ 8 % 2 ^ 8 = c := by omega
  have h4 : (((a * 256 + b) * 256 + c) * 256 + d) % 2 ^ 8 = d := by omega
  rw [inetNtoa, h1, h2, h3, h4]

theorem dottedQuad_inetNtoa {n : ℕ} (h : n < 2 ^ 32) : dottedQuad (inetNtoa n) = some n := by
  rw [inetNtoa, dottedQuad_quadText (by omega) (by omega) (by omega) (by omega),
    Option.some.injEq]
  omega

/-- **Only the canonical form survives** `inet_aton` and `inet_ntoa`. -/
theorem roundTrip_eq_dottedQuad (s : String) : roundTrip s = dottedQuad s := by
  cases hquad : dottedQuad s with
  | some n =>
      obtain ⟨a, b, c, d, ⟨ha, hb, hc, hd⟩, rfl, rfl⟩ := dottedQuad_eq_some hquad
      rw [roundTrip, inetAton_quadText ha hb hc hd, Option.filter_some, if_pos]
      rw [decide_eq_true_iff, inetNtoa_octets hb hc hd, Nat.mod_eq_of_lt (by omega)]
  | none =>
      rw [roundTrip, Option.filter_eq_none_iff]
      intro n hn hsame
      rw [← of_decide_eq_true hsame, dottedQuad_inetNtoa (inetAton_lt hn)] at hquad
      cases hquad

end InetAddr
