import Mathlib.Algebra.GroupWithZero.Nat
import Mathlib.Data.List.Basic
import Mathlib.Data.Int.Notation

/-! # Text

`split c s` cuts `s` at every occurrence of `c`, keeping empty pieces, and `split1 c s` cuts at the
first one only.  `parseInt` and `parseHex` read numbers as the `int` of a scripting language does,
with surrounding blanks and a sign; `dottedQuad` reads an IPv4 address in its canonical form only.

All of them work on the list of characters, so they evaluate in the kernel. -/

namespace Text

/-! ### Splitting -/

/-- Cut a list at every `c`; there is always one more piece than there are cuts. -/
def splitChars (c : Char) : List Char → List (List Char)
  | [] => [[]]
  | x :: xs => match splitChars c xs with
      | [] => [[x]]
      | p :: ps => if x = c then [] :: p :: ps else (x :: p) :: ps

/-- `s.split(c)` for a one-character separator. -/
def split (c : Char) (s : String) : List String := (splitChars c s.toList).map String.ofList

/-- Cut at the first `c`, if there is one. -/
def splitChars1 (c : Char) : List Char → Option (List Char × List Char)
  | [] => none
  | x :: xs => if x = c then some ([], xs) else (splitChars1 c xs).map (fun p => (x :: p.1, p.2))

/-- `s.split(c, 1)` when it gives two pieces. -/
def split1 (c : Char) (s : String) : Option (String × String) :=
  (splitChars1 c s.toList).map (fun p => (String.ofList p.1, String.ofList p.2))

theorem splitChars_eq_splitOn (c : Char) (s : List Char) : splitChars c s = s.splitOn c := by
  induction s with
  | nil => rw [List.splitOn_nil, splitChars]
  | cons x xs ih =>
      rw [List.splitOn_cons_eq_if_modifyHead, splitChars, ih]
      cases h : xs.splitOn c with
      | nil => exact absurd h (List.splitOn_ne_nil c xs)
      | cons p ps => simp

theorem not_mem_of_mem_splitChars {c : Char} {p s : List Char} (h : p ∈ splitChars c s) :
    c ∉ p := by
  induction s generalizing p with
  | nil => simp_all [splitChars]
  | cons x xs ih =>
      rw [splitChars] at h
      split at h
      · next heq =>
          rw [splitChars_eq_splitOn] at heq
          exact absurd heq (List.splitOn_ne_nil c xs)
      · next q qs heq =>
          have hq : c ∉ q := ih (heq ▸ List.mem_cons_self)
          have hqs : ∀ r ∈ qs, c ∉ r := fun r hr => ih (heq ▸ List.mem_cons_of_mem _ hr)
          split_ifs at h with hx
          · rcases List.mem_cons.mp h with rfl | h
            · exact List.not_mem_nil
            · rcases List.mem_cons.mp h with rfl | h
              · exact hq
              · exact hqs p h
          · rcases List.mem_cons.mp h with rfl | h
            · exact List.not_mem_cons_of_ne_of_not_mem (Ne.symm hx) hq
            · exact hqs p h

theorem length_splitChars (c : Char) (s : List Char) : (splitChars c s).length = s.count c + 1 := by
  induction s with
  | nil => rfl
  | cons x xs ih =>
      rw [splitChars]
      split
      · next heq =>
          rw [heq] at ih
          cases ih
      · next p ps heq =>
          rw [heq, List.length_cons] at ih
          by_cases hx : x = c
          · rw [if_pos hx, hx, List.count_cons_self, List.length_cons, List.length_cons, ih]
          · rw [if_neg hx, List.count_cons_of_ne hx, List.length_cons, ih]

/-- Splitting takes only the separators out. -/
theorem sum_length_splitChars (c : Char) (s : List Char) :
    ((splitChars c s).map List.length).sum + s.count c = s.length := by
  induction s with
  | nil => rfl
  | cons x xs ih =>
      rw [splitChars]
      split
      · next heq =>
          rw [splitChars_eq_splitOn] at heq
          exact absurd heq (List.splitOn_ne_nil c xs)
      · next p ps heq =>
          rw [heq, List.map_cons, List.sum_cons] at ih
          by_cases hx : x = c
          · rw [if_pos hx, hx, List.count_cons_self]
            simp only [List.map_cons, List.sum_cons, List.length_nil, List.length_cons]
            omega
          · rw [if_neg hx, List.count_cons_of_ne hx]
            simp only [List.map_cons, List.sum_cons, List.length_cons]
            omega

theorem splitChars_of_not_mem {c : Char} {p : List Char} (h : c ∉ p) : splitChars c p = [p] := by
  rw [splitChars_eq_splitOn]
  have hsplit : ([c].intercalate [p]).splitOn c = [p] :=
    List.splitOn_intercalate c (by simpa using h) (List.cons_ne_nil p [])
  rwa [List.intercalate_singleton] at hsplit

theorem splitChars_append_cons (c : Char) (p s : List Char) :
    splitChars c (p ++ c :: s) = splitChars c p ++ splitChars c s := by
  simp only [splitChars_eq_splitOn, List.splitOn_append_cons_self]

theorem splitChars_intercalate {c : Char} {pieces : List (List Char)}
    (h : ∀ p ∈ pieces, c ∉ p) (hne : pieces ≠ []) :
    splitChars c ([c].intercalate pieces) = pieces := by
  rw [splitChars_eq_splitOn, List.splitOn_intercalate c h hne]

/-- Joining and splitting again. -/
theorem split_intercalate {c : Char} {pieces : List String} (h : ∀ p ∈ pieces, c ∉ p.toList)
    (hne : pieces ≠ []) : split c ((String.singleton c).intercalate pieces) = pieces := by
  have hlist : ∀ p ∈ pieces.map String.toList, c ∉ p := by
    intro p hp
    obtain ⟨q, hq, rfl⟩ := List.mem_map.mp hp
    exact h q hq
  rw [split, splitChars_eq_splitOn, String.toList_intercalate, String.toList_singleton,
    List.splitOn_intercalate c hlist (by simpa using hne), List.map_map]
  simp [Function.comp_def]

theorem splitChars1_append_cons {c : Char} {p : List Char} (h : c ∉ p) (s : List Char) :
    splitChars1 c (p ++ c :: s) = some (p, s) := by
  induction p with
  | nil => exact if_pos rfl
  | cons x p ih =>
      obtain ⟨hx, hp⟩ := List.ne_and_not_mem_of_not_mem_cons h
      rw [List.cons_append, splitChars1, if_neg (Ne.symm hx), ih hp, Option.map_some]

theorem splitChars1_eq_some {c : Char} {s p q : List Char} (h : splitChars1 c s = some (p, q)) :
    s = p ++ c :: q := by
  induction s generalizing p with
  | nil => cases h
  | cons x xs ih =>
      rw [splitChars1] at h
      split_ifs at h with hx
      · obtain ⟨rfl, rfl⟩ := Prod.mk.inj (Option.some.inj h)
        rw [hx, List.nil_append]
      · obtain ⟨r, hr, heq⟩ := Option.map_eq_some_iff.mp h
        obtain ⟨rfl, rfl⟩ := Prod.mk.inj heq
        rw [ih hr, List.cons_append]

theorem not_mem_of_splitChars1 {c : Char} {s p q : List Char} (h : splitChars1 c s = some (p, q)) :
    c ∉ p := by
  induction s generalizing p with
  | nil => cases h
  | cons x xs ih =>
      rw [splitChars1] at h
      split_ifs at h with hx
      · obtain ⟨rfl, rfl⟩ := Prod.mk.inj (Option.some.inj h)
        exact List.not_mem_nil
      · obtain ⟨r, hr, heq⟩ := Option.map_eq_some_iff.mp h
        obtain ⟨rfl, rfl⟩ := Prod.mk.inj heq
        exact List.not_mem_cons_of_ne_of_not_mem (Ne.symm hx) (ih hr)

theorem split_append (c : Char) (a b : String) :
    split c (a ++ String.singleton c ++ b) = split c a ++ split c b := by
  have htext : (a ++ String.singleton c ++ b).toList = a.toList ++ c :: b.toList := by simp
  rw [split, split, split, htext, splitChars_eq_splitOn, splitChars_eq_splitOn,
    splitChars_eq_splitOn, List.splitOn_append_cons_self, List.map_append]

/-! ### Numbers -/

/-- The value of a digit in a base up to sixteen. -/
def digitVal (base : ℕ) (c : Char) : Option ℕ :=
  let v := if c.isDigit then some (c.toNat - '0'.toNat)
    else if 'a' ≤ c ∧ c ≤ 'f' then some (c.toNat - 'a'.toNat + 10)
    else if 'A' ≤ c ∧ c ≤ 'F' then some (c.toNat - 'A'.toNat + 10)
    else none
  v.filter (· < base)

/-- The loop over the digits of a number. -/
def digitsVal (base : ℕ) : List Char → ℕ → Option ℕ
  | [], n => some n
  | c :: cs, n => (digitVal base c).bind (fun d => digitsVal base cs (n * base + d))

/-- A number without a sign; at least one digit. -/
def parseNat (base : ℕ) (cs : List Char) : Option ℕ :=
  if cs = [] then none else digitsVal base cs 0

/-- `isspace` of an ASCII character. -/
def isSpace (c : Char) : Bool := c.toNat ∈ [0x20, 0x09, 0x0a, 0x0b, 0x0c, 0x0d]

/-- Without the blanks at both ends. -/
def strip (cs : List Char) : List Char :=
  ((cs.dropWhile isSpace).reverse.dropWhile isSpace).reverse

/-- `int(s)`. -/
def parseInt (s : String) : Option ℤ :=
  match strip s.toList with
  | '-' :: cs => (parseNat 10 cs).map (fun n => -(n : ℤ))
  | '+' :: cs => (parseNat 10 cs).map Int.ofNat
  | cs => (parseNat 10 cs).map Int.ofNat

/-! ### Decimal numbers -/

theorem digitVal_of_isDigit {c : Char} (h : c.isDigit) :
    digitVal 10 c = some (c.toNat - '0'.toNat) := by
  have hbound : c.toNat - '0'.toNat < 10 := by
    have hle := (Char.isDigit_iff_toNat.mp h).2
    have hzero : '0'.toNat = 48 := rfl
    have hnine : '9'.toNat = 57 := rfl
    omega
  rw [digitVal, if_pos h]
  simp only [Option.filter_some, hbound, decide_true, if_true]

theorem digitVal_lt {base : ℕ} {c : Char} {d : ℕ} (h : digitVal base c = some d) : d < base :=
  of_decide_eq_true (Option.filter_eq_some_iff.mp h).2

theorem digitVal_digitChar {base d : ℕ} (hb : base ≤ 16) (hd : d < base) :
    digitVal base d.digitChar = some d := by
  have hall : ∀ base < 17, ∀ d < base, digitVal base d.digitChar = some d := by decide +kernel
  exact hall base (by omega) d hd

/-- The digits of a number are read as this number. -/
theorem digitsVal_toDigits {base : ℕ} (hone : 1 < base) (hb : base ≤ 16) (n : ℕ) (cs : List Char) :
    digitsVal base (Nat.toDigits base n ++ cs) 0 = digitsVal base cs n := by
  induction n using Nat.strongRecOn generalizing cs with
  | ind n ih =>
      by_cases hn : n < base
      · rw [Nat.toDigits_of_lt_base hn, List.singleton_append, digitsVal,
          digitVal_digitChar hb hn, Option.bind_some, Nat.zero_mul, Nat.zero_add]
      · have hmod : n % base < base := Nat.mod_lt n (by omega)
        have hdiv : n / base < n := Nat.div_lt_self (by omega) hone
        rw [Nat.toDigits_of_base_le hone (by omega), List.append_assoc, ih _ hdiv,
          List.singleton_append, digitsVal, digitVal_digitChar hb hmod, Option.bind_some,
          Nat.div_add_mod' n base]

theorem digitsVal_of_isDigit {cs : List Char} (h : ∀ c ∈ cs, c.isDigit) (n : ℕ) :
    digitsVal 10 cs n = some (Nat.ofDigitChars 10 cs n) := by
  induction cs generalizing n with
  | nil => rw [digitsVal, Nat.ofDigitChars_nil]
  | cons c cs ih =>
      have htail := ih (fun c' hc' => h c' (List.mem_cons_of_mem c hc'))
      rw [digitsVal, digitVal_of_isDigit (h c List.mem_cons_self), Option.bind_some, htail,
        Nat.ofDigitChars_cons, Nat.mul_comm]

theorem digitsVal_lt {base : ℕ} {cs : List Char} {m n : ℕ} (h : digitsVal base cs m = some n) :
    n < (m + 1) * base ^ cs.length := by
  induction cs generalizing m with
  | nil =>
      rw [digitsVal] at h
      obtain rfl := Option.some.inj h
      simp
  | cons c cs ih =>
      rw [digitsVal] at h
      obtain ⟨d, hd, hrest⟩ := Option.bind_eq_some_iff.mp h
      have hlt := digitVal_lt hd
      calc n < (m * base + d + 1) * base ^ cs.length := ih hrest
        _ ≤ ((m + 1) * base) * base ^ cs.length := by
            refine Nat.mul_le_mul_right _ ?_
            rw [Nat.add_mul, Nat.one_mul]
            omega
        _ = (m + 1) * base ^ (c :: cs).length := by
            rw [List.length_cons, Nat.pow_succ', Nat.mul_assoc]

theorem strip_sublist (cs : List Char) : (strip cs).Sublist cs := by
  unfold strip
  rw [← List.reverse_sublist, List.reverse_reverse]
  exact (List.dropWhile_sublist _).trans (List.reverse_sublist.mpr (List.dropWhile_sublist _))

theorem dropWhile_isSpace {cs : List Char} (h : ∀ c ∈ cs, isSpace c = false) :
    cs.dropWhile isSpace = cs := by
  cases cs with
  | nil => rfl
  | cons c cs =>
      rw [List.dropWhile_cons_of_neg]
      rw [h c List.mem_cons_self]
      exact Bool.false_ne_true

/-- Blanks after a word without blanks are stripped. -/
theorem strip_append {cs blanks : List Char} (hne : cs ≠ [])
    (h : ∀ c ∈ cs, isSpace c = false) (hblanks : ∀ c ∈ blanks, isSpace c = true) :
    strip (cs ++ blanks) = cs := by
  have hfront : (cs ++ blanks).dropWhile isSpace = cs ++ blanks := by
    obtain ⟨c, cs, rfl⟩ := List.exists_cons_of_ne_nil hne
    rw [List.cons_append, List.dropWhile_cons_of_neg]
    rw [h c List.mem_cons_self]
    exact Bool.false_ne_true
  have hback : (blanks.reverse ++ cs.reverse).dropWhile isSpace = cs.reverse := by
    rw [List.dropWhile_append_of_pos fun c hc => hblanks c (List.mem_reverse.mp hc)]
    exact dropWhile_isSpace fun c hc => h c (List.mem_reverse.mp hc)
  rw [strip, hfront, List.reverse_append, hback, List.reverse_reverse]

theorem length_toDigits_of_parseNat {cs : List Char} {n : ℕ} (h : parseNat 10 cs = some n) :
    (Nat.toDigits 10 n).length ≤ cs.length := by
  rw [parseNat] at h
  split_ifs at h with hnil
  have hlt := digitsVal_lt h
  rw [Nat.zero_add, Nat.one_mul] at hlt
  exact (Nat.length_toDigits_le_iff (by decide) (List.length_pos_of_ne_nil hnil)).mpr hlt

/-- The canonical text of a number is its shortest one. -/
theorem length_toDigits_of_parseInt {s : String} {n : ℤ} (h : parseInt s = some n) :
    (Nat.toDigits 10 n.natAbs).length ≤ s.toList.length := by
  have hstrip := (strip_sublist s.toList).length_le
  unfold parseInt at h
  split at h
  · next cs heq =>
      obtain ⟨z, hz, rfl⟩ := Option.map_eq_some_iff.mp h
      obtain ⟨k, hk, hkz⟩ := Option.bind_eq_some_iff.mp hz
      obtain rfl : (k : ℤ) = z := Option.some.inj hkz
      have hlen := length_toDigits_of_parseNat hk
      rw [heq, List.length_cons] at hstrip
      rw [Int.natAbs_neg, Int.natAbs_natCast]
      omega
  · next cs heq =>
      obtain ⟨k, hk, rfl⟩ := Option.map_eq_some_iff.mp h
      have hlen := length_toDigits_of_parseNat hk
      rw [heq, List.length_cons] at hstrip
      rw [Int.ofNat_eq_natCast, Int.natAbs_natCast]
      omega
  · obtain ⟨k, hk, rfl⟩ := Option.map_eq_some_iff.mp h
    have hlen := length_toDigits_of_parseNat hk
    rw [Int.ofNat_eq_natCast, Int.natAbs_natCast]
    omega

theorem isSpace_of_digitVal {base : ℕ} {c : Char} (h : (digitVal base c).isSome) :
    isSpace c = false := by
  rw [Bool.eq_false_iff]
  intro hspace
  have hchar : c = ' ' ∨ c = '\t' ∨ c = '\n' ∨ c = '\x0b' ∨ c = '\x0c' ∨ c = '\r' := by
    simpa [isSpace, ← Char.toNat_inj] using hspace
  rcases hchar with rfl | rfl | rfl | rfl | rfl | rfl <;> cases h

theorem parseNat_toDigits (n : ℕ) : parseNat 10 (Nat.toDigits 10 n) = some n := by
  rw [parseNat, if_neg Nat.toDigits_ne_nil, digitsVal_of_isDigit
    (fun c hc => Nat.isDigit_of_mem_toDigits (by decide) (by decide) hc),
    Nat.ofDigitChars_ten_toDigits]

/-- A number in decimal digits is read back, also with blanks after it. -/
theorem parseInt_toDigits_append (n : ℕ) (blanks : List Char)
    (hblanks : ∀ c ∈ blanks, isSpace c = true) :
    parseInt (String.ofList (Nat.toDigits 10 n ++ blanks)) = some (n : ℤ) := by
  have hdigit : ∀ c ∈ Nat.toDigits 10 n, c.isDigit :=
    fun c hc => Nat.isDigit_of_mem_toDigits (by decide) (by decide) hc
  unfold parseInt
  rw [String.toList_ofList, strip_append Nat.toDigits_ne_nil
    (fun c hc =>
      isSpace_of_digitVal (Option.isSome_iff_exists.mpr ⟨_, digitVal_of_isDigit (hdigit c hc)⟩))
    hblanks]
  split
  · next heq =>
      have h := hdigit '-' (heq ▸ List.mem_cons_self)
      cases h
  · next heq =>
      have h := hdigit '+' (heq ▸ List.mem_cons_self)
      cases h
  · rw [parseNat_toDigits]
    rfl

theorem parseInt_toDigits (n : ℕ) :
    parseInt (String.ofList (Nat.toDigits 10 n)) = some (n : ℤ) := by
  have h := parseInt_toDigits_append n [] fun c hc => absurd hc List.not_mem_nil
  rwa [List.append_nil] at h

theorem parseInt_repr (n : ℕ) : parseInt n.repr = some (n : ℤ) := parseInt_toDigits n

/-- An integer is read back from its text. -/
theorem parseInt_toString (n : ℤ) : parseInt (toString n) = some n := by
  cases n with
  | ofNat n => exact parseInt_repr n
  | negSucc n =>
      have hdigit : ∀ c ∈ Nat.toDigits 10 (n + 1), c.isDigit :=
        fun c hc => Nat.isDigit_of_mem_toDigits (by decide) (by decide) hc
      have htext : (toString (Int.negSucc n)).toList = '-' :: Nat.toDigits 10 (n + 1) := by
        change ("-" ++ (n + 1).repr).toList = _
        rw [String.toList_append, Nat.toList_repr]
        rfl
      have hstrip : strip ('-' :: Nat.toDigits 10 (n + 1)) = '-' :: Nat.toDigits 10 (n + 1) := by
        have hplain : ∀ c ∈ '-' :: Nat.toDigits 10 (n + 1), isSpace c = false :=
          List.forall_mem_cons.mpr ⟨rfl, fun c hc => isSpace_of_digitVal
            (Option.isSome_iff_exists.mpr ⟨_, digitVal_of_isDigit (hdigit c hc)⟩)⟩
        have happend := strip_append (List.cons_ne_nil _ _) hplain
          (fun c (hc : c ∈ []) => absurd hc List.not_mem_nil)
        rwa [List.append_nil] at happend
      rw [parseInt, htext, hstrip]
      simp only [parseNat_toDigits]
      rfl

/-! ### Other numbers -/

/-- Without a leading `0x`. -/
def dropHexMark : List Char → List Char
  | '0' :: 'x' :: cs => cs
  | '0' :: 'X' :: cs => cs
  | cs => cs

/-- `int(s, 16)` of a text without a minus sign. -/
def parseHex (cs : List Char) : Option ℕ :=
  match strip cs with
  | '+' :: cs => parseNat 16 (dropHexMark cs)
  | cs => parseNat 16 (dropHexMark cs)

theorem digitsVal_isSome {base : ℕ} {cs : List Char} (h : ∀ c ∈ cs, (digitVal base c).isSome)
    (n : ℕ) : (digitsVal base cs n).isSome := by
  induction cs generalizing n with
  | nil => rfl
  | cons c cs ih =>
      obtain ⟨d, hd⟩ := Option.isSome_iff_exists.mp (h c List.mem_cons_self)
      rw [digitsVal, hd, Option.bind_some]
      exact ih (fun c' hc' => h c' (List.mem_cons_of_mem c hc')) _

/-- A text of hexadecimal digits is a number. -/
theorem parseHex_eq {cs : List Char} (hne : cs ≠ []) (h : ∀ c ∈ cs, (digitVal 16 c).isSome) :
    parseHex cs = digitsVal 16 cs 0 := by
  have hstrip : strip cs = cs := by
    have happend := strip_append hne (fun c hc => isSpace_of_digitVal (h c hc))
      (fun c (hc : c ∈ []) => absurd hc List.not_mem_nil)
    rwa [List.append_nil] at happend
  have hmark : dropHexMark cs = cs := by
    unfold dropHexMark
    split
    · have hx := h 'x' (by simp)
      cases hx
    · have hx := h 'X' (by simp)
      cases hx
    · rfl
  unfold parseHex
  rw [hstrip]
  split
  · have hplus := h '+' List.mem_cons_self
    cases hplus
  · rw [hmark, parseNat, if_neg hne]

theorem parseHex_isSome {cs : List Char} (hne : cs ≠ [])
    (h : ∀ c ∈ cs, (digitVal 16 c).isSome) : (parseHex cs).isSome := by
  rw [parseHex_eq hne h]
  exact digitsVal_isSome h 0

/-- `"{:02x}".format(n)`. -/
def hex02 (n : ℕ) : String :=
  String.ofList (if n < 16 then '0' :: Nat.toDigits 16 n else Nat.toDigits 16 n)

/-- A number up to `255` without leading zeros. -/
def octet (cs : List Char) : Option ℕ :=
  (parseNat 10 cs).filter (fun n => n ≤ 255 ∧ (cs.length = 1 ∨ cs.head? ≠ some '0'))

/-- The number of an IPv4 address in canonical form. -/
def dottedQuad (s : String) : Option ℕ :=
  match splitChars '.' s.toList with
  | [a, b, c, d] => do
      let a ← octet a
      let b ← octet b
      let c ← octet c
      let d ← octet d
      some (((a * 256 + b) * 256 + c) * 256 + d)
  | _ => none

example : dottedQuad "10.0.0.1" = some 167772161 := by decide
example : dottedQuad "10.0.0.01" = none := by decide

/-! ### The canonical text of an IPv4 address -/

/-- The text of the address with these four octets. -/
def quadText (a b c d : ℕ) : String :=
  toString a ++ "." ++ toString b ++ "." ++ toString c ++ "." ++ toString d

/-- The text is that of four octets. -/
def Quad (s : String) : Prop :=
  ∃ a b c d, (a ≤ 255 ∧ b ≤ 255 ∧ c ≤ 255 ∧ d ≤ 255) ∧ s = quadText a b c d

theorem digitChar_of_digitVal {c : Char} {d : ℕ} (h : digitVal 10 c = some d) :
    d.digitChar = c := by
  have hlt := digitVal_lt h
  have hvalue : c.toNat = 48 + d := by
    unfold digitVal at h
    obtain ⟨hv, _⟩ := Option.filter_eq_some_iff.mp h
    have hzero : '0'.toNat = 48 := rfl
    split_ifs at hv with hdigit
    · have hle := (Char.isDigit_iff_toNat.mp hdigit).1
      have hd := Option.some.inj hv
      omega
    · have hd := Option.some.inj hv
      omega
    · have hd := Option.some.inj hv
      omega
  apply Char.toNat_inj.mp
  rw [Nat.toNat_digitChar_of_lt_ten hlt, hvalue]

/-- Digits behind a number that is not zero are its last digits. -/
theorem toDigits_of_digitsVal {cs : List Char} {m n : ℕ} (hm : 0 < m)
    (h : digitsVal 10 cs m = some n) : Nat.toDigits 10 m ++ cs = Nat.toDigits 10 n := by
  induction cs generalizing m with
  | nil =>
      obtain rfl := Option.some.inj h
      exact List.append_nil _
  | cons c cs ih =>
      obtain ⟨d, hd, hrest⟩ := Option.bind_eq_some_iff.mp h
      have hlt := digitVal_lt hd
      have hstep := Nat.toDigits_append_toDigits (by decide) hm hlt
      rw [Nat.toDigits_of_lt_base hlt, digitChar_of_digitVal hd, Nat.mul_comm] at hstep
      rw [← List.singleton_append, ← List.append_assoc, hstep]
      exact ih (by omega) hrest

/-- A number without leading zeros is in its canonical form. -/
theorem octet_eq_some {cs : List Char} {n : ℕ} (h : octet cs = some n) :
    n ≤ 255 ∧ cs = Nat.toDigits 10 n := by
  obtain ⟨hn, hform⟩ := Option.filter_eq_some_iff.mp h
  obtain ⟨hle, hhead⟩ := of_decide_eq_true hform
  refine ⟨hle, ?_⟩
  unfold parseNat at hn
  split_ifs at hn with hnil
  obtain ⟨c, cs, rfl⟩ := List.exists_cons_of_ne_nil hnil
  obtain ⟨d, hd, hrest⟩ := Option.bind_eq_some_iff.mp hn
  rw [Nat.zero_mul, Nat.zero_add] at hrest
  have hlt := digitVal_lt hd
  have hc := digitChar_of_digitVal hd
  rcases Nat.eq_zero_or_pos d with hzero | hpos
  · subst hzero
    have hone : (c :: cs).length = 1 := hhead.resolve_right (by rw [← hc]; exact not_not_intro rfl)
    obtain rfl : cs = [] := List.eq_nil_of_length_eq_zero (by simpa using hone)
    obtain rfl := Option.some.inj hrest
    rw [Nat.toDigits_zero, ← hc]
    rfl
  · have hdigits := toDigits_of_digitsVal hpos hrest
    rw [Nat.toDigits_of_lt_base hlt, hc] at hdigits
    exact hdigits

theorem octet_toDigits {n : ℕ} (h : n ≤ 255) : octet (Nat.toDigits 10 n) = some n := by
  have hall : ∀ n < 256, octet (Nat.toDigits 10 n) = some n := by decide +kernel
  exact hall n (by omega)

theorem toList_quadText (a b c d : ℕ) : (quadText a b c d).toList = Nat.toDigits 10 a ++
    '.' :: (Nat.toDigits 10 b ++ '.' :: (Nat.toDigits 10 c ++ '.' :: Nat.toDigits 10 d)) := by
  simp [quadText, Nat.toList_repr]

theorem dot_not_mem_toDigits {n : ℕ} : '.' ∉ Nat.toDigits 10 n := by
  intro hdot
  have hdigit : ('.' : Char).isDigit := Nat.isDigit_of_mem_toDigits (by decide) (by decide) hdot
  exact absurd hdigit (by decide)

theorem splitChars_quadText (a b c d : ℕ) : splitChars '.' (quadText a b c d).toList =
    [Nat.toDigits 10 a, Nat.toDigits 10 b, Nat.toDigits 10 c, Nat.toDigits 10 d] := by
  rw [toList_quadText, splitChars_append_cons, splitChars_append_cons, splitChars_append_cons,
    splitChars_of_not_mem dot_not_mem_toDigits, splitChars_of_not_mem dot_not_mem_toDigits,
    splitChars_of_not_mem dot_not_mem_toDigits, splitChars_of_not_mem dot_not_mem_toDigits]
  rfl

theorem dottedQuad_quadText {a b c d : ℕ} (ha : a ≤ 255) (hb : b ≤ 255) (hc : c ≤ 255)
    (hd : d ≤ 255) :
    dottedQuad (quadText a b c d) = some (((a * 256 + b) * 256 + c) * 256 + d) := by
  rw [dottedQuad, splitChars_quadText]
  simp only [octet_toDigits ha, octet_toDigits hb, octet_toDigits hc, octet_toDigits hd,
    Option.bind_eq_bind, Option.bind_some]

/-- **Exactly the canonical texts are read as addresses.** -/
theorem dottedQuad_isSome_iff (s : String) : (dottedQuad s).isSome ↔ Quad s := by
  constructor
  · intro h
    obtain ⟨n, hn⟩ := Option.isSome_iff_exists.mp h
    unfold dottedQuad at hn
    split at hn
    · next p q r t hsplit =>
        simp only [Option.bind_eq_bind, Option.bind_eq_some_iff] at hn
        obtain ⟨a, ha, b, hb, c, hc, d, hd, _⟩ := hn
        obtain ⟨hale, rfl⟩ := octet_eq_some ha
        obtain ⟨hble, rfl⟩ := octet_eq_some hb
        obtain ⟨hcle, rfl⟩ := octet_eq_some hc
        obtain ⟨hdle, rfl⟩ := octet_eq_some hd
        refine ⟨a, b, c, d, ⟨hale, hble, hcle, hdle⟩, ?_⟩
        rw [← splitChars_quadText, splitChars_eq_splitOn, splitChars_eq_splitOn] at hsplit
        apply String.toList_injective
        calc s.toList = ['.'].intercalate (s.toList.splitOn '.') :=
          (List.intercalate_splitOn '.').symm
          _ = (quadText a b c d).toList := by rw [hsplit, List.intercalate_splitOn]
    · cases hn
  · intro h
    obtain ⟨a, b, c, d, ⟨ha, hb, hc, hd⟩, rfl⟩ := h
    rw [dottedQuad_quadText ha hb hc hd, Option.isSome_some]

/-- An address that is read, with its octets. -/
theorem dottedQuad_eq_some {s : String} {n : ℕ} (h : dottedQuad s = some n) :
    ∃ a b c d, (a ≤ 255 ∧ b ≤ 255 ∧ c ≤ 255 ∧ d ≤ 255) ∧ s = quadText a b c d ∧
      n = ((a * 256 + b) * 256 + c) * 256 + d := by
  have hsome : (dottedQuad s).isSome := by rw [h]; rfl
  obtain ⟨a, b, c, d, hle, rfl⟩ := (dottedQuad_isSome_iff s).mp hsome
  rw [dottedQuad_quadText hle.1 hle.2.1 hle.2.2.1 hle.2.2.2] at h
  exact ⟨a, b, c, d, hle, rfl, (Option.some.inj h).symm⟩

/-! ### Addresses next to other text -/

/-- One or two digits: what an octet can have before or behind a shorter one. -/
def OctetDigits (s : String) : Prop :=
  (s.toList.length = 1 ∨ s.toList.length = 2) ∧ ∀ c ∈ s.toList, c.isDigit

instance (s : String) : Decidable (OctetDigits s) := inferInstanceAs (Decidable (_ ∧ _))

theorem OctetDigits.ne_empty {s : String} (h : OctetDigits s) : s ≠ "" := by
  rintro rfl
  exact absurd h.1 (by decide)

theorem count_dot_toDigits (n : ℕ) : (Nat.toDigits 10 n).count '.' = 0 :=
  List.count_eq_zero.mpr dot_not_mem_toDigits

theorem count_dot_quadText (a b c d : ℕ) : (quadText a b c d).toList.count '.' = 3 := by
  simp [toList_quadText, List.count_append, count_dot_toDigits]

/-- The digits that an octet has more than another one. -/
theorem octetDigits_of_toDigits {s : String} (hne : s ≠ "") {m n : ℕ} (hm : m ≤ 255)
    (hdigits : ∀ c ∈ s.toList, c ∈ Nat.toDigits 10 m)
    (hlen : (Nat.toDigits 10 m).length = s.toList.length + (Nat.toDigits 10 n).length) :
    OctetDigits s := by
  have hall : ∀ m < 256, (Nat.toDigits 10 m).length ≤ 3 := by decide +kernel
  have hle := hall m (by omega)
  have hpos : 0 < (Nat.toDigits 10 n).length := List.length_pos_of_ne_nil Nat.toDigits_ne_nil
  have hs : 0 < s.toList.length :=
    List.length_pos_of_ne_nil fun hnil => hne (String.toList_inj.mp hnil)
  refine ⟨by omega, fun c hc => ?_⟩
  exact Nat.isDigit_of_mem_toDigits (by decide) (by decide) (hdigits c hc)

/-- What stands before an address that ends an address. -/
theorem octetDigits_of_append_quad {s x y : String} (hne : s ≠ "") (hx : Quad x) (hy : Quad y)
    (h : x = s ++ y) : OctetDigits s := by
  obtain ⟨a, b, c, d, hle, rfl⟩ := hx
  obtain ⟨a', b', c', d', _, rfl⟩ := hy
  have htext := congrArg String.toList h
  rw [String.toList_append] at htext
  have hdot : '.' ∉ s.toList := by
    have hcount := congrArg (List.count '.') htext
    rw [List.count_append, count_dot_quadText, count_dot_quadText] at hcount
    exact List.count_eq_zero.mp (by omega)
  have hfirst : s.toList ++ Nat.toDigits 10 a' = Nat.toDigits 10 a := by
    have hsplit := congrArg (splitChars '.') htext
    rw [splitChars_quadText, toList_quadText, ← List.append_assoc, splitChars_append_cons,
      splitChars_of_not_mem] at hsplit
    · exact (List.cons.inj hsplit).1.symm
    · exact List.not_mem_append hdot dot_not_mem_toDigits
  refine octetDigits_of_toDigits (n := a') hne hle.1 (fun c hc => ?_) ?_
  · rw [← hfirst]
    exact List.mem_append_left _ hc
  · rw [← hfirst, List.length_append]

/-- What stands behind an address that begins an address. -/
theorem octetDigits_of_quad_append {s x y : String} (hne : s ≠ "") (hx : Quad x) (hy : Quad y)
    (h : x = y ++ s) : OctetDigits s := by
  obtain ⟨a, b, c, d, hle, rfl⟩ := hx
  obtain ⟨a', b', c', d', _, rfl⟩ := hy
  have htext := congrArg String.toList h
  rw [String.toList_append] at htext
  have hdot : '.' ∉ s.toList := by
    have hcount := congrArg (List.count '.') htext
    rw [List.count_append, count_dot_quadText, count_dot_quadText] at hcount
    exact List.count_eq_zero.mp (by omega)
  have hlast : Nat.toDigits 10 d' ++ s.toList = Nat.toDigits 10 d := by
    have hsplit := congrArg (splitChars '.') htext
    rw [splitChars_quadText, toList_quadText] at hsplit
    simp only [List.append_assoc, List.cons_append, splitChars_append_cons,
      splitChars_of_not_mem dot_not_mem_toDigits] at hsplit
    rw [splitChars_of_not_mem (List.not_mem_append dot_not_mem_toDigits hdot)] at hsplit
    simp only [List.nil_append, List.cons.injEq, and_true] at hsplit
    exact hsplit.2.2.2.symm
  refine octetDigits_of_toDigits (n := d') hne hle.2.2.2 (fun c hc => ?_) ?_
  · rw [← hlast]
    exact List.mem_append_right _ hc
  · rw [← hlast, List.length_append, Nat.add_comm]

end Text
