import TupleNet.Lib.Pieces
import TupleNet.Lib.Text
import Mathlib.Data.List.Induction

/-! # Messages of pkt_controller

The fifo between `pkt_controller.c` and `state_update.py`: what `write_tp_fifo` writes for the
packets that OVS hands up, and what `parse_pkt_controller_msg` makes of the pieces that `os.read`
returns.  A message ends with a semicolon, but the reader keeps nothing from one piece to the next
and takes what follows the last semicolon of a piece for a whole message.  So the messages survive
iff every piece ends where a message ends, before or after its semicolon (`monitor_eq_iff`). -/

namespace TupleNet

open Pieces

namespace PktController

/-! ### Writing -/

/-- What is reported of a packet, with the widths of the C variables. -/
inductive Pkt where
  | arp (datapathId : UInt32) (arpSha : Vector UInt8 6) (arpSip : UInt32)
  | trace (tableId : UInt8) (datapathId flag srcPortId dstPortId tunSrc : UInt32) (seqN : UInt8)
      (regOfport : UInt32)
  | unknowDst (datapathId dstIp : UInt32)
deriving DecidableEq

def OPCODE_ARP_STR : List Char := "arp".toList
def OPCODE_TRACE_STR : List Char := "trace".toList
def OPCODE_UNKNOW_DST_STR : List Char := "unknow_dst".toList

/-- `%u`. -/
def fmtU (n : ℕ) : List Char := Nat.toDigits 10 n

/-- `%02x`. -/
def fmtX2 (b : UInt8) : List Char := [(b.toNat / 16).digitChar, (b.toNat % 16).digitChar]

/-- `%02x:%02x:%02x:%02x:%02x:%02x`. -/
def fmtMac (sha : Vector UInt8 6) : List Char :=
  [':'].intercalate
    [fmtX2 sha[0], fmtX2 sha[1], fmtX2 sha[2], fmtX2 sha[3], fmtX2 sha[4], fmtX2 sha[5]]

/-- The fields of the format strings in `process_arp_pkt`, `process_trace` and
`process_unknow_dst_pkt`. -/
def Pkt.fields : Pkt → List (List Char)
  | arp datapathId arpSha arpSip =>
      [OPCODE_ARP_STR, fmtU datapathId.toNat, fmtMac arpSha, fmtU arpSip.toNat]
  | trace tableId datapathId flag srcPortId dstPortId tunSrc seqN regOfport =>
      [OPCODE_TRACE_STR, fmtU tableId.toNat, fmtU datapathId.toNat, fmtU flag.toNat,
        fmtU srcPortId.toNat, fmtU dstPortId.toNat, fmtU tunSrc.toNat, fmtU seqN.toNat,
        fmtU regOfport.toNat]
  | unknowDst datapathId dstIp =>
      [OPCODE_UNKNOW_DST_STR, fmtU datapathId.toNat, fmtU dstIp.toNat]

/-- A message without its semicolon. -/
def Pkt.body (m : Pkt) : List Char := [','].intercalate m.fields

/-- The size of `tp_buf`. -/
def TP_BUF_SIZE : ℕ := 128

/-- `write_tp_fifo`: nothing is written if the text and its terminator do not fit in the buffer. -/
def writeTpFifo (bufSize : ℕ) (text : List Char) : List Char :=
  if bufSize ≤ text.length then [] else text

/-- What is written for a packet. -/
def Pkt.written (m : Pkt) : List Char := writeTpFifo TP_BUF_SIZE (m.body ++ [';'])

/-- What is written for some packets. -/
def stream (msgs : List Pkt) : List Char := msgs.flatMap Pkt.written

/-! ### Reading -/

/-- A call of `process_arp`, `process_trace` or `process_unknow_dst` with the values that it reads
from its segments; `cmd_id` is `flag >> 16`. -/
inductive Call where
  | arp (datapath : ℤ) (macAddr : List Char) (ipInt : ℤ)
  | trace (tableId datapathId flag srcPortId dstPortId tunSrc seqN ofport : ℤ)
  | unknowDst (datapathId ipInt : ℤ)
deriving DecidableEq

/-- `int(segments[i])`. -/
def intAt (segments : List (List Char)) (i : ℕ) : Option ℤ :=
  (segments[i]?).bind (fun s => Text.parseInt (String.ofList s))

/-- `int_to_ip` does not raise. -/
def IsIp (ipInt : ℤ) : Prop := 0 ≤ ipInt ∧ ipInt < 2 ^ 32

instance (ipInt : ℤ) : Decidable (IsIp ipInt) := inferInstanceAs (Decidable (_ ∧ _))

/-- `process_arp`, up to the values that it reads; `none` where it raises. -/
def processArp (segments : List (List Char)) : Option Call := do
  let datapath ← intAt segments 1
  let macAddr ← segments[2]?
  let ipInt ← intAt segments 3
  if IsIp ipInt then some (.arp datapath macAddr ipInt) else none

/-- `process_trace`, up to the values that it reads. -/
def processTrace (segments : List (List Char)) : Option Call := do
  let tableId ← intAt segments 1
  let datapathId ← intAt segments 2
  let flag ← intAt segments 3
  let srcPortId ← intAt segments 4
  let dstPortId ← intAt segments 5
  let tunSrc ← intAt segments 6
  let seqN ← intAt segments 7
  let ofport ← intAt segments 8
  some (.trace tableId datapathId flag srcPortId dstPortId tunSrc seqN ofport)

/-- `process_unknow_dst`, up to the values that it reads. -/
def processUnknowDst (segments : List (List Char)) : Option Call := do
  let datapathId ← intAt segments 1
  let ipInt ← intAt segments 2
  if IsIp ipInt then some (.unknowDst datapathId ipInt) else none

/-- The loop body of `parse_pkt_controller_msg`: the call that is made, if one is made. -/
def parseCmd (cmd : List Char) : Option (Option Call) :=
  if cmd = [] then none
  else
    let segments := Text.splitChars ',' cmd
    if segments.head? = some OPCODE_ARP_STR then some (processArp segments)
    else if segments.head? = some OPCODE_TRACE_STR then some (processTrace segments)
    else if segments.head? = some OPCODE_UNKNOW_DST_STR then some (processUnknowDst segments)
    else none

/-- `parse_pkt_controller_msg`. -/
def parsePktControllerMsg (msg : List Char) : List (Option Call) :=
  (Text.splitChars ';' msg).filterMap parseCmd

/-- `MAX_BUF_LEN`. -/
def MAX_BUF_LEN : ℕ := 10240

/-- The loop of `monitor_pkt_controller_tunnel`; it ends when nothing was read. -/
def monitor : List (List Char) → List (Option Call)
  | [] => []
  | msg :: msgs => if msg = [] then [] else parsePktControllerMsg msg ++ monitor msgs

/-- The call with the values that were written. -/
def Pkt.call : Pkt → Call
  | arp datapathId arpSha arpSip => .arp datapathId.toNat (fmtMac arpSha) arpSip.toNat
  | trace tableId datapathId flag srcPortId dstPortId tunSrc seqN regOfport =>
      .trace tableId.toNat datapathId.toNat flag.toNat srcPortId.toNat dstPortId.toNat tunSrc.toNat
        seqN.toNat regOfport.toNat
  | unknowDst datapathId dstIp => .unknowDst datapathId.toNat dstIp.toNat

/-- A piece may end before or after the semicolon of a message. -/
def AtMessageEnd (msgs : List Pkt) (s : List Char) : Prop :=
  ∃ ms, ms <+: msgs ∧ (s = stream ms ∨ s ++ [';'] = stream ms)

/-! ### Fields -/

theorem fmtU_plain {n : ℕ} : ',' ∉ fmtU n ∧ ';' ∉ fmtU n := by
  have hdigit : ∀ c ∈ fmtU n, c.isDigit :=
    fun c hc => Nat.isDigit_of_mem_toDigits (by decide) (by decide) hc
  exact ⟨fun h => absurd (hdigit _ h) (by decide), fun h => absurd (hdigit _ h) (by decide)⟩

theorem length_fmtU_le {n : ℕ} (h : n < 2 ^ 32) : (fmtU n).length ≤ 10 :=
  (Nat.length_toDigits_le_iff (by decide) (by decide)).mpr (by omega)

theorem digitChar_plain : ∀ d < 16, d.digitChar ≠ ',' ∧ d.digitChar ≠ ';' := by decide

theorem fmtX2_plain (b : UInt8) : ',' ∉ fmtX2 b ∧ ';' ∉ fmtX2 b := by
  have hb := b.toNat_lt
  have hhigh := digitChar_plain (b.toNat / 16) (by omega)
  have hlow := digitChar_plain (b.toNat % 16) (by omega)
  unfold fmtX2
  simp only [List.mem_cons, List.not_mem_nil, or_false, not_or]
  exact ⟨⟨hhigh.1.symm, hlow.1.symm⟩, hhigh.2.symm, hlow.2.symm⟩

theorem fmtMac_plain (sha : Vector UInt8 6) : ',' ∉ fmtMac sha ∧ ';' ∉ fmtMac sha := by
  simp [fmtMac, List.intercalate_cons_cons, fmtX2_plain]

theorem length_fmtMac (sha : Vector UInt8 6) : (fmtMac sha).length = 17 := by
  simp [fmtMac, List.intercalate_cons_cons, fmtX2]

theorem fields_plain (m : Pkt) : ∀ field ∈ m.fields, ',' ∉ field ∧ ';' ∉ field := by
  cases m with
  | arp datapathId arpSha arpSip =>
      have hop : ',' ∉ OPCODE_ARP_STR ∧ ';' ∉ OPCODE_ARP_STR := by decide
      simp only [Pkt.fields, List.forall_mem_cons]
      exact ⟨hop, fmtU_plain, fmtMac_plain arpSha, fmtU_plain, fun _ h => absurd h List.not_mem_nil⟩
  | trace tableId datapathId flag srcPortId dstPortId tunSrc seqN regOfport =>
      have hop : ',' ∉ OPCODE_TRACE_STR ∧ ';' ∉ OPCODE_TRACE_STR := by decide
      simp only [Pkt.fields, List.forall_mem_cons, fmtU_plain, hop, true_and, not_false_eq_true]
      exact fun _ h => absurd h List.not_mem_nil
  | unknowDst datapathId dstIp =>
      have hop : ',' ∉ OPCODE_UNKNOW_DST_STR ∧ ';' ∉ OPCODE_UNKNOW_DST_STR := by decide
      simp only [Pkt.fields, List.forall_mem_cons]
      exact ⟨hop, fmtU_plain, fmtU_plain, fun _ h => absurd h List.not_mem_nil⟩

theorem fields_ne_nil (m : Pkt) : m.fields ≠ [] := by
  cases m <;> exact List.cons_ne_nil _ _

theorem mem_intercalate_singleton {c d : Char} {fields : List (List Char)}
    (h : d ∈ [c].intercalate fields) : d = c ∨ ∃ field ∈ fields, d ∈ field := by
  induction fields with
  | nil => cases h
  | cons field fields ih =>
      cases fields with
      | nil => exact Or.inr ⟨field, List.mem_cons_self, by rwa [List.intercalate_singleton] at h⟩
      | cons field' fields =>
          rw [List.intercalate_cons_cons, List.append_assoc, List.mem_append, List.mem_append,
            List.mem_singleton] at h
          rcases h with h | h | h
          · exact Or.inr ⟨field, List.mem_cons_self, h⟩
          · exact Or.inl h
          · obtain h | ⟨f, hf, hd⟩ := ih h
            · exact Or.inl h
            · exact Or.inr ⟨f, List.mem_cons_of_mem field hf, hd⟩

theorem semicolon_not_mem_body (m : Pkt) : ';' ∉ m.body := by
  intro h
  rcases mem_intercalate_singleton h with h | ⟨field, hfield, h⟩
  · cases h
  · exact (fields_plain m field hfield).2 h

theorem splitChars_body (m : Pkt) : Text.splitChars ',' m.body = m.fields :=
  Text.splitChars_intercalate (fun field h => (fields_plain m field h).1) (fields_ne_nil m)

/-- The number of characters in which the call can be written. -/
def Call.size : Call → ℕ
  | arp datapath macAddr ipInt =>
      OPCODE_ARP_STR.length + (fmtU datapath.natAbs).length + macAddr.length +
        (fmtU ipInt.natAbs).length + 3
  | trace tableId datapathId flag srcPortId dstPortId tunSrc seqN ofport =>
      OPCODE_TRACE_STR.length + (fmtU tableId.natAbs).length + (fmtU datapathId.natAbs).length +
        (fmtU flag.natAbs).length + (fmtU srcPortId.natAbs).length + (fmtU
          dstPortId.natAbs).length +
        (fmtU tunSrc.natAbs).length + (fmtU seqN.natAbs).length + (fmtU ofport.natAbs).length + 8
  | unknowDst datapathId ipInt =>
      OPCODE_UNKNOW_DST_STR.length + (fmtU datapathId.natAbs).length +
        (fmtU ipInt.natAbs).length + 2

theorem length_body (m : Pkt) : m.body.length = m.call.size := by
  cases m <;>
    simp only [Pkt.body, Pkt.fields, Pkt.call, Call.size, List.intercalate_cons_cons,
      List.intercalate_singleton, List.length_append, List.length_singleton, Int.natAbs_natCast] <;>
    omega

/-- Every message fits in the buffer. -/
theorem written_eq (m : Pkt) : m.written = m.body ++ [';'] := by
  have hbyte : ∀ b : UInt8, (fmtU b.toNat).length ≤ 10 :=
    fun b => length_fmtU_le (by have hb := b.toNat_lt; omega)
  have hword : ∀ n : UInt32, (fmtU n.toNat).length ≤ 10 := fun n => length_fmtU_le n.toNat_lt
  have hfits : m.body.length < 100 := by
    rw [length_body]
    cases m with
    | arp datapathId arpSha arpSip =>
        have hop : OPCODE_ARP_STR.length = 3 := rfl
        have hmac := length_fmtMac arpSha
        have h₁ := hword datapathId
        have h₂ := hword arpSip
        simp only [Pkt.call, Call.size, Int.natAbs_natCast]
        omega
    | trace tableId datapathId flag srcPortId dstPortId tunSrc seqN regOfport =>
        have hop : OPCODE_TRACE_STR.length = 5 := rfl
        have h₁ := hbyte tableId
        have h₂ := hword datapathId
        have h₃ := hword flag
        have h₄ := hword srcPortId
        have h₅ := hword dstPortId
        have h₆ := hword tunSrc
        have h₇ := hbyte seqN
        have h₈ := hword regOfport
        simp only [Pkt.call, Call.size, Int.natAbs_natCast]
        omega
    | unknowDst datapathId dstIp =>
        have hop : OPCODE_UNKNOW_DST_STR.length = 10 := rfl
        have h₁ := hword datapathId
        have h₂ := hword dstIp
        simp only [Pkt.call, Call.size, Int.natAbs_natCast]
        omega
  refine if_neg ?_
  rw [List.length_append, List.length_singleton, TP_BUF_SIZE]
  omega

/-! ### One message -/

theorem isIp_toNat (n : UInt32) : IsIp n.toNat := by
  have h := n.toNat_lt
  unfold IsIp
  omega

theorem intAt_fmtU {segments : List (List Char)} {i n : ℕ} (h : segments[i]? = some (fmtU n)) :
    intAt segments i = some (n : ℤ) := by
  rw [intAt, h, Option.bind_some]
  exact Text.parseInt_toDigits n

theorem processArp_eq_some {segments : List (List Char)} {c : Call} :
    processArp segments = some c ↔ ∃ datapath macAddr ipInt, intAt segments 1 = some datapath ∧
      segments[2]? = some macAddr ∧ intAt segments 3 = some ipInt ∧ IsIp ipInt ∧
      .arp datapath macAddr ipInt = c := by
  unfold processArp
  simp only [Option.bind_eq_bind, Option.bind_eq_some_iff, Option.ite_none_right_eq_some,
    Option.some.injEq]
  constructor
  · rintro ⟨datapath, h₁, mac, h₂, ip, h₃, h⟩
    exact ⟨datapath, mac, ip, h₁, h₂, h₃, h⟩
  · rintro ⟨datapath, mac, ip, h₁, h₂, h₃, h⟩
    exact ⟨datapath, h₁, mac, h₂, ip, h₃, h⟩

theorem processUnknowDst_eq_some {segments : List (List Char)} {c : Call} :
    processUnknowDst segments = some c ↔ ∃ datapathId ipInt, intAt segments 1 = some datapathId ∧
      intAt segments 2 = some ipInt ∧ IsIp ipInt ∧ .unknowDst datapathId ipInt = c := by
  unfold processUnknowDst
  simp only [Option.bind_eq_bind, Option.bind_eq_some_iff, Option.ite_none_right_eq_some,
    Option.some.injEq]
  constructor
  · rintro ⟨datapath, h₁, ip, h₂, h⟩
    exact ⟨datapath, ip, h₁, h₂, h⟩
  · rintro ⟨datapath, ip, h₁, h₂, h⟩
    exact ⟨datapath, h₁, ip, h₂, h⟩

theorem processTrace_eq_some {segments : List (List Char)} {c : Call} :
    processTrace segments = some c ↔ ∃ tableId datapathId flag srcPortId dstPortId tunSrc seqN
    ofport,
      (intAt segments 1 = some tableId ∧ intAt segments 2 = some datapathId ∧
        intAt segments 3 = some flag ∧ intAt segments 4 = some srcPortId) ∧
      (intAt segments 5 = some dstPortId ∧ intAt segments 6 = some tunSrc ∧
        intAt segments 7 = some seqN ∧ intAt segments 8 = some ofport) ∧
      .trace tableId datapathId flag srcPortId dstPortId tunSrc seqN ofport = c := by
  unfold processTrace
  simp only [Option.bind_eq_bind, Option.bind_eq_some_iff, Option.some.injEq]
  constructor
  · rintro ⟨n₁, h₁, n₂, h₂, n₃, h₃, n₄, h₄, n₅, h₅, n₆, h₆, n₇, h₇, n₈, h₈, h⟩
    exact ⟨n₁, n₂, n₃, n₄, n₅, n₆, n₇, n₈, ⟨h₁, h₂, h₃, h₄⟩, ⟨h₅, h₆, h₇, h₈⟩, h⟩
  · rintro ⟨n₁, n₂, n₃, n₄, n₅, n₆, n₇, n₈, ⟨h₁, h₂, h₃, h₄⟩, ⟨h₅, h₆, h₇, h₈⟩, h⟩
    exact ⟨n₁, h₁, n₂, h₂, n₃, h₃, n₄, h₄, n₅, h₅, n₆, h₆, n₇, h₇, n₈, h₈, h⟩

/-- A command whose opcode is known makes a call. -/
theorem parseCmd_eq_some {cmd : List Char} {c : Call} : parseCmd cmd = some (some c) ↔
    cmd ≠ [] ∧
      ((Text.splitChars ',' cmd).head? = some OPCODE_ARP_STR ∧
          processArp (Text.splitChars ',' cmd) = some c ∨
        (Text.splitChars ',' cmd).head? = some OPCODE_TRACE_STR ∧
          processTrace (Text.splitChars ',' cmd) = some c ∨
        (Text.splitChars ',' cmd).head? = some OPCODE_UNKNOW_DST_STR ∧
          processUnknowDst (Text.splitChars ',' cmd) = some c) := by
  have h₁ : some OPCODE_TRACE_STR ≠ some OPCODE_ARP_STR := by decide
  have h₂ : some OPCODE_UNKNOW_DST_STR ≠ some OPCODE_ARP_STR := by decide
  have h₃ : some OPCODE_UNKNOW_DST_STR ≠ some OPCODE_TRACE_STR := by decide
  unfold parseCmd
  by_cases hnil : cmd = []
  · simp [hnil]
  rw [if_neg hnil]
  dsimp only
  by_cases harp : (Text.splitChars ',' cmd).head? = some OPCODE_ARP_STR
  · simp [harp, hnil, h₁.symm, h₂.symm]
  by_cases htrace : (Text.splitChars ',' cmd).head? = some OPCODE_TRACE_STR
  · simp [htrace, hnil, h₁, h₃.symm]
  by_cases hdst : (Text.splitChars ',' cmd).head? = some OPCODE_UNKNOW_DST_STR
  · simp [hdst, hnil, h₂, h₃]
  · simp [harp, htrace, hdst]

theorem body_ne_nil (m : Pkt) : m.body ≠ [] := by
  intro hnil
  have hlen := length_body m
  rw [hnil, List.length_nil] at hlen
  cases m <;> simp only [Pkt.call, Call.size] at hlen <;> omega

/-- The values that are written are those that are read. -/
theorem parseCmd_body (m : Pkt) : parseCmd m.body = some (some m.call) := by
  rw [parseCmd_eq_some, splitChars_body]
  refine ⟨body_ne_nil m, ?_⟩
  cases m with
  | arp datapathId arpSha arpSip =>
      exact Or.inl ⟨rfl, processArp_eq_some.mpr
        ⟨_, _, _, intAt_fmtU rfl, rfl, intAt_fmtU rfl, isIp_toNat arpSip, rfl⟩⟩
  | trace tableId datapathId flag srcPortId dstPortId tunSrc seqN regOfport =>
      refine Or.inr (Or.inl ⟨rfl, processTrace_eq_some.mpr ⟨_, _, _, _, _, _, _, _, ?_, ?_, rfl⟩⟩)
      · exact ⟨intAt_fmtU rfl, intAt_fmtU rfl, intAt_fmtU rfl, intAt_fmtU rfl⟩
      · exact ⟨intAt_fmtU rfl, intAt_fmtU rfl, intAt_fmtU rfl, intAt_fmtU rfl⟩
  | unknowDst datapathId dstIp =>
      exact Or.inr (Or.inr ⟨rfl, processUnknowDst_eq_some.mpr
        ⟨_, _, intAt_fmtU rfl, intAt_fmtU rfl, isIp_toNat dstIp, rfl⟩⟩)

/-! ### What a command can hold -/

/-- The length of a segment. -/
def lengthAt (segments : List (List Char)) (i : ℕ) : ℕ := (segments[i]?.map List.length).getD 0

theorem lengthAt_eq {segments : List (List Char)} {i : ℕ} {s : List Char}
    (h : segments[i]? = some s) : lengthAt segments i = s.length := by
  rw [lengthAt, h, Option.map_some, Option.getD_some]

theorem length_fmtU_of_intAt {segments : List (List Char)} {i : ℕ} {n : ℤ}
    (h : intAt segments i = some n) : (fmtU n.natAbs).length ≤ lengthAt segments i := by
  obtain ⟨s, hs, hint⟩ := Option.bind_eq_some_iff.mp h
  have hlen := Text.length_toDigits_of_parseInt hint
  rw [String.toList_ofList] at hlen
  rw [lengthAt_eq hs]
  exact hlen

theorem lt_length_of_intAt {segments : List (List Char)} {i : ℕ} {n : ℤ}
    (h : intAt segments i = some n) : i < segments.length := by
  obtain ⟨s, hs, _⟩ := Option.bind_eq_some_iff.mp h
  exact (List.getElem?_eq_some_iff.mp hs).1

theorem sum_lengthAt_le (k : ℕ) (segments : List (List Char)) :
    ((List.range k).map (lengthAt segments)).sum ≤ (segments.map List.length).sum := by
  induction segments generalizing k with
  | nil =>
      have hzero : ∀ i ∈ List.range k, lengthAt [] i = 0 := fun _ _ => rfl
      rw [List.map_congr_left hzero]
      simp
  | cons s segments ih =>
      cases k with
      | zero => exact Nat.zero_le _
      | succ k =>
          have htail : (lengthAt (s :: segments) ∘ Nat.succ) = lengthAt segments := rfl
          rw [List.range_succ_eq_map, List.map_cons, List.map_map, htail, List.sum_cons,
            List.map_cons, List.sum_cons]
          have hhead : lengthAt (s :: segments) 0 = s.length := rfl
          have hrest := ih k
          omega

/-- The first segments and the commas between them. -/
theorem length_segments_le {cmd : List Char} {k : ℕ}
    (hk : k < (Text.splitChars ',' cmd).length) :
    ((List.range (k + 1)).map (lengthAt (Text.splitChars ',' cmd))).sum + k ≤ cmd.length := by
  have hsum := sum_lengthAt_le (k + 1) (Text.splitChars ',' cmd)
  have hlen := Text.sum_length_splitChars ',' cmd
  rw [Text.length_splitChars] at hk
  omega

theorem lengthAt_zero {segments : List (List Char)} {op : List Char}
    (h : segments.head? = some op) : lengthAt segments 0 = op.length :=
  lengthAt_eq (by rw [← List.head?_eq_getElem?, h])

/-- A call does not say more than the command from which it was read. -/
theorem size_le_of_parseCmd {cmd : List Char} {c : Call} (h : parseCmd cmd = some (some c)) :
    c.size ≤ cmd.length := by
  obtain ⟨_, ⟨hop, h⟩ | ⟨hop, h⟩ | ⟨hop, h⟩⟩ := parseCmd_eq_some.mp h
  · obtain ⟨_, _, _, h₁, h₂, h₃, _, rfl⟩ := processArp_eq_some.mp h
    have hle := length_segments_le (lt_length_of_intAt h₃)
    have hl₁ := length_fmtU_of_intAt h₁
    have hl₂ := lengthAt_eq h₂
    have hl₃ := length_fmtU_of_intAt h₃
    have hl₀ := lengthAt_zero hop
    simp only [List.range_succ, List.range_zero, List.nil_append, List.cons_append, List.map_cons,
      List.map_nil, List.sum_cons, List.sum_nil] at hle
    simp only [Call.size]
    omega
  · obtain ⟨_, _, _, _, _, _, _, _, ⟨h₁, h₂, h₃, h₄⟩, ⟨h₅, h₆, h₇, h₈⟩, rfl⟩ :=
      processTrace_eq_some.mp h
    have hle := length_segments_le (lt_length_of_intAt h₈)
    have hl₁ := length_fmtU_of_intAt h₁
    have hl₂ := length_fmtU_of_intAt h₂
    have hl₃ := length_fmtU_of_intAt h₃
    have hl₄ := length_fmtU_of_intAt h₄
    have hl₅ := length_fmtU_of_intAt h₅
    have hl₆ := length_fmtU_of_intAt h₆
    have hl₇ := length_fmtU_of_intAt h₇
    have hl₈ := length_fmtU_of_intAt h₈
    have hl₀ := lengthAt_zero hop
    simp only [List.range_succ, List.range_zero, List.nil_append, List.cons_append, List.map_cons,
      List.map_nil, List.sum_cons, List.sum_nil] at hle
    simp only [Call.size]
    omega
  · obtain ⟨_, _, h₁, h₂, _, rfl⟩ := processUnknowDst_eq_some.mp h
    have hle := length_segments_le (lt_length_of_intAt h₂)
    have hl₁ := length_fmtU_of_intAt h₁
    have hl₂ := length_fmtU_of_intAt h₂
    have hl₀ := lengthAt_zero hop
    simp only [List.range_succ, List.range_zero, List.nil_append, List.cons_append, List.map_cons,
      List.map_nil, List.sum_cons, List.sum_nil] at hle
    simp only [Call.size]
    omega

/-! ### One piece -/

theorem parse_nil : parsePktControllerMsg [] = [] := rfl

theorem parse_append_semicolon (p q : List Char) : parsePktControllerMsg (p ++ ';' :: q) =
    parsePktControllerMsg p ++ parsePktControllerMsg q := by
  simp only [parsePktControllerMsg, Text.splitChars_append_cons, List.filterMap_append]

theorem parse_semicolon_cons (p : List Char) :
    parsePktControllerMsg (';' :: p) = parsePktControllerMsg p :=
  parse_append_semicolon [] p

theorem parse_semicolon_end (p : List Char) :
    parsePktControllerMsg (p ++ [';']) = parsePktControllerMsg p := by
  rw [parse_append_semicolon, parse_nil, List.append_nil]

theorem parse_body (m : Pkt) : parsePktControllerMsg m.body = [some m.call] := by
  rw [parsePktControllerMsg, Text.splitChars_of_not_mem (semicolon_not_mem_body m)]
  simp only [List.filterMap_cons, parseCmd_body, List.filterMap_nil]

theorem stream_cons (m : Pkt) (ms : List Pkt) : stream (m :: ms) = m.body ++ ';' :: stream ms := by
  rw [stream, List.flatMap_cons, written_eq, List.append_assoc]
  rfl

theorem stream_append (ms₁ ms₂ : List Pkt) : stream (ms₁ ++ ms₂) = stream ms₁ ++ stream ms₂ :=
  List.flatMap_append

/-- Whole messages are read as they were written. -/
theorem parse_stream (ms : List Pkt) :
    parsePktControllerMsg (stream ms) = ms.map (fun m => some m.call) := by
  induction ms with
  | nil => rfl
  | cons m ms ih => rw [stream_cons, parse_append_semicolon, parse_body, ih]; rfl

theorem monitor_eq_flatMap {pieces : List (List Char)} (hne : ∀ p ∈ pieces, p ≠ []) :
    monitor pieces = pieces.flatMap parsePktControllerMsg := by
  induction pieces with
  | nil => rfl
  | cons p pieces ih =>
      rw [monitor, if_neg (hne p List.mem_cons_self),
        ih fun q hq => hne q (List.mem_cons_of_mem p hq), List.flatMap_cons]

/-! ### What a piece can hold -/

/-- The characters other than semicolons. -/
def room (p : List Char) : ℕ := p.countP (· ≠ ';')

theorem room_append (p q : List Char) : room (p ++ q) = room p + room q := List.countP_append

theorem sum_length_split (p : List Char) :
    ((Text.splitChars ';' p).map List.length).sum = room p := by
  have hsplit := Text.sum_length_splitChars ';' p
  have hcount : p.length = p.count ';' + room p := by
    rw [List.length_eq_countP_add_countP (· == ';'), room]
    simp [List.count]
  omega

/-- The length of what was written for a call. -/
def weight (c : Option Call) : ℕ := c.elim 0 Call.size

theorem weight_le {cmd : List Char} {c : Option Call} (h : parseCmd cmd = some c) :
    weight c ≤ cmd.length := by
  cases c with
  | none => exact Nat.zero_le _
  | some c => exact size_le_of_parseCmd h

theorem weight_parse_le (p : List Char) :
    ((parsePktControllerMsg p).map weight).sum ≤ room p := by
  rw [← sum_length_split, parsePktControllerMsg]
  induction Text.splitChars ';' p with
  | nil => exact Nat.zero_le _
  | cons cmd cmds ih =>
      rw [List.filterMap_cons, List.map_cons, List.sum_cons]
      cases hcmd : parseCmd cmd with
      | none => exact Nat.le_add_left_of_le ih
      | some c =>
          have hle := weight_le hcmd
          simp only [List.map_cons, List.sum_cons]
          omega

theorem weight_calls (ms : List Pkt) :
    ((ms.map (fun m => some m.call)).map weight).sum = room (stream ms) := by
  induction ms with
  | nil => rfl
  | cons m ms ih =>
      have hbody : room m.body = m.body.length :=
        List.countP_eq_length.mpr fun c hc => decide_eq_true fun h =>
        semicolon_not_mem_body m (h ▸ hc)
      have hsemicolon : room (';' :: stream ms) = room (stream ms) := by
        rw [room, List.countP_cons_of_neg (by decide), room]
      rw [stream_cons, room_append, hbody, hsemicolon, length_body, ← ih]
      rfl

/-! ### The end of a piece -/

theorem written_ne_nil (msgs : List Pkt) : ∀ m ∈ msgs, m.written ≠ [] := by
  intro m _
  rw [written_eq]
  exact List.append_ne_nil_of_right_ne_nil _ (List.cons_ne_nil _ _)

theorem eq_semicolon_of_room {p : List Char} (h : room p = 0) : ∀ c ∈ p, c = ';' := by
  intro c hc
  have hnot := List.countP_eq_zero.mp h c hc
  simpa using hnot

/-- What is missing of whole messages although no other character is: the last semicolon. -/
theorem missing_semicolon {ms : List Pkt} {u a : List Char} (hstream : stream ms = u ++ a)
    (ha : room a = 0) : u = stream ms ∨ u ++ [';'] = stream ms := by
  have hall := eq_semicolon_of_room ha
  induction a using List.reverseRecOn with
  | nil =>
      rw [List.append_nil] at hstream
      exact Or.inl hstream.symm
  | append_singleton a c =>
      obtain rfl : c = ';' := hall c (List.mem_append_right a (List.mem_singleton.mpr rfl))
      induction ms using List.reverseRecOn with
      | nil =>
          have hlen := congrArg List.length hstream
          simp [stream] at hlen
      | append_singleton ms m =>
          have hlast : stream (ms ++ [m]) = (stream ms ++ m.body) ++ [';'] := by
            rw [stream_append, stream_cons, List.append_assoc]
            rfl
          rw [hlast, ← List.append_assoc] at hstream
          have hinit := (List.append_inj' hstream rfl).1
          -- the character before the semicolon is one of the message
          obtain ⟨body, b, hbody⟩ : ∃ body b, m.body = body ++ [b] :=
            ⟨_, _, (List.dropLast_append_getLast (body_ne_nil m)).symm⟩
          induction a using List.reverseRecOn with
          | nil =>
              rw [List.append_nil] at hinit
              exact Or.inr (by rw [hlast, hinit])
          | append_singleton a c =>
              rw [hbody, ← List.append_assoc, ← List.append_assoc] at hinit
              have hb : b = c := List.head_eq_of_cons_eq (List.append_inj' hinit rfl).2
              have hc : c = ';' := hall c (by simp)
              have hmem : ';' ∈ m.body := by
                rw [hbody, hb, hc]
                exact List.mem_append_right body (List.mem_singleton.mpr rfl)
              exact absurd hmem (semicolon_not_mem_body m)

/-- No message begins with a semicolon. -/
theorem no_leading_semicolon {ms : List Pkt} {a v : List Char} (hstream : stream ms = a ++ v)
    (ha : room a = 0) : a = [] := by
  cases a with
  | nil => rfl
  | cons c a =>
      have hc : c = ';' := eq_semicolon_of_room ha c List.mem_cons_self
      cases ms with
      | nil => cases hstream
      | cons m ms =>
          obtain ⟨b, body, hbody⟩ := List.exists_cons_of_ne_nil (body_ne_nil m)
          rw [stream_cons, hbody] at hstream
          have hb : b = c := List.head_eq_of_cons_eq hstream
          have hmem : ';' ∈ m.body := by
            rw [hbody, hb, hc]
            exact List.mem_cons_self
          exact absurd hmem (semicolon_not_mem_body m)

/-- A beginning of a stream with as many characters other than semicolons as some of its messages
ends with the last of them. -/
theorem end_of_room {ms₁ ms₂ : List Pkt} {u v : List Char}
    (hstream : u ++ v = stream (ms₁ ++ ms₂)) (hroom : room u = room (stream ms₁)) :
    u = stream ms₁ ∨ u ++ [';'] = stream ms₁ := by
  rw [stream_append] at hstream
  rcases List.append_eq_append_iff.mp hstream with ⟨a, ha, _⟩ | ⟨a, rfl, ha⟩
  · rw [ha, room_append] at hroom
    exact missing_semicolon ha (by omega)
  · rw [room_append] at hroom
    have hnil := no_leading_semicolon ha (by omega)
    exact Or.inl (by rw [hnil, List.append_nil])

/-- Semicolons at the ends of a piece make no difference. -/
theorem parse_piece {u p s₁ s₂ : List Char} (h₁ : u = s₁ ∨ u ++ [';'] = s₁)
    (h₂ : u ++ p = s₁ ++ s₂ ∨ u ++ p ++ [';'] = s₁ ++ s₂) :
    parsePktControllerMsg p = parsePktControllerMsg s₂ := by
  rcases h₁ with rfl | rfl
  · rcases h₂ with h₂ | h₂
    · rw [List.append_cancel_left h₂]
    · rw [List.append_assoc] at h₂
      rw [← parse_semicolon_end, List.append_cancel_left h₂]
  · rw [List.append_assoc, List.append_assoc] at h₂
    rw [← parse_semicolon_cons s₂]
    rcases h₂ with h₂ | h₂
    · exact congrArg parsePktControllerMsg (List.append_cancel_left h₂)
    · rw [← parse_semicolon_end]
      exact congrArg parsePktControllerMsg (List.append_cancel_left h₂)

section monitor
variable {msgs : List Pkt} {pieces : List (List Char)}

/-- Pieces that end with messages give the calls up to there. -/
theorem parse_of_endsOn (hne : ∀ p ∈ pieces, p ≠ [])
    (hends : EndsOn (AtMessageEnd msgs) pieces) {ms : List Pkt} (hbegin : ms <+: msgs)
    (hstream : pieces.flatten = stream ms ∨ pieces.flatten ++ [';'] = stream ms) :
    pieces.flatMap parsePktControllerMsg = ms.map (fun m => some m.call) := by
  induction pieces using List.reverseRecOn generalizing ms with
  | nil =>
      rcases hstream with hstream | hstream
      · have hnil : ms <+: [] := prefix_of_length_le (written_ne_nil msgs) hbegin List.nil_prefix
          (Nat.le_of_eq (congrArg List.length hstream).symm)
        rw [List.prefix_nil.mp hnil]
        rfl
      · have hnil := no_leading_semicolon (a := [';']) (v := []) hstream.symm rfl
        cases hnil
  | append_singleton pieces p ih =>
      obtain ⟨ms₁, hbegin₁, hstream₁⟩ := hends pieces (List.prefix_append pieces [p])
      have hp := List.length_pos_of_ne_nil (hne p (List.mem_append_right pieces (by simp)))
      rw [List.flatten_append, List.flatten_singleton] at hstream
      have hle : (stream ms₁).length ≤ (stream ms).length := by
        rcases hstream₁ with h₁ | h₁ <;> rcases hstream with h | h <;> rw [← h₁, ← h] <;>
          simp only [List.length_append, List.length_singleton] <;> omega
      obtain ⟨ms₂, rfl⟩ := prefix_of_length_le (written_ne_nil msgs) hbegin₁ hbegin hle
      have hhead := ih (fun q hq => hne q (List.mem_append_left [p] hq))
        (hends.of_prefix (List.prefix_append pieces [p])) hbegin₁ hstream₁
      rw [stream_append] at hstream
      rw [List.flatMap_append, hhead, List.flatMap_singleton, parse_piece hstream₁ hstream,
        parse_stream, List.map_append]

/-- **Messages survive iff no piece ends inside one**: every message makes one call, in order and
with the values that were written, iff every piece ends before or after the semicolon of a
message. -/
theorem monitor_eq_iff (hcut : Cut MAX_BUF_LEN (stream msgs) pieces) :
    monitor pieces = msgs.map (fun m => some m.call) ↔ EndsOn (AtMessageEnd msgs) pieces := by
  rw [monitor_eq_flatMap hcut.ne_nil]
  constructor
  · intro hcalls u hu
    have hfull : room pieces.flatten ≤
        ((pieces.flatMap parsePktControllerMsg).map weight).sum :=
      Nat.le_of_eq (by rw [hcalls, weight_calls, hcut.flatten])
    have htight := tight room room_append (fun p _ => weight_parse_le p) hfull hu
    obtain ⟨v, rfl⟩ := hu
    rw [List.flatMap_append] at hcalls
    obtain ⟨ms₁, ms₂, rfl, h₁, h₂⟩ := List.map_eq_append_iff.mp hcalls.symm
    rw [← h₁, weight_calls] at htight
    have hflatten := hcut.flatten
    rw [List.flatten_append] at hflatten
    exact ⟨ms₁, List.prefix_append ms₁ ms₂, end_of_room hflatten htight.symm⟩
  · intro hends
    exact parse_of_endsOn hcut.ne_nil hends (List.prefix_refl msgs) (Or.inl hcut.flatten)

end monitor

/-! ### A cut number -/

/-- Somebody is at `10.0.0.1`. -/
def learned : Pkt := .arp 1 #v[0xf2, 0x01, 0x0a, 0x00, 0x00, 0x01] 167772161

/-- The message in two pieces. -/
def cutLearned : List (List Char) := ["arp,1,f2:01:0a:00:00:01,16777".toList, "2161;".toList]

theorem cut_cutLearned : Cut MAX_BUF_LEN (stream [learned]) cutLearned where
  flatten := by decide +kernel
  ne_nil := by decide
  length_le := by decide

/-- A piece that ends inside a number binds the address to another IP. -/
theorem number_cut_misread : ¬ ∀ (msgs : List Pkt) (pieces : List (List Char)),
    Cut MAX_BUF_LEN (stream msgs) pieces →
    monitor pieces = msgs.map (fun m => some m.call) := by
  intro h
  have hcalls := h [learned] cutLearned cut_cutLearned
  have hread : monitor cutLearned = [some (.arp 1 "f2:01:0a:00:00:01".toList 16777)] := by
    decide +kernel
  rw [hread] at hcalls
  exact absurd hcalls (by decide +kernel)

/-- A message in one piece, and the semicolon in another one. -/
theorem monitor_eq_iff_learned : monitor [learned.body, [';']] = [some learned.call] := by
  have hcut : Cut MAX_BUF_LEN (stream [learned]) [learned.body, [';']] :=
    ⟨by decide +kernel, by decide +kernel, by decide +kernel⟩
  refine (monitor_eq_iff hcut).mpr fun u hu => ?_
  rcases List.prefix_cons_iff.mp hu with rfl | ⟨t, rfl, ht⟩
  · exact ⟨[], List.nil_prefix, Or.inl rfl⟩
  rcases List.prefix_cons_iff.mp ht with rfl | ⟨rest, rfl, hrest⟩
  · exact ⟨[learned], List.prefix_refl _, Or.inr (by rw [List.flatten_singleton, stream_cons]; rfl)⟩
  · rw [List.prefix_nil.mp hrest]
    exact ⟨[learned], List.prefix_refl _, Or.inl hcut.flatten⟩

end PktController

end TupleNet
