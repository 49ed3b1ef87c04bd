import TupleNet.Flow.Convert
import TupleNet.Lib.Text
import Mathlib.Data.List.Induction
import Mathlib.Data.List.DropRight

/-! # Learned addresses

A MAC address that was learned for an IP is kept in three places: the dictionary of `process_arp`,
a file, and the flows of `TABLE_SEARCH_IP_MAC`, in which there are no others.  A restart forgets the
dictionary, replaces the flows by those of the file and empties the file.  So an address that is not
learned again between two restarts is gone after the second one (`remembered_iff`). -/

namespace TupleNet

open KeyedTable

namespace ArpBinding

/-! ### The node -/

def TABLE_SEARCH_IP_MAC : ℕ := 100

/-- An address that pkt_controller reports; the MAC is the field of a message. -/
structure Binding where
  macAddr : List Char
  ipInt : UInt32
  plain : ',' ∉ macAddr ∧ '\n' ∉ macAddr

/-- `process_arp.arp_dict`, the contents of `MAC_IP_BIND_FILE` and the flows of
`TABLE_SEARCH_IP_MAC`. -/
structure State where
  arpDict : Table ℤ (List Char)
  bindFile : List Char
  table : Table (FlowKey ℤ) (List Char)

/-- The match `ip,reg2={ip_int}`. -/
def bindKey (ipInt : ℤ) : FlowKey ℤ := ⟨TABLE_SEARCH_IP_MAC, 1, ipInt⟩

/-- `_gen_arp_ip_flow`; the action `mod_dl_dst:{mac_addr}` is its argument. -/
def genArpIpFlow (macAddr : List Char) (ipInt : ℤ) : FlowKey ℤ × List Char :=
  (bindKey ipInt, macAddr)

/-- A line of the file. -/
def line (b : Binding) : List Char := b.macAddr ++ ',' :: (Nat.toDigits 10 b.ipInt.toNat ++ ['\n'])

/-- `process_arp` with `update_ovs_arp_ip_mac`. -/
def processArp (s : State) (b : Binding) : State :=
  if s.arpDict b.ipInt.toNat = some b.macAddr then s
  else
    { arpDict := Function.update s.arpDict b.ipInt.toNat (some b.macAddr)
      bindFile := s.bindFile ++ line b
      table := commitFlows s.table ([genArpIpFlow b.macAddr b.ipInt.toNat], []) }

/-- The lines of a file, with their ends. -/
def lines : List Char → List (List Char)
  | [] => []
  | c :: cs =>
      if c = '\n' then ['\n'] :: lines cs
      else match lines cs with
        | [] => [[c]]
        | l :: ls => (c :: l) :: ls

/-- The flow of a line; `none` where reading it raises. -/
def readLine (l : List Char) : Option (FlowKey ℤ × List Char) :=
  match Text.splitChars ',' l with
  | [macAddr, ipInt] =>
      (Text.parseInt (String.ofList ipInt)).map (fun n => genArpIpFlow macAddr n)
  | _ => none

/-- The loop of `_get_ovs_arp_ip_mac_from_file`: the flows, and whether it came to its end. -/
def readLines : List (List Char) → List (FlowKey ℤ × List Char) × Bool
  | [] => ([], true)
  | l :: ls => match readLine l with
      | none => ([], false)
      | some flow => (flow :: (readLines ls).1, (readLines ls).2)

/-- `_get_ovs_arp_ip_mac_from_file`: the flows, and what is left of the file. -/
def getOvsArpIpMacFromFile (file : List Char) : List (FlowKey ℤ × List Char) × List Char :=
  ((readLines (lines file)).1, if (readLines (lines file)).2 then [] else file)

/-- A restart, up to the first call of `update_ovs_side`.  It is one event: nothing is learned while
the node starts. -/
def restart (s : State) : State where
  arpDict _ := none
  bindFile := (getOvsArpIpMacFromFile s.bindFile).2
  table := addEntries (getOvsArpIpMacFromFile s.bindFile).1 (fun _ => none)

/-- What happens to a node. -/
inductive Event where
  | learn (b : Binding)
  | restart

def step (s : State) : Event → State
  | .learn b => processArp s b
  | .restart => restart s

/-- A node that has not learned anything. -/
def start : State := ⟨fun _ => none, [], fun _ => none⟩

def run (events : List Event) : State := events.foldl step start

/-! ### What was learned -/

/-- The MAC learned last for the address. -/
def lastMac (ip : UInt32) : List Event → Option (List Char)
  | [] => none
  | .restart :: events => lastMac ip events
  | .learn b :: events => (lastMac ip events).or (if b.ipInt = ip then some b.macAddr else none)

def Event.isLearn : Event → Bool
  | learn _ => true
  | restart => false

/-- What happened after the last restart. -/
def sinceRestart (events : List Event) : List Event := events.rtakeWhile Event.isLearn

/-- After each restart the flows have the MAC learned last for every address. -/
def Remembered (events : List Event) : Prop := ∀ u, u ++ [.restart] <+: events →
  ∀ ip mac, lastMac ip u = some mac → (run (u ++ [.restart])).table (bindKey ip.toNat) = some mac

/-- Every address is learned again before each restart. -/
def Renewed (events : List Event) : Prop := ∀ u, u ++ [.restart] <+: events →
  ∀ ip, (lastMac ip u).isSome → (lastMac ip (sinceRestart u)).isSome

theorem lastMac_append (ip : UInt32) (u v : List Event) :
    lastMac ip (u ++ v) = (lastMac ip v).or (lastMac ip u) := by
  induction u with
  | nil => rw [List.nil_append, lastMac, Option.or_none]
  | cons e u ih =>
      cases e with
      | restart => rw [List.cons_append, lastMac, lastMac, ih]
      | learn b => rw [List.cons_append, lastMac, lastMac, ih, Option.or_assoc]

theorem sinceRestart_learn (events : List Event) (b : Binding) :
    sinceRestart (events ++ [.learn b]) = sinceRestart events ++ [.learn b] :=
  List.rtakeWhile_concat_pos _ _ _ rfl

theorem sinceRestart_restart (events : List Event) :
    sinceRestart (events ++ [.restart]) = [] :=
  List.rtakeWhile_concat_neg _ _ _ (by decide)

/-- What was learned since the last restart was learned. -/
theorem lastMac_of_sinceRestart {ip : UInt32} {events : List Event} {mac : List Char}
    (h : lastMac ip (sinceRestart events) = some mac) : lastMac ip events = some mac := by
  obtain ⟨u, hu⟩ := List.rtakeWhile_suffix Event.isLearn events
  rw [← hu, lastMac_append]
  change (lastMac ip (sinceRestart events)).or (lastMac ip u) = some mac
  rw [h, Option.some_or]

theorem run_append (events : List Event) (e : Event) : run (events ++ [e]) = step (run events) e :=
  List.foldl_concat _ _ _ _

/-! ### The file -/

/-- A file with some lines. -/
def fileText (bs : List Binding) : List Char := bs.flatMap line

theorem lines_append {l : List Char} (h : '\n' ∉ l) (rest : List Char) :
    lines (l ++ '\n' :: rest) = (l ++ ['\n']) :: lines rest := by
  induction l with
  | nil => exact if_pos rfl
  | cons c l ih =>
      obtain ⟨hc, hl⟩ := List.ne_and_not_mem_of_not_mem_cons h
      rw [List.cons_append, lines, if_neg (Ne.symm hc), ih hl]
      rfl

theorem digit_of_mem {n : ℕ} {c : Char} (h : c ∈ Nat.toDigits 10 n) : c.isDigit :=
  Nat.isDigit_of_mem_toDigits (by decide) (by decide) h

theorem lines_fileText (bs : List Binding) : lines (fileText bs) = bs.map line := by
  induction bs with
  | nil => rfl
  | cons b bs ih =>
      have hplain : '\n' ∉ b.macAddr ++ ',' :: Nat.toDigits 10 b.ipInt.toNat := by
        intro h
        rcases List.mem_append.mp h with h | h
        · exact b.plain.2 h
        · rcases List.mem_cons.mp h with h | h
          · cases h
          · cases digit_of_mem h
      have htext : fileText (b :: bs) =
          (b.macAddr ++ ',' :: Nat.toDigits 10 b.ipInt.toNat) ++ '\n' :: fileText bs := by
        simp [fileText, line]
      rw [htext, lines_append hplain, ih]
      simp [line]

theorem readLine_line (b : Binding) :
    readLine (line b) = some (genArpIpFlow b.macAddr b.ipInt.toNat) := by
  have hdigits : ',' ∉ Nat.toDigits 10 b.ipInt.toNat ++ ['\n'] := by
    intro h
    rcases List.mem_append.mp h with h | h
    · cases digit_of_mem h
    · cases List.mem_singleton.mp h
  have hsplit : Text.splitChars ',' (line b) =
      [b.macAddr, Nat.toDigits 10 b.ipInt.toNat ++ ['\n']] := by
    rw [line, Text.splitChars_append_cons, Text.splitChars_of_not_mem b.plain.1,
      Text.splitChars_of_not_mem hdigits]
    rfl
  have hint := Text.parseInt_toDigits_append b.ipInt.toNat ['\n']
    (List.forall_mem_singleton.mpr rfl)
  unfold readLine
  rw [hsplit]
  dsimp only
  rw [hint, Option.map_some]

/-- A file that was only appended to is read completely, and emptied. -/
theorem getOvsArpIpMacFromFile_fileText (bs : List Binding) : getOvsArpIpMacFromFile (fileText bs) =
    (bs.map (fun b => genArpIpFlow b.macAddr b.ipInt.toNat), []) := by
  have hread : readLines (bs.map line) =
      (bs.map (fun b => genArpIpFlow b.macAddr b.ipInt.toNat), true) := by
    induction bs with
    | nil => rfl
    | cons b bs ih => rw [List.map_cons, readLines, readLine_line, ih]; rfl
  rw [getOvsArpIpMacFromFile, lines_fileText, hread]
  rfl

/-- Of several flows for an address the last one stays. -/
theorem addEntries_bindings (bs : List Binding) (t : Table (FlowKey ℤ) (List Char)) (ip : UInt32) :
    addEntries (bs.map (fun b => genArpIpFlow b.macAddr b.ipInt.toNat)) t (bindKey ip.toNat) =
      (lastMac ip (bs.map Event.learn)).or (t (bindKey ip.toNat)) := by
  induction bs generalizing t with
  | nil => rfl
  | cons b bs ih =>
      rw [List.map_cons, addEntries, ih, List.map_cons, lastMac, Option.or_assoc]
      congr 1
      by_cases hip : b.ipInt = ip
      · rw [if_pos hip, Option.some_or, genArpIpFlow, hip, Function.update_self]
      · have hne : bindKey ip.toNat ≠ bindKey b.ipInt.toNat := by
          intro heq
          have hnat : (ip.toNat : ℤ) = b.ipInt.toNat := congrArg FlowKey.mtch heq
          exact hip (UInt32.toNat_inj.mp (by omega))
        rw [if_neg hip, Option.none_or, genArpIpFlow, Function.update_of_ne hne]

/-! ### The invariant -/

/-- The dictionary and the file have what was learned since the last restart. -/
structure Kept (events : List Event) (s : State) : Prop where
  arpDict : ∀ ip : UInt32, s.arpDict ip.toNat = lastMac ip (sinceRestart events)
  bindFile : ∃ bs, s.bindFile = fileText bs ∧
    ∀ ip, lastMac ip (bs.map Event.learn) = lastMac ip (sinceRestart events)

theorem kept_start : Kept [] start := ⟨fun _ => rfl, [], rfl, fun _ => rfl⟩

section kept
variable {events : List Event} {s : State} (h : Kept events s)
include h

theorem Kept.learn (b : Binding) : Kept (events ++ [.learn b]) (processArp s b) := by
  obtain ⟨bs, hfile, hbs⟩ := h.bindFile
  have hlast : ∀ ip, lastMac ip (sinceRestart (events ++ [.learn b])) =
      if b.ipInt = ip then some b.macAddr else lastMac ip (sinceRestart events) := by
    intro ip
    rw [sinceRestart_learn, lastMac_append]
    by_cases hip : b.ipInt = ip
    · rw [if_pos hip, lastMac, if_pos hip]
      rfl
    · rw [if_neg hip, lastMac, if_neg hip]
      rfl
  unfold processArp
  by_cases hknown : s.arpDict b.ipInt.toNat = some b.macAddr
  · -- nothing is written, and nothing has changed
    have hsame : ∀ ip, lastMac ip (sinceRestart (events ++ [.learn b])) =
        lastMac ip (sinceRestart events) := by
      intro ip
      rw [hlast]
      by_cases hip : b.ipInt = ip
      · rw [if_pos hip, ← hip, ← h.arpDict, hknown]
      · rw [if_neg hip]
    rw [if_pos hknown]
    exact ⟨fun ip => (h.arpDict ip).trans (hsame ip).symm,
      bs, hfile, fun ip => (hbs ip).trans (hsame ip).symm⟩
  · rw [if_neg hknown]
    refine ⟨fun ip => ?_, bs ++ [b], ?_, fun ip => ?_⟩
    · rw [hlast]
      dsimp only
      by_cases hip : b.ipInt = ip
      · rw [if_pos hip, hip, Function.update_self]
      · have hne : (ip.toNat : ℤ) ≠ b.ipInt.toNat := by
          intro heq
          exact hip (UInt32.toNat_inj.mp (by omega))
        rw [if_neg hip, Function.update_of_ne hne, h.arpDict]
    · rw [hfile, fileText, fileText, List.flatMap_append, List.flatMap_singleton]
    · rw [hlast, List.map_append, lastMac_append, hbs]
      by_cases hip : b.ipInt = ip
      · rw [if_pos hip, List.map_singleton, lastMac, if_pos hip]
        rfl
      · rw [if_neg hip, List.map_singleton, lastMac, if_neg hip]
        rfl

/-- A restart gives the flows of what was learned since the one before. -/
theorem Kept.restart : Kept (events ++ [.restart]) (restart s) ∧
    ∀ ip : UInt32, (ArpBinding.restart s).table (bindKey ip.toNat) =
      lastMac ip (sinceRestart events) := by
  obtain ⟨bs, hfile, hbs⟩ := h.bindFile
  have hread := getOvsArpIpMacFromFile_fileText bs
  rw [← hfile] at hread
  refine ⟨⟨fun ip => ?_, [], ?_, fun ip => ?_⟩, fun ip => ?_⟩
  · rw [sinceRestart_restart]
    rfl
  · rw [ArpBinding.restart, hread]
    rfl
  · rw [sinceRestart_restart]
    rfl
  · rw [ArpBinding.restart, hread]
    dsimp only
    rw [addEntries_bindings, hbs, Option.or_none]

end kept

theorem kept_run (events : List Event) : Kept events (run events) := by
  induction events using List.reverseRecOn with
  | nil => exact kept_start
  | append_singleton events e ih =>
      rw [run_append]
      cases e with
      | learn b => exact ih.learn b
      | restart => exact ih.restart.1

/-- **Bindings survive iff they are renewed**: after each restart the flows have the MAC learned
last for every address iff every address that was learned at all was learned again since the restart
before, if there was one. -/
theorem remembered_iff (events : List Event) : Remembered events ↔ Renewed events := by
  refine forall_congr' fun u => forall_congr' fun _ => forall_congr' fun ip => ?_
  have htable := (kept_run u).restart.2 ip
  rw [run_append]
  change (∀ mac, lastMac ip u = some mac → (restart (run u)).table (bindKey ip.toNat) = some mac) ↔
  _
  rw [htable]
  constructor
  · intro h hsome
    obtain ⟨mac, hmac⟩ := Option.isSome_iff_exists.mp hsome
    rw [h mac hmac]
    rfl
  · intro h mac hmac
    obtain ⟨mac', hmac'⟩ :=
      Option.isSome_iff_exists.mp (h (Option.isSome_iff_exists.mpr ⟨mac, hmac⟩))
    rw [hmac', ← hmac, lastMac_of_sinceRestart hmac']

/-- Somebody at `10.0.0.1`. -/
def neighbour : Binding := ⟨"f2:01:0a:00:00:01".toList, 167772161, by decide⟩

/-- The second restart loses what was learned before the first one. -/
theorem forgotten_second_restart : ¬ ∀ events, Remembered events := by
  intro h
  have htable := h [.learn neighbour, .restart, .restart] [.learn neighbour, .restart]
    (List.prefix_refl _) neighbour.ipInt neighbour.macAddr rfl
  have hgone : (run [.learn neighbour, .restart, .restart]).table (bindKey neighbour.ipInt.toNat) =
      none := by
    decide +kernel
  cases hgone.symm.trans htable

end ArpBinding

end TupleNet
