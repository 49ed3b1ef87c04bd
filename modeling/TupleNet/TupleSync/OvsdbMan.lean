import TupleNet.Lib.Pieces
import TupleNet.Lib.Text
import Mathlib.Data.List.Induction
import Mathlib.Data.List.TakeWhile

/-! # Messages of OVSDB

The receiving side of `OvsdbMan`: `parse_mul_json` and the loop of `_run`.  The server writes its
messages one after another without a mark between them; `_run` decodes what one `recv` has returned,
takes texts off its start as long as `raw_decode` finds one there, and throws the rest away.  So a
message survives iff no chunk ends inside it (`run_eq_iff`).

`json.JSONDecoder` is a parameter. -/

namespace TupleNet

open Pieces

/-! ### Bytes -/

/-- The bytes of a text. -/
def encode (s : List Char) : List UInt8 := s.flatMap String.utf8EncodeChar

/-- `decode('utf8')`. -/
def decode (bytes : List UInt8) : Option (List Char) :=
  bytes.toByteArray.utf8Decode?.map Array.toList

theorem encode_append (s t : List Char) : encode (s ++ t) = encode s ++ encode t :=
  List.flatMap_append

theorem decode_encode (s : List Char) : decode (encode s) = some s := by
  have hs : (encode s).toByteArray = s.utf8Encode := rfl
  rw [decode, hs, List.utf8Decode?_utf8Encode, Option.map_some]

theorem decode_nil : decode [] = some [] := decode_encode []

theorem decode_eq_some {bytes : List UInt8} {s : List Char} (h : decode bytes = some s) :
    bytes = encode s := by
  obtain ⟨cs, hcs, rfl⟩ := Option.map_eq_some_iff.mp h
  have hbytes := ByteArray.utf8Encode_get_utf8Decode? (b := bytes.toByteArray)
    (h := by rw [hcs]; rfl)
  simp only [hcs, Option.get_some] at hbytes
  have hlist : (encode cs.toList).toByteArray = bytes.toByteArray := hbytes
  exact (List.toByteArray_inj.mp hlist).symm

/-! ### Decoding -/

/-- `json.JSONDecoder` and the texts that ovsdb-server writes for its messages.  A message is a JSON
object, so its text ends where its last brace is, whatever follows.  The server writes no blanks and
escapes only what has to be escaped, so that no other text of a message is shorter. -/
structure JsonDecoder (J : Type) where
  /-- The element at the start of a text and the position after it; `none` where it raises. -/
  rawDecode : List Char → Option (J × ℕ)
  text : J → List Char
  IsMessage : J → Prop
  position : ∀ s e n, rawDecode s = some (e, n) → 0 < n ∧ n ≤ s.length
  decode_text : ∀ m, IsMessage m → ∀ rest, rawDecode (text m ++ rest) = some (m, (text m).length)
  no_shorter : ∀ s m n, rawDecode s = some (m, n) → IsMessage m →
    (encode (text m)).length ≤ (encode (s.take n)).length

namespace JsonDecoder

variable {J : Type}

/-- `parse_mul_json`. -/
def parseMulJson (d : JsonDecoder J) (s : List Char) : List J :=
  match hraw : d.rawDecode s with
  | none => []
  | some (element, position) => element :: parseMulJson d (s.drop position)
termination_by s.length
decreasing_by
  have hpos := d.position s element position hraw
  rw [List.length_drop]
  omega

/-- The bytes of some messages. -/
def stream (d : JsonDecoder J) (msgs : List J) : List UInt8 :=
    msgs.flatMap (fun m => encode (d.text m))

variable {d : JsonDecoder J}

theorem parseMulJson_none {s : List Char} (h : d.rawDecode s = none) : d.parseMulJson s = [] := by
  rw [parseMulJson]
  split
  · rfl
  · next heq => cases heq.symm.trans h

theorem parseMulJson_some {s : List Char} {e : J} {n : ℕ} (h : d.rawDecode s = some (e, n)) :
    d.parseMulJson s = e :: d.parseMulJson (s.drop n) := by
  rw [parseMulJson]
  split
  · next heq => cases heq.symm.trans h
  · next heq =>
      obtain ⟨rfl, rfl⟩ := Prod.mk.inj (Option.some.inj (heq.symm.trans h))
      rfl

theorem rawDecode_nil : d.rawDecode [] = none := by
  cases h : d.rawDecode [] with
  | none => rfl
  | some en =>
      have hpos := d.position [] en.1 en.2 h
      rw [List.length_nil] at hpos
      omega

theorem text_ne_nil {m : J} (hm : d.IsMessage m) : d.text m ≠ [] := by
  intro hnil
  have hraw := d.decode_text m hm []
  rw [hnil, List.nil_append, rawDecode_nil] at hraw
  cases hraw

theorem parseMulJson_texts {ms : List J} (hms : ∀ m ∈ ms, d.IsMessage m) :
    d.parseMulJson (ms.flatMap d.text) = ms := by
  induction ms with
  | nil => exact parseMulJson_none rawDecode_nil
  | cons m ms ih =>
      have hm := hms m List.mem_cons_self
      rw [List.flatMap_cons, parseMulJson_some (d.decode_text m hm _), List.drop_left,
        ih fun m' hm' => hms m' (List.mem_cons_of_mem m hm')]

theorem stream_eq_encode (msgs : List J) : d.stream msgs = encode (msgs.flatMap d.text) := by
  unfold stream encode
  exact List.flatMap_assoc.symm

theorem stream_append (ms₁ ms₂ : List J) :
    d.stream (ms₁ ++ ms₂) = d.stream ms₁ ++ d.stream ms₂ := List.flatMap_append

end JsonDecoder

/-! ### The loop -/

/-- What `_run` works with: the decoder, the field `id` of an element (`none` where reading it
raises) and the registered handlers. -/
structure OvsdbMan (J Id H : Type) where
  json : JsonDecoder J
  rid : J → Option Id
  handlers : Id → Option H

namespace OvsdbMan

/-- `_MAX_RESP_BUF_SIZE`. -/
def MAX_RESP_BUF_SIZE : ℕ := 1024 * 1024

variable {J Id H : Type} (o : OvsdbMan J Id H)

/-- The call of the handler of an element, if there is one. -/
def call (jresp : J) : Option (H × J) :=
  ((o.rid jresp).bind o.handlers).map (fun handleFn => (handleFn, jresp))

/-- `_run`, with the handlers that it calls: chunk by chunk until one is not decoded or is empty;
then a new connection is made and the rest of this stream is lost. -/
def run : List (List UInt8) → List (H × J)
  | [] => []
  | chunk :: chunks => match decode chunk with
      | none => []
      | some response =>
          if response = [] then []
          else (o.json.parseMulJson response).filterMap o.call ++ run chunks

/-- The calls for one chunk. -/
def calls (chunk : List UInt8) : List (H × J) :=
  ((decode chunk).elim [] o.json.parseMulJson).filterMap o.call

/-- A message for which a handler is registered. -/
structure Registered (m : J) : Prop where
  message : o.json.IsMessage m
  handler : (o.call m).isSome

/-- The stream has come to the end of a message. -/
def AtMessageEnd (msgs : List J) (s : List UInt8) : Prop :=
  ∃ ms, ms <+: msgs ∧ s = o.json.stream ms

/-- The bytes of the message that a handler got. -/
def weight (c : H × J) : ℕ := (encode (o.json.text c.2)).length

variable {o}

theorem call_eq_some {m : J} {c : H × J} (h : o.call m = some c) : c.2 = m := by
  obtain ⟨_, _, rfl⟩ := Option.map_eq_some_iff.mp h
  rfl

/-- The loop goes on up to the first chunk that is not decoded. -/
theorem run_eq_takeWhile {chunks : List (List UInt8)} (hne : ∀ chunk ∈ chunks, chunk ≠ []) :
    o.run chunks = (chunks.takeWhile (fun chunk => (decode chunk).isSome)).flatMap o.calls := by
  induction chunks with
  | nil => rfl
  | cons chunk chunks ih =>
      have htail := ih fun c hc => hne c (List.mem_cons_of_mem chunk hc)
      cases hs : decode chunk with
      | none => simp [run, hs]
      | some s =>
          have hnil : s ≠ [] := by
            rintro rfl
            exact hne chunk List.mem_cons_self (decode_eq_some hs)
          have hcalls : o.calls chunk = (o.json.parseMulJson s).filterMap o.call := by
            rw [calls, hs, Option.elim_some]
          simp only [run, hs, if_neg hnil, htail, List.takeWhile_cons, Option.isSome_some, if_true,
            List.flatMap_cons, hcalls]

theorem run_eq_flatMap {chunks : List (List UInt8)} (hne : ∀ chunk ∈ chunks, chunk ≠ [])
    (hok : ∀ chunk ∈ chunks, (decode chunk).isSome) : o.run chunks = chunks.flatMap o.calls := by
  rw [run_eq_takeWhile hne, List.takeWhile_eq_self_iff.mpr hok]

/-- The messages found in a text have no more bytes than the text. -/
theorem weight_parse_le (s : List Char)
    (hms : ∀ c ∈ (o.json.parseMulJson s).filterMap o.call, o.json.IsMessage c.2) :
    (((o.json.parseMulJson s).filterMap o.call).map o.weight).sum ≤ (encode s).length := by
  cases hraw : o.json.rawDecode s with
  | none =>
      rw [JsonDecoder.parseMulJson_none hraw]
      exact Nat.zero_le _
  | some en =>
      obtain ⟨e, n⟩ := en
      have hpos := o.json.position s e n hraw
      have hbytes :
          (encode s).length = (encode (s.take n)).length + (encode (s.drop n)).length := by
        rw [← List.length_append, ← encode_append, List.take_append_drop]
      rw [JsonDecoder.parseMulJson_some hraw, List.filterMap_cons] at hms ⊢
      cases hcall : o.call e with
      | none =>
          simp only [hcall] at hms ⊢
          have hrest := weight_parse_le (s.drop n) hms
          omega
      | some c =>
          simp only [hcall] at hms ⊢
          have hrest := weight_parse_le (s.drop n) fun c' hc' => hms c' (List.mem_cons_of_mem c hc')
          have hmessage := hms c List.mem_cons_self
          have hc : o.weight c ≤ (encode (s.take n)).length := by
            rw [weight, call_eq_some hcall]
            rw [call_eq_some hcall] at hmessage
            exact o.json.no_shorter s e n hraw hmessage
          rw [List.map_cons, List.sum_cons]
          omega
termination_by s.length
decreasing_by
  all_goals
    rw [List.length_drop]
    omega

theorem weight_calls_le {chunk : List UInt8}
    (hms : ∀ c ∈ o.calls chunk, o.json.IsMessage c.2) :
    ((o.calls chunk).map o.weight).sum ≤ chunk.length := by
  unfold calls at hms ⊢
  cases hs : decode chunk with
  | none => exact Nat.zero_le _
  | some s =>
      rw [hs, Option.elim_some] at hms
      rw [decode_eq_some hs]
      exact weight_parse_le s hms

theorem weight_filterMap {ms : List J} (hms : ∀ m ∈ ms, o.Registered m) :
    ((ms.filterMap o.call).map o.weight).sum = (o.json.stream ms).length := by
  induction ms with
  | nil => rfl
  | cons m ms ih =>
      obtain ⟨c, hc⟩ := Option.isSome_iff_exists.mp (hms m List.mem_cons_self).handler
      have htail := ih fun m' hm' => hms m' (List.mem_cons_of_mem m hm')
      rw [List.filterMap_cons, hc]
      simp only [List.map_cons, List.sum_cons, htail, weight, call_eq_some hc, JsonDecoder.stream,
        List.flatMap_cons, List.length_append]

section run
variable {msgs : List J} (hms : ∀ m ∈ msgs, o.Registered m) {chunks : List (List UInt8)}
  (hcut : Cut MAX_RESP_BUF_SIZE (o.json.stream msgs) chunks)
include hms

theorem bytes_ne_nil : ∀ m ∈ msgs, encode (o.json.text m) ≠ [] := by
  intro m hm hnil
  have hraw := decode_encode (o.json.text m)
  rw [hnil, decode_nil] at hraw
  exact JsonDecoder.text_ne_nil (hms m hm).message (Option.some.inj hraw).symm

/-- A chunk that consists of whole messages. -/
theorem calls_stream {ms : List J} (hsub : ∀ m ∈ ms, m ∈ msgs) :
    (decode (o.json.stream ms)).isSome ∧ o.calls (o.json.stream ms) = ms.filterMap o.call := by
  have hmessages : ∀ m ∈ ms, o.json.IsMessage m := fun m hm => (hms m (hsub m hm)).message
  rw [calls, JsonDecoder.stream_eq_encode, decode_encode, Option.elim_some,
    JsonDecoder.parseMulJson_texts hmessages]
  exact ⟨rfl, rfl⟩

/-- Chunks that end with messages give the messages up to there. -/
theorem calls_of_endsOn (hends : EndsOn (o.AtMessageEnd msgs) chunks) {ms : List J}
    (hbegin : ms <+: msgs) (hstream : chunks.flatten = o.json.stream ms) :
    (∀ chunk ∈ chunks, (decode chunk).isSome) ∧ chunks.flatMap o.calls = ms.filterMap o.call := by
  induction chunks using List.reverseRecOn generalizing ms with
  | nil =>
      have hnil : ms <+: [] := prefix_of_length_le (bytes_ne_nil hms) hbegin List.nil_prefix
        (congrArg List.length hstream).ge
      obtain rfl := List.prefix_nil.mp hnil
      exact ⟨fun _ h => absurd h List.not_mem_nil, rfl⟩
  | append_singleton chunks chunk ih =>
      obtain ⟨ms₁, hbegin₁, hstream₁⟩ := hends chunks (List.prefix_append chunks [chunk])
      have hlen := congrArg List.length hstream
      rw [List.flatten_append, hstream₁, List.length_append] at hlen
      obtain ⟨ms₂, rfl⟩ := prefix_of_length_le (bytes_ne_nil hms) hbegin₁ hbegin
        (Nat.le_of_add_right_le hlen.le)
      obtain ⟨hok, hcalls⟩ := ih (hends.of_prefix (List.prefix_append chunks [chunk])) hbegin₁
        hstream₁
      have hchunk : chunk = o.json.stream ms₂ := by
        rw [List.flatten_append, List.flatten_singleton, hstream₁, JsonDecoder.stream_append]
          at hstream
        exact List.append_cancel_left hstream
      obtain ⟨hok₂, hcalls₂⟩ := calls_stream hms
        fun m hm => hbegin.subset (List.mem_append_right ms₁ hm)
      subst hchunk
      refine ⟨fun c hc => ?_, ?_⟩
      · rcases List.mem_append.mp hc with hc | hc
        · exact hok c hc
        · rw [List.mem_singleton.mp hc]
          exact hok₂
      · rw [List.flatMap_append, hcalls, List.flatMap_singleton, hcalls₂, List.filterMap_append]

/-- A chunk that a handler was called for gave messages that had been sent. -/
theorem message_of_run {read : List (List UInt8)}
    (hread : read.flatMap o.calls = msgs.filterMap o.call) :
    ∀ chunk ∈ read, ∀ c ∈ o.calls chunk, o.json.IsMessage c.2 := by
  intro chunk hchunk c hc
  have hmem : c ∈ msgs.filterMap o.call := by
    rw [← hread]
    exact List.mem_flatMap.mpr ⟨chunk, hchunk, hc⟩
  obtain ⟨m, hm, hcall⟩ := List.mem_filterMap.mp hmem
  rw [call_eq_some hcall]
  exact (hms m hm).message

include hcut in
/-- The handlers get all messages only if every chunk is decoded. -/
theorem decoded_of_run (hrun : o.run chunks = msgs.filterMap o.call) :
    ∀ chunk ∈ chunks, (decode chunk).isSome := by
  have hread := (run_eq_takeWhile hcut.ne_nil).symm.trans hrun
  have hle := weight_readEach_le List.length (fun _ _ => List.length_append)
    (fun chunk hchunk => weight_calls_le (message_of_run hms hread chunk hchunk))
  have hsplit : (chunks.takeWhile (fun chunk => (decode chunk).isSome)).flatten.length +
      (chunks.dropWhile (fun chunk => (decode chunk).isSome)).flatten.length =
        (o.json.stream msgs).length := by
    rw [← List.length_append, ← List.flatten_append, List.takeWhile_append_dropWhile, hcut.flatten]
  rw [hread, weight_filterMap hms] at hle
  -- nothing is left after the chunks that are decoded
  have hrest : (chunks.dropWhile (fun chunk => (decode chunk).isSome)).flatten = [] :=
    List.eq_nil_of_length_eq_zero (by omega)
  refine List.dropWhile_eq_nil_iff.mp (List.eq_nil_iff_forall_not_mem.mpr fun chunk hchunk => ?_)
  have hnil := List.flatten_eq_nil_iff.mp hrest chunk hchunk
  exact hcut.ne_nil chunk ((List.dropWhile_suffix _).subset hchunk) hnil

include hcut in
/-- **Messages survive iff no chunk ends inside one**: the handlers are called with exactly the
messages that were sent, each once and in order, iff every chunk ends where a message ends. -/
theorem run_eq_iff : o.run chunks = msgs.filterMap o.call ↔
    EndsOn (o.AtMessageEnd msgs) chunks := by
  constructor
  · intro hrun u hu
    have hok := decoded_of_run hms hcut hrun
    have hflat : o.run chunks = chunks.flatMap o.calls := run_eq_flatMap hcut.ne_nil hok
    have hmessages := message_of_run hms (hflat.symm.trans hrun)
    have hfull : chunks.flatten.length ≤ ((chunks.flatMap o.calls).map o.weight).sum := by
      rw [← hflat, hrun, weight_filterMap hms, hcut.flatten]
    have htight := tight List.length (fun _ _ => List.length_append)
      (fun chunk hchunk => weight_calls_le (hmessages chunk hchunk)) hfull hu
    obtain ⟨v, rfl⟩ := hu
    rw [hflat, List.flatMap_append] at hrun
    obtain ⟨ms₁, ms₂, rfl, h₁, h₂⟩ := List.filterMap_eq_append_iff.mp hrun.symm
    refine ⟨ms₁, List.prefix_append ms₁ ms₂, ?_⟩
    rw [← h₁, weight_filterMap fun m hm => hms m (List.mem_append_left ms₂ hm)] at htight
    have hflatten := hcut.flatten
    rw [List.flatten_append, JsonDecoder.stream_append] at hflatten
    exact (List.append_inj hflatten htight.symm).1
  · intro hends
    obtain ⟨hok, hcalls⟩ := calls_of_endsOn hms hends (List.prefix_refl msgs) hcut.flatten
    rw [run_eq_flatMap hcut.ne_nil hok, hcalls]

end run

/-! ### A cut message -/

/-- Objects without inner braces, as what stands between theirs. -/
abbrev FlatObject : Type := {body : List Char // '}' ∉ body}

/-- Up to the first closing brace. -/
def flatDecode : List Char → Option (FlatObject × ℕ)
  | '{' :: cs => match h : Text.splitChars1 '}' cs with
      | none => none
      | some (body, _) => some (⟨body, Text.not_mem_of_splitChars1 h⟩, body.length + 2)
  | _ => none

theorem flatDecode_eq_some {s : List Char} {m : FlatObject} {n : ℕ}
    (h : flatDecode s = some (m, n)) :
    ∃ rest, s = '{' :: (m.1 ++ '}' :: rest) ∧ n = m.1.length + 2 := by
  unfold flatDecode at h
  split at h
  · next cs =>
      split at h
      · cases h
      · next body rest hsplit =>
          obtain ⟨rfl, rfl⟩ := Prod.mk.inj (Option.some.inj h)
          exact ⟨rest, congrArg (List.cons '{') (Text.splitChars1_eq_some hsplit), rfl⟩
  · cases h

/-- A decoder for flat objects. -/
def flatDecoder : JsonDecoder FlatObject where
  rawDecode := flatDecode
  text m := '{' :: (m.1 ++ ['}'])
  IsMessage _ := True
  position s e n h := by
    obtain ⟨rest, rfl, rfl⟩ := flatDecode_eq_some h
    simp only [List.length_cons, List.length_append]
    omega
  decode_text m _ rest := by
    have htext : '{' :: (m.1 ++ ['}']) ++ rest = '{' :: (m.1 ++ '}' :: rest) := by simp
    have hsplit := Text.splitChars1_append_cons m.2 rest
    rw [htext, flatDecode]
    split
    · next heq => cases heq.symm.trans hsplit
    · next heq =>
        obtain ⟨rfl, rfl⟩ := Prod.mk.inj (Option.some.inj (heq.symm.trans hsplit))
        simp
  no_shorter s m n h _ := by
    obtain ⟨rest, rfl, rfl⟩ := flatDecode_eq_some h
    have htake : ('{' :: (m.1 ++ '}' :: rest)).take (m.1.length + 2) = '{' :: (m.1 ++ ['}']) := by
      rw [List.take_succ_cons, List.take_append, List.take_of_length_le (Nat.le_succ _),
        Nat.add_sub_cancel_left]
      rfl
    rw [htake]

/-- One handler for everything. -/
def flatMan : OvsdbMan FlatObject Unit Unit := ⟨flatDecoder, fun _ => some (), fun _ => some ()⟩

/-- The answer to an echo request. -/
def echoReply : FlatObject :=
  ⟨"\"id\":\"echo_feedback\",\"result\":[],\"error\":null".toList, by decide⟩

/-- The answer in two chunks. -/
def cutReply : List (List UInt8) :=
  [encode "\x7b\"id\"".toList, encode ":\"echo_feedback\",\"result\":[],\"error\":null\x7d".toList]

theorem cut_cutReply : Cut MAX_RESP_BUF_SIZE (flatMan.json.stream [echoReply]) cutReply where
  flatten := by decide +kernel
  ne_nil := by decide +kernel
  length_le := by decide +kernel

theorem run_cutReply : flatMan.run cutReply = [] := by
  have hhead : flatDecode "\x7b\"id\"".toList = none := by decide +kernel
  have hrest :
      flatDecode ":\"echo_feedback\",\"result\":[],\"error\":null\x7d".toList = none := rfl
  have hnil : ∀ s, flatDecode s = none → flatMan.json.parseMulJson s = [] :=
    fun s hs => JsonDecoder.parseMulJson_none hs
  simp only [cutReply, run, decode_encode, hnil _ hhead, hnil _ hrest, List.filterMap_nil,
    List.nil_append, ite_self]

/-- An answer whose first chunk ends inside it reaches no handler. -/
theorem message_cut_lost : ¬ ∀ (J Id H : Type) (o : OvsdbMan J Id H) (msgs : List J)
    (chunks : List (List UInt8)), (∀ m ∈ msgs, o.Registered m) →
    Cut MAX_RESP_BUF_SIZE (o.json.stream msgs) chunks →
    o.run chunks = msgs.filterMap o.call := by
  intro h
  have hrun := h _ _ _ flatMan [echoReply] cutReply (fun _ _ => ⟨trivial, rfl⟩) cut_cutReply
  rw [run_cutReply] at hrun
  cases hrun

/-- Two answers in one chunk. -/
theorem run_eq_iff_one_chunk : flatMan.run [flatMan.json.stream [echoReply, echoReply]] =
    [((), echoReply), ((), echoReply)] := by
  have hcut : Cut MAX_RESP_BUF_SIZE (flatMan.json.stream [echoReply, echoReply])
      [flatMan.json.stream [echoReply, echoReply]] :=
    ⟨List.flatten_singleton, by decide +kernel, by decide +kernel⟩
  refine (run_eq_iff (o := flatMan) (fun _ _ => ⟨trivial, rfl⟩) hcut).mpr fun u hu => ?_
  rcases List.prefix_cons_iff.mp hu with rfl | ⟨t, rfl, ht⟩
  · exact ⟨[], List.nil_prefix, rfl⟩
  · rw [List.prefix_nil.mp ht]
    exact ⟨_, List.prefix_refl _, List.flatten_singleton⟩

end OvsdbMan

end TupleNet
