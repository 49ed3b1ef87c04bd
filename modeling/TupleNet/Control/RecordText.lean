import TupleNet.Lib.GoText
import TupleNet.Control.Device
import TupleNet.LinkMaster.WatchMaster

/-! # Keys and texts of records

A device is stored under its path as the text that `MarshalTuplenet` makes of it.  The text is read
back by `UnmarshalTuplenet` and by `parse_value` of the watch master.  A value is not quoted: a
comma ends it for both readers, and the first one also takes the blanks off its ends.  So a device
is read back unchanged by both iff none of its texts has a comma or a blank at an end
(`readsBack_iff`). -/

namespace TupleNet.Control

open Text GoText

namespace Device

/-! ### Keys -/

/-- The directory of the key. -/
def mark : Device → Mark
  | switch _ => .LS
  | router _ => .LR
  | switchPort _ => .lsp
  | routerPort _ => .lrp
  | chassis _ => .chassis
  | staticRoute _ => .lsr
  | nat _ => .lnat

def name : Device → String
  | switch s => s.name
  | router r => r.name
  | switchPort p => p.name
  | routerPort p => p.name
  | chassis c => c.name
  | staticRoute r => r.name
  | nat n => n.name

/-- The components of the key. -/
def components : Device → List String
  | switch s => ["", "entity_view", "LS", s.name]
  | router r => ["", "entity_view", "LR", r.name]
  | switchPort p => ["", "entity_view", "LS", p.owner, "lsp", p.name]
  | routerPort p => ["", "entity_view", "LR", p.owner, "lrp", p.name]
  | chassis c => ["", "entity_view", "chassis", c.name]
  | staticRoute r => ["", "entity_view", "LR", r.owner, "lsr", r.name]
  | nat n => ["", "entity_view", "LR", n.owner, "lnat", n.name]

/-- No name contains the separator of keys. -/
def NamesPlain (dev : Device) : Prop := ∀ c ∈ dev.components, '/' ∉ c.toList

instance : DecidablePred NamesPlain := fun _ => inferInstanceAs (Decidable (∀ _ ∈ _, _))

/-- A directory of a root and the name in it. -/
theorem join_four {root a b : String} (h : root = "" ++ "/" ++ a ++ "/" ++ b ++ "/") (c : String) :
    root ++ c = "/".intercalate ["", a, b, c] := by
  rw [h]
  rfl

/-- A directory below a name and the name in it. -/
theorem join_six {root a b dir d : String} (h : root = "" ++ "/" ++ a ++ "/" ++ b ++ "/")
    (hdir : dir = "/" ++ d ++ "/") (c e : String) :
    root ++ c ++ dir ++ e = "/".intercalate ["", a, b, c, d, e] := by
  have hjoin : "/".intercalate ["", a, b, c, d, e] =
      "" ++ "/" ++ a ++ "/" ++ b ++ "/" ++ c ++ "/" ++ d ++ "/" ++ e := rfl
  rw [hjoin, h, hdir]
  simp only [String.append_assoc]

theorem path_eq (dev : Device) : dev.path = "/".intercalate dev.components := by
  cases dev with
  | switch s => exact join_four (by decide) _
  | router r => exact join_four (by decide) _
  | switchPort p => exact join_six (by decide) (by decide) _ _
  | routerPort p => exact join_six (by decide) (by decide) _ _
  | chassis c => exact join_four (by decide) _
  | staticRoute r => exact join_six (by decide) (by decide) _ _
  | nat n => exact join_six (by decide) (by decide) _ _

theorem split_path {dev : Device} (h : dev.NamesPlain) : split '/' dev.path = dev.components := by
  have hne : dev.components ≠ [] := by cases dev <;> nofun
  rw [path_eq, show "/" = String.singleton '/' from rfl, split_intercalate h hne]

/-! ### The text of a record -/

/-- No value contains the separator of fields. -/
def ValuesPlain (dev : Device) : Prop := ∀ f ∈ dev.fields, ',' ∉ f.value.toList

instance : DecidablePred ValuesPlain := fun _ => inferInstanceAs (Decidable (∀ _ ∈ _, _))

theorem comma_not_mem_toString (n : ℕ) : ',' ∉ (toString n).toList := by
  intro h
  rw [Nat.toString_eq_repr, Nat.toList_repr] at h
  have hdigit : (',' : Char).isDigit := Nat.isDigit_of_mem_toDigits (by decide) (by decide) h
  exact absurd hdigit (by decide)

/-- The fields that are written. -/
def written (dev : Device) : List (String × String) :=
  (dev.fields.filter (fun f => !(f.empty && f.omitEmpty))).map (fun f => (f.name, f.value))

theorem marshal_eq_kvText (dev : Device) : marshalTuplenet dev = kvText dev.written := by
  rw [marshalTuplenet, marshalFields, kvText, written, List.map_map]
  rfl

theorem field_name (dev : Device) :
    ∀ f ∈ dev.fields, '=' ∉ f.name.toList ∧ ',' ∉ f.name.toList ∧ f.name ≠ ENTITY_TYPE := by
  cases dev <;> simp [fields, uintField, strField, ENTITY_TYPE]

theorem exists_of_mem_written {dev : Device} {kv : String × String} (h : kv ∈ dev.written) :
    ∃ f ∈ dev.fields, kv = (f.name, f.value) := by
  obtain ⟨f, hf, rfl⟩ := List.mem_map.mp h
  exact ⟨f, (List.mem_filter.mp hf).1, rfl⟩

theorem written_plain {dev : Device} (h : dev.ValuesPlain) :
    ∀ kv ∈ dev.written, '=' ∉ kv.1.toList ∧ ',' ∉ kv.1.toList ∧ ',' ∉ kv.2.toList := by
  intro kv hkv
  obtain ⟨f, hf, rfl⟩ := exists_of_mem_written hkv
  obtain ⟨hequal, hcomma, _⟩ := dev.field_name f hf
  exact ⟨hequal, hcomma, h f hf⟩

theorem nodup_written (dev : Device) : (dev.written.map Prod.fst).Nodup := by
  have hsub : (dev.written.map Prod.fst).Sublist (dev.fields.map Field.name) := by
    rw [written, List.map_map]
    exact List.filter_sublist.map Field.name
  refine List.Nodup.sublist hsub ?_
  cases dev <;> simp [fields, uintField, strField]

theorem lookup_foldl_insert (kvs : List (String × String)) (d : Dict String String) (key : String) :
    (kvs.foldl (fun kvSet kv => kvSet.insert kv.1 kv.2) d).lookup key =
      ((kvs.reverse).lookup key).or (d.lookup key) := by
  induction kvs generalizing d with
  | nil => rfl
  | cons kv kvs ih =>
      rw [List.foldl_cons, ih, List.reverse_cons, List.lookup_append, Dict.lookup_insert_eq,
        List.lookup_cons]
      cases (kvs.reverse).lookup key with
      | none =>
          by_cases h : key = kv.1
          · simp [h]
          · simp [h, beq_eq_false_iff_ne.mpr h]
      | some v => rfl

/-- What `parse_value` reads from the text of a record. -/
theorem lookup_parseValue {dev : Device} (h : dev.ValuesPlain) (key : String) :
    (parseValue (marshalTuplenet dev)).lookup key = dev.written.reverse.lookup key := by
  rw [marshal_eq_kvText, parseValue_kvText (written_plain h), lookup_foldl_insert,
    AList.lookup_empty, Option.or_none]

theorem lookup_eq_some_iff_mem {l : List (String × String)} (hl : (l.map Prod.fst).Nodup)
    {k v : String} : l.lookup k = some v ↔ (k, v) ∈ l := by
  rw [List.lookup_eq_some_iff]
  constructor
  · rintro ⟨l₁, l₂, rfl, _⟩
    exact List.mem_append_right _ List.mem_cons_self
  · intro h
    obtain ⟨l₁, l₂, rfl⟩ := List.append_of_mem h
    refine ⟨l₁, l₂, rfl, fun kv hkv => ?_⟩
    rw [List.map_append, List.nodup_append] at hl
    have hne := hl.2.2 kv.1 (List.mem_map_of_mem hkv) k (by simp)
    exact bne_iff_ne.mpr (Ne.symm hne)

/-- `parse_value` reads the written properties and no others. -/
theorem lookup_parseValue_iff {dev : Device} (h : dev.ValuesPlain) {k v : String} :
    (parseValue (marshalTuplenet dev)).lookup k = some v ↔ (k, v) ∈ dev.written := by
  rw [lookup_parseValue h, lookup_eq_some_iff_mem, List.mem_reverse]
  rw [List.map_reverse, List.nodup_reverse]
  exact dev.nodup_written

/-! ### Unmarshalling -/

/-- `SetString` or `SetUint` of the field with a key; a number is cut to the width of the field. -/
def setField (key value : String) : Device → Device
  | switch s => switch (if key = "id" then { s with id := parseUint value % 2 ^ 32 } else s)
  | router r =>
      router (if key = "id" then { r with id := parseUint value % 2 ^ 32 }
        else if key = "chassis" then { r with chassis := trimSpace value }
        else r)
  | switchPort p =>
      switchPort (if key = "ip" then { p with ip := trimSpace value }
        else if key = "mac" then { p with mac := trimSpace value }
        else if key = "peer" then { p with peerRouterPortName := trimSpace value }
        else if key = "chassis" then { p with chassis := trimSpace value }
        else p)
  | routerPort p =>
      routerPort (if key = "ip" then { p with ip := trimSpace value }
        else if key = "prefix" then { p with prefixLen := parseUint value % 2 ^ 8 }
        else if key = "mac" then { p with mac := trimSpace value }
        else if key = "peer" then { p with peerSwitchPortName := trimSpace value }
        else p)
  | chassis c =>
      chassis (if key = "ip" then { c with ip := trimSpace value }
        else if key = "tick" then { c with tick := parseUint value % 2 ^ 64 }
        else c)
  | staticRoute r =>
      staticRoute (if key = "ip" then { r with ip := trimSpace value }
        else if key = "prefix" then { r with prefixLen := parseUint value % 2 ^ 8 }
        else if key = "next_hop" then { r with nextHop := trimSpace value }
        else if key = "outport" then { r with outPort := trimSpace value }
        else r)
  | nat n =>
      nat (if key = "ip" then { n with ip := trimSpace value }
        else if key = "prefix" then { n with prefixLen := parseUint value % 2 ^ 8 }
        else if key = "xlate_type" then { n with translateType := trimSpace value }
        else if key = "xlate_ip" then { n with translateIP := trimSpace value }
        else n)

end Device

/-- `UnmarshalTuplenet` into a device: pieces without `=` and unknown keys are skipped, a later key
replaces an earlier one. -/
def unmarshalTuplenet (text : String) (dev : Device) : Device :=
  (split ',' text).foldl (fun dev kv => match split1 '=' kv with
    | none => dev
    | some (key, value) => dev.setField (trimSpace key) value) dev

namespace Device

/-- A new struct with the same name and owner. -/
def fresh : Device → Device
  | switch s => switch ⟨s.name, 0⟩
  | router r => router ⟨r.name, 0, ""⟩
  | switchPort p => switchPort ⟨p.owner, p.name, "", "", "", ""⟩
  | routerPort p => routerPort ⟨p.owner, p.name, "", 0, "", ""⟩
  | chassis c => chassis ⟨c.name, "", 0⟩
  | staticRoute r => staticRoute ⟨r.owner, r.name, "", 0, "", ""⟩
  | nat n => nat ⟨n.owner, n.name, "", 0, "", ""⟩

/-- The numbers are those of their fields. -/
def Sized : Device → Prop
  | switch s => s.id < 2 ^ 32
  | router r => r.id < 2 ^ 32
  | switchPort _ => True
  | routerPort p => p.prefixLen < 2 ^ 8
  | chassis c => c.tick < 2 ^ 64
  | staticRoute r => r.prefixLen < 2 ^ 8
  | nat n => n.prefixLen < 2 ^ 8

/-- The values of the string fields. -/
def texts : Device → List String
  | switch _ => []
  | router r => [r.chassis]
  | switchPort p => [p.ip, p.mac, p.peerRouterPortName, p.chassis]
  | routerPort p => [p.ip, p.mac, p.peerSwitchPortName]
  | chassis c => [c.ip]
  | staticRoute r => [r.ip, r.nextHop, r.outPort]
  | nat n => [n.ip, n.translateType, n.translateIP]

/-- Both readers give the record back: the same struct, and the text of each written key and of no
other. -/
structure ReadsBack (dev : Device) : Prop where
  struct : unmarshalTuplenet (marshalTuplenet dev) dev.fresh = dev
  lookup : ∀ k v, (parseValue (marshalTuplenet dev)).lookup k = some v ↔ (k, v) ∈ dev.written

theorem unmarshal_eq (text : String) (dev : Device) : unmarshalTuplenet text dev =
    (split ',' text).foldl (fun dev kv => (split1 '=' kv).elim dev
      (fun kv => dev.setField (trimSpace kv.1) kv.2)) dev := by
  unfold unmarshalTuplenet
  congr 1
  funext dev kv
  cases split1 '=' kv <;> rfl

theorem fresh_setField (key value : String) (dev : Device) :
    (dev.setField key value).fresh = dev.fresh := by
  cases dev with
  | switch s => simp only [setField, fresh]; split_ifs <;> rfl
  | router r => simp only [setField, fresh]; split_ifs <;> rfl
  | switchPort p => simp only [setField, fresh]; split_ifs <;> rfl
  | routerPort p => simp only [setField, fresh]; split_ifs <;> rfl
  | chassis c => simp only [setField, fresh]; split_ifs <;> rfl
  | staticRoute r => simp only [setField, fresh]; split_ifs <;> rfl
  | nat n => simp only [setField, fresh]; split_ifs <;> rfl

/-- Unmarshalling leaves the kind, the name and the owner alone. -/
theorem fresh_unmarshal (text : String) (dev : Device) :
    (unmarshalTuplenet text dev).fresh = dev.fresh := by
  rw [unmarshal_eq]
  exact foldl_split_preserves (P := fun d : Device => d.fresh = dev.fresh) _
    (fun d kv _ hd => (fresh_setField _ _ d).trans hd) text dev rfl

theorem trim_field_name (dev : Device) : ∀ f ∈ dev.fields, trimSpace f.name = f.name := by
  cases dev <;> simp only [fields, uintField, strField, List.forall_mem_cons, List.not_mem_nil,
    false_imp_iff, implies_true, and_true] <;> decide

/-- The fields are set in the order in which they have been written. -/
theorem unmarshal_marshal {dev : Device} (h : dev.ValuesPlain) (dev₀ : Device) :
    unmarshalTuplenet (marshalTuplenet dev) dev₀ =
      dev.written.foldl (fun d kv => d.setField kv.1 kv.2) dev₀ := by
  rw [unmarshal_eq, marshal_eq_kvText, foldl_kvText _ (written_plain h)]
  refine List.foldl_ext _ _ _ fun d kv hkv => ?_
  obtain ⟨f, hf, rfl⟩ := exists_of_mem_written hkv
  rw [dev.trim_field_name f hf]

end Device

/-- A text without commas and without blanks at its ends. -/
def PlainText (s : String) : Prop := ',' ∉ s.toList ∧ trimSpace s = s

instance : DecidablePred PlainText := fun _ => inferInstanceAs (Decidable (_ ∧ _))

namespace Device

/-- A value is one of the texts or a number. -/
theorem field_value (dev : Device) :
    ∀ f ∈ dev.fields, f.value ∈ dev.texts ∨ ∃ n : ℕ, toString n = f.value := by
  cases dev <;>
    simp only [fields, uintField, strField, List.forall_mem_cons, List.not_mem_nil, false_imp_iff,
      implies_true, and_true] <;>
    simp only [texts, List.mem_cons, exists_apply_eq_apply, true_or, or_true, and_self]

theorem valuesPlain_of_texts {dev : Device} (h : ∀ s ∈ dev.texts, PlainText s) :
    dev.ValuesPlain := by
  intro f hf
  rcases dev.field_value f hf with hmem | ⟨n, hn⟩
  · exact (h _ hmem).1
  · rw [← hn]
    exact comma_not_mem_toString n

/-- Setting the written fields one after another rebuilds the struct. -/
theorem struct_of_texts {dev : Device} (hsized : dev.Sized) (h : ∀ s ∈ dev.texts, PlainText s) :
    unmarshalTuplenet (marshalTuplenet dev) dev.fresh = dev := by
  have htrim : ∀ s ∈ dev.texts, trimSpace s = s := fun s hs => (h s hs).2
  have hparse : ∀ n w : ℕ, w ≤ 64 → n < 2 ^ w → parseUint n.repr % 2 ^ w = n := by
    intro n w hw hn
    rw [← Nat.toString_eq_repr,
      parseUint_toString (hn.trans_le (Nat.pow_le_pow_right (by decide) hw)), Nat.mod_eq_of_lt hn]
  rw [unmarshal_marshal (valuesPlain_of_texts h)]
  cases dev with
  | switch s =>
      have hid := hparse s.id 32 (by decide) hsized
      simp_all [written, fields, uintField, fresh, setField]
  | router r =>
      obtain ⟨name, id, chassis⟩ := r
      have hid := hparse id 32 (by decide) hsized
      by_cases hc : chassis = "" <;>
        simp_all [written, fields, uintField, strField, fresh, setField, texts]
  | switchPort p =>
      obtain ⟨owner, name, ip, mac, peer, chassis⟩ := p
      by_cases hc : chassis = "" <;> by_cases hp : peer = "" <;>
        simp_all [written, fields, strField, fresh, setField, texts]
  | routerPort p =>
      have hprefix := hparse p.prefixLen 8 (by decide) hsized
      simp_all [written, fields, uintField, strField, fresh, setField, texts]
  | chassis c =>
      have htick := hparse c.tick 64 (by decide) hsized
      simp_all [written, fields, uintField, strField, fresh, setField, texts]
  | staticRoute r =>
      have hprefix := hparse r.prefixLen 8 (by decide) hsized
      simp_all [written, fields, uintField, strField, fresh, setField, texts]
  | nat n =>
      have hprefix := hparse n.prefixLen 8 (by decide) hsized
      simp_all [written, fields, uintField, strField, fresh, setField, texts]

theorem texts_setField {dev : Device} {key value s : String}
    (h : s ∈ (dev.setField key value).texts) : s ∈ dev.texts ∨ s = trimSpace value := by
  cases dev with
  | switch s₀ => cases h
  | _ =>
      simp only [setField] at h
      split_ifs at h <;>
        simp only [texts, List.mem_cons, List.not_mem_nil, or_false] at h ⊢ <;> grind

/-- Whatever text is read, no text with a comma or a blank at an end comes out. -/
theorem texts_unmarshal (text : String) {dev : Device} (h : ∀ s ∈ dev.texts, PlainText s) :
    ∀ s ∈ (unmarshalTuplenet text dev).texts, PlainText s := by
  rw [unmarshal_eq]
  refine foldl_split_preserves (P := fun dev : Device => ∀ s ∈ dev.texts, PlainText s) _
    (fun dev kv hkv hdev s hs => ?_) text dev h
  rcases texts_setField hs with hs | hs
  · exact hdev s hs
  · rw [hs]
    exact ⟨fun hmem => hkv (mem_of_mem_trimSpace hmem), trimSpace_trimSpace _⟩

theorem texts_fresh (dev : Device) : ∀ s ∈ dev.fresh.texts, PlainText s := by
  cases dev <;> simp only [fresh, texts] <;> decide

/-- **A record is read back unchanged iff no text in it has a comma or a blank at an end.** -/
theorem readsBack_iff {dev : Device} (hsized : dev.Sized) :
    dev.ReadsBack ↔ ∀ s ∈ dev.texts, PlainText s := by
  constructor
  · intro h
    have htexts := texts_unmarshal (marshalTuplenet dev) dev.texts_fresh
    rwa [h.struct] at htexts
  · intro h
    exact ⟨struct_of_texts hsized h, fun k v => lookup_parseValue_iff (valuesPlain_of_texts h)⟩

end Device

end TupleNet.Control
