import TupleNet.Control.RecordText
import TupleNet.Control.SaveConcurrent
import TupleNet.Zoo.Additions
import Mathlib.Data.Nat.Digits.Defs

/-! # The records of the control side in the zoo

A device that `Controller.Save` has stored is a key with the text of its fields; `Device.record` is
the entity that it stands for.  The zoo knows an entity by the last component of its key and by
concatenated texts, so loading all records into an empty zoo, in any order, gives one entity for
each record iff names are different within a type, these texts are different, no index group is too
small, and every record can be read back (`represented_iff`). -/

namespace TupleNet

open Text

/-! ### Texts that an entity keeps -/

/-- The properties that a constructor keeps as they are. -/
def Args.texts : Args → List (Option String)
  | lsp _ ip mac _ onChassis peer => [ip, mac, onChassis, peer]
  | lrp _ ip _ mac _ peer => [ip, mac, peer]
  | lsr _ ip _ nextHop outport _ => [ip, nextHop, outport]
  | lnat _ ip _ xlateIp xlateType _ => [ip, xlateIp, xlateType]
  | chassis _ ip _ => [ip]
  | LS _ lsID => [lsID]
  | LR _ _ onChassis => [onChassis]
  | ovsport .. => []

/-- The same properties of an entity. -/
def Props.texts : Props → List (Option String)
  | lsp p => [some p.ip, some p.mac, p.chassis, p.peer]
  | lrp p => [some p.ip, some p.mac, p.peer]
  | lsr p => [some p.ip, some p.nextHop, p.outport]
  | lnat p => [some p.ip, some p.xlateIp, p.xlateType]
  | chassis p => [some p.ip]
  | LS p => [p.lsID]
  | LR p => [p.chassis]
  | ovsport _ => []

theorem Args.construct_texts {a : Args} {p : Props} (h : a.construct = some p) :
    a.texts = p.texts := by
  cases a <;> simp only [construct, Option.bind_eq_bind, Option.bind_eq_some_iff,
    Option.some.injEq] at h
  case LS => rw [← h]; rfl
  case ovsport => rw [← h]; rfl
  case LR => obtain ⟨_, _, rfl⟩ := h; rfl
  case chassis => obtain ⟨_, rfl, _, _, _, _, rfl⟩ := h; rfl
  case lsp => obtain ⟨_, rfl, _, _, _, rfl, _, _, rfl⟩ := h; rfl
  case lrp => obtain ⟨_, _, _, rfl, _, _, _, rfl, _, _, rfl⟩ := h; rfl
  case lsr => obtain ⟨_, _, _, rfl, _, _, _, rfl, _, _, rfl⟩ := h; rfl
  case lnat => obtain ⟨_, rfl, _, _, _, _, _, rfl, _, _, rfl⟩ := h; rfl

/-- What is kept as it is has been read from the record. -/
theorem Args.ofKv_texts {t : EntityType} {path : String} {get : String → Option String} {a : Args}
    (h : Args.ofKv t path get = some a) : ∀ x ∈ a.texts, ∃ key, x = get key := by
  unfold Args.ofKv at h
  cases hsplit : (split '/' path).reverse with
  | nil => simp [hsplit] at h
  | cons uuid rest =>
      rw [hsplit] at h
      cases t <;> simp only [Option.map_eq_some_iff, Option.some.injEq, reduceCtorEq] at h
      case lsp | lrp | lsr | lnat =>
        obtain ⟨_, _, rfl⟩ := h
        simp [Args.texts]
      all_goals
        rw [← h]
        simp [Args.texts]

namespace Control

/-! ### Records and what they stand for -/

namespace Device

/-- The type of the entity. -/
def etype : Device → EntityType
  | switch _ => .LS
  | router _ => .LR
  | switchPort _ => .lsp
  | routerPort _ => .lrp
  | chassis _ => .chassis
  | staticRoute _ => .lsr
  | nat _ => .lnat

/-- A text that is left out when it is empty. -/
def unlessEmpty (s : String) : Option String := if s = "" then none else some s

/-- The entity that a device stands for: its owner and its properties. -/
def record : Device → Args
  | switch s => .LS s.name (some (toString s.id))
  | router r => .LR r.name (some (toString r.id)) (unlessEmpty r.chassis)
  | switchPort p =>
      .lsp p.name (some p.ip) (some p.mac) p.owner (unlessEmpty p.chassis)
        (unlessEmpty p.peerRouterPortName)
  | routerPort p =>
      .lrp p.name (some p.ip) (some (toString p.prefixLen)) (some p.mac) p.owner
        (some p.peerSwitchPortName)
  | chassis c => .chassis c.name (some c.ip) (some (toString c.tick))
  | staticRoute r =>
      .lsr r.name (some r.ip) (some (toString r.prefixLen)) (some r.nextHop)
        (some r.outPort) r.owner
  | nat n =>
      .lnat n.name (some n.ip) (some (toString n.prefixLen)) (some n.translateIP)
        (some n.translateType) n.owner

/-- The value set that the watch master keeps for the record. -/
def stored (dev : Device) : ValueSet := valueSet dev.mark (marshalTuplenet dev)

/-- What `_convert_kv2entity` makes of the record. -/
def loaded (dev : Device) : Option Args := Args.ofKv dev.etype dev.path dev.stored.kv.lookup

/-! ### Reading a record back -/

/-- The properties that are read from the text of a record. -/
theorem lookup_stored {dev : Device} (h : dev.ValuesPlain) {key : String}
    (hkey : key ≠ ENTITY_TYPE) :
    dev.stored.kv.lookup key = dev.written.reverse.lookup key := by
  rw [stored, valueSet, Dict.lookup_erase_eq, if_neg hkey, lookup_parseValue h]

/-- A record is read back as what it stands for. -/
theorem loaded_eq_record {dev : Device} (hname : dev.NamesPlain) (hvalue : dev.ValuesPlain) :
    dev.loaded = some dev.record := by
  have hsplit := split_path hname
  have hlookup : ∀ key, key ≠ ENTITY_TYPE →
      dev.stored.kv.lookup key = dev.written.reverse.lookup key := fun _ => lookup_stored hvalue
  unfold loaded Args.ofKv
  rw [hsplit]
  cases dev <;> simp (disch := decide) only [components, etype, record, hlookup, List.reverse_cons,
    List.reverse_nil, List.nil_append, List.cons_append, List.getElem?_cons_succ,
    List.getElem?_cons_zero, Option.map_some, Option.some.injEq]
  case router r =>
    by_cases hc : r.chassis = "" <;>
      simp [written, fields, uintField, strField, unlessEmpty, hc, List.lookup_cons]
  case switchPort p =>
    by_cases hc : p.chassis = "" <;> by_cases hp : p.peerRouterPortName = "" <;>
      simp [written, fields, strField, unlessEmpty, hc, hp, List.lookup_cons]
  all_goals simp [written, fields, uintField, strField, List.lookup_cons]

theorem stored_plain {dev : Device} {key v : String} (h : dev.stored.kv.lookup key = some v) :
    ',' ∉ v.toList := by
  rw [stored, valueSet, Dict.lookup_erase_eq] at h
  split_ifs at h
  exact not_mem_of_lookup_parseValue h

theorem loaded_texts {dev : Device} {a : Args} (h : dev.loaded = some a) :
    ∀ t ∈ a.texts, ∀ v ∈ t, ',' ∉ v.toList := by
  intro t ht v hv
  obtain ⟨key, rfl⟩ := Args.ofKv_texts h t ht
  exact stored_plain hv

theorem valuesPlain_of_recordTexts {dev : Device} (h : ∀ t ∈ dev.record.texts, ∀ v ∈ t,
    ',' ∉ v.toList) :
    dev.ValuesPlain := by
  have hopt : ∀ s : String, (∀ v ∈ unlessEmpty s, ',' ∉ v.toList) → ',' ∉ s.toList := by
    intro s hs
    by_cases hempty : s = ""
    · rw [hempty]
      decide
    · exact hs s (by rw [unlessEmpty, if_neg hempty]; rfl)
  unfold ValuesPlain
  cases dev <;> simp only [record, Args.texts, List.forall_mem_cons, Option.mem_def,
      Option.some.injEq, forall_eq', List.not_mem_nil, false_imp_iff, implies_true, and_true]
      at h <;>
    simp only [fields, uintField, strField, List.forall_mem_cons, comma_not_mem_toString,
      not_false_eq_true, List.not_mem_nil, false_imp_iff, implies_true, and_true, true_and]
  case router r => exact hopt _ h
  case switchPort p => exact ⟨h.1, h.2.1, hopt _ h.2.2.2, hopt _ h.2.2.1⟩
  all_goals tauto

/-- Only a record without commas in its values is read back as what it stands for. -/
theorem valuesPlain_of_construct {dev : Device} {a : Args} {p : Props} (ha : dev.loaded = some a)
    (hp : a.construct = some p) (hrecord : dev.record.construct = some p) : dev.ValuesPlain := by
  have htexts : dev.record.texts = a.texts :=
    (Args.construct_texts hrecord).trans (Args.construct_texts hp).symm
  refine valuesPlain_of_recordTexts ?_
  rw [htexts]
  exact loaded_texts ha

/-! ### What decides about a set of records -/

/-- The uniqueness keys of the entity. -/
def uniq (dev : Device) : List (UniqKey × String) := (dev.record.construct.map Props.uniq).getD []

/-- The entity takes an index of the group. -/
def inGroup (t : EntityType) (key : String) (dev : Device) : Bool :=
  dev.record.construct.any (fun p => p.etype = t ∧ p.ilkKey = some key)

end Device

/-- Every record can be read back, and neither their names nor their uniqueness keys nor the indexes
of a group clash. -/
structure Representable (l : List Device) : Prop where
  plain : ∀ dev ∈ l, dev.ValuesPlain
  built : ∀ dev ∈ l, dev.record.construct.isSome
  named : l.Pairwise (fun dev dev' => (dev.etype, dev.name) ≠ (dev'.etype, dev'.name))
  apart : l.Pairwise (fun dev dev' => dev.uniq.Disjoint dev'.uniq)
  room : ∀ t key, l.countP (Device.inGroup t key) ≤ 64

theorem Representable.perm {l l' : List Device} (h : Representable l) (hl : l'.Perm l) :
    Representable l' where
  plain dev hdev := h.plain dev (hl.subset hdev)
  built dev hdev := h.built dev (hl.subset hdev)
  named := (hl.symm.pairwise_iff (fun hne => Ne.symm hne)).mp h.named
  apart := (hl.symm.pairwise_iff (fun hd => List.Disjoint.symm hd)).mp h.apart
  room t key := (hl.countP_eq _).trans_le (h.room t key)

namespace Device

theorem record_key (dev : Device) : dev.record.etype = dev.etype ∧ dev.record.uuid = dev.name := by
  cases dev <;> exact ⟨rfl, rfl⟩

theorem components_reverse (dev : Device) :
    ∃ rest, dev.components.reverse = dev.name :: rest ∧ (dev.mark ∈ [.LS, .LR, .chassis] ∨
      ∃ owner, rest[1]? = some owner) := by
  cases dev <;> exact ⟨_, rfl, by simp [mark]⟩

/-- Every record gives arguments with its type and name. -/
theorem loaded_key {dev : Device} (hname : dev.NamesPlain) :
    ∃ a, dev.loaded = some a ∧ a.etype = dev.etype ∧ a.uuid = dev.name := by
  obtain ⟨rest, hrev, hrest⟩ := dev.components_reverse
  unfold loaded Args.ofKv
  rw [split_path hname, hrev]
  cases dev <;> simp only [mark, List.mem_cons, reduceCtorEq, List.not_mem_nil, or_false, false_or,
    or_true, true_or] at hrest
  case switch | router | chassis => exact ⟨_, rfl, rfl, rfl⟩
  all_goals
    obtain ⟨owner, howner⟩ := hrest
    simp only [etype, howner, Option.map_some]
    exact ⟨_, rfl, rfl, rfl⟩

theorem getLastD_path {dev : Device} (hname : dev.NamesPlain) :
    (split '/' dev.path).getLastD "" = dev.name := by
  rw [split_path hname]
  cases dev <;> rfl

end Device

end Control

namespace Zoo

open Control

/-! ### Additions to an empty zoo -/

/-- The uniqueness keys of what the constructor makes. -/
def uniqOf (a : Args) : List (UniqKey × String) := (a.construct.map Props.uniq).getD []

theorem props?_empty (t : EntityType) (key : String) : empty.props? t key = none := by
  rw [props?, entity?_empty]
  rfl

section emptyView
variable {pre : List Args} {a : Args} {p : Props}

theorem changes_empty (hp : a.construct = some p) : empty.view.Changes a := by
  have hnone : empty.view.props? a.etype a.uuid = none := props?_empty a.etype a.uuid
  rw [View.Changes, hnone, hp]
  intro hsome
  cases hsome

theorem attempts_empty (a : Args) : empty.view.attempts a := by
  have hnone : empty.view.props? a.etype a.uuid = none := props?_empty a.etype a.uuid
  rw [View.attempts, hnone]
  rfl

theorem claimed_empty {u : UniqKey × String} :
    empty.view.Claimed pre u ↔ ∃ b ∈ pre, u ∈ uniqOf b := by
  constructor
  · rintro ⟨b, hb, _, q, hq, hu⟩
    exact ⟨b, hb, by rwa [uniqOf, Option.mem_def.mp hq]⟩
  · rintro ⟨b, hb, hu⟩
    cases hq : b.construct with
    | none => simp [uniqOf, hq] at hu
    | some q => exact ⟨b, hb, changes_empty hq, q, hq, by simpa [uniqOf, hq] using hu⟩

/-- What an addition to the empty zoo needs. -/
theorem accepts_empty_iff (hp : a.construct = some p)
    (hroom : ∀ t key, empty.view.takes pre t key ≤ 64) : empty.view.Accepts pre a ↔
      (∀ b ∈ pre, (uniqOf b).Disjoint (uniqOf a)) ∧
      ∀ t key, empty.view.takes (pre ++ [a]) t key ≤ 64 := by
  have hfree : ∀ u, ¬ empty.view.Taken u := fun u => Finset.notMem_empty u
  have hsize : ∀ t key, empty.view.ilkSize t key = 0 := fun _ _ => rfl
  have huniq : uniqOf a = p.uniq := by rw [uniqOf, hp]; rfl
  simp only [View.Accepts, changes_empty hp, true_imp_iff, hp, Option.mem_def, Option.some.injEq,
    forall_eq', hfree, false_imp_iff, true_and, claimed_empty, hsize, Nat.zero_add]
  refine and_congr ⟨fun h b hb u hub hua => ?_, fun h u hu => ?_⟩
    ⟨fun h t key => ?_, fun h key hkey => ?_⟩
  · exact h u (huniq ▸ hua) ⟨b, hb, hub⟩
  · rintro ⟨b, hb, hub⟩
    exact h b hb hub (huniq ▸ hu)
  · rw [View.takes_append _ hp]
    split_ifs with htake
    · obtain ⟨_, rfl, hkey⟩ := htake
      have hlt := h key hkey
      omega
    · exact hroom t key
  · have hle := h p.etype key
    rw [View.takes_append _ hp, if_pos ⟨attempts_empty a, rfl, hkey⟩] at hle
    omega

/-- Additions to the empty zoo are all accepted iff their keys are different and no group is too
small. -/
theorem acceptsAll_empty_iff {as : List Args} (hload : ∀ a ∈ as, a.construct.isSome)
    (hroom : ∀ t key, empty.view.takes pre t key ≤ 64) : empty.view.AcceptsAll pre as ↔
      (∀ b ∈ pre, ∀ a ∈ as, (uniqOf b).Disjoint (uniqOf a)) ∧
      as.Pairwise (fun a b => (uniqOf a).Disjoint (uniqOf b)) ∧
      ∀ t key, empty.view.takes (pre ++ as) t key ≤ 64 := by
  induction as generalizing pre with
  | nil => simpa [View.AcceptsAll] using hroom
  | cons a as ih =>
      obtain ⟨p, hp⟩ := Option.isSome_iff_exists.mp (hload a List.mem_cons_self)
      have hload' : ∀ b ∈ as, b.construct.isSome := fun b hb => hload b (List.mem_cons_of_mem _ hb)
      have happend : pre ++ a :: as = (pre ++ [a]) ++ as := by simp
      rw [View.AcceptsAll, accepts_empty_iff hp hroom, List.pairwise_cons, happend]
      constructor
      · rintro ⟨⟨hpre, hnext⟩, hrest⟩
        obtain ⟨hmixed, hpair, htakes⟩ := (ih hload' hnext).mp hrest
        refine ⟨fun b hb c hc => ?_, ⟨fun c hc => ?_, hpair⟩, htakes⟩
        · rcases List.mem_cons.mp hc with rfl | hc
          · exact hpre b hb
          · exact hmixed b (List.mem_append_left _ hb) c hc
        · exact hmixed a (List.mem_append_right _ List.mem_cons_self) c hc
      · rintro ⟨hmixed, ⟨hhead, hpair⟩, htakes⟩
        have hnext : ∀ t key, empty.view.takes (pre ++ [a]) t key ≤ 64 := by
          intro t key
          refine le_trans ?_ (htakes t key)
          exact (List.sublist_append_left (pre ++ [a]) as).countP_le
        refine ⟨⟨fun b hb => hmixed b hb a List.mem_cons_self, hnext⟩, (ih hload' hnext).mpr
          ⟨fun b hb c hc => ?_, hpair, htakes⟩⟩
        rcases List.mem_append.mp hb with hb | hb
        · exact hmixed b hb c (List.mem_cons_of_mem _ hc)
        · rw [List.mem_singleton.mp hb]
          exact hhead c hc

end emptyView

/-! ### Loading -/

/-- `convert_pool2entity` for the records, one after another. -/
def loadAll (x : Extra) (l : List Device) (z : Zoo) : Zoo :=
  l.foldl (fun z dev => z.convertPool2entity x dev.etype [(dev.path, dev.stored)]) z

/-- The zoo after a delete event for the record. -/
def deleteEvent (dev : Device) (z : Zoo) : Zoo := z.moveEntity2sinkByPool dev.etype [dev.path]

/-- There is one live entity for each record, with the owner and the properties of the record, and a
delete event for a record removes its entity and no other. -/
structure Represents (l : List Device) (z : Zoo) : Prop where
  own : ∀ dev ∈ l, ∃ p, dev.record.construct = some p ∧ z.props? dev.etype dev.name = some p
  only : ∀ t key p, z.props? t key = some p → ∃ dev ∈ l, dev.etype = t ∧ dev.name = key
  delete : ∀ dev ∈ l, (z.deleteEvent dev).props? dev.etype dev.name = none ∧
    ∀ dev' ∈ l, dev' ≠ dev →
      (z.deleteEvent dev).props? dev'.etype dev'.name = z.props? dev'.etype dev'.name

section load
variable {x : Extra}

/-- An addition makes live what was live or what the constructor makes. -/
theorem props?_addEntity_cases {a : Args} {z : Zoo} {t : EntityType} {key : String} {p : Props}
    (h : (z.addEntity x a).props? t key = some p) :
    z.props? t key = some p ∨ (t = p.etype ∧ key = p.uuid) ∧ a.construct = some p := by
  cases hp : a.construct with
  | none =>
      have hsame : z.addEntity x a = z := by
        unfold addEntity
        split
        · rw [hp]
        · rfl
      rw [hsame] at h
      exact Or.inl h
  | some q =>
      by_cases hkey : t = q.etype ∧ key = q.uuid
      · cases hatt : z.attempts a with
        | false =>
            rw [addEntity_of_not_attempts hatt] at h
            exact Or.inl h
        | true =>
            cases hg : getIlkIdx x q z.ilkGroup with
            | none =>
                have hsame : z.addEntity x a = z := by
                  simp only [addEntity, elim_isSame_of_attempts hp hatt, hp, hg]
                rw [hsame] at h
                exact Or.inl h
            | some r =>
                rcases addEntity_cases hp hatt hg with ⟨m, _, hagree⟩ | ⟨m, _, heq⟩
                · rw [hagree.props, props?_enter, if_pos hkey] at h
                  obtain rfl := Option.some.inj h
                  exact Or.inr ⟨hkey, rfl⟩
                · rw [heq] at h
                  have hgone := (props?_vacate z r.2 q t key).trans (if_pos hkey)
                  exact absurd (h.symm.trans hgone) (by simp)
      · rw [props?_addEntity_of_ne hp hkey] at h
        exact Or.inl h

theorem convertPool2entity_singleton {dev : Device} {a : Args} (ha : dev.loaded = some a)
    (z : Zoo) :
    z.convertPool2entity x dev.etype [(dev.path, dev.stored)] = z.addEntity x a := by
  have hload : Args.ofKv dev.etype dev.path dev.stored.kv.lookup = some a := ha
  simp only [convertPool2entity, List.foldl_cons, List.foldl_nil, convertKv2entity, hload]

/-- What is live after loading stands for a record. -/
theorem props?_loadAll {l : List Device} (hname : ∀ dev ∈ l, dev.NamesPlain) {z : Zoo}
    {t : EntityType} {key : String} {p : Props} (h : (z.loadAll x l).props? t key = some p) :
    z.props? t key = some p ∨ ∃ dev ∈ l, (dev.etype = t ∧ dev.name = key) ∧
      ∃ a, dev.loaded = some a ∧ a.construct = some p := by
  induction l generalizing z with
  | nil => exact Or.inl h
  | cons dev l ih =>
      obtain ⟨a, ha, htype, huuid⟩ := Device.loaded_key (hname dev List.mem_cons_self)
      rw [loadAll, List.foldl_cons, convertPool2entity_singleton ha] at h
      rcases ih (fun d hd => hname d (List.mem_cons_of_mem _ hd)) h with h | ⟨d, hd, hkey, hload⟩
      · refine (props?_addEntity_cases h).imp id fun ⟨⟨ht, hk⟩, hp⟩ => ?_
        obtain ⟨het, huu⟩ := Args.construct_key hp
        exact ⟨dev, List.mem_cons_self, ⟨htype ▸ (ht.trans het).symm, huuid ▸ (hk.trans huu).symm⟩,
          a, ha, hp⟩
      · exact Or.inr ⟨d, List.mem_cons_of_mem _ hd, hkey, hload⟩

theorem loadAll_eq_addAll {l : List Device} (h : ∀ dev ∈ l, dev.loaded = some dev.record)
    (z : Zoo) :
    z.loadAll x l = z.addAll x (l.map Device.record) := by
  induction l generalizing z with
  | nil => rfl
  | cons dev l ih =>
      rw [loadAll, List.foldl_cons, convertPool2entity_singleton (h dev List.mem_cons_self)]
      exact ih (fun d hd => h d (List.mem_cons_of_mem _ hd)) _

theorem props?_deleteEvent {dev : Device} (hname : dev.NamesPlain) (z : Zoo) (t : EntityType)
    (key : String) : (z.deleteEvent dev).props? t key =
      if t = dev.etype ∧ key = dev.name then none else z.props? t key := by
  have hmove : z.deleteEvent dev = z.moveEntity2sink dev.etype dev.name := by
    rw [deleteEvent, moveEntity2sinkByPool, List.foldl_cons, List.foldl_nil,
      Device.getLastD_path hname]
  rw [hmove, props?_moveEntity2sink]

end load

section represents
variable {x : Extra} {l : List Device}

theorem uniqOf_record (dev : Device) : uniqOf dev.record = dev.uniq := rfl

theorem takes_record (l : List Device) (t : EntityType) (key : String) :
    empty.view.takes (l.map Device.record) t key = l.countP (Device.inGroup t key) := by
  rw [View.takes, List.countP_map]
  refine List.countP_congr fun dev _ => ?_
  simp only [Function.comp_apply, attempts_empty, Bool.true_and, Device.inGroup]

theorem nodup_records (hnamed : l.Pairwise
      (fun dev dev' => (dev.etype, dev.name) ≠ (dev'.etype, dev'.name))) :
    ((l.map Device.record).map (fun a => (a.etype, a.uuid))).Nodup := by
  have hkey : ∀ dev : Device, (dev.record.etype, dev.record.uuid) = (dev.etype, dev.name) :=
    fun dev => Prod.ext dev.record_key.1 dev.record_key.2
  rw [List.Nodup, List.map_map, List.pairwise_map]
  simpa only [Function.comp_apply, hkey] using hnamed

/-- With readable records of different names, all of them become live iff nothing clashes. -/
theorem loadAll_live_iff (hname : ∀ dev ∈ l, dev.NamesPlain) (hplain : ∀ dev ∈ l, dev.ValuesPlain)
    (hbuilt : ∀ dev ∈ l, dev.record.construct.isSome) (hnamed : l.Pairwise
      (fun dev dev' => (dev.etype, dev.name) ≠ (dev'.etype, dev'.name))) :
    (∀ dev ∈ l, (empty.loadAll x l).props? dev.etype dev.name = dev.record.construct) ↔
      l.Pairwise (fun dev dev' => dev.uniq.Disjoint dev'.uniq) ∧
      ∀ t key, l.countP (Device.inGroup t key) ≤ 64 := by
  have hload : ∀ a ∈ l.map Device.record, a.construct.isSome := by
    simpa only [List.forall_mem_map] using hbuilt
  have hlive := additions_live_iff (x := x) hload (nodup_records hnamed) indexed_empty
  rw [acceptsAll_empty_iff hload (fun _ _ => Nat.zero_le _)] at hlive
  simp only [List.forall_mem_map, Device.record_key, List.pairwise_map, uniqOf_record,
    List.nil_append, takes_record, List.not_mem_nil, false_imp_iff, implies_true,
    true_and] at hlive
  rw [loadAll_eq_addAll fun dev hdev => Device.loaded_eq_record (hname dev hdev) (hplain dev hdev)]
  exact hlive

/-- **Records in the zoo**: loading the records of a database, in any order, represents them iff
they are representable. -/
theorem represents_iff (x : Extra) (l : List Device) (hnd : l.Nodup)
    (hname : ∀ dev ∈ l, dev.NamesPlain) :
    (∀ l', l'.Perm l → Represents l (empty.loadAll x l')) ↔ Representable l := by
  constructor
  · intro h
    obtain ⟨hown, _, hdelete⟩ := h l (List.Perm.refl l)
    have hdistinct : ∀ dev ∈ l, ∀ dev' ∈ l, dev' ≠ dev →
        (dev.etype, dev.name) ≠ (dev'.etype, dev'.name) := by
      intro dev hdev dev' hdev' hne heq
      obtain ⟨htype, hn⟩ := Prod.mk.inj heq
      obtain ⟨p, _, hp⟩ := hown dev' hdev'
      obtain ⟨hgone, hother⟩ := hdelete dev hdev
      have hstill := hother dev' hdev' hne
      rw [← htype, ← hn] at hstill hp
      rw [hgone, hp] at hstill
      cases hstill
    have hnamed : l.Pairwise (fun dev dev' => (dev.etype, dev.name) ≠ (dev'.etype, dev'.name)) :=
      hnd.imp_of_mem fun hdev hdev' hne => hdistinct _ hdev _ hdev' (Ne.symm hne)
    have hbuilt : ∀ dev ∈ l, dev.record.construct.isSome := by
      intro dev hdev
      obtain ⟨p, hp, _⟩ := hown dev hdev
      rw [hp]
      rfl
    have hplain : ∀ dev ∈ l, dev.ValuesPlain := by
      intro dev hdev
      obtain ⟨p, hrecord, hp⟩ := hown dev hdev
      rcases props?_loadAll hname hp with hp | ⟨dev', hdev', ⟨htype, hn⟩, a, ha, hconstruct⟩
      · rw [props?_empty] at hp
        cases hp
      · -- the entity under this name has been read from this record
        have hsame : dev' = dev := by
          by_contra hne
          exact hdistinct dev hdev dev' hdev' hne (Prod.ext htype.symm hn.symm)
        subst hsame
        exact Device.valuesPlain_of_construct ha hconstruct hrecord
    have hlive : ∀ dev ∈ l,
        (empty.loadAll x l).props? dev.etype dev.name = dev.record.construct := by
      intro dev hdev
      obtain ⟨p, hrecord, hp⟩ := hown dev hdev
      rw [hp, hrecord]
    obtain ⟨hapart, hroom⟩ := (loadAll_live_iff hname hplain hbuilt hnamed).mp hlive
    exact ⟨hplain, hbuilt, hnamed, hapart, hroom⟩
  · intro h l' hperm
    obtain ⟨hplain, hbuilt, hnamed, hapart, hroom⟩ := h.perm hperm
    have hname' : ∀ dev ∈ l', dev.NamesPlain := fun dev hdev => hname dev (hperm.subset hdev)
    have hlive := (loadAll_live_iff (x := x) hname' hplain hbuilt hnamed).mpr ⟨hapart, hroom⟩
    refine ⟨fun dev hdev => ?_, fun t key p hp => ?_, fun dev hdev =>
      ⟨?_, fun dev' hdev' hne => ?_⟩⟩
    · obtain ⟨p, hp⟩ := Option.isSome_iff_exists.mp (h.built dev hdev)
      exact ⟨p, hp, (hlive dev (hperm.symm.subset hdev)).trans hp⟩
    · rcases props?_loadAll hname' hp with hp | ⟨dev, hdev, hkey, _⟩
      · rw [props?_empty] at hp
        cases hp
      · exact ⟨dev, hperm.subset hdev, hkey⟩
    · rw [props?_deleteEvent (hname dev hdev), if_pos ⟨rfl, rfl⟩]
    · rw [props?_deleteEvent (hname dev hdev), if_neg]
      rintro ⟨htype, hn⟩
      have : Std.Symm (fun dev dev' : Device =>
          (dev.etype, dev.name) ≠ (dev'.etype, dev'.name)) := ⟨fun _ _ hne => Ne.symm hne⟩
      exact h.named.forall hdev hdev' (Ne.symm hne) (Prod.ext htype.symm hn.symm)

/-- A router with one network. -/
def oneNetworkRecords : List Device :=
  [.router ⟨"edge", 1, ""⟩, .switch ⟨"red", 2⟩,
    .switchPort ⟨"red", "to_edge", "10.0.0.1", "f2:01:0a:00:00:01", "to_red", ""⟩,
    .routerPort ⟨"edge", "to_red", "10.0.0.1", 16, "f2:01:0a:00:00:01", "to_edge"⟩]

theorem oneNetwork_representable : Representable oneNetworkRecords where
  plain := by decide
  built := by decide
  named := by decide
  apart := by
    have hno : oneNetworkRecords.Pairwise (fun dev dev' => ∀ u ∈ dev.uniq, u ∉ dev'.uniq) := by
      decide
    exact hno.imp (fun h => List.disjoint_left.mpr h)
  room t key := List.countP_le_length.trans (by decide)

theorem represents_oneNetwork :
    Represents oneNetworkRecords (empty.loadAll (.node false "hyper1") oneNetworkRecords.reverse) :=
  (represents_iff (.node false "hyper1") oneNetworkRecords (by decide) (by decide)).mpr
    oneNetwork_representable _ (List.reverse_perm _)

end represents

/-! ### Two networks on one egress router -/

/-- `portNameByPeer` of `tpcnm`. -/
def portNameByPeer (name : String) : String := "to_" ++ name

/-- The devices of `createNetwork` of `tpcnm`. -/
def createNetwork (egressRouterName network gateway : String) (prefixLen : ℕ) (mac : String) :
    List Device :=
  [.switch ⟨network, 0⟩,
    .switchPort ⟨network, portNameByPeer egressRouterName, gateway, mac, portNameByPeer network,
      ""⟩,
    .routerPort ⟨egressRouterName, portNameByPeer network, gateway, prefixLen, mac,
      portNameByPeer egressRouterName⟩]

/-- A router and two networks on it. -/
def twoNetworks : ℕ → List Device
  | 0 => [.router ⟨"edge", 0, ""⟩]
  | 1 => createNetwork "edge" "red" "10.0.0.1" 16 "f2:01:0a:00:00:01"
  | 2 => createNetwork "edge" "blue" "10.1.0.2" 16 "f2:01:0a:01:00:02"
  | _ => []

/-- What they are once the ids are handed out. -/
def twoNetworksRecords : List Device :=
  [.router ⟨"edge", 1, ""⟩, .switch ⟨"red", 2⟩,
    .switchPort ⟨"red", "to_edge", "10.0.0.1", "f2:01:0a:00:00:01", "to_red", ""⟩,
    .routerPort ⟨"edge", "to_red", "10.0.0.1", 16, "f2:01:0a:00:00:01", "to_edge"⟩,
    .switch ⟨"blue", 3⟩,
    .switchPort ⟨"blue", "to_edge", "10.1.0.2", "f2:01:0a:01:00:02", "to_blue", ""⟩,
    .routerPort ⟨"edge", "to_blue", "10.1.0.2", 16, "f2:01:0a:01:00:02", "to_edge"⟩]

/-- The clients one after another. -/
def twoNetworksRun : Option (TxnStore.System Stored Outcome) :=
  StepMachine.run (TxnStore.System.step Stored.raw)
    (TxnStore.System.start (fun _ => none) (saves sampleCodec (fun _ l => l) twoNetworks))
    [(0, true), (0, true), (1, true), (1, true), (1, true), (1, true), (2, true), (2, true),
      (2, true), (2, true)]

/-- The records of a database. -/
structure Contents (db : TxnStore.Store Stored) (l : List Device) : Prop where
  nodup : l.Nodup
  mem_iff : ∀ dev, dev ∈ l ↔ deviceAt db dev.path = some dev
  path : ∀ key dev, deviceAt db key = some dev → dev.path = key

/-- A put writes one of these records under its own key, or a text that is no record. -/
def putsOneOf (records : List Device) : TxnStore.Op Stored → Bool
  | .put key v => v.device.all (fun dev => dev ∈ records ∧ dev.path = key)
  | _ => true

theorem twoNetworks_contents {s : TxnStore.System Stored Outcome} (hs : twoNetworksRun = some s) :
    Contents s.db twoNetworksRecords := by
  have hput : ∀ s ∈ twoNetworksRun, ∀ e ∈ s.log, ∀ o ∈ e.2.ops,
      putsOneOf twoNetworksRecords o = true := by decide +kernel
  have hstored : ∀ s ∈ twoNetworksRun, ∀ dev ∈ twoNetworksRecords,
      deviceAt s.db dev.path = some dev := by decide +kernel
  have hall : ∀ key dev, deviceAt s.db key = some dev →
      dev ∈ twoNetworksRecords ∧ dev.path = key := by
    intro key dev h
    obtain ⟨v, hv, hdev⟩ := Option.bind_eq_some_iff.mp h
    rcases TxnStore.System.run_db_eq_some hs hv with h | ⟨e, he, ho⟩
    · cases h
    · have hall := hput s hs e he _ ho
      simpa [putsOneOf, hdev] using hall
  exact ⟨by decide, fun dev => ⟨hstored s hs dev, fun h => (hall _ dev h).1⟩,
    fun key dev h => (hall key dev h).2⟩

/-- Two networks on one router: their switch ports have one name, and a delete event for one of them
removes the only entity. -/
theorem stored_not_represented : ¬ ∀ (codec : BitmapCodec)
    (order : ℕ → List (String × MapEntry) → List (String × MapEntry)) (devs : ℕ → List Device)
    (as : List (ℕ × Bool)) (s : TxnStore.System Stored Outcome) (l : List Device) (x : Extra),
    (∀ i l, (order i l).Perm l) → (∀ i, ∀ dev ∈ devs i, dev.Fresh) →
    StepMachine.run (TxnStore.System.step Stored.raw)
      (TxnStore.System.start (fun _ => none) (saves codec order devs)) as = some s →
    Contents s.db l → (∀ dev ∈ l, dev.NamesPlain) →
    ∀ l', l'.Perm l → Represents l (empty.loadAll x l') := by
  intro h
  obtain ⟨s, hs⟩ := Option.isSome_iff_exists.mp
    (show twoNetworksRun.isSome from by decide +kernel)
  have hfresh : ∀ i, ∀ dev ∈ twoNetworks i, dev.Fresh := by
    intro i
    match i with
    | 0 => simp [twoNetworks, Device.Fresh]
    | 1 => simp [twoNetworks, createNetwork, Device.Fresh]
    | 2 => simp [twoNetworks, createNetwork, Device.Fresh]
    | _ + 3 => simp [twoNetworks]
  obtain ⟨hown, _, hdelete⟩ := h sampleCodec (fun _ l => l) twoNetworks _ s twoNetworksRecords
    (.node false "hyper1") (fun _ l => List.Perm.refl l) hfresh hs (twoNetworks_contents hs)
    (by decide) twoNetworksRecords (List.Perm.refl _)
  obtain ⟨hgone, hother⟩ := hdelete
    (.switchPort ⟨"red", "to_edge", "10.0.0.1", "f2:01:0a:00:00:01", "to_red", ""⟩) (by decide)
  obtain ⟨p, _, hp⟩ := hown
    (.switchPort ⟨"blue", "to_edge", "10.1.0.2", "f2:01:0a:01:00:02", "to_blue", ""⟩) (by decide)
  have hstill := hother
    (.switchPort ⟨"blue", "to_edge", "10.1.0.2", "f2:01:0a:01:00:02", "to_blue", ""⟩) (by decide)
    (by decide)
  have hnone := hgone.symm.trans (hstill.trans hp)
  cases hnone

end Zoo

end TupleNet
