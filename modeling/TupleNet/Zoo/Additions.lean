import TupleNet.Zoo.Invariant

/-! # Additions in a row

What a list of `add_entity` calls makes of a zoo when every call can build its entity and no two
calls have the same type and name.  An addition that changes an entity is accepted iff none of its
uniqueness keys is held by something that is still there, and its index group has room
(`Accepts`); otherwise the entity is missing afterwards and stays missing, since no later call has
its name.  So all entities of the list are live at the end iff `Accepts` holds at every position
(`additions_live_iff`). -/

namespace TupleNet

namespace Zoo

/-- The properties of a live entity. -/
def props? (z : Zoo) (t : EntityType) (key : String) : Option Props :=
  (z.entity? t key).map (fun e => e.row.props)

/-- How many indexes of a group are in use. -/
def ilkSize (z : Zoo) (t : EntityType) (key : String) : ℕ := ((z.ilkGroup t key).getD ∅).card

theorem Indexed.ilkSize_le {z : Zoo} (h : Indexed z) (t : EntityType) (key : String) :
    z.ilkSize t key ≤ 64 := by
  unfold ilkSize
  cases hg : z.ilkGroup t key with
  | none => simp
  | some s => exact (Finset.card_le_card (h.ilk t key s hg)).trans_eq (Finset.card_range 64)

/-! ### Indexes -/

/-- An index can be handed out. -/
def Room (z : Zoo) (p : Props) : Prop := ∀ key, p.ilkKey = some key → z.ilkSize p.etype key < 64

instance (z : Zoo) (p : Props) : Decidable (z.Room p) :=
  match h : p.ilkKey with
  | none => isTrue (fun key hkey => by rw [h] at hkey; cases hkey)
  | some key => decidable_of_iff (z.ilkSize p.etype key < 64)
      ⟨fun hlt key' hkey => by rw [h] at hkey; obtain rfl := Option.some.inj hkey; exact hlt,
        fun hall => hall key h⟩

theorem free_eq_empty_iff {s : Finset ℕ} (h : s ⊆ wholeIdxSet) :
    wholeIdxSet \ s = ∅ ↔ ¬ s.card < 64 := by
  have hcard : wholeIdxSet.card = 64 := Finset.card_range 64
  rw [Finset.sdiff_eq_empty_iff_subset, Nat.not_lt]
  constructor
  · exact fun hsub => hcard ▸ Finset.card_le_card hsub
  · exact fun hle => (Finset.eq_of_subset_of_card_le h (hcard ▸ hle)).ge

theorem Indexed.getIlkIdx_isSome_iff {z : Zoo} (h : Indexed z) (x : Extra) (p : Props) :
    (getIlkIdx x p z.ilkGroup).isSome ↔ z.Room p := by
  unfold getIlkIdx Room ilkSize
  cases hkey : p.ilkKey with
  | none => simp
  | some key =>
      cases hg : z.ilkGroup p.etype key with
      | none => simp [hg]
      | some s =>
          have hfree := free_eq_empty_iff (h.ilk _ _ _ hg)
          simp only [Option.some.injEq, forall_eq', hg, Option.getD_some]
          by_cases hs : s.card < 64
          · simp [hs, mt hfree.mp (not_not.mpr hs)]
          · simp [hs, hfree.mpr hs]

/-- Handing out an index of a group adds one to its size. -/
theorem ilkSize_getIlkIdx {z : Zoo} {x : Extra} {p : Props} {idx : ℕ} {g : IlkGroup}
    (hg : getIlkIdx x p z.ilkGroup = some (idx, g)) (t : EntityType) (key : String) :
    ((g t key).getD ∅).card =
      z.ilkSize t key + if t = p.etype ∧ p.ilkKey = some key then 1 else 0 := by
  unfold getIlkIdx at hg
  unfold ilkSize
  cases hkey : p.ilkKey with
  | none =>
      simp only [hkey, Option.some.injEq, Prod.mk.injEq] at hg
      simp [hg.2]
  | some k =>
      cases hocc : z.ilkGroup p.etype k with
      | none =>
          simp only [hkey, hocc, Option.some.injEq, Prod.mk.injEq] at hg
          rw [← hg.2, setGroup]
          by_cases hk : t = p.etype ∧ key = k
          · obtain ⟨rfl, rfl⟩ := hk
            simp [hocc]
          · rw [if_neg hk, if_neg (by simpa [eq_comm] using hk), Nat.add_zero]
      | some s =>
          simp only [hkey, hocc] at hg
          split_ifs at hg with hfree
          simp only [Option.some.injEq, Prod.mk.injEq] at hg
          rw [← hg.2, setGroup]
          by_cases hk : t = p.etype ∧ key = k
          · obtain ⟨rfl, rfl⟩ := hk
            have hnot := (Finset.mem_sdiff.mp
              (x.popIdx_mem _ (Finset.nonempty_iff_ne_empty.mpr hfree))).2
            simp [hocc, Finset.card_insert_of_notMem hnot]
          · rw [if_neg hk, if_neg (by simpa [eq_comm] using hk), Nat.add_zero]

/-! ### One addition -/

theorem props?_moveEntity2sink (z : Zoo) (t t' : EntityType) (key key' : String) :
    (z.moveEntity2sink t key).props? t' key' =
      if t' = t ∧ key' = key then none else z.props? t' key' := by
  rw [props?, entity?_moveEntity2sink]
  split_ifs <;> rfl

theorem props?_touch (z : Zoo) (t t' : EntityType) (key key' : String) :
    (z.touch t key).props? t' key' = z.props? t' key' := by
  rw [props?, entity?_touch]
  split_ifs with h
  · rw [h.1, h.2, Option.map_map]
    exact congrArg (fun f => (z.entity? t key).map f) (funext fun e => by simp [touch_row])
  · rfl

/-- The zoos agree on properties, uniqueness keys and indexes. -/
structure Agree (z z' : Zoo) : Prop where
  props : ∀ t key, z.props? t key = z'.props? t key
  idxmap : z.entityIdxmap = z'.entityIdxmap
  ilkGroup : z.ilkGroup = z'.ilkGroup

theorem Agree.refl (z : Zoo) : Agree z z := ⟨fun _ _ => rfl, rfl, rfl⟩

theorem agree_touch (z : Zoo) (t : EntityType) (key : String) : Agree (z.touch t key) z := by
  refine ⟨fun t' key' => props?_touch z t t' key key', ?_, ?_⟩ <;>
  · unfold touch
    split
    · rfl
    · split_ifs <;> rfl

theorem agree_touchGateway (z : Zoo) (p : Props) : Agree (z.touchGateway p) z := by
  unfold touchGateway
  split
  · split
    · exact Agree.refl z
    · exact agree_touch z _ _
  · split_ifs
    · exact agree_touch z _ _
    · exact Agree.refl z
  · exact Agree.refl z

/-- `add_entity` goes on to the constructor. -/
def attempts (z : Zoo) (a : Args) : Bool :=
  (z.props? a.etype a.uuid).all (fun q => a.isSame q ≠ some true)

theorem addEntity_of_not_attempts {x : Extra} {z : Zoo} {a : Args} (h : z.attempts a = false) :
    z.addEntity x a = z := by
  unfold addEntity
  unfold attempts props? at h
  cases he : z.entity? a.etype a.uuid with
  | none => simp [he] at h
  | some e =>
      have hsame : a.isSame e.row.props = some true := by simpa [he] using h
      simp only [Option.elim_some, hsame]

section addEntity
variable {x : Extra} {z : Zoo} {a : Args} {p : Props} (hp : a.construct = some p)
include hp

theorem elim_isSame_of_attempts (h : z.attempts a) :
    (z.entity? a.etype a.uuid).elim (some false) (fun e => a.isSame e.row.props) = some false := by
  unfold attempts props? at h
  cases he : z.entity? a.etype a.uuid with
  | none => rfl
  | some e =>
      have hne : a.isSame e.row.props ≠ some true := by simpa [he] using h
      obtain ⟨b, hb⟩ := Option.isSome_iff_exists.mp (Args.isSame_isSome hp e.row.props)
      cases b with
      | false => exact hb
      | true => exact absurd hb hne

theorem addEntity_of_no_room (hz : Indexed z) (h : ¬ z.Room p) : z.addEntity x a = z := by
  unfold addEntity
  split
  · rw [hp]
    have hnone : getIlkIdx x p z.ilkGroup = none := by
      rw [← Option.not_isSome_iff_eq_none, hz.getIlkIdx_isSome_iff]
      exact h
    simp only [hnone]
  · rfl

variable (hatt : z.attempts a) {idx : ℕ} {g : IlkGroup}
  (hg : getIlkIdx x p z.ilkGroup = some (idx, g))
include hatt hg

/-- An addition that gets an index: accepted or refused. -/
theorem addEntity_cases :
    (∃ m, insertIdxmap p.uniq (z.vacate g p).entityIdxmap = (m, true) ∧
      Agree (z.addEntity x a)
        (((z.vacate g p).setIdxmap m).enter ⟨⟨p, idx⟩, .ADD, shouldTouch x p⟩)) ∨
    ∃ m, insertIdxmap p.uniq (z.vacate g p).entityIdxmap = (m, false) ∧
      z.addEntity x a = (z.vacate g p).setIdxmap m := by
  have hbuilt := addEntity_of_built (elim_isSame_of_attempts hp hatt) hp hg
  by_cases hfree : (insertIdxmap p.uniq (z.vacate g p).entityIdxmap).2
  · rw [if_pos hfree, takeIn] at hbuilt
    refine Or.inl ⟨_, Prod.ext rfl hfree, ?_⟩
    rw [hbuilt]
    split_ifs
    · exact agree_touchGateway _ p
    · exact Agree.refl _
  · rw [if_neg hfree] at hbuilt
    exact Or.inr ⟨_, Prod.ext rfl (Bool.eq_false_iff.mpr hfree), hbuilt⟩

end addEntity

section effect
variable {x : Extra} {z : Zoo} {a : Args} {p : Props}

theorem props?_vacate (z : Zoo) (g : IlkGroup) (p : Props) (t : EntityType) (key : String) :
    (z.vacate g p).props? t key = if t = p.etype ∧ key = p.uuid then none else z.props? t key :=
  props?_moveEntity2sink _ _ _ _ _

theorem props?_enter (z : Zoo) (m : Idxmap) (e : Entity) (t : EntityType) (key : String) :
    ((z.setIdxmap m).enter e).props? t key =
      if t = e.row.props.etype ∧ key = e.row.props.uuid then some e.row.props
      else z.props? t key := by
  rw [props?, entity?_enter]
  split_ifs with h₁ h₂ h₂
  · rfl
  · exact absurd h₁ h₂
  · exact absurd h₂ h₁
  · rfl

theorem ilkGroup_vacate (z : Zoo) (g : IlkGroup) (p : Props) : (z.vacate g p).ilkGroup = g :=
  ilkGroup_move _ _ _

theorem Indexed.mem_idxmap_vacate (hz : Indexed z) (g : IlkGroup) (p : Props)
    (u : UniqKey × String) : u ∈ (z.vacate g p).entityIdxmap ↔
      u ∈ z.entityIdxmap ∧ ∀ q, z.props? p.etype p.uuid = some q → u ∉ q.uniq := by
  unfold props?
  cases he : z.entity? p.etype p.uuid with
  | none =>
      have hsame : z.vacate g p = z.setIlkGroup g := move_of_none he
      rw [hsame]
      simp [setIlkGroup]
  | some e =>
      have hidx : (z.vacate g p).entityIdxmap =
          (z.moveEntity2sink p.etype p.uuid).entityIdxmap := by
        have he' : (z.setIlkGroup g).entity? p.etype p.uuid = some e := he
        simp only [vacate, moveEntity2sink, he, he']
        rfl
      rw [hidx, hz.mem_idxmap_move he]
      simp [Entity.uniq]

section one
variable (hp : a.construct = some p)
include hp

/-- Whatever becomes of an addition, it concerns its own name only. -/
theorem props?_addEntity_of_ne {t : EntityType} {key : String}
    (hne : ¬ (t = p.etype ∧ key = p.uuid)) : (z.addEntity x a).props? t key = z.props? t key := by
  cases hatt : z.attempts a with
  | false => rw [addEntity_of_not_attempts hatt]
  | true =>
      cases hg : getIlkIdx x p z.ilkGroup with
      | none =>
          have hsame : z.addEntity x a = z := by
            simp only [addEntity, elim_isSame_of_attempts hp hatt, hp, hg]
          rw [hsame]
      | some r =>
          have hmoved := props?_vacate z r.2 p t key
          rw [if_neg hne] at hmoved
          rcases addEntity_cases hp hatt hg with ⟨m, _, hagree⟩ | ⟨m, _, heq⟩
          · rw [hagree.props, props?_enter, if_neg hne, hmoved]
          · rw [heq]
            exact hmoved

variable (hz : Indexed z) (hatt : z.attempts a) (hroom : z.Room p)
include hz hatt hroom

/-- **An accepted addition**: its keys are free once the entity that had the name is gone. -/
theorem addEntity_of_free (hfree : ∀ u ∈ p.uniq, u ∈ z.entityIdxmap →
      ∃ q, z.props? p.etype p.uuid = some q ∧ u ∈ q.uniq) :
    (∀ t key, (z.addEntity x a).props? t key =
      if t = p.etype ∧ key = p.uuid then some p else z.props? t key) ∧
    (∀ u, u ∈ (z.addEntity x a).entityIdxmap ↔ u ∈ p.uniq ∨
      u ∈ z.entityIdxmap ∧ ∀ q, z.props? p.etype p.uuid = some q → u ∉ q.uniq) ∧
    ∀ t key, (z.addEntity x a).ilkSize t key =
      z.ilkSize t key + if t = p.etype ∧ p.ilkKey = some key then 1 else 0 := by
  obtain ⟨r, hg⟩ := Option.isSome_iff_exists.mp ((hz.getIlkIdx_isSome_iff x p).mpr hroom)
  have hfree' : ∀ u ∈ p.uniq, u ∉ (z.vacate r.2 p).entityIdxmap := by
    intro u hu hm
    obtain ⟨hm, hq⟩ := (hz.mem_idxmap_vacate r.2 p u).mp hm
    obtain ⟨q, hq', huq⟩ := hfree u hu hm
    exact hq q hq' huq
  obtain ⟨m, hm⟩ := insertIdxmap_of_free p.uniq_nodup hfree'
  rcases addEntity_cases hp hatt hg with ⟨m', hm', hagree⟩ | ⟨m', hm', _⟩
  · obtain ⟨rfl, _⟩ := Prod.mk.inj (hm.symm.trans hm')
    refine ⟨fun t key => ?_, fun u => ?_, fun t key => ?_⟩
    · rw [hagree.props, props?_enter]
      split_ifs with hkey
      · rfl
      · rw [props?_vacate, if_neg hkey]
    · rw [hagree.idxmap]
      exact ((mem_insertIdxmap hm).1 u).trans
        (by rw [hz.mem_idxmap_vacate, or_comm])
    · rw [ilkSize, hagree.ilkGroup]
      have hgroup : (((z.vacate r.2 p).setIdxmap m).enter
          ⟨⟨p, r.1⟩, .ADD, shouldTouch x p⟩).ilkGroup = r.2 := ilkGroup_vacate z r.2 p
      rw [hgroup, ilkSize_getIlkIdx hg]
  · cases (Prod.mk.inj (hm.symm.trans hm')).2

/-- A refused addition: the entity that had the name is gone, too. -/
theorem props?_addEntity_of_not_free (hfree : ¬ ∀ u ∈ p.uniq, u ∈ z.entityIdxmap →
      ∃ q, z.props? p.etype p.uuid = some q ∧ u ∈ q.uniq) :
    (z.addEntity x a).props? p.etype p.uuid = none := by
  obtain ⟨r, hg⟩ := Option.isSome_iff_exists.mp ((hz.getIlkIdx_isSome_iff x p).mpr hroom)
  rcases addEntity_cases hp hatt hg with ⟨m, hm, _⟩ | ⟨m, _, heq⟩
  · refine absurd (fun u hu hmem => ?_) hfree
    by_contra hno
    refine (mem_insertIdxmap hm).2 u hu ((hz.mem_idxmap_vacate r.2 p u).mpr ⟨hmem, ?_⟩)
    exact fun q hq huq => hno ⟨q, hq, huq⟩
  · rw [heq]
    exact (props?_vacate z r.2 p p.etype p.uuid).trans (if_pos ⟨rfl, rfl⟩)

end one

end effect

/-! ### When all additions are accepted -/

/-- What decides about additions: who is live, which uniqueness keys are taken and how many indexes
of a group are in use. -/
structure View where
  props? : EntityType → String → Option Props
  Taken : UniqKey × String → Prop
  ilkSize : EntityType → String → ℕ

/-- The view of a zoo. -/
def view (z : Zoo) : View := ⟨z.props?, (· ∈ z.entityIdxmap), z.ilkSize⟩

instance (z : Zoo) : DecidablePred z.view.Taken :=
  fun u => inferInstanceAs (Decidable (u ∈ z.entityIdxmap))

namespace View

variable (v : View)

/-- The addition would change what is live under its name. -/
def Changes (a : Args) : Prop := v.props? a.etype a.uuid ≠ a.construct

/-- The addition asks for an index. -/
def attempts (a : Args) : Bool :=
  (v.props? a.etype a.uuid).all (fun q => a.isSame q ≠ some true)

/-- One of the additions brings the key in. -/
def Claimed (as : List Args) (u : UniqKey × String) : Prop :=
  ∃ a ∈ as, v.Changes a ∧ ∃ p ∈ a.construct, u ∈ p.uniq

/-- One of the additions replaces the entity that has the key. -/
def Released (as : List Args) (u : UniqKey × String) : Prop :=
  ∃ a ∈ as, v.Changes a ∧ ∃ q ∈ v.props? a.etype a.uuid, u ∈ q.uniq

/-- How many of the additions take an index of the group. -/
def takes (as : List Args) (t : EntityType) (key : String) : ℕ :=
  as.countP (fun a => v.attempts a && a.construct.any (fun p => p.etype = t ∧ p.ilkKey = some key))

/-- After the additions `pre` the addition `a`, if it changes anything, finds its uniqueness keys
free and room in its index group. -/
def Accepts (pre : List Args) (a : Args) : Prop :=
  v.Changes a → ∀ p ∈ a.construct,
    (∀ u ∈ p.uniq, (v.Taken u → v.Released (pre ++ [a]) u) ∧ ¬ v.Claimed pre u) ∧
    ∀ key ∈ p.ilkKey, v.ilkSize p.etype key + v.takes pre p.etype key < 64

/-- All additions find what they need, one after another. -/
def AcceptsAll : List Args → List Args → Prop
  | _, [] => True
  | pre, a :: post => v.Accepts pre a ∧ AcceptsAll (pre ++ [a]) post

section decidable
variable [DecidablePred v.Taken]

instance (a : Args) : Decidable (v.Changes a) := inferInstanceAs (Decidable (_ ≠ _))
instance (as : List Args) (u : UniqKey × String) : Decidable (v.Claimed as u) :=
  inferInstanceAs (Decidable (∃ _ ∈ _, _))
instance (as : List Args) (u : UniqKey × String) : Decidable (v.Released as u) :=
  inferInstanceAs (Decidable (∃ _ ∈ _, _))
instance (pre : List Args) (a : Args) : Decidable (v.Accepts pre a) :=
  inferInstanceAs (Decidable (_ → _))

instance decidableAcceptsAll : (pre post : List Args) → Decidable (v.AcceptsAll pre post)
  | _, [] => isTrue trivial
  | pre, a :: post =>
      have := decidableAcceptsAll (pre ++ [a]) post
      inferInstanceAs (Decidable (_ ∧ _))

end decidable

theorem claimed_append {as : List Args} {a : Args} {u : UniqKey × String} :
    v.Claimed (as ++ [a]) u ↔
      v.Claimed as u ∨ v.Changes a ∧ ∃ p, a.construct = some p ∧ u ∈ p.uniq := by
  simp [Claimed, or_and_right, exists_or]

theorem released_append {as : List Args} {a : Args} {u : UniqKey × String} :
    v.Released (as ++ [a]) u ↔
      v.Released as u ∨ v.Changes a ∧ ∃ q, v.props? a.etype a.uuid = some q ∧ u ∈ q.uniq := by
  simp [Released, or_and_right, exists_or]

theorem takes_append {as : List Args} {a : Args} {p : Props} (hp : a.construct = some p)
    (t : EntityType) (key : String) : v.takes (as ++ [a]) t key = v.takes as t key +
      if v.attempts a ∧ t = p.etype ∧ p.ilkKey = some key then 1 else 0 := by
  simp only [takes, List.countP_append, List.countP_singleton, hp, Option.any_some,
    Bool.and_eq_true, decide_eq_true_eq, eq_comm (a := p.etype)]

end View

/-- The zoo `z'` is what the accepted additions `pre` make of a zoo with the view `v`. -/
structure After (v : View) (pre : List Args) (z' : Zoo) : Prop where
  indexed : Indexed z'
  added : ∀ a ∈ pre, z'.props? a.etype a.uuid = a.construct
  others : ∀ t key, (∀ a ∈ pre, (a.etype, a.uuid) ≠ (t, key)) → z'.props? t key = v.props? t key
  idxmap : ∀ u, u ∈ z'.entityIdxmap ↔ v.Taken u ∧ ¬ v.Released pre u ∨ v.Claimed pre u
  ilk : ∀ t key, z'.ilkSize t key = min 64 (v.ilkSize t key + v.takes pre t key)

theorem Indexed.after {z : Zoo} (h : Indexed z) : After z.view [] z where
  indexed := h
  added := nofun
  others _ _ _ := rfl
  idxmap u := by simp [View.Released, View.Claimed, view]
  ilk t key := by
    have hle := h.ilkSize_le t key
    simp only [View.takes, List.countP_nil, Nat.add_zero, view]
    omega

section step
variable {v : View} {pre : List Args} {z : Zoo} (h : After v pre z) {a : Args} {p : Props}
include h

theorem After.room_iff (p : Props) : z.Room p ↔
    ∀ key, p.ilkKey = some key → v.ilkSize p.etype key + v.takes pre p.etype key < 64 := by
  unfold Room
  refine forall_congr' fun key => forall_congr' fun _ => ?_
  rw [h.ilk]
  omega

variable (hnew : ∀ b ∈ pre, (b.etype, b.uuid) ≠ (a.etype, a.uuid))
include hnew

theorem After.props?_self : z.props? a.etype a.uuid = v.props? a.etype a.uuid :=
  h.others a.etype a.uuid hnew

theorem After.attempts_eq : z.attempts a = v.attempts a := by
  rw [attempts, View.attempts, h.props?_self hnew]

/-- A key that an earlier addition has brought in is not one of the entity that `a` replaces: both
are live. -/
theorem After.not_mem_old {u : UniqKey × String} (hcl : v.Claimed pre u) {q : Props}
    (hq : v.props? a.etype a.uuid = some q) : u ∉ q.uniq := by
  obtain ⟨b, hb, _, q', hq', hu⟩ := hcl
  rw [← h.props?_self hnew] at hq
  obtain ⟨e, he, rfl⟩ := Option.map_eq_some_iff.mp hq
  obtain ⟨e', he', rfl⟩ := Option.map_eq_some_iff.mp ((h.added b hb).trans hq')
  exact h.indexed.apart _ _ e' _ _ e he' he (hnew b hb) u hu

variable (hp : a.construct = some p)
include hp

/-- The keys are free in the zoo iff they are free in the view and not brought in before. -/
theorem After.free_iff (hch : v.Changes a) :
    (∀ u ∈ p.uniq, u ∈ z.entityIdxmap → ∃ q, z.props? p.etype p.uuid = some q ∧ u ∈ q.uniq) ↔
      ∀ u ∈ p.uniq, (v.Taken u → v.Released (pre ++ [a]) u) ∧ ¬ v.Claimed pre u := by
  obtain ⟨het, huu⟩ := Args.construct_key hp
  simp only [het, huu, h.props?_self hnew]
  constructor
  · intro hfree u hu
    have hcl : ¬ v.Claimed pre u := by
      intro hcl
      obtain ⟨q, hq, huq⟩ := hfree u hu ((h.idxmap u).mpr (Or.inr hcl))
      exact h.not_mem_old hnew hcl hq huq
    refine ⟨fun htaken => v.released_append.mpr ?_, hcl⟩
    by_cases hrel : v.Released pre u
    · exact Or.inl hrel
    · exact Or.inr ⟨hch, hfree u hu ((h.idxmap u).mpr (Or.inl ⟨htaken, hrel⟩))⟩
  · intro hfree u hu hmem
    obtain ⟨hrel, hcl⟩ := hfree u hu
    rcases (h.idxmap u).mp hmem with ⟨htaken, hnot⟩ | hcl'
    · rcases v.released_append.mp (hrel htaken) with hr | ⟨_, hq⟩
      · exact absurd hr hnot
      · exact hq
    · exact absurd hcl' hcl

theorem After.attempts_of_changes (hch : v.Changes a) : v.attempts a := by
  unfold View.attempts
  cases hq : v.props? a.etype a.uuid with
  | none => rfl
  | some q =>
      obtain ⟨e, he, rfl⟩ := Option.map_eq_some_iff.mp ((h.props?_self hnew).trans hq)
      have hne : a.isSame e.row.props ≠ some true := by
        intro hsame
        rw [View.Changes, hq, hp] at hch
        exact hch (congrArg some (Args.eq_of_isSame hp (h.indexed.valid _ _ e he) hsame))
      simpa using hne

/-- An addition that leaves the zoo alone and changes nothing in the view. -/
theorem After.step_same (hch : ¬ v.Changes a)
    (hfull : v.attempts a → ¬ z.Room p) : After v (pre ++ [a]) z where
  indexed := h.indexed
  added := by
    intro b hb
    rcases List.mem_append.mp hb with hb | hb
    · exact h.added b hb
    · rw [List.mem_singleton.mp hb, h.props?_self hnew]
      exact not_not.mp hch
  others t key hno := h.others t key (fun b hb => hno b (List.mem_append_left _ hb))
  idxmap u := by
    rw [h.idxmap, v.claimed_append, v.released_append]
    simp only [hch, false_and, or_false]
  ilk t key := by
    rw [h.ilk, v.takes_append hp]
    split_ifs with htake
    · -- the group is full
      obtain ⟨hatt, rfl, hkey⟩ := htake
      have hroom := mt (h.room_iff p).mpr (hfull hatt)
      have hge : ¬ v.ilkSize p.etype key + v.takes pre p.etype key < 64 := by
        intro hlt
        refine hroom fun key' hkey' => ?_
        obtain rfl := Option.some.inj (hkey.symm.trans hkey')
        exact hlt
      omega
    · rw [Nat.add_zero]

/-- An addition that is accepted, with what becomes of the uniqueness keys. -/
theorem After.step_added {x : Extra} (hatt : v.attempts a) (hroom : z.Room p)
    (hfree : ∀ u ∈ p.uniq, u ∈ z.entityIdxmap →
      ∃ q, z.props? p.etype p.uuid = some q ∧ u ∈ q.uniq)
    (hkeys : ∀ u, (u ∈ p.uniq ∨
        u ∈ z.entityIdxmap ∧ ∀ q, v.props? a.etype a.uuid = some q → u ∉ q.uniq) ↔
      v.Taken u ∧ ¬ v.Released (pre ++ [a]) u ∨ v.Claimed (pre ++ [a]) u) :
    After v (pre ++ [a]) (z.addEntity x a) := by
  obtain ⟨het, huu⟩ := Args.construct_key hp
  obtain ⟨hprops, hidx, hsize⟩ := addEntity_of_free hp h.indexed
    ((h.attempts_eq hnew).trans hatt) hroom hfree
  simp only [het, huu, h.props?_self hnew] at hprops hidx
  refine ⟨(indexed_invariant x).addEntity h.indexed a, fun b hb => ?_, fun t key hno => ?_,
    fun u => (hidx u).trans (hkeys u), fun t key => ?_⟩
  · rcases List.mem_append.mp hb with hb | hb
    · have hne := hnew b hb
      rw [hprops, if_neg (fun heq => hne (Prod.ext heq.1 heq.2))]
      exact h.added b hb
    · rw [List.mem_singleton.mp hb, hprops, if_pos ⟨rfl, rfl⟩, hp]
  · have hne := hno a (List.mem_append_right _ List.mem_cons_self)
    rw [hprops, if_neg (fun heq => hne (Prod.ext heq.1.symm heq.2.symm))]
    exact h.others t key (fun b hb => hno b (List.mem_append_left _ hb))
  · rw [hsize, h.ilk, v.takes_append hp]
    by_cases htake : t = p.etype ∧ p.ilkKey = some key
    · obtain ⟨rfl, hkey⟩ := htake
      have hlt := (h.room_iff p).mp hroom key hkey
      rw [if_pos ⟨rfl, hkey⟩, if_pos ⟨hatt, rfl, hkey⟩]
      omega
    · rw [if_neg htake, if_neg (fun hall => htake hall.2), Nat.add_zero, Nat.add_zero]

/-- An addition that changes nothing or is accepted. -/
theorem After.step {x : Extra} (hacc : v.Accepts pre a) :
    After v (pre ++ [a]) (z.addEntity x a) := by
  have hself := h.props?_self hnew
  by_cases hch : v.Changes a
  · obtain ⟨hkeys, hilk⟩ := hacc hch p hp
    refine h.step_added hnew hp (h.attempts_of_changes hnew hp hch) ((h.room_iff p).mpr hilk)
      ((h.free_iff hnew hp hch).mpr hkeys) fun u => ?_
    rw [h.idxmap, v.claimed_append, v.released_append]
    have hold : v.Claimed pre u → ∀ q, v.props? a.etype a.uuid = some q → u ∉ q.uniq :=
      fun hcl q hq => h.not_mem_old hnew hcl hq
    have hnone : (∀ q, v.props? a.etype a.uuid = some q → u ∉ q.uniq) ↔
        ¬ ∃ q, v.props? a.etype a.uuid = some q ∧ u ∈ q.uniq := by simp
    rw [hnone] at hold ⊢
    simp only [hch, true_and, hp, Option.some.injEq, exists_eq_left']
    generalize (∃ q, v.props? a.etype a.uuid = some q ∧ u ∈ q.uniq) = old at hold ⊢
    clear hnone hkeys hilk
    tauto
  · have hq : v.props? a.etype a.uuid = some p := (not_not.mp hch).trans hp
    have hall : v.attempts a → z.Room p → After v (pre ++ [a]) (z.addEntity x a) := by
      intro hatt hroom
      obtain ⟨het, huu⟩ := Args.construct_key hp
      refine h.step_added hnew hp hatt hroom (fun u hu _ => ⟨p, ?_, hu⟩) fun u => ?_
      · rw [het, huu, hself, hq]
      · obtain ⟨e, he, rfl⟩ := Option.map_eq_some_iff.mp (hself.trans hq)
        rw [v.claimed_append, v.released_append]
        simp only [hch, false_and, or_false, ← h.idxmap, hq, Option.some.injEq, forall_eq']
        have hres := h.indexed.reserved _ _ e he u
        rw [Entity.uniq] at hres
        tauto
    cases hatt : v.attempts a with
    | false =>
        rw [addEntity_of_not_attempts ((h.attempts_eq hnew).trans hatt)]
        exact h.step_same hnew hp hch (by simp [hatt])
    | true =>
        by_cases hroom : z.Room p
        · exact hall hatt hroom
        · rw [addEntity_of_no_room hp h.indexed hroom]
          exact h.step_same hnew hp hch (fun _ => hroom)

/-- An addition that would change something and is not accepted. -/
theorem After.not_live {x : Extra} (hacc : ¬ v.Accepts pre a) :
    (z.addEntity x a).props? a.etype a.uuid ≠ a.construct := by
  obtain ⟨hch, hacc⟩ := Classical.not_imp.mp hacc
  by_cases hroom : z.Room p
  · have hkeys : ¬ ∀ u ∈ p.uniq, (v.Taken u → v.Released (pre ++ [a]) u) ∧ ¬ v.Claimed pre u := by
      refine fun hkeys => hacc fun p' hp' => ?_
      obtain rfl := Option.some.inj (hp.symm.trans hp')
      exact ⟨hkeys, (h.room_iff p).mp hroom⟩
    have hgone : (z.addEntity x a).props? p.etype p.uuid = none := props?_addEntity_of_not_free hp
      h.indexed ((h.attempts_eq hnew).trans (h.attempts_of_changes hnew hp hch)) hroom
      (mt (h.free_iff hnew hp hch).mp hkeys)
    obtain ⟨het, huu⟩ := Args.construct_key hp
    rw [het, huu] at hgone
    rw [hgone, hp]
    nofun
  · rw [addEntity_of_no_room hp h.indexed hroom, h.props?_self hnew]
    exact hch

end step

/-! ### A list of additions -/

/-- The additions, one after another. -/
def addAll (x : Extra) (as : List Args) (z : Zoo) : Zoo := as.foldl (fun z a => z.addEntity x a) z

section addAll
variable {x : Extra} {as : List Args} (hload : ∀ a ∈ as, a.construct.isSome)
include hload

/-- Names that are not in the list keep their entities. -/
theorem props?_addAll_of_not_mem {t : EntityType} {key : String}
    (hno : ∀ a ∈ as, (a.etype, a.uuid) ≠ (t, key)) (z : Zoo) :
    (z.addAll x as).props? t key = z.props? t key := by
  induction as generalizing z with
  | nil => rfl
  | cons a as ih =>
      obtain ⟨p, hp⟩ := Option.isSome_iff_exists.mp (hload a List.mem_cons_self)
      obtain ⟨het, huu⟩ := Args.construct_key hp
      have hne := hno a List.mem_cons_self
      rw [addAll, List.foldl_cons]
      refine (ih (fun b hb => hload b (List.mem_cons_of_mem _ hb))
        (fun b hb => hno b (List.mem_cons_of_mem _ hb)) _).trans
          (props?_addEntity_of_ne hp fun heq => hne (Prod.ext ?_ ?_))
      · exact het.symm.trans heq.1.symm
      · exact huu.symm.trans heq.2.symm

theorem After.addAll_live_iff {v : View} {pre : List Args} {z : Zoo} (h : After v pre z)
    (hnd : ((pre ++ as).map (fun a => (a.etype, a.uuid))).Nodup) :
    (∀ a ∈ as, (z.addAll x as).props? a.etype a.uuid = a.construct) ↔ v.AcceptsAll pre as := by
  induction as generalizing pre z with
  | nil => exact ⟨fun _ => trivial, fun _ => nofun⟩
  | cons a as ih =>
      obtain ⟨p, hp⟩ := Option.isSome_iff_exists.mp (hload a List.mem_cons_self)
      have hload' : ∀ b ∈ as, b.construct.isSome := fun b hb => hload b (List.mem_cons_of_mem _ hb)
      rw [List.map_append, List.map_cons, List.nodup_append] at hnd
      obtain ⟨hpre, hpost, hdisj⟩ := hnd
      have hnew : ∀ b ∈ pre, (b.etype, b.uuid) ≠ (a.etype, a.uuid) :=
        fun b hb => hdisj _ (List.mem_map_of_mem hb) _ List.mem_cons_self
      have hlater : ∀ b ∈ as, (b.etype, b.uuid) ≠ (a.etype, a.uuid) := fun b hb heq =>
        (List.nodup_cons.mp hpost).1 (heq ▸ List.mem_map_of_mem (f := fun a => (a.etype, a.uuid))
          hb)
      have hself : (z.addAll x (a :: as)).props? a.etype a.uuid =
          (z.addEntity x a).props? a.etype a.uuid := props?_addAll_of_not_mem hload' hlater _
      rw [View.AcceptsAll, List.forall_mem_cons]
      by_cases hacc : v.Accepts pre a
      · have hnext := h.step (x := x) hnew hp hacc
        have hnd' : (((pre ++ [a]) ++ as).map (fun a => (a.etype, a.uuid))).Nodup := by
          rw [List.append_assoc, List.singleton_append, List.map_append, List.map_cons,
            List.nodup_append]
          exact ⟨hpre, hpost, hdisj⟩
        have hlive : (z.addAll x (a :: as)).props? a.etype a.uuid = a.construct :=
          hself.trans (hnext.added a (List.mem_append_right _ List.mem_cons_self))
        simp only [hlive, hacc, true_and]
        exact ih hload' hnext hnd'
      · simp only [hacc, false_and, iff_false, not_and]
        exact fun hlive => absurd (hself.symm.trans hlive) (h.not_live hnew hp hacc)

/-- **Additions in a row**: every entity of the list is live at the end iff every addition that
changes something finds its uniqueness keys free and room in its index group. -/
theorem additions_live_iff (hnd : (as.map (fun a => (a.etype, a.uuid))).Nodup) {z : Zoo}
    (hz : Indexed z) :
    (∀ a ∈ as, (z.addAll x as).props? a.etype a.uuid = a.construct) ↔ z.view.AcceptsAll [] as :=
  hz.after.addAll_live_iff hload hnd

end addAll

end Zoo

end TupleNet
