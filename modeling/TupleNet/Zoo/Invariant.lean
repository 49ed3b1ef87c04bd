import TupleNet.Zoo.Zoo

/-! # Invariants of the zoo

`Reachable` zoos are those that additions, moves into the sink, touches and sweeps make of the empty
one.  `Invariant` is the rule for properties of all reachable zoos.  `Indexed` says that every live
entity stands under its own type and name and holds all its uniqueness keys, which no other live
entity has; every operation keeps it. -/

namespace TupleNet

namespace Zoo

/-! ### What the operations do to the live entities -/

section entity?
variable (z : Zoo)

theorem entity?_moveEntity2sink (t t' : EntityType) (key key' : String) :
    (z.moveEntity2sink t key).entity? t' key' =
      if t' = t ∧ key' = key then none else z.entity? t' key' := by
  unfold moveEntity2sink
  cases he : z.entity? t key with
  | none =>
      split_ifs with h
      · rw [h.1, h.2, he]
      · rfl
  | some e =>
      by_cases ht : t' = t
      · subst ht
        simp only [entity?, Function.update_self, Dict.lookup_erase_eq, true_and]
      · simp only [entity?, Function.update_of_ne ht, ht, false_and, if_false]

theorem entity?_enter (e : Entity) (t : EntityType) (key : String) :
    (z.enter e).entity? t key =
      if t = e.etype ∧ key = e.uuid then some e else z.entity? t key := by
  by_cases ht : t = e.etype
  · subst ht
    simp only [entity?, enter, Function.update_self, Dict.lookup_insert_eq, true_and]
  · simp only [entity?, enter, Function.update_of_ne ht, ht, false_and, if_false]

theorem entity?_touch (t t' : EntityType) (key key' : String) :
    (z.touch t key).entity? t' key' =
      if t' = t ∧ key' = key then (z.entity? t key).map Entity.touch else z.entity? t' key' := by
  unfold touch
  cases he : z.entity? t key with
  | none =>
      split_ifs with h
      · rw [h.1, h.2, he]; rfl
      · rfl
  | some e =>
      dsimp only
      by_cases htouched : e.touched
      · rw [if_pos htouched]
        split_ifs with h
        · rw [h.1, h.2, he, Option.map_some, Entity.touch, if_pos htouched]
        · rfl
      · rw [if_neg htouched, Option.map_some]
        by_cases ht : t' = t
        · subst ht
          simp only [entity?, Function.update_self, Dict.lookup_insert_eq, true_and]
        · simp only [entity?, Function.update_of_ne ht, ht, false_and, if_false]

theorem foldl_eliminate_entitySet (l : List Entity) :
    (l.foldl (fun z e => z.eliminate e) z).entitySet = z.entitySet := by
  induction l generalizing z with
  | nil => rfl
  | cons e l ih => exact ih _

theorem entity?_sweepZoo (t : EntityType) (key : String) :
    z.sweepZoo.entity? t key = (z.entity? t key).map swept := by
  simp only [sweepZoo, sweepEntitySet, entity?, Dict.lookup_mapVal, cleanSink,
    foldl_eliminate_entitySet]

end entity?

theorem touch_row (e : Entity) : e.touch.row = e.row := by
  unfold Entity.touch
  split_ifs <;> rfl

/-- A touch leaves an entity as it is, or touches it. -/
theorem entity?_of_touch {z : Zoo} {t t' : EntityType} {key key' : String} {e : Entity}
    (h : (z.touch t' key').entity? t key = some e) :
    ∃ e₀, z.entity? t key = some e₀ ∧ (e = e₀ ∨ e = e₀.touch) := by
  rw [entity?_touch] at h
  split_ifs at h with hkey
  · obtain ⟨e₀, he₀, rfl⟩ := Option.map_eq_some_iff.mp h
    exact ⟨e₀, by rw [hkey.1, hkey.2, he₀], Or.inr rfl⟩
  · exact ⟨e, h, Or.inl rfl⟩

theorem entity?_of_touchGateway {z : Zoo} {p : Props} {t : EntityType} {key : String}
    {e : Entity} (h : (z.touchGateway p).entity? t key = some e) :
    ∃ e₀, z.entity? t key = some e₀ ∧ (e = e₀ ∨ e = e₀.touch) := by
  unfold touchGateway at h
  split at h
  · split at h
    · exact ⟨e, h, Or.inl rfl⟩
    · exact entity?_of_touch h
  · split_ifs at h
    · exact entity?_of_touch h
    · exact ⟨e, h, Or.inl rfl⟩
  · exact ⟨e, h, Or.inl rfl⟩

/-! ### The uniqueness keys -/

theorem mem_insertIdxmap {us : List (UniqKey × String)} {m m' : Idxmap}
    (h : insertIdxmap us m = (m', true)) :
    (∀ u, u ∈ m' ↔ u ∈ m ∨ u ∈ us) ∧ ∀ u ∈ us, u ∉ m := by
  induction us generalizing m with
  | nil =>
      obtain ⟨rfl, _⟩ := Prod.mk.inj h
      simp
  | cons v us ih =>
      rw [insertIdxmap] at h
      split_ifs at h with hv
      · cases h
      · obtain ⟨h1, h2⟩ := ih h
        refine ⟨fun u => ?_, fun u hu => ?_⟩
        · rw [h1, Finset.mem_insert, List.mem_cons]
          tauto
        · rcases List.mem_cons.mp hu with rfl | hu
          · exact hv
          · exact fun hm => h2 u hu (Finset.mem_insert_of_mem hm)

theorem subset_insertIdxmap {us : List (UniqKey × String)} {m m' : Idxmap} {ok : Bool}
    (h : insertIdxmap us m = (m', ok)) : m ⊆ m' := by
  induction us generalizing m with
  | nil =>
      obtain ⟨rfl, _⟩ := Prod.mk.inj h
      exact Finset.Subset.refl m
  | cons v us ih =>
      rw [insertIdxmap] at h
      split_ifs at h with hv
      · obtain ⟨rfl, _⟩ := Prod.mk.inj h
        exact Finset.Subset.refl m
      · exact (Finset.subset_insert v m).trans (ih h)

/-- Keys that are free and different are accepted. -/
theorem insertIdxmap_of_free {us : List (UniqKey × String)} (hnd : us.Nodup) {m : Idxmap}
    (h : ∀ u ∈ us, u ∉ m) : ∃ m', insertIdxmap us m = (m', true) := by
  induction us generalizing m with
  | nil => exact ⟨m, rfl⟩
  | cons v us ih =>
      obtain ⟨hv, hnd⟩ := List.nodup_cons.mp hnd
      rw [insertIdxmap, if_neg (h v List.mem_cons_self)]
      refine ih hnd fun u hu hm => ?_
      rcases Finset.mem_insert.mp hm with rfl | hm
      · exact hv hu
      · exact h u (List.mem_cons_of_mem _ hu) hm

theorem mem_delIdxmap {us : List (UniqKey × String)} (hnd : us.Nodup) {m : Idxmap}
    (h : ∀ u ∈ us, u ∈ m) (u : UniqKey × String) : u ∈ delIdxmap us m ↔ u ∈ m ∧ u ∉ us := by
  induction us generalizing m with
  | nil => simp [delIdxmap]
  | cons v us ih =>
      obtain ⟨hv, hnd⟩ := List.nodup_cons.mp hnd
      rw [delIdxmap, if_pos (h v List.mem_cons_self), ih hnd ?_, Finset.mem_erase,
        List.mem_cons, not_or]
      · tauto
      · intro w hw
        exact Finset.mem_erase.mpr ⟨fun heq => hv (heq ▸ hw), h w (List.mem_cons_of_mem _ hw)⟩

/-! ### Reachable zoos -/

/-- What the operations make of the empty zoo. -/
inductive Reachable (x : Extra) : Zoo → Prop
  | empty : Reachable x empty
  | addEntity {z : Zoo} (a : Args) : Reachable x z → Reachable x (z.addEntity x a)
  | moveEntity2sink {z : Zoo} (t : EntityType) (key : String) :
      Reachable x z → Reachable x (z.moveEntity2sink t key)
  | touch {z : Zoo} (t : EntityType) (key : String) : Reachable x z → Reachable x (z.touch t key)
  | sweepZoo {z : Zoo} : Reachable x z → Reachable x z.sweepZoo

/-- An index has been handed out and the entity that had the name is in the sink. -/
def vacate (z : Zoo) (g : IlkGroup) (p : Props) : Zoo :=
  (z.setIlkGroup g).moveEntity2sink p.etype p.uuid

/-- The end of an accepted addition. -/
def takeIn (x : Extra) (p : Props) (idx : ℕ) (m : Idxmap) (z : Zoo) : Zoo :=
  let z := (z.setIdxmap m).enter ⟨⟨p, idx⟩, .ADD, shouldTouch x p⟩
  if x.onDemand then z.touchGateway p else z

/-- An entity goes into the zoo if its uniqueness keys are free. -/
theorem addEntityInZoo_eq (e : Entity) (z : Zoo) : addEntityInZoo e z =
    if (insertIdxmap e.uniq (z.moveEntity2sink e.etype e.uuid).entityIdxmap).2 then
      (((z.moveEntity2sink e.etype e.uuid).setIdxmap
        (insertIdxmap e.uniq (z.moveEntity2sink e.etype e.uuid).entityIdxmap).1).enter e, true)
    else ((z.moveEntity2sink e.etype e.uuid).setIdxmap
      (insertIdxmap e.uniq (z.moveEntity2sink e.etype e.uuid).entityIdxmap).1, false) := by
  unfold addEntityInZoo
  dsimp only
  cases insertIdxmap e.uniq (z.moveEntity2sink e.etype e.uuid).entityIdxmap with
  | mk m ok => cases ok <;> rfl

/-- An entity that has been built is refused or taken in. -/
theorem addEntity_of_built {x : Extra} {a : Args} {z : Zoo} {p : Props} {idx : ℕ} {g : IlkGroup}
    (htries : (z.entity? a.etype a.uuid).elim (some false) (fun e => a.isSame e.row.props) =
      some false)
    (hp : a.construct = some p) (hg : getIlkIdx x p z.ilkGroup = some (idx, g)) :
    z.addEntity x a = if (insertIdxmap p.uniq (z.vacate g p).entityIdxmap).2 then
        (z.vacate g p).takeIn x p idx (insertIdxmap p.uniq (z.vacate g p).entityIdxmap).1
      else (z.vacate g p).setIdxmap (insertIdxmap p.uniq (z.vacate g p).entityIdxmap).1 := by
  have hzoo : addEntityInZoo ⟨⟨p, idx⟩, .ADD, shouldTouch x p⟩ (z.setIlkGroup g) =
      if (insertIdxmap p.uniq (z.vacate g p).entityIdxmap).2 then
        (((z.vacate g p).setIdxmap (insertIdxmap p.uniq (z.vacate g p).entityIdxmap).1).enter
          ⟨⟨p, idx⟩, .ADD, shouldTouch x p⟩, true)
      else ((z.vacate g p).setIdxmap (insertIdxmap p.uniq (z.vacate g p).entityIdxmap).1, false) :=
    addEntityInZoo_eq _ _
  simp only [addEntity, htries, hp, hg]
  rw [hzoo]
  by_cases hfree : (insertIdxmap p.uniq (z.vacate g p).entityIdxmap).2
  · rw [if_pos hfree, if_pos hfree]
    rfl
  · rw [if_neg hfree, if_neg hfree]

/-- What `add_entity` can do: nothing, or hand out an index, vacate the name and then refuse or
take in the new entity. -/
theorem addEntity_outcome (x : Extra) (a : Args) (z : Zoo) : z.addEntity x a = z ∨
    ∃ p idx g, a.construct = some p ∧ getIlkIdx x p z.ilkGroup = some (idx, g) ∧
      ((∃ m, insertIdxmap p.uniq (z.vacate g p).entityIdxmap = (m, false) ∧
          z.addEntity x a = (z.vacate g p).setIdxmap m) ∨
        ∃ m, insertIdxmap p.uniq (z.vacate g p).entityIdxmap = (m, true) ∧
          z.addEntity x a = (z.vacate g p).takeIn x p idx m) := by
  by_cases htries : (z.entity? a.etype a.uuid).elim (some false)
      (fun e => a.isSame e.row.props) = some false
  · cases hp : a.construct with
    | none => exact Or.inl (by simp only [addEntity, htries, hp])
    | some p =>
        cases hg : getIlkIdx x p z.ilkGroup with
        | none => exact Or.inl (by simp only [addEntity, htries, hp, hg])
        | some ig =>
            obtain ⟨idx, g⟩ := ig
            have hbuilt := addEntity_of_built htries hp hg
            refine Or.inr ⟨p, idx, g, rfl, hg, ?_⟩
            by_cases hfree : (insertIdxmap p.uniq (z.vacate g p).entityIdxmap).2
            · rw [if_pos hfree] at hbuilt
              exact Or.inr ⟨_, Prod.ext rfl hfree, hbuilt⟩
            · rw [if_neg hfree] at hbuilt
              exact Or.inl ⟨_, Prod.ext rfl (Bool.eq_false_iff.mpr hfree), hbuilt⟩
  · refine Or.inl ?_
    unfold addEntity
    split
    · next h => exact absurd h htries
    · rfl

theorem entity?_vacate (z : Zoo) (g : IlkGroup) (p : Props) :
    (z.vacate g p).entity? p.etype p.uuid = none := by
  rw [vacate, entity?_moveEntity2sink, if_pos ⟨rfl, rfl⟩]

/-- What has to be shown of a property that additions, moves and touches keep: `add_entity` is taken
apart into the index that is handed out, the move of the entity that had the name, and either the
keys inserted before a refusal or the entry of the new entity. -/
structure Preserved (x : Extra) (I : Zoo → Prop) : Prop where
  ilk : ∀ z p idx g, I z → getIlkIdx x p z.ilkGroup = some (idx, g) → I (z.setIlkGroup g)
  move : ∀ z t key, I z → I (z.moveEntity2sink t key)
  refuse : ∀ z us m, I z → insertIdxmap us z.entityIdxmap = (m, false) → I (z.setIdxmap m)
  enter : ∀ z e m, I z → z.entity? e.etype e.uuid = none → e.row.props.Valid → e.state = .ADD →
    insertIdxmap e.uniq z.entityIdxmap = (m, true) → I ((z.setIdxmap m).enter e)
  touch : ∀ z t key, I z → I (z.touch t key)

theorem Preserved.touchGateway {x : Extra} {I : Zoo → Prop} (h : Preserved x I) {z : Zoo}
    (hz : I z) (p : Props) : I (z.touchGateway p) := by
  unfold Zoo.touchGateway
  split
  · split
    · exact hz
    · exact h.touch z _ _ hz
  · split_ifs
    · exact h.touch z _ _ hz
    · exact hz
  · exact hz

theorem Preserved.addEntity {x : Extra} {I : Zoo → Prop} (h : Preserved x I) {z : Zoo} (hz : I z)
    (a : Args) : I (z.addEntity x a) := by
  rcases addEntity_outcome x a z with heq | ⟨p, idx, g, hp, hg, ⟨m, hm, heq⟩ | ⟨m, hm, heq⟩⟩
  · rwa [heq]
  · rw [heq]
    exact h.refuse _ _ m (h.move _ p.etype p.uuid (h.ilk z p idx g hz hg)) hm
  · have hmoved : I (z.vacate g p) := h.move _ p.etype p.uuid (h.ilk z p idx g hz hg)
    have hin := h.enter _ ⟨⟨p, idx⟩, .ADD, shouldTouch x p⟩ m hmoved (entity?_vacate z g p)
      (Args.construct_valid hp) rfl hm
    rw [heq, takeIn]
    split_ifs
    · exact h.touchGateway hin p
    · exact hin

/-- What has to be shown of a property of all reachable zoos. -/
structure Invariant (x : Extra) (I : Zoo → Prop) : Prop where
  empty : I empty
  ilk : ∀ z p idx g, I z → getIlkIdx x p z.ilkGroup = some (idx, g) → I (z.setIlkGroup g)
  move : ∀ z t key, I z → I (z.moveEntity2sink t key)
  refuse : ∀ z us m, I z → insertIdxmap us z.entityIdxmap = (m, false) → I (z.setIdxmap m)
  enter : ∀ z e m, I z → z.entity? e.etype e.uuid = none → e.row.props.Valid → e.state = .ADD →
    insertIdxmap e.uniq z.entityIdxmap = (m, true) → I ((z.setIdxmap m).enter e)
  touch : ∀ z t key, I z → I (z.touch t key)
  sweep : ∀ z, I z → I z.sweepZoo

theorem Invariant.preserved {x : Extra} {I : Zoo → Prop} (h : Invariant x I) : Preserved x I :=
  ⟨h.ilk, h.move, h.refuse, h.enter, h.touch⟩

theorem Invariant.addEntity {x : Extra} {I : Zoo → Prop} (h : Invariant x I) {z : Zoo} (hz : I z)
    (a : Args) : I (z.addEntity x a) := h.preserved.addEntity hz a

theorem Invariant.of_reachable {x : Extra} {I : Zoo → Prop} (h : Invariant x I) {z : Zoo}
    (hz : Reachable x z) : I z := by
  induction hz with
  | empty => exact h.empty
  | addEntity a _ ih => exact h.addEntity ih a
  | moveEntity2sink t key _ ih => exact h.move _ t key ih
  | touch t key _ ih => exact h.touch _ t key ih
  | sweepZoo _ ih => exact h.sweep _ ih

/-! ### The index of uniqueness keys -/

/-- The live entities and the index belong together. -/
structure Indexed (z : Zoo) : Prop where
  keyed : ∀ t key e, z.entity? t key = some e → e.etype = t ∧ e.uuid = key
  valid : ∀ t key e, z.entity? t key = some e → e.row.props.Valid
  reserved : ∀ t key e, z.entity? t key = some e → ∀ u ∈ e.uniq, u ∈ z.entityIdxmap
  apart : ∀ t key e t' key' e', z.entity? t key = some e → z.entity? t' key' = some e' →
    (t, key) ≠ (t', key') → ∀ u ∈ e.uniq, u ∉ e'.uniq
  ilk : ∀ t key s, z.ilkGroup t key = some s → s ⊆ wholeIdxSet

/-- A touch or a sweep of single entities keeps the index right. -/
theorem Indexed.of_map {z z' : Zoo} (h : Indexed z)
    (hmap : ∀ t key e', z'.entity? t key = some e' →
      ∃ e, z.entity? t key = some e ∧ e'.row = e.row)
    (hidx : z'.entityIdxmap = z.entityIdxmap)
    (hilk : ∀ t key s, z'.ilkGroup t key = some s → s ⊆ wholeIdxSet) : Indexed z' where
  keyed := by
    intro t key e' he'
    obtain ⟨e, he, hrow⟩ := hmap t key e' he'
    have hk := h.keyed t key e he
    rwa [Entity.etype, Entity.uuid, ← hrow] at hk
  valid := by
    intro t key e' he'
    obtain ⟨e, he, hrow⟩ := hmap t key e' he'
    rw [hrow]
    exact h.valid t key e he
  reserved := by
    intro t key e' he' u hu
    obtain ⟨e, he, hrow⟩ := hmap t key e' he'
    rw [Entity.uniq, hrow] at hu
    rw [hidx]
    exact h.reserved t key e he u hu
  apart := by
    intro t key e₁ t' key' e₂ h₁ h₂ hne u hu
    obtain ⟨e, he, hrow⟩ := hmap t key e₁ h₁
    obtain ⟨e', he', hrow'⟩ := hmap t' key' e₂ h₂
    rw [Entity.uniq, hrow] at hu
    rw [Entity.uniq, hrow']
    exact h.apart t key e t' key' e' he he' hne u hu
  ilk := hilk

theorem entity?_empty (t : EntityType) (key : String) : empty.entity? t key = none :=
  AList.lookup_empty key

theorem indexed_empty : Indexed empty where
  keyed t key e h := by rw [entity?_empty] at h; cases h
  valid t key e h := by rw [entity?_empty] at h; cases h
  reserved t key e h := by rw [entity?_empty] at h; cases h
  apart t key e _ _ _ h := by rw [entity?_empty] at h; cases h
  ilk _ _ _ h := by cases h

/-- Indexes stay below `64`. -/
theorem getIlkIdx_bound {x : Extra} {p : Props} {idx : ℕ} {g g' : IlkGroup}
    (h : ∀ t key s, g t key = some s → s ⊆ wholeIdxSet)
    (hg : getIlkIdx x p g = some (idx, g')) (t : EntityType) (key : String) (s : Finset ℕ)
    (hs : g' t key = some s) : s ⊆ wholeIdxSet := by
  unfold getIlkIdx at hg
  split at hg
  · obtain ⟨_, rfl⟩ := Prod.mk.inj (Option.some.inj hg)
    exact h t key s hs
  · split at hg
    · obtain ⟨_, rfl⟩ := Prod.mk.inj (Option.some.inj hg)
      simp only [setGroup] at hs
      split_ifs at hs
      · rw [← Option.some.inj hs]
        decide
      · exact h t key s hs
    · next occupied hocc =>
        simp only at hg
        split_ifs at hg with hfree
        obtain ⟨_, rfl⟩ := Prod.mk.inj (Option.some.inj hg)
        simp only [setGroup] at hs
        split_ifs at hs
        · rw [← Option.some.inj hs]
          refine Finset.insert_subset ?_ (h _ _ _ hocc)
          exact (Finset.mem_sdiff.mp (x.popIdx_mem _ (Finset.nonempty_iff_ne_empty.mpr hfree))).1
        · exact h t key s hs

theorem Indexed.setIlk {x : Extra} {z : Zoo} (h : Indexed z) {p : Props} {idx : ℕ} {g : IlkGroup}
    (hg : getIlkIdx x p z.ilkGroup = some (idx, g)) : Indexed (z.setIlkGroup g) :=
  ⟨h.keyed, h.valid, h.reserved, h.apart, getIlkIdx_bound h.ilk hg⟩

/-- What is left of the index after a move. -/
theorem Indexed.mem_idxmap_move {z : Zoo} (h : Indexed z) {t : EntityType} {key : String}
    {e : Entity} (he : z.entity? t key = some e) (u : UniqKey × String) :
    u ∈ (z.moveEntity2sink t key).entityIdxmap ↔ u ∈ z.entityIdxmap ∧ u ∉ e.uniq := by
  have hidx : (z.moveEntity2sink t key).entityIdxmap = delIdxmap e.uniq z.entityIdxmap := by
    simp only [moveEntity2sink, he]
  have hnd : e.uniq.Nodup := Props.uniq_nodup _
  rw [hidx, mem_delIdxmap hnd (h.reserved t key e he)]

theorem ilkGroup_move (z : Zoo) (t : EntityType) (key : String) :
    (z.moveEntity2sink t key).ilkGroup = z.ilkGroup := by
  unfold moveEntity2sink
  split <;> rfl

theorem move_of_none {z : Zoo} {t : EntityType} {key : String} (h : z.entity? t key = none) :
    z.moveEntity2sink t key = z := by
  simp only [moveEntity2sink, h]

theorem Indexed.move {z : Zoo} (h : Indexed z) (t : EntityType) (key : String) :
    Indexed (z.moveEntity2sink t key) := by
  cases he : z.entity? t key with
  | none => rwa [move_of_none he]
  | some e =>
      have hold : ∀ t' key' e', (z.moveEntity2sink t key).entity? t' key' = some e' →
          z.entity? t' key' = some e' ∧ (t', key') ≠ (t, key) := by
        intro t' key' e' he'
        rw [entity?_moveEntity2sink] at he'
        split_ifs at he' with hkey
        exact ⟨he', fun heq => hkey (Prod.mk.inj heq)⟩
      refine ⟨fun t' key' e' he' => h.keyed t' key' e' (hold t' key' e' he').1,
        fun t' key' e' he' => h.valid t' key' e' (hold t' key' e' he').1,
        fun t' key' e' he' u hu => ?_,
        fun t₁ key₁ e₁ t₂ key₂ e₂ h₁ h₂ => h.apart t₁ key₁ e₁ t₂ key₂ e₂
          (hold t₁ key₁ e₁ h₁).1 (hold t₂ key₂ e₂ h₂).1, ?_⟩
      · obtain ⟨he', hne⟩ := hold t' key' e' he'
        exact (h.mem_idxmap_move he u).mpr
          ⟨h.reserved t' key' e' he' u hu, h.apart t' key' e' t key e he' he hne u hu⟩
      · rw [ilkGroup_move]
        exact h.ilk

theorem Indexed.refuse {z : Zoo} (h : Indexed z) {us : List (UniqKey × String)} {m : Idxmap}
    (hm : insertIdxmap us z.entityIdxmap = (m, false)) : Indexed (z.setIdxmap m) :=
  ⟨h.keyed, h.valid, fun t key e he u hu => subset_insertIdxmap hm (h.reserved t key e he u hu),
    h.apart, h.ilk⟩

theorem Indexed.enter {z : Zoo} (h : Indexed z) {e : Entity} {m : Idxmap}
    (hvalid : e.row.props.Valid) (hm : insertIdxmap e.uniq z.entityIdxmap = (m, true)) :
    Indexed ((z.setIdxmap m).enter e) := by
  obtain ⟨hmem, hfree⟩ := mem_insertIdxmap hm
  have hcases : ∀ t key e', ((z.setIdxmap m).enter e).entity? t key = some e' →
      (t = e.etype ∧ key = e.uuid) ∧ e' = e ∨ z.entity? t key = some e' := by
    intro t key e' he'
    rw [entity?_enter] at he'
    split_ifs at he' with hkey
    · exact Or.inl ⟨hkey, (Option.some.inj he').symm⟩
    · exact Or.inr he'
  refine ⟨fun t key e' he' => ?_, fun t key e' he' => ?_, fun t key e' he' u hu => ?_,
    fun t key e' t' key' e'' he' he'' hne u hu => ?_, h.ilk⟩
  · rcases hcases t key e' he' with ⟨⟨rfl, rfl⟩, rfl⟩ | he'
    · exact ⟨rfl, rfl⟩
    · exact h.keyed t key e' he'
  · rcases hcases t key e' he' with ⟨_, rfl⟩ | he'
    · exact hvalid
    · exact h.valid t key e' he'
  · rcases hcases t key e' he' with ⟨_, rfl⟩ | he'
    · exact (hmem u).mpr (Or.inr hu)
    · exact (hmem u).mpr (Or.inl (h.reserved t key e' he' u hu))
  · rcases hcases t key e' he' with ⟨⟨rfl, rfl⟩, rfl⟩ | hz <;>
      rcases hcases t' key' e'' he'' with ⟨⟨rfl, rfl⟩, rfl⟩ | hz'
    · exact absurd rfl hne
    · exact fun hu' => hfree u hu (h.reserved t' key' e'' hz' u hu')
    · exact fun hu' => hfree u hu' (h.reserved t key e' hz u hu)
    · exact h.apart t key e' t' key' e'' hz hz' hne u hu

theorem Indexed.touch {z : Zoo} (h : Indexed z) (t : EntityType) (key : String) :
    Indexed (z.touch t key) := by
  have hsame : (z.touch t key).entityIdxmap = z.entityIdxmap ∧
      (z.touch t key).ilkGroup = z.ilkGroup := by
    unfold Zoo.touch
    split
    · exact ⟨rfl, rfl⟩
    · split_ifs <;> exact ⟨rfl, rfl⟩
  refine h.of_map (fun t' key' e' he' => ?_) hsame.1 (hsame.2 ▸ h.ilk)
  rw [entity?_touch] at he'
  split_ifs at he' with hkey
  · obtain ⟨e, he, rfl⟩ := Option.map_eq_some_iff.mp he'
    refine ⟨e, by rw [hkey.1, hkey.2, he], ?_⟩
    unfold Entity.touch
    split_ifs <;> rfl
  · exact ⟨e', he', rfl⟩

theorem foldl_eliminate_idxmap (l : List Entity) (z : Zoo) :
    (l.foldl (fun z e => z.eliminate e) z).entityIdxmap = z.entityIdxmap := by
  induction l generalizing z with
  | nil => rfl
  | cons e l ih => exact ih _

theorem freeIlkIdx_ilk {g : IlkGroup} (h : ∀ t key s, g t key = some s → s ⊆ wholeIdxSet) (r : Row)
    (t : EntityType) (key : String) (s : Finset ℕ) (hs : freeIlkIdx r g t key = some s) :
    s ⊆ wholeIdxSet := by
  unfold freeIlkIdx at hs
  cases hkey : r.props.ilkKey with
  | none =>
      simp only [hkey] at hs
      exact h t key s hs
  | some k =>
      cases hocc : g r.props.etype k with
      | none =>
          simp only [hkey, hocc] at hs
          exact h t key s hs
      | some occupied =>
          simp only [hkey, hocc, setGroup] at hs
          split_ifs at hs
          · rw [← Option.some.inj hs]
            exact (Finset.erase_subset _ _).trans (h _ _ _ hocc)
          · exact h t key s hs

theorem foldl_eliminate_ilk (l : List Entity) {z : Zoo}
    (h : ∀ t key s, z.ilkGroup t key = some s → s ⊆ wholeIdxSet) :
    ∀ t key s, (l.foldl (fun z e => z.eliminate e) z).ilkGroup t key = some s →
      s ⊆ wholeIdxSet := by
  induction l generalizing z with
  | nil => exact h
  | cons e l ih => exact ih (freeIlkIdx_ilk h e.row)

theorem swept_row (e : Entity) : (swept e).row = e.row := by
  unfold swept
  split_ifs <;> rfl

theorem Indexed.sweep {z : Zoo} (h : Indexed z) : Indexed z.sweepZoo := by
  refine h.of_map (fun t key e' he' => ?_) (foldl_eliminate_idxmap _ z)
    (foldl_eliminate_ilk _ h.ilk)
  rw [entity?_sweepZoo] at he'
  obtain ⟨e, he, rfl⟩ := Option.map_eq_some_iff.mp he'
  exact ⟨e, he, swept_row e⟩

theorem indexed_invariant (x : Extra) : Invariant x Indexed where
  empty := indexed_empty
  ilk _ _ _ _ h hg := h.setIlk hg
  move _ t key h := h.move t key
  refuse _ _ _ h hm := h.refuse hm
  enter _ _ _ h _ hvalid _ hm := h.enter hvalid hm
  touch _ t key h := h.touch t key
  sweep _ h := h.sweep

theorem Reachable.indexed {x : Extra} {z : Zoo} (h : Reachable x z) : Indexed z :=
  (indexed_invariant x).of_reachable h

end Zoo

end TupleNet
