import TupleNet.Zoo.Mirror

/-! # Indexes of routes and ports

`ILKEntity` hands every router port and static route an index in its constructor.  The entity keeps
it while it is live and while it waits in the sink, and `eliminate` gives it back.  What holds an
index is thus the rows of the live entities and of those in the sink (`held`); an index that was
taken by a constructor whose entity was refused belongs to nobody and stays taken.

In every reachable zoo the rows of one group hold different indexes, and all of them are taken
(`Reachable.ilkHeld`). -/

namespace TupleNet

namespace Zoo

/-! ### Who holds an index -/

/-- The rows of the live entities of a type and of those that wait in the sink. -/
def held (z : Zoo) (t : EntityType) : List Row :=
  (z.entitySet t).items.map (fun i => i.2.row) ++ (z.entitySinkSet t).map (fun e => e.row)

/-- The group of a row and its index there. -/
def slot (r : Row) : Option (String × ℕ) := r.props.ilkKey.map (fun key => (key, r.ilkIdx))

/-- The index of the row is taken. -/
def Taken (g : IlkGroup) (r : Row) : Prop :=
  ∀ key, r.props.ilkKey = some key → ∃ s, g r.props.etype key = some s ∧ r.ilkIdx ∈ s

/-- Indexes are taken while they are held, and each is held once. -/
structure IlkHeld (z : Zoo) : Prop where
  typed : ∀ t, ∀ r ∈ z.held t, r.props.etype = t
  taken : ∀ t, ∀ r ∈ z.held t, Taken z.ilkGroup r
  nodup : ∀ t, ((z.held t).filterMap slot).Nodup

theorem ilkHeld_empty : IlkHeld empty where
  typed _ r hr := by cases hr
  taken _ r hr := by cases hr
  nodup _ := List.nodup_nil

/-- What is held counts, not its order. -/
theorem IlkHeld.of_perm {z z' : Zoo} (h : IlkHeld z) (hheld : ∀ t, (z'.held t).Perm (z.held t))
    (hg : z'.ilkGroup = z.ilkGroup) : IlkHeld z' where
  typed t r hr := h.typed t r ((hheld t).mem_iff.mp hr)
  taken t r hr := by
    rw [hg]
    exact h.taken t r ((hheld t).mem_iff.mp hr)
  nodup t := (((hheld t).filterMap slot).nodup_iff).mpr (h.nodup t)

/-! ### Operations -/

section operations
variable {z : Zoo}

theorem held_move (t t' : EntityType) (key : String) :
    ((z.moveEntity2sink t key).held t').Perm (z.held t') := by
  cases he : z.entity? t key with
  | none => rw [move_of_none he]
  | some e =>
      by_cases ht : t' = t
      · subst ht
        have hset : (z.moveEntity2sink t' key).held t' =
            (Dict.items ((z.entitySet t').erase key)).map (fun i => i.2.row) ++
              ((z.entitySinkSet t').map (fun e => e.row) ++ [e.row]) := by
          simp only [held, moveEntity2sink, he, Function.update_self, List.map_append,
            List.map_cons, List.map_nil, Entity.mark]
        have hitems := (Dict.items_perm_erase he).map (fun i => i.2.row)
        rw [hset, held, ← List.append_assoc]
        refine (List.perm_append_singleton e.row _).trans ?_
        exact (hitems.append_right _).symm
      · simp only [held, moveEntity2sink, he, Function.update_of_ne ht, List.Perm.refl]

theorem held_enter {e : Entity} (hnew : z.entity? e.etype e.uuid = none) (t : EntityType) :
    ((z.enter e).held t).Perm (if t = e.etype then e.row :: z.held t else z.held t) := by
  by_cases ht : t = e.etype
  · subst ht
    have hitems : (Dict.items ((z.entitySet e.etype).insert e.uuid e)).Perm
        ((e.uuid, e) :: Dict.items (z.entitySet e.etype)) :=
      (Dict.items_insert_perm _ _ _).trans ((Dict.items_erase_perm_of_none hnew).cons _)
    rw [if_pos rfl, held, held, enter]
    simp only [Function.update_self]
    exact (hitems.map (fun i => i.2.row)).append_right _
  · rw [if_neg ht, held, held, enter]
    simp only [Function.update_of_ne ht, List.Perm.refl]

theorem held_touch (t t' : EntityType) (key : String) :
    ((z.touch t key).held t').Perm (z.held t') := by
  unfold touch
  cases he : z.entity? t key with
  | none => rfl
  | some e =>
      dsimp only
      split_ifs with htouched
      · rfl
      · by_cases ht : t' = t
        · subst ht
          have hitems := (Dict.items_insert_perm (z.entitySet t') key e.touch).map
            (fun i => i.2.row)
          have hrow : e.touch.row = e.row := by rw [Entity.touch, if_neg htouched]
          simp only [held, Function.update_self]
          refine List.Perm.append_right _ (hitems.trans ?_)
          rw [List.map_cons, hrow]
          exact ((Dict.items_perm_erase he).map (fun i => i.2.row)).symm
        · simp only [held, Function.update_of_ne ht, List.Perm.refl]

theorem ilkGroup_touch (t : EntityType) (key : String) :
    (z.touch t key).ilkGroup = z.ilkGroup := by
  unfold touch
  split
  · rfl
  · split_ifs <;> rfl

theorem held_touchGateway (p : Props) (t : EntityType) :
    ((z.touchGateway p).held t).Perm (z.held t) ∧ (z.touchGateway p).ilkGroup = z.ilkGroup := by
  unfold touchGateway
  split
  · split
    · exact ⟨List.Perm.refl _, rfl⟩
    · exact ⟨held_touch _ t _, ilkGroup_touch _ _⟩
  · split_ifs
    · exact ⟨held_touch _ t _, ilkGroup_touch _ _⟩
    · exact ⟨List.Perm.refl _, rfl⟩
  · exact ⟨List.Perm.refl _, rfl⟩

end operations

/-! ### Handing out -/

/-- An index that is handed out was free and is taken; no other index is given back. -/
theorem getIlkIdx_spec {x : Extra} {p : Props} {idx : ℕ} {g g' : IlkGroup}
    (h : getIlkIdx x p g = some (idx, g')) :
    (∀ t key s, g t key = some s → ∃ s', g' t key = some s' ∧ s ⊆ s') ∧
      ∀ key, p.ilkKey = some key → (∃ s', g' p.etype key = some s' ∧ idx ∈ s') ∧
        ∀ s, g p.etype key = some s → idx ∉ s := by
  unfold getIlkIdx at h
  cases hkey : p.ilkKey with
  | none =>
      simp only [hkey] at h
      obtain ⟨_, rfl⟩ := Prod.mk.inj (Option.some.inj h)
      refine ⟨fun t key s hs => ⟨s, hs, Finset.Subset.refl s⟩, ?_⟩
      rintro key ⟨⟩
  | some key =>
      simp only [hkey] at h
      have hset : ∀ s₀, (∀ s, g p.etype key = some s → s ⊆ s₀) → ∀ t key' s,
          g t key' = some s → ∃ s', setGroup p.etype key s₀ g t key' = some s' ∧ s ⊆ s' := by
        intro s₀ hsub t key' s hs
        unfold setGroup
        split_ifs with ht
        · obtain ⟨rfl, rfl⟩ := ht
          exact ⟨s₀, rfl, hsub s hs⟩
        · exact ⟨s, hs, Finset.Subset.refl s⟩
      cases hocc : g p.etype key with
      | none =>
          simp only [hocc] at h
          obtain ⟨rfl, rfl⟩ := Prod.mk.inj (Option.some.inj h)
          refine ⟨hset {0} (fun s hs => ?_), fun key' hkey' => ?_⟩
          · rw [hocc] at hs
            cases hs
          · obtain rfl := Option.some.inj hkey'
            refine ⟨⟨{0}, if_pos ⟨rfl, rfl⟩, Finset.mem_singleton_self 0⟩, fun s hs => ?_⟩
            rw [hocc] at hs
            cases hs
      | some occupied =>
          simp only [hocc] at h
          split_ifs at h with hfree
          obtain ⟨rfl, rfl⟩ := Prod.mk.inj (Option.some.inj h)
          have hpop := x.popIdx_mem _ (Finset.nonempty_iff_ne_empty.mpr hfree)
          refine ⟨hset _ (fun s hs => ?_), fun key' hkey' => ?_⟩
          · rw [← Option.some.inj (hocc.symm.trans hs)]
            exact Finset.subset_insert _ _
          · obtain rfl := Option.some.inj hkey'
            refine ⟨⟨_, if_pos ⟨rfl, rfl⟩, Finset.mem_insert_self _ _⟩, fun s hs => ?_⟩
            rw [← Option.some.inj (hocc.symm.trans hs)]
            exact (Finset.mem_sdiff.mp hpop).2

theorem Taken.mono {g g' : IlkGroup} {r : Row} (h : Taken g r)
    (hg : ∀ t key s, g t key = some s → ∃ s', g' t key = some s' ∧ s ⊆ s') : Taken g' r := by
  intro key hkey
  obtain ⟨s, hs, hidx⟩ := h key hkey
  obtain ⟨s', hs', hsub⟩ := hg _ key s hs
  exact ⟨s', hs', hsub hidx⟩

/-- The constructor takes an index, and the entity that had the name goes into the sink. -/
theorem IlkHeld.vacate {x : Extra} {z : Zoo} (h : IlkHeld z) {p : Props} {idx : ℕ} {g : IlkGroup}
    (hg : getIlkIdx x p z.ilkGroup = some (idx, g)) : IlkHeld (z.vacate g p) := by
  have hset : IlkHeld (z.setIlkGroup g) :=
    ⟨h.typed, fun t r hr => (h.taken t r hr).mono (getIlkIdx_spec hg).1, h.nodup⟩
  exact hset.of_perm (fun t => held_move p.etype t p.uuid) (ilkGroup_move _ _ _)

theorem IlkHeld.takeIn {x : Extra} {z : Zoo} (h : IlkHeld z) {p : Props} {idx : ℕ} {g : IlkGroup}
    (hg : getIlkIdx x p z.ilkGroup = some (idx, g)) (m : Idxmap) :
    IlkHeld ((z.vacate g p).takeIn x p idx m) := by
  have hvacant := h.vacate hg
  have hgroup : (z.vacate g p).ilkGroup = g := ilkGroup_move _ _ _
  have hheld := held_enter (z := (z.vacate g p).setIdxmap m)
    (e := ⟨⟨p, idx⟩, .ADD, shouldTouch x p⟩) (entity?_vacate z g p)
  have henter : IlkHeld (((z.vacate g p).setIdxmap m).enter ⟨⟨p, idx⟩, .ADD, shouldTouch x p⟩) := by
    refine ⟨fun t r hr => ?_, fun t r hr => ?_, fun t => ?_⟩
    · have hr := (hheld t).mem_iff.mp hr
      split_ifs at hr with ht
      · rcases List.mem_cons.mp hr with rfl | hr
        · exact ht.symm
        · exact hvacant.typed t r hr
      · exact hvacant.typed t r hr
    · have hnew : Taken g ⟨p, idx⟩ := fun key hkey => ((getIlkIdx_spec hg).2 key hkey).1
      have hr := (hheld t).mem_iff.mp hr
      have hold : ∀ r ∈ (z.vacate g p).held t, Taken g r := by
        intro r hr
        rw [← hgroup]
        exact hvacant.taken t r hr
      show Taken (z.vacate g p).ilkGroup r
      rw [hgroup]
      split_ifs at hr with ht
      · rcases List.mem_cons.mp hr with rfl | hr
        · exact hnew
        · exact hold r hr
      · exact hold r hr
    · rw [((hheld t).filterMap slot).nodup_iff]
      split_ifs with ht
      · -- whoever holds the index in this group had taken it before
        have hfresh : ∀ r ∈ (z.vacate g p).held t, ∀ key, p.ilkKey = some key →
            slot r ≠ some (key, idx) := by
          intro r hr key hkey hslot
          have hr : r ∈ z.held t := (held_move (z := z.setIlkGroup g) p.etype t p.uuid).mem_iff.mp
            hr
          obtain ⟨key', hkey', heq⟩ := Option.map_eq_some_iff.mp hslot
          obtain ⟨rfl, rfl⟩ := Prod.mk.inj heq
          obtain ⟨s, hs, hidx⟩ := h.taken t r hr key' hkey'
          have htype : r.props.etype = p.etype := (h.typed t r hr).trans ht
          rw [htype] at hs
          exact ((getIlkIdx_spec hg).2 key' hkey).2 s hs hidx
        cases hkey : p.ilkKey with
        | none =>
            have hslot : slot ⟨p, idx⟩ = none := by rw [slot, hkey]; rfl
            rw [List.filterMap_cons_none hslot]
            exact hvacant.nodup t
        | some key =>
            have hslot : slot ⟨p, idx⟩ = some (key, idx) := by rw [slot, hkey]; rfl
            rw [List.filterMap_cons_some hslot]
            refine List.nodup_cons.mpr ⟨fun hmem => ?_, hvacant.nodup t⟩
            obtain ⟨r, hr, hr'⟩ := List.mem_filterMap.mp hmem
            exact hfresh r hr key hkey hr'
      · exact hvacant.nodup t
  unfold Zoo.takeIn
  dsimp only
  split_ifs
  · exact henter.of_perm (fun t => (held_touchGateway p t).1) (held_touchGateway p .LR).2
  · exact henter

theorem IlkHeld.addEntity {x : Extra} {z : Zoo} (h : IlkHeld z) (a : Args) :
    IlkHeld (z.addEntity x a) := by
  rcases addEntity_outcome x a z with heq | ⟨p, idx, g, _, hg, ⟨m, _, heq⟩ | ⟨m, _, heq⟩⟩
  · rwa [heq]
  · rw [heq]
    exact (h.vacate hg).of_perm (fun _ => List.Perm.refl _) rfl
  · rw [heq]
    exact h.takeIn hg m

/-! ### Giving back -/

/-- Elimination gives back what the entity holds and nothing else. -/
theorem Taken.freeIlkIdx {g : IlkGroup} {r r' : Row} (h : Taken g r)
    (hne : r.props.etype = r'.props.etype → slot r' ≠ slot r ∨ slot r = none) :
    Taken (freeIlkIdx r' g) r := by
  intro key hkey
  obtain ⟨s, hs, hidx⟩ := h key hkey
  unfold Zoo.freeIlkIdx
  cases hkey' : r'.props.ilkKey with
  | none => exact ⟨s, hs, hidx⟩
  | some key' =>
      dsimp only
      cases hocc : g r'.props.etype key' with
      | none => exact ⟨s, hs, hidx⟩
      | some occupied =>
          dsimp only
          unfold setGroup
          split_ifs with heq
          · obtain ⟨htype, rfl⟩ := heq
            refine ⟨_, rfl, Finset.mem_erase.mpr ⟨fun hsame => ?_, ?_⟩⟩
            · rcases hne htype with hslot | hslot
              · refine hslot ?_
                rw [slot, slot, hkey, hkey', hsame]
              · rw [slot, hkey] at hslot
                cases hslot
            · rw [htype, hocc] at hs
              rwa [Option.some.inj hs]
          · exact ⟨s, hs, hidx⟩

theorem Taken.foldl_eliminate {r : Row} (l : List Entity) {z : Zoo} (h : Taken z.ilkGroup r)
    (hne : ∀ e ∈ l, r.props.etype = e.row.props.etype → slot e.row ≠ slot r ∨ slot r = none) :
    Taken (l.foldl (fun z e => z.eliminate e) z).ilkGroup r := by
  induction l generalizing z with
  | nil => exact h
  | cons e l ih =>
      exact ih (h.freeIlkIdx (hne e List.mem_cons_self))
        fun e' he' => hne e' (List.mem_cons_of_mem _ he')

/-- The rows that a sweep leaves. -/
theorem held_sweepZoo (z : Zoo) (t : EntityType) :
    z.sweepZoo.held t = (z.entitySet t).items.map (fun i => i.2.row) := by
  simp only [held, sweepZoo, sweepEntitySet, cleanSink, foldl_eliminate_entitySet,
    Dict.items_mapVal, List.map_map, Function.comp_def, swept_row, List.map_nil, List.append_nil]

theorem IlkHeld.sweep {z : Zoo} (h : IlkHeld z) : IlkHeld z.sweepZoo where
  typed t r hr := by
    rw [held_sweepZoo] at hr
    exact h.typed t r (List.mem_append_left _ hr)
  nodup t := by
    have hnodup := h.nodup t
    rw [held, List.filterMap_append] at hnodup
    rw [held_sweepZoo]
    exact hnodup.of_append_left
  taken t r hr := by
    rw [held_sweepZoo] at hr
    have hheld : r ∈ z.held t := List.mem_append_left _ hr
    refine (h.taken t r hheld).foldl_eliminate z.sunk fun e he htype => ?_
    obtain ⟨t', he⟩ := mem_sunk.mp he
    have hsunk : e.row ∈ (z.entitySinkSet t').map (fun e => e.row) := List.mem_map_of_mem he
    obtain rfl : t' = t := by
      rw [← h.typed t' _ (List.mem_append_right _ hsunk), ← htype, h.typed t r hheld]
    by_cases hslot : slot r = none
    · exact Or.inr hslot
    · obtain ⟨k, hk⟩ := Option.ne_none_iff_exists'.mp hslot
      refine Or.inl fun heq => ?_
      -- a live row and one in the sink do not share their slot
      have hnodup := h.nodup t'
      rw [held, List.filterMap_append] at hnodup
      exact List.disjoint_of_nodup_append hnodup (List.mem_filterMap.mpr ⟨r, hr, hk⟩)
        (List.mem_filterMap.mpr ⟨e.row, hsunk, heq.trans hk⟩)

/-! ### Reachable zoos -/

theorem Reachable.ilkHeld {x : Extra} {z : Zoo} (h : Reachable x z) : IlkHeld z := by
  induction h with
  | empty => exact ilkHeld_empty
  | addEntity a _ ih => exact ih.addEntity a
  | moveEntity2sink t key _ ih =>
      exact ih.of_perm (fun t' => held_move t t' key) (ilkGroup_move _ t key)
  | touch t key _ ih => exact ih.of_perm (fun t' => held_touch t t' key) (ilkGroup_touch t key)
  | sweepZoo _ ih => exact ih.sweep

/-! ### Entities of one network -/

/-- The router, the masked network and the prefix of a port or a route. -/
def network : Props → Option (String × ℕ × ℕ)
  | .lrp p => some (p.lrUuid, maskIp p.ipInt p.prefixLen, p.prefixLen)
  | .lsr p => some (p.lrUuid, maskIp p.ipInt p.prefixLen, p.prefixLen)
  | _ => none

/-- Entities of one network are in one index group; the text of its key need not tell networks
apart. -/
theorem ilkKey_of_network {p p' : Props} (h : network p = network p') (hp : network p ≠ none) :
    ∃ key, p.ilkKey = some key ∧ p'.ilkKey = some key := by
  cases p <;> simp only [network, ne_eq, not_true_eq_false] at hp <;> cases p' <;>
    simp only [network, Option.some.injEq, Prod.mk.injEq, reduceCtorEq] at h
  all_goals
    obtain ⟨hlr, hip, hprefix⟩ := h
    refine ⟨_, rfl, ?_⟩
    rw [Props.ilkKey, hip, hlr, hprefix]

section reachable
variable {x : Extra} {z : Zoo} (h : Reachable x z)
include h

/-- Two entities of one type and network hold different indexes. -/
theorem Reachable.ilkIdx_apart (t : EntityType) : (z.held t).Pairwise (fun r r' =>
    network r.props = network r'.props → network r.props ≠ none → r.ilkIdx ≠ r'.ilkIdx) := by
  have hnodup := h.ilkHeld.nodup t
  rw [List.Nodup, List.pairwise_filterMap] at hnodup
  refine hnodup.imp fun {r r'} hne hnet hsome hidx => ?_
  obtain ⟨key, hkey, hkey'⟩ := ilkKey_of_network hnet hsome
  refine hne (key, r.ilkIdx) ?_ (key, r'.ilkIdx) ?_ ?_
  · rw [slot, hkey]; rfl
  · rw [slot, hkey']; rfl
  · rw [hidx]

theorem Reachable.ilkIdx_lt (t : EntityType) {r : Row} (hr : r ∈ z.held t)
    (hnet : network r.props ≠ none) : r.ilkIdx < 64 := by
  obtain ⟨key, hkey, _⟩ := ilkKey_of_network rfl hnet
  obtain ⟨s, hs, hidx⟩ := h.ilkHeld.taken t r hr key hkey
  exact Finset.mem_range.mp (h.indexed.ilk _ _ s hs hidx)

/-- The entities of the sink hold different slots. -/
theorem Reachable.pairwise_sunk : z.sunk.Pairwise (fun e e' =>
    e'.row.props.etype = e.row.props.etype → slot e.row ≠ slot e'.row ∨ slot e'.row = none) := by
  have hheld := h.ilkHeld
  have hrow : ∀ t, ∀ e ∈ z.entitySinkSet t, e.row ∈ z.held t :=
    fun t e he => List.mem_append_right _ (List.mem_map_of_mem he)
  unfold sunk
  refine List.pairwise_flatMap.mpr ⟨fun t _ => ?_, ?_⟩
  · have hnodup := hheld.nodup t
    rw [held, List.filterMap_append] at hnodup
    have hsink := hnodup.of_append_right
    rw [List.Nodup, List.pairwise_filterMap, List.pairwise_map] at hsink
    refine hsink.imp fun {e e'} hne _ => ?_
    by_cases hslot : slot e'.row = none
    · exact Or.inr hslot
    · obtain ⟨k, hk⟩ := Option.ne_none_iff_exists'.mp hslot
      exact Or.inl fun heq => hne k (heq.trans hk) k hk rfl
  · have hall : EntityType.all.Nodup := by decide
    refine hall.imp fun {t t'} hne e he e' he' htype => absurd ?_ hne
    rw [← hheld.typed t _ (hrow t e he), ← htype, hheld.typed t' _ (hrow t' e' he')]

/-- When an entity of the sink is eliminated, its index is taken. -/
theorem Reachable.taken_eliminate {l₁ l₂ : List Entity} {e : Entity}
    (hsunk : z.sunk = l₁ ++ e :: l₂) :
    Taken (l₁.foldl (fun z e => z.eliminate e) z).ilkGroup e.row := by
  have he : e ∈ z.sunk := by
    rw [hsunk]
    exact List.mem_append_right _ List.mem_cons_self
  obtain ⟨t, ht⟩ := mem_sunk.mp he
  have hrow : e.row ∈ z.held t := List.mem_append_right _ (List.mem_map_of_mem ht)
  have hpairwise := h.pairwise_sunk
  rw [hsunk, List.pairwise_append] at hpairwise
  exact (h.ilkHeld.taken t e.row hrow).foldl_eliminate l₁
    fun e' he' => hpairwise.2.2 e' he' e List.mem_cons_self

end reachable

end Zoo

end TupleNet
