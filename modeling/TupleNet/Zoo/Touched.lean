import TupleNet.Zoo.Invariant

/-! # Touched entities

Which live entities assert their clause.  On a node without `ONDEMAND` all of them do.  With it
`add_entity` also touches the chassis on which a router is pinned, whichever of the two comes first,
so in every reachable zoo such a chassis is touched (`Reachable.touched`). -/

namespace TupleNet

namespace Zoo

/-- Who is touched in any case. -/
structure Touched (x : Extra) (z : Zoo) : Prop where
  own : ∀ t key e, z.entity? t key = some e → shouldTouch x e.row.props → e.touched
  pinned : ∀ key r uuid e, z.entity? .LR key = some r → pinnedTo r.row.props = some uuid →
    z.entity? .chassis uuid = some e → e.touched

theorem touched_empty (x : Extra) : Touched x empty where
  own t key e h := by rw [entity?_empty] at h; cases h
  pinned _ _ uuid e _ _ h := by rw [entity?_empty] at h; cases h

theorem touch_touched (e : Entity) : e.touch.touched := by
  unfold Entity.touch
  split_ifs with h
  · exact h
  · rfl

theorem keeps_of_touch {e e₀ : Entity} (h : e = e₀ ∨ e = e₀.touch) :
    e.row = e₀.row ∧ (e₀.touched → e.touched) := by
  rcases h with rfl | rfl
  · exact ⟨rfl, id⟩
  · exact ⟨touch_row e₀, fun _ => touch_touched e₀⟩

section step
variable {x : Extra} {z : Zoo} (h : Touched x z)
include h

/-- Fewer entities, each as touched as it was. -/
theorem Touched.of_map {z' : Zoo} (hmap : ∀ t key e', z'.entity? t key = some e' →
    ∃ e, z.entity? t key = some e ∧ e'.row = e.row ∧ (e.touched → e'.touched)) : Touched x z' where
  own := by
    intro t key e' he' hown
    obtain ⟨e, he, hrow, htouched⟩ := hmap t key e' he'
    exact htouched (h.own t key e he (hrow ▸ hown))
  pinned := by
    intro key r' uuid e' hr' hpin he'
    obtain ⟨r, hr, hrow, _⟩ := hmap .LR key r' hr'
    obtain ⟨e, he, _, htouched⟩ := hmap .chassis uuid e' he'
    exact htouched (h.pinned key r uuid e hr (hrow ▸ hpin) he)

theorem Touched.move (t : EntityType) (key : String) : Touched x (z.moveEntity2sink t key) := by
  refine h.of_map fun t' key' e' he' => ?_
  rw [entity?_moveEntity2sink] at he'
  split_ifs at he'
  exact ⟨e', he', rfl, id⟩

theorem Touched.touch (t : EntityType) (key : String) : Touched x (z.touch t key) := by
  refine h.of_map fun t' key' e' he' => ?_
  obtain ⟨e, he, hsame⟩ := entity?_of_touch he'
  exact ⟨e, he, keeps_of_touch hsame⟩

theorem Touched.sweep : Touched x z.sweepZoo := by
  refine h.of_map fun t key e' he' => ?_
  rw [entity?_sweepZoo] at he'
  obtain ⟨e, he, rfl⟩ := Option.map_eq_some_iff.mp he'
  refine ⟨e, he, swept_row e, fun htouched => ?_⟩
  unfold swept
  split_ifs <;> exact htouched

/-- After an entry only the chassis on which the new router is pinned, or the new chassis, may be
missing. -/
theorem Touched.pinned_enter {p : Props} {idx : ℕ} {touched : Bool} {key uuid : String}
    {r e : Entity} (hr : (z.enter ⟨⟨p, idx⟩, .ADD, touched⟩).entity? .LR key = some r)
    (hpin : pinnedTo r.row.props = some uuid)
    (he : (z.enter ⟨⟨p, idx⟩, .ADD, touched⟩).entity? .chassis uuid = some e) :
    e.touched ∨ pinnedTo p = some uuid ∨ p.etype = .chassis ∧ p.uuid = uuid := by
  rw [entity?_enter] at hr he
  split_ifs at he with hchassis
  · exact Or.inr (Or.inr ⟨hchassis.1.symm, hchassis.2.symm⟩)
  · split_ifs at hr
    · obtain rfl := Option.some.inj hr
      exact Or.inr (Or.inl hpin)
    · exact Or.inl (h.pinned key r uuid e hr hpin he)

end step

theorem hasPinned_of_entity? {z : Zoo} {key uuid : String} {r : Entity}
    (hr : z.entity? .LR key = some r) (hpin : pinnedTo r.row.props = some uuid) :
    z.hasPinned uuid = true := by
  rw [hasPinned, List.any_eq_true]
  exact ⟨(key, r), Dict.mem_items.mpr hr, by simpa using hpin⟩

/-- The touch that ends an addition finds the chassis that may be missing. -/
theorem touchGateway_touches {z : Zoo} {p : Props} {key uuid : String} {r e : Entity}
    (hr : (z.touchGateway p).entity? .LR key = some r) (hpin : pinnedTo r.row.props = some uuid)
    (he : (z.touchGateway p).entity? .chassis uuid = some e)
    (hp : pinnedTo p = some uuid ∨ p.etype = .chassis ∧ p.uuid = uuid) : e.touched := by
  have htouch : ∀ e', (z.touch .chassis uuid).entity? .chassis uuid = some e' → e'.touched := by
    intro e' he'
    rw [entity?_touch, if_pos ⟨rfl, rfl⟩] at he'
    obtain ⟨e₀, _, rfl⟩ := Option.map_eq_some_iff.mp he'
    exact touch_touched e₀
  cases p with
  | LR q =>
      have hq : q.chassis = some uuid := by
        rcases hp with hp | ⟨hp, _⟩
        · exact hp
        · cases hp
      simp only [touchGateway, hq] at he
      exact htouch e he
  | chassis c =>
      have hc : c.uuid = uuid := by
        rcases hp with hp | ⟨_, hp⟩
        · cases hp
        · exact hp
      simp only [touchGateway, hc] at hr he
      split_ifs at hr he with hpinned
      · exact htouch e he
      · exact absurd (hasPinned_of_entity? hr hpin) hpinned
  | ovsport q =>
      rcases hp with hp | ⟨hp, _⟩
      · cases hp
      · simp only [Props.etype] at hp
        split_ifs at hp
  | _ =>
      rcases hp with hp | ⟨hp, _⟩
      · cases hp
      · cases hp

/-- A touch on the way changes nothing of what the other entities are. -/
theorem touchGateway_keeps {z : Zoo} {p : Props} {t : EntityType} {key : String} {e : Entity}
    (h : (z.touchGateway p).entity? t key = some e) :
    ∃ e₀, z.entity? t key = some e₀ ∧ e.row = e₀.row ∧ (e₀.touched → e.touched) := by
  obtain ⟨e₀, he₀, hsame⟩ := entity?_of_touchGateway h
  exact ⟨e₀, he₀, keeps_of_touch hsame⟩

theorem Touched.takeIn {x : Extra} {z : Zoo} (h : Touched x z) (p : Props) (idx : ℕ) (m : Idxmap) :
    Touched x (z.takeIn x p idx m) := by
  have hidx : Touched x (z.setIdxmap m) := h.of_map fun t key e he => ⟨e, he, rfl, id⟩
  have hown : ∀ t key e,
      ((z.setIdxmap m).enter ⟨⟨p, idx⟩, .ADD, shouldTouch x p⟩).entity? t key = some e →
      shouldTouch x e.row.props → e.touched := by
    intro t key e he hshould
    rw [entity?_enter] at he
    split_ifs at he
    · obtain rfl := Option.some.inj he
      exact hshould
    · exact hidx.own t key e he hshould
  unfold Zoo.takeIn
  by_cases hdemand : x.onDemand
  · rw [if_pos hdemand]
    refine ⟨fun t key e he hshould => ?_, fun key r uuid e hr hpin he => ?_⟩
    · obtain ⟨e₀, he₀, hrow, htouched⟩ := touchGateway_keeps he
      exact htouched (hown t key e₀ he₀ (hrow ▸ hshould))
    · obtain ⟨r₀, hr₀, hrow, _⟩ := touchGateway_keeps hr
      obtain ⟨e₀, he₀, _, htouched⟩ := touchGateway_keeps he
      rcases hidx.pinned_enter hr₀ (hrow ▸ hpin) he₀ with hold | hnew
      · exact htouched hold
      · exact touchGateway_touches hr hpin he hnew
  · rw [if_neg hdemand]
    have hall : ∀ q, shouldTouch x q := by
      intro q
      cases q <;> simp [shouldTouch, hdemand]
    exact ⟨hown, fun key r uuid e _ _ he => hown .chassis uuid e he (hall _)⟩

theorem Reachable.touched {x : Extra} {z : Zoo} (h : Reachable x z) : Touched x z := by
  induction h with
  | empty => exact touched_empty x
  | @addEntity z a _ ih =>
      have hvacate : ∀ g p, Touched x (z.vacate g p) := by
        intro g p
        have hg : Touched x (z.setIlkGroup g) := ih.of_map fun t key e he => ⟨e, he, rfl, id⟩
        exact hg.move _ _
      rcases addEntity_outcome x a z with heq | ⟨p, idx, g, _, _, ⟨m, _, heq⟩ | ⟨m, _, heq⟩⟩
      · rwa [heq]
      · rw [heq]
        exact (hvacate g p).of_map fun t key e he => ⟨e, he, rfl, id⟩
      · rw [heq]
        exact (hvacate g p).takeIn p idx m
  | moveEntity2sink t key _ ih => exact ih.move t key
  | touch t key _ ih => exact ih.touch t key
  | sweepZoo _ ih => exact ih.sweep

end Zoo

end TupleNet
