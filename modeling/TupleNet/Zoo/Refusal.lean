import TupleNet.Zoo.Additions

/-! # Refused additions

What `add_entity` leaves behind when the new entity does not become live.

A refusal over a uniqueness key comes late: the entity that had the name is in the sink by then, an
index has been handed out, and the keys before the one that is taken stay reserved.  So a refusal
leaves no trace iff none of the three has anything to do (`refusal_leaves_no_trace_iff`). -/

namespace TupleNet

namespace Zoo

/-! ### What a refusal leaves behind -/

/-- `add_entity` gets to the constructor. -/
def Tries (a : Args) (z : Zoo) : Prop :=
  (z.entity? a.etype a.uuid).elim (some false) (fun e => a.isSame e.row.props) = some false

instance (a : Args) (z : Zoo) : Decidable (Tries a z) := inferInstanceAs (Decidable (_ = _))

/-- The constructor raises: on its arguments, or because no index is free. -/
def Raises (x : Extra) (a : Args) (z : Zoo) : Prop :=
  ∀ p, a.construct = some p → getIlkIdx x p z.ilkGroup = none

/-- A uniqueness key of the new entity is taken. -/
def KeyTaken (x : Extra) (a : Args) (z : Zoo) : Prop :=
  Tries a z ∧ ∃ p idx g, a.construct = some p ∧ getIlkIdx x p z.ilkGroup = some (idx, g) ∧
    (insertIdxmap p.uniq (z.vacate g p).entityIdxmap).2 = false

/-- A call of `add_entity` that does not end with the new entity live. -/
def Refused (x : Extra) (a : Args) (z : Zoo) : Prop := Raises x a z ∨ KeyTaken x a z

/-- Live entities, uniqueness keys and indexes are the same. -/
structure NoTrace (z z' : Zoo) : Prop where
  live : ∀ t key, z'.entity? t key = z.entity? t key
  idxmap : z'.entityIdxmap = z.entityIdxmap
  ilkGroup : z'.ilkGroup = z.ilkGroup

theorem NoTrace.refl (z : Zoo) : NoTrace z z := ⟨fun _ _ => rfl, rfl, rfl⟩

section refusal
variable {x : Extra} {a : Args} {z : Zoo}

theorem addEntity_of_raises (h : Raises x a z) : z.addEntity x a = z := by
  rcases addEntity_outcome x a z with heq | ⟨p, idx, g, hp, hg, _⟩
  · exact heq
  · rw [h p hp] at hg
    cases hg

section built
variable {p : Props} {idx : ℕ} {g : IlkGroup} (htries : Tries a z) (hp : a.construct = some p)
  (hg : getIlkIdx x p z.ilkGroup = some (idx, g))
include htries hp hg

theorem addEntity_of_keyTaken
    (htaken : (insertIdxmap p.uniq (z.vacate g p).entityIdxmap).2 = false) :
    z.addEntity x a =
      (z.vacate g p).setIdxmap (insertIdxmap p.uniq (z.vacate g p).entityIdxmap).1 := by
  rw [addEntity_of_built htries hp hg, htaken]
  rfl

theorem agree_addEntity_of_built
    (hfree : (insertIdxmap p.uniq (z.vacate g p).entityIdxmap).2 = true) :
    Agree (z.addEntity x a)
      (((z.vacate g p).setIdxmap (insertIdxmap p.uniq (z.vacate g p).entityIdxmap).1).enter
        ⟨⟨p, idx⟩, .ADD, shouldTouch x p⟩) := by
  rw [addEntity_of_built htries hp hg, if_pos hfree, takeIn]
  split_ifs
  · exact agree_touchGateway _ p
  · exact Agree.refl _

end built

/-- A call that gets to the constructor and is not refused ends with the new entity live. -/
theorem live_of_not_refused (htries : Tries a z) (h : ¬ Refused x a z) :
    a.construct.isSome ∧ (z.addEntity x a).props? a.etype a.uuid = a.construct := by
  obtain ⟨hraises, htaken⟩ := not_or.mp h
  unfold Raises at hraises
  push Not at hraises
  obtain ⟨p, hp, hne⟩ := hraises
  obtain ⟨⟨idx, g⟩, hg⟩ := Option.ne_none_iff_exists'.mp hne
  obtain ⟨het, huu⟩ := Args.construct_key hp
  have hfree : (insertIdxmap p.uniq (z.vacate g p).entityIdxmap).2 = true := by
    by_contra hno
    exact htaken ⟨htries, p, idx, g, hp, hg, Bool.eq_false_iff.mpr hno⟩
  rw [(agree_addEntity_of_built htries hp hg hfree).props, props?_enter, het, huu,
    if_pos ⟨rfl, rfl⟩, hp]
  exact ⟨rfl, rfl⟩

/-- Handing out an index shows in the table of indexes. -/
theorem getIlkIdx_ne {p : Props} {idx : ℕ} {g : IlkGroup} {key : String}
    (hkey : p.ilkKey = some key) (hg : getIlkIdx x p z.ilkGroup = some (idx, g)) :
    g ≠ z.ilkGroup := by
  intro heq
  have hsize := ilkSize_getIlkIdx hg p.etype key
  rw [if_pos ⟨rfl, hkey⟩, heq, ilkSize] at hsize
  omega

theorem ilkGroup_of_ilkKey_none {p : Props} {idx : ℕ} {g : IlkGroup}
    (hkey : p.ilkKey = none) (hg : getIlkIdx x p z.ilkGroup = some (idx, g)) : g = z.ilkGroup := by
  simp only [getIlkIdx, hkey, Option.some.injEq, Prod.mk.injEq] at hg
  exact hg.2.symm

/-- The keys before the one that is taken stay. -/
theorem insertIdxmap_refused_iff {us : List (UniqKey × String)} {m : Idxmap}
    (h : (insertIdxmap us m).2 = false) : (insertIdxmap us m).1 = m ↔ ∃ u ∈ us.head?, u ∈ m := by
  cases us with
  | nil => cases h
  | cons u us =>
      simp only [List.head?_cons, Option.mem_some_iff, exists_eq_left']
      unfold insertIdxmap at h ⊢
      split_ifs at h ⊢ with hu
      · exact iff_of_true rfl hu
      · refine iff_of_false (fun heq => hu ?_) hu
        have hsub : insert u m ⊆ (insertIdxmap us (insert u m)).1 := subset_insertIdxmap rfl
        rw [heq] at hsub
        exact hsub (Finset.mem_insert_self u m)

/-- **What a refusal leaves behind**: nothing iff the constructor has raised, or the name was free,
the entity takes no index and the first of its uniqueness keys is one that is taken. -/
theorem refusal_leaves_no_trace_iff (h : Refused x a z) : NoTrace z (z.addEntity x a) ↔
    Raises x a z ∨ ∃ p, a.construct = some p ∧ z.entity? p.etype p.uuid = none ∧
      p.ilkKey = none ∧ ∃ u ∈ p.uniq.head?, u ∈ z.entityIdxmap := by
  by_cases hraises : Raises x a z
  · rw [addEntity_of_raises hraises]
    exact iff_of_true (NoTrace.refl z) (Or.inl hraises)
  · obtain ⟨htries, p, idx, g, hp, hg, htaken⟩ := h.resolve_left hraises
    simp only [hraises, false_or, hp, Option.some.injEq, exists_eq_left']
    rw [addEntity_of_keyTaken htries hp hg htaken]
    have hstays := insertIdxmap_refused_iff htaken
    constructor
    · intro hno
      have hold : z.entity? p.etype p.uuid = none :=
        (hno.live p.etype p.uuid).symm.trans (entity?_vacate z g p)
      have hsame : z.vacate g p = z.setIlkGroup g := move_of_none hold
      refine ⟨hold, ?_, ?_⟩
      · cases hkey : p.ilkKey with
        | none => rfl
        | some key =>
            have hg' : g = z.ilkGroup := (ilkGroup_vacate z g p).symm.trans hno.ilkGroup
            exact absurd hg' (getIlkIdx_ne hkey hg)
      · rw [hsame] at hstays
        refine hstays.mp ?_
        have hidx := hno.idxmap
        rwa [hsame] at hidx
    · rintro ⟨hold, hkey, hfirst⟩
      have hsame : z.vacate g p = z.setIlkGroup g := move_of_none hold
      rw [hsame] at hstays ⊢
      exact ⟨fun _ _ => rfl, hstays.mpr hfirst, ilkGroup_of_ilkKey_none hkey hg⟩

end refusal

/-- Two ports of one switch. -/
def twoPorts : Zoo :=
  (empty.addEntity (.node false "hv1")
      (.lsp "lsp-portA" (some "10.10.1.2") (some "00:00:06:08:06:03") "LS-A" none none)).addEntity
    (.node false "hv1")
    (.lsp "lsp-portB" (some "10.10.1.3") (some "00:00:06:08:06:04") "LS-A" none none)

set_option maxRecDepth 100000 in
/-- A port that asks for the MAC of another one is refused and lost. -/
theorem refusal_leaves_trace_portUpdate : ¬ ∀ (x : Extra) (a : Args) (z : Zoo), Reachable x z →
    Refused x a z → NoTrace z (z.addEntity x a) := by
  intro hall
  have hno := hall (.node false "hv1")
    (.lsp "lsp-portB" (some "10.10.1.3") (some "00:00:06:08:06:03") "LS-A" none none) twoPorts
    (.addEntity _ (.addEntity _ .empty))
    (Or.inr ⟨by decide +kernel, _, 0, twoPorts.ilkGroup, rfl, rfl, by decide +kernel⟩)
  have hlost : ((twoPorts.addEntity (.node false "hv1")
      (.lsp "lsp-portB" (some "10.10.1.3") (some "00:00:06:08:06:03") "LS-A" none none)).entity?
        .lsp "lsp-portB").isNone := by decide +kernel
  have hlive : (twoPorts.entity? .lsp "lsp-portB").isSome := by decide +kernel
  rw [hno.live, Option.isNone_iff_eq_none] at hlost
  rw [hlost] at hlive
  cases hlive

set_option maxRecDepth 100000 in
/-- What that port leaves behind. -/
theorem refusal_leaves_no_trace_iff_portUpdate :
    NoTrace twoPorts (twoPorts.addEntity (.node false "hv1")
        (.lsp "lsp-portB" (some "10.10.1.3") (some "00:00:06:08:06:03") "LS-A" none none)) ↔
      Raises (.node false "hv1") (.lsp "lsp-portB" (some "10.10.1.3") (some "00:00:06:08:06:03")
          "LS-A" none none) twoPorts ∨
        ∃ p, (Args.lsp "lsp-portB" (some "10.10.1.3") (some "00:00:06:08:06:03") "LS-A" none
            none).construct = some p ∧ twoPorts.entity? p.etype p.uuid = none ∧ p.ilkKey = none ∧
          ∃ u ∈ p.uniq.head?, u ∈ twoPorts.entityIdxmap :=
  refusal_leaves_no_trace_iff
    (Or.inr ⟨by decide +kernel, _, 0, twoPorts.ilkGroup, rfl, rfl, by decide +kernel⟩)

end Zoo

end TupleNet
