import TupleNet.Zoo.Refusal
import TupleNet.Lib.Cuts

/-! # Detection of conflicts

What `_insert_entity_idxmap` takes for a duplicate.

The uniqueness keys are glued together without a separator.  In a zoo that has refused nothing they
are exactly those of the live entities, so an entity is refused iff a live one has a key with the
same text (`refuses_iff_sharesKey`).  Two things make this differ from a conflict: the text of other
components can be cut so that it reads the same (`Miscut`, `glued_iff`), and one MAC or one id can
be spelled in two ways (`Respelt`, `respelled_iff`).  Detection is exact iff neither does any harm
(`detection_exact_iff`). -/

namespace TupleNet

open Text Cuts

namespace Zoo

/-! ### Conflicts -/

/-- The zoos that are reached while no addition is refused over a key. -/
inductive Unrefused (x : Extra) : Zoo → Prop
  | empty : Unrefused x empty
  | addEntity {z : Zoo} (a : Args) : Unrefused x z → ¬ KeyTaken x a z →
      Unrefused x (z.addEntity x a)
  | moveEntity2sink {z : Zoo} (t : EntityType) (key : String) : Unrefused x z →
      Unrefused x (z.moveEntity2sink t key)
  | touch {z : Zoo} (t : EntityType) (key : String) : Unrefused x z → Unrefused x (z.touch t key)
  | sweepZoo {z : Zoo} : Unrefused x z → Unrefused x z.sweepZoo

/-- The properties of some live entity. -/
def Live (z : Zoo) (q : Props) : Prop := ∃ t key, z.props? t key = some q

/-- The id of a switch or a router: a number, or the text of a switch id that is none. -/
def lsId (p : Ls) : ℤ ⊕ Option String :=
  (p.lsID.bind Text.parseInt).elim (.inr p.lsID) .inl

/-- The entities must not be live together. -/
def Conflict : Props → Props → Prop
  | .lsp p, .lsp q => p.lsUuid = q.lsUuid ∧ (p.ip = q.ip ∨ p.macInt = q.macInt)
  | .lrp p, .lrp q => p.lrUuid = q.lrUuid ∧ (p.ip = q.ip ∨ p.macInt = q.macInt)
  | .lsr p, .lsr q => p.lrUuid = q.lrUuid ∧ p.ip = q.ip ∧ p.prefixLen = q.prefixLen ∧
      p.nextHop = q.nextHop ∧ p.outport = q.outport
  | .lnat p, .lnat q => p.lrUuid = q.lrUuid ∧ p.ip = q.ip ∧ p.prefixLen = q.prefixLen ∧
      p.xlateType = q.xlateType
  | .LS p, .LS q => lsId p = lsId q
  | .LS p, .LR q => lsId p = .inl q.lrID
  | .LR p, .LS q => .inl p.lrID = lsId q
  | .LR p, .LR q => p.lrID = q.lrID
  | .chassis p, .chassis q => p.ip = q.ip ∧ p.tick = q.tick
  | .ovsport p, .ovsport q => p.ovsportName = q.ovsportName ∧ p.ifaceId = q.ifaceId ∧
      p.ofport = q.ofport
  | _, _ => False

/-- A uniqueness key of one is a uniqueness key of the other. -/
def SharesKey (p q : Props) : Prop := ∃ u ∈ p.uniq, u ∈ q.uniq

/-- The uniqueness keys are those of the live entities. -/
def Exact (z : Zoo) : Prop := ∀ u ∈ z.entityIdxmap, ∃ q, z.Live q ∧ u ∈ q.uniq

section exact
variable {x : Extra} {z : Zoo}

theorem Exact.of_same {z' : Zoo} (hz : Exact z) (hprops : ∀ t key, z'.props? t key = z.props? t key)
    (hidx : z'.entityIdxmap = z.entityIdxmap) : Exact z' := by
  intro u hu
  rw [hidx] at hu
  obtain ⟨q, ⟨t, key, hq⟩, huq⟩ := hz u hu
  exact ⟨q, ⟨t, key, (hprops t key).trans hq⟩, huq⟩

theorem Exact.of_agree {z' : Zoo} (hz : Exact z) (h : Agree z' z) : Exact z' :=
  hz.of_same h.props h.idxmap

theorem Exact.move (hz : Exact z) (hidx : Indexed z) (t : EntityType) (key : String) :
    Exact (z.moveEntity2sink t key) := by
  cases he : z.entity? t key with
  | none => rwa [move_of_none he]
  | some e =>
      intro u hu
      obtain ⟨hu, hne⟩ := (hidx.mem_idxmap_move he u).mp hu
      obtain ⟨q, ⟨t', key', hq⟩, huq⟩ := hz u hu
      refine ⟨q, ⟨t', key', ?_⟩, huq⟩
      rw [props?_moveEntity2sink, if_neg]
      · exact hq
      · rintro ⟨rfl, rfl⟩
        rw [props?, he] at hq
        obtain rfl := Option.some.inj hq
        exact hne huq

/-- What becomes live brings its keys along. -/
theorem Exact.enter {e : Entity} {m : Idxmap} (hz : Exact z)
    (hfree : z.entity? e.etype e.uuid = none)
    (hm : insertIdxmap e.uniq z.entityIdxmap = (m, true)) : Exact ((z.setIdxmap m).enter e) := by
  intro u hu
  rcases ((mem_insertIdxmap hm).1 u).mp hu with hu | hu
  · obtain ⟨q, ⟨t, key, hq⟩, huq⟩ := hz u hu
    refine ⟨q, ⟨t, key, ?_⟩, huq⟩
    rw [props?_enter, if_neg]
    · exact hq
    · rintro ⟨rfl, rfl⟩
      have hnone : z.props? e.row.props.etype e.row.props.uuid = none := by
        rw [props?]
        exact congrArg (Option.map _) hfree
      rw [hnone] at hq
      cases hq
  · exact ⟨e.row.props, ⟨e.etype, e.uuid, (props?_enter z m e _ _).trans (if_pos ⟨rfl, rfl⟩)⟩, hu⟩

theorem Exact.addEntity (hz : Exact z) (hidx : Indexed z) {a : Args} (h : ¬ KeyTaken x a z) :
    Exact (z.addEntity x a) := by
  rcases addEntity_outcome x a z with heq | ⟨p, idx, g, hp, hg, ⟨m, hm, heq⟩ | ⟨m, hm, heq⟩⟩
  · rwa [heq]
  · by_cases htries : Tries a z
    · exact absurd ⟨htries, p, idx, g, hp, hg, by rw [hm]⟩ h
    · have hsame : z.addEntity x a = z := by
        unfold Zoo.addEntity
        split
        · next hsome => exact absurd hsome htries
        · rfl
      rwa [hsame]
  · have hvacate : Exact (z.vacate g p) :=
      Exact.move (z := z.setIlkGroup g) hz (hidx.setIlk hg) _ _
    have hin := Exact.enter (e := ⟨⟨p, idx⟩, .ADD, shouldTouch x p⟩) hvacate
      (entity?_vacate z g p) hm
    rw [heq, takeIn]
    split_ifs
    · exact hin.of_agree (agree_touchGateway _ p)
    · exact hin

theorem Unrefused.reachable (h : Unrefused x z) : Reachable x z := by
  induction h with
  | empty => exact .empty
  | addEntity a _ _ ih => exact .addEntity a ih
  | moveEntity2sink t key _ ih => exact .moveEntity2sink t key ih
  | touch t key _ ih => exact .touch t key ih
  | sweepZoo _ ih => exact .sweepZoo ih

theorem Unrefused.exact (h : Unrefused x z) : Exact z := by
  induction h with
  | empty => exact fun u hu => absurd hu (Finset.notMem_empty u)
  | addEntity a hz hno ih => exact ih.addEntity hz.reachable.indexed hno
  | moveEntity2sink t key hz ih => exact ih.move hz.reachable.indexed t key
  | touch t key _ ih => exact ih.of_agree (agree_touch _ t key)
  | @sweepZoo z _ ih =>
      refine ih.of_same (fun t key => ?_) (foldl_eliminate_idxmap _ z)
      rw [props?, entity?_sweepZoo, Option.map_map]
      exact congrArg (fun f => (z.entity? t key).map f) (funext fun e => by simp [swept_row])

theorem insertIdxmap_refuses_iff {us : List (UniqKey × String)} (hnd : us.Nodup) {m : Idxmap} :
    (insertIdxmap us m).2 = false ↔ ∃ u ∈ us, u ∈ m := by
  constructor
  · intro hrefused
    by_contra hfree
    push Not at hfree
    obtain ⟨m', hm'⟩ := insertIdxmap_of_free hnd hfree
    rw [hm'] at hrefused
    cases hrefused
  · rintro ⟨u, hu, hm⟩
    rw [Bool.eq_false_iff]
    intro haccepted
    exact (mem_insertIdxmap (Prod.ext rfl haccepted)).2 u hu hm

/-- An entity is refused iff a live one has a key with the same text. -/
theorem refuses_iff_sharesKey (h : Unrefused x z) (p : Props) :
    (insertIdxmap p.uniq z.entityIdxmap).2 = false ↔ ∃ q, z.Live q ∧ SharesKey p q := by
  rw [insertIdxmap_refuses_iff p.uniq_nodup]
  constructor
  · rintro ⟨u, hu, hm⟩
    obtain ⟨q, hq, huq⟩ := h.exact u hm
    exact ⟨q, hq, u, hu, huq⟩
  · rintro ⟨q, ⟨t, key, hq⟩, u, hu, huq⟩
    obtain ⟨e, he, rfl⟩ := Option.map_eq_some_iff.mp hq
    exact ⟨u, hu, h.reachable.indexed.reserved t key e he u huq⟩

end exact

/-! ### Texts that are the same -/

/-- Different components make up the same text. -/
def Glued (p q : Props) : Prop := SharesKey p q ∧ ¬ Conflict p q

/-- `str` writes the missing property like the text `None`. -/
def NoneText (x y : Option String) : Prop :=
  (x = none ∧ y = some "None") ∨ (x = some "None" ∧ y = none)

/-- The texts are those of one text cut in two ways. -/
def RecutTexts (as bs : List String) : Prop := Recut (as.map String.toList) (bs.map String.toList)

/-- The name of one owner goes on with one or two digits with which the address in the other one
begins, or with something with which the MAC there begins. -/
def MiscutPort (owner ip mac owner' ip' mac' : String) : Prop :=
  (∃ s, OctetDigits s ∧ Shift s owner ip owner' ip') ∨ ∃ s, s ≠ "" ∧ Shift s owner mac owner' mac'

/-- The components of the entities differ and a key of one has the text of a key of the other. -/
def Miscut : Props → Props → Prop
  | .lsp p, .lsp q => MiscutPort p.lsUuid p.ip p.mac q.lsUuid q.ip q.mac
  | .lrp p, .lrp q => MiscutPort p.lrUuid p.ip p.mac q.lrUuid q.ip q.mac
  | .lsr p, .lsr q =>
      RecutTexts [p.lrUuid, p.ip, toString p.prefixLen, p.nextHop, Props.strOf p.outport]
        [q.lrUuid, q.ip, toString q.prefixLen, q.nextHop, Props.strOf q.outport] ∨
      (p.lrUuid = q.lrUuid ∧ p.ip = q.ip ∧ p.prefixLen = q.prefixLen ∧ p.nextHop = q.nextHop ∧
        NoneText p.outport q.outport)
  | .lnat p, .lnat q =>
      RecutTexts [p.lrUuid, p.ip, toString p.prefixLen, Props.strOf p.xlateType]
        [q.lrUuid, q.ip, toString q.prefixLen, Props.strOf q.xlateType] ∨
      (p.lrUuid = q.lrUuid ∧ p.ip = q.ip ∧ p.prefixLen = q.prefixLen ∧
        NoneText p.xlateType q.xlateType)
  | .LS p, .LS q => NoneText p.lsID q.lsID
  | .chassis p, .chassis q =>
      ∃ s, OctetDigits s ∧ Shift s p.ip (toString p.tick) q.ip (toString q.tick)
  | .ovsport p, .ovsport q => RecutTexts [p.ovsportName, p.ifaceId, toString p.ofport]
      [q.ovsportName, q.ifaceId, toString q.ofport]
  | _, _ => False

theorem strOf_eq_iff {x y : Option String} :
    Props.strOf x = Props.strOf y ↔ x = y ∨ NoneText x y := by
  cases x <;> cases y <;> simp [Props.strOf, NoneText, eq_comm]

theorem NoneText.ne {x y : Option String} (h : NoneText x y) : x ≠ y := by
  rcases h with ⟨rfl, rfl⟩ | ⟨rfl, rfl⟩ <;> nofun

theorem NoneText.symm {x y : Option String} (h : NoneText x y) : NoneText y x :=
  (Or.symm h).imp And.symm And.symm

theorem toString_int_inj {m n : ℤ} : toString m = toString n ↔ m = n := by
  refine ⟨fun h => ?_, fun h => by rw [h]⟩
  have hread := congrArg parseInt h
  rwa [parseInt_toString, parseInt_toString, Option.some.injEq] at hread

theorem toString_nat_inj {m n : ℕ} : toString m = toString n ↔ m = n := by
  refine ⟨fun h => ?_, fun h => by rw [h]⟩
  exact Int.natCast_inj.mp (toString_int_inj.mp h)

theorem recutTexts_iff {as bs : List String} (h : as.length = bs.length) : RecutTexts as bs ↔
    (as.map String.toList).flatten = (bs.map String.toList).flatten ∧ as ≠ bs := by
  rw [RecutTexts, recut_iff (by rw [List.length_map, List.length_map, h]), ne_eq, ne_eq,
    (List.map_injective_iff.mpr fun _ _ => String.toList_injective).eq_iff]

theorem quad_of_ip2int {ip : String} {n : ℕ} (h : ip2int ip = some n) : Quad ip :=
  (dottedQuad_isSome_iff ip).mp (Option.isSome_of_eq_some h)

/-- Two ports share a key without a conflict. -/
theorem miscutPort_iff {owner ip mac owner' ip' mac' : String} {n n' m m' : ℕ}
    (hip : ip2int ip = some n) (hip' : ip2int ip' = some n') (hmac : mac2int mac = some m)
    (hmac' : mac2int mac' = some m') : MiscutPort owner ip mac owner' ip' mac' ↔
      (owner ++ ip = owner' ++ ip' ∨ owner ++ mac = owner' ++ mac') ∧
        ¬ (owner = owner' ∧ (ip = ip' ∨ m = m')) := by
  have hquad := quad_of_ip2int hip
  have hquad' := quad_of_ip2int hip'
  rw [string_append_eq_append_iff_shift, string_append_eq_append_iff_shift]
  constructor
  · rintro (⟨s, hs, hshift⟩ | ⟨s, hs, hshift⟩)
    · exact ⟨Or.inl (Or.inr ⟨s, hs.ne_empty, hshift⟩), fun h => hshift.ne hs.ne_empty h.1⟩
    · exact ⟨Or.inr (Or.inr ⟨s, hs, hshift⟩), fun h => hshift.ne hs h.1⟩
  · rintro ⟨(hsame | ⟨s, hs, hshift⟩) | (⟨howner, rfl⟩ | ⟨s, hs, hshift⟩), hno⟩
    · exact absurd ⟨hsame.1, Or.inl hsame.2⟩ hno
    · refine Or.inl ⟨s, ?_, hshift⟩
      rcases hshift with ⟨_, hcut⟩ | ⟨_, hcut⟩
      · exact octetDigits_of_append_quad hs hquad hquad' hcut
      · exact octetDigits_of_append_quad hs hquad' hquad hcut
    · exact absurd ⟨howner, Or.inr (Option.some.inj (hmac.symm.trans hmac'))⟩ hno
    · exact Or.inr ⟨s, hs, hshift⟩

theorem miscut_chassis_iff {ip ip' : String} {tick tick' : ℤ} (hquad : Quad ip)
    (hquad' : Quad ip') :
    (∃ s, OctetDigits s ∧ Shift s ip (toString tick) ip' (toString tick')) ↔
      ip ++ toString tick = ip' ++ toString tick' ∧ ¬ (ip = ip' ∧ tick = tick') := by
  rw [string_append_eq_append_iff_shift, toString_int_inj]
  constructor
  · rintro ⟨s, hs, hshift⟩
    exact ⟨Or.inr ⟨s, hs.ne_empty, hshift⟩, fun hsame => hshift.ne hs.ne_empty hsame.1⟩
  · rintro ⟨hsame | ⟨s, hs, hshift⟩, hne⟩
    · exact absurd hsame hne
    · refine ⟨s, ?_, hshift⟩
      rcases hshift with ⟨hcut, _⟩ | ⟨hcut, _⟩
      · exact octetDigits_of_quad_append hs hquad' hquad hcut
      · exact octetDigits_of_quad_append hs hquad hquad' hcut

/-- Where the components are the same as texts, only a missing one can differ. -/
theorem glued_components {as bs : List String} (hlen : as.length = bs.length)
    {text conflict none : Prop}
    (htext : text ↔ (as.map String.toList).flatten = (bs.map String.toList).flatten)
    (hsame : as = bs ↔ conflict ∨ none) (hno : none → ¬ conflict) :
    (text ∧ ¬ conflict) ↔ RecutTexts as bs ∨ none := by
  rw [recutTexts_iff hlen, ← htext]
  constructor
  · rintro ⟨htext, hconflict⟩
    by_cases heq : as = bs
    · exact Or.inr ((hsame.mp heq).resolve_left hconflict)
    · exact Or.inl ⟨htext, heq⟩
  · rintro (⟨htext, hne⟩ | hnone)
    · exact ⟨htext, fun hconflict => hne (hsame.mpr (Or.inl hconflict))⟩
    · refine ⟨htext.mpr ?_, hno hnone⟩
      rw [hsame.mpr (Or.inr hnone)]

theorem parseInt_none : parseInt "None" = none := by decide

/-- A switch id that reads like a router id is this number. -/
theorem lsId_of_strOf_eq {p : Ls} {n : ℤ} (h : Props.strOf p.lsID = toString n) :
    lsId p = .inl n := by
  cases hid : p.lsID with
  | none =>
      rw [hid] at h
      have hread := congrArg parseInt h
      rw [parseInt_toString] at hread
      cases parseInt_none.symm.trans hread
  | some t =>
      rw [hid] at h
      obtain rfl : t = toString n := h
      rw [lsId, hid, Option.bind_some, parseInt_toString]
      rfl

theorem lsId_of_noneText {p q : Ls} (h : NoneText p.lsID q.lsID) : lsId p = .inr p.lsID := by
  rcases h with ⟨hid, _⟩ | ⟨hid, _⟩
  · rw [lsId, hid]
    rfl
  · rw [lsId, hid, Option.bind_some, parseInt_none]
    rfl

theorem glued_LS_iff {p q : Ls} : Glued (.LS p) (.LS q) ↔ NoneText p.lsID q.lsID := by
  have hshares : SharesKey (.LS p) (.LS q) ↔ p.lsID = q.lsID ∨ NoneText p.lsID q.lsID := by
    rw [← strOf_eq_iff]
    simp [SharesKey, Props.uniq]
  constructor
  · rintro ⟨h, hno⟩
    refine (hshares.mp h).resolve_left fun hsame => hno ?_
    rw [Conflict, lsId, lsId, hsame]
  · intro hnone
    refine ⟨hshares.mpr (Or.inr hnone), fun hsame => hnone.ne ?_⟩
    rw [Conflict, lsId_of_noneText hnone, lsId_of_noneText hnone.symm] at hsame
    exact Sum.inr.inj hsame

/-- **Which components read the same**: two entities share a key without a conflict iff the text of
their components is cut differently. -/
theorem glued_iff {p q : Props} (hp : p.Valid) (hq : q.Valid) : Glued p q ↔ Miscut p q := by
  cases p <;> cases q
  case lsp.lsp p q =>
    rw [Miscut, miscutPort_iff hp.1 hq.1 hp.2 hq.2]
    simp [Glued, SharesKey, Props.uniq, Conflict]
  case lrp.lrp p q =>
    rw [Miscut, miscutPort_iff hp.1 hq.1 hp.2.1 hq.2.1]
    simp [Glued, SharesKey, Props.uniq, Conflict]
  case chassis.chassis p q =>
    obtain ⟨n, hn⟩ := Option.isSome_iff_exists.mp hp
    obtain ⟨n', hn'⟩ := Option.isSome_iff_exists.mp hq
    rw [Miscut, miscut_chassis_iff (quad_of_ip2int hn) (quad_of_ip2int hn')]
    simp [Glued, SharesKey, Props.uniq, Conflict, String.append_assoc]
  case lsr.lsr p q =>
    rw [Glued, Miscut]
    refine glued_components (by rfl) ?_ ?_ ?_
    · simp [SharesKey, Props.uniq, ← String.toList_inj]
    · simp only [List.cons.injEq, toString_nat_inj, strOf_eq_iff, Conflict]
      tauto
    · exact fun hnone hsame => hnone.2.2.2.2.ne hsame.2.2.2.2
  case lnat.lnat p q =>
    rw [Glued, Miscut]
    refine glued_components (by rfl) ?_ ?_ ?_
    · simp [SharesKey, Props.uniq, ← String.toList_inj]
    · simp only [List.cons.injEq, toString_int_inj, strOf_eq_iff, Conflict]
      tauto
    · exact fun hnone hsame => hnone.2.2.2.ne hsame.2.2.2
  case ovsport.ovsport p q =>
    rw [Glued, Miscut, ← or_false (RecutTexts _ _)]
    refine glued_components (by rfl) ?_ ?_ False.elim
    · simp [SharesKey, Props.uniq, ← String.toList_inj]
    · simp only [List.cons.injEq, toString_int_inj, Conflict]
      tauto
  case LS.LS p q => exact glued_LS_iff
  case LS.LR p q =>
    refine iff_of_false (fun hglued => hglued.2 ?_) id
    exact lsId_of_strOf_eq (by simpa [SharesKey, Props.uniq] using hglued.1)
  case LR.LS p q =>
    refine iff_of_false (fun hglued => hglued.2 ?_) id
    exact (lsId_of_strOf_eq (by simpa [SharesKey, Props.uniq, eq_comm] using hglued.1)).symm
  case LR.LR p q =>
    refine iff_of_false (fun hglued => hglued.2 ?_) id
    exact toString_int_inj.mp (by simpa [SharesKey, Props.uniq] using hglued.1)
  all_goals
    refine iff_of_false (fun hglued => ?_) id
    simpa [SharesKey, Props.uniq] using hglued.1

/-! ### Components that are spelled differently -/

/-- The same component is spelled differently. -/
def Respelled (p q : Props) : Prop := Conflict p q ∧ ¬ SharesKey p q

/-- One MAC number of ports with different addresses, or one number of switches and routers, is
written in two ways. -/
def Respelt : Props → Props → Prop
  | .lsp p, .lsp q => p.lsUuid = q.lsUuid ∧ p.ip ≠ q.ip ∧ p.macInt = q.macInt ∧ p.mac ≠ q.mac
  | .lrp p, .lrp q => p.lrUuid = q.lrUuid ∧ p.ip ≠ q.ip ∧ p.macInt = q.macInt ∧ p.mac ≠ q.mac
  | .LS p, .LS q => ∃ n, p.lsID.bind parseInt = some n ∧ q.lsID.bind parseInt = some n ∧
      p.lsID ≠ q.lsID
  | .LS p, .LR q => p.lsID.bind parseInt = some q.lrID ∧ p.lsID ≠ some (toString q.lrID)
  | .LR p, .LS q => q.lsID.bind parseInt = some p.lrID ∧ q.lsID ≠ some (toString p.lrID)
  | _, _ => False

theorem respelled_port {owner ip mac owner' ip' mac' : String} {m m' : ℕ} :
    ((owner = owner' ∧ (ip = ip' ∨ m = m')) ∧
        ¬ (owner ++ ip = owner' ++ ip' ∨ owner ++ mac = owner' ++ mac')) ↔
      owner = owner' ∧ ip ≠ ip' ∧ m = m' ∧ mac ≠ mac' := by
  constructor
  · rintro ⟨⟨rfl, hsame⟩, hno⟩
    rw [String.append_right_inj, String.append_right_inj, not_or] at hno
    exact ⟨rfl, hno.1, hsame.resolve_left hno.1, hno.2⟩
  · rintro ⟨rfl, hip, hnum, hmac⟩
    rw [String.append_right_inj, String.append_right_inj, not_or]
    exact ⟨⟨rfl, Or.inr hnum⟩, hip, hmac⟩

theorem lsId_eq_inl_iff {p : Ls} {n : ℤ} : lsId p = .inl n ↔ p.lsID.bind parseInt = some n := by
  unfold lsId
  cases p.lsID.bind parseInt <;> simp

theorem respelled_LS_iff {p q : Ls} : Respelled (.LS p) (.LS q) ↔ Respelt (.LS p) (.LS q) := by
  have hshares : SharesKey (.LS p) (.LS q) ↔ Props.strOf p.lsID = Props.strOf q.lsID := by
    simp [SharesKey, Props.uniq]
  rw [Respelled, Respelt, hshares, Conflict]
  constructor
  · rintro ⟨hsame, hno⟩
    have hne : p.lsID ≠ q.lsID := fun heq => hno (by rw [heq])
    cases hnum : p.lsID.bind parseInt with
    | some n => exact ⟨n, rfl, lsId_eq_inl_iff.mp (hsame ▸ lsId_eq_inl_iff.mpr hnum), hne⟩
    | none =>
        have hp : lsId p = .inr p.lsID := by rw [lsId, hnum]; rfl
        cases hnum' : q.lsID.bind parseInt with
        | some n =>
            rw [hp, lsId_eq_inl_iff.mpr hnum'] at hsame
            cases hsame
        | none =>
            have hq : lsId q = .inr q.lsID := by rw [lsId, hnum']; rfl
            rw [hp, hq] at hsame
            exact absurd (Sum.inr.inj hsame) hne
  · rintro ⟨n, hp, hq, hne⟩
    refine ⟨by rw [lsId_eq_inl_iff.mpr hp, lsId_eq_inl_iff.mpr hq], fun htext => ?_⟩
    have hnone := (strOf_eq_iff.mp htext).resolve_left hne
    cases (lsId_of_noneText hnone).symm.trans (lsId_eq_inl_iff.mpr hp)

theorem respelled_LS_LR {p : Ls} {n : ℤ} : (lsId p = .inl n ∧ Props.strOf p.lsID ≠ toString n) ↔
    p.lsID.bind parseInt = some n ∧ p.lsID ≠ some (toString n) := by
  rw [lsId_eq_inl_iff]
  refine and_congr_right fun hnum => not_congr ?_
  cases hid : p.lsID with
  | none =>
      rw [hid] at hnum
      cases hnum
  | some t => exact Option.some_inj.symm

/-- **Which components conflict unnoticed**: two entities conflict without sharing a key iff one MAC
or one id is spelled in two ways. -/
theorem respelled_iff {p q : Props} : Respelled p q ↔ Respelt p q := by
  cases p <;> cases q
  case lsp.lsp p q =>
    rw [Respelt, ← respelled_port]
    simp [Respelled, Conflict, SharesKey, Props.uniq]
  case lrp.lrp p q =>
    rw [Respelt, ← respelled_port]
    simp [Respelled, Conflict, SharesKey, Props.uniq]
  case LS.LS p q => exact respelled_LS_iff
  case LS.LR p q =>
    rw [Respelt, ← respelled_LS_LR]
    simp [Respelled, Conflict, SharesKey, Props.uniq]
  case LR.LS p q =>
    rw [Respelt, ← respelled_LS_LR]
    simp [Respelled, Conflict, SharesKey, Props.uniq, eq_comm]
  case lsr.lsr p q =>
    refine iff_of_false (fun h => h.2 ?_) id
    obtain ⟨⟨howner, hip, hprefix, hnext, hout⟩, _⟩ := h
    simp [SharesKey, Props.uniq, howner, hip, hprefix, hnext, hout]
  case lnat.lnat p q =>
    refine iff_of_false (fun h => h.2 ?_) id
    obtain ⟨⟨howner, hip, hprefix, htype⟩, _⟩ := h
    simp [SharesKey, Props.uniq, howner, hip, hprefix, htype]
  case LR.LR p q =>
    refine iff_of_false (fun h => h.2 ?_) id
    simp [SharesKey, Props.uniq, show p.lrID = q.lrID from h.1]
  case chassis.chassis p q =>
    refine iff_of_false (fun h => h.2 ?_) id
    simp [SharesKey, Props.uniq, h.1.1, h.1.2]
  case ovsport.ovsport p q =>
    refine iff_of_false (fun h => h.2 ?_) id
    obtain ⟨⟨hname, hid, hport⟩, _⟩ := h
    simp [SharesKey, Props.uniq, hname, hid, hport]
  all_goals exact iff_of_false (fun h => h.1) id

/-! ### Exact detection -/

/-- Ports of one switch or router with the same address or the same MAC. -/
def PortsConflict : Props → Props → Prop
  | .lsp p, .lsp q => p.lsUuid = q.lsUuid ∧ (p.ip = q.ip ∨ p.macInt = q.macInt)
  | .lrp p, .lrp q => p.lrUuid = q.lrUuid ∧ (p.ip = q.ip ∨ p.macInt = q.macInt)
  | _, _ => False

/-- A new entity for which detection is exact: one that reads like a live entity with other
components is a port that conflicts with another live port; one that is spelled differently than a
live entity in conflict reads like a third one, or conflicts with a third one that is spelled the
same. -/
structure Clear (z : Zoo) (p : Props) : Prop where
  cut : ∀ q, z.Live q → Miscut p q → ∃ q', z.Live q' ∧ PortsConflict p q'
  spelling : ∀ q, z.Live q → Respelt p q →
    ∃ q', z.Live q' ∧ (Miscut p q' ∨ (Conflict p q' ∧ ¬ Respelt p q'))

theorem PortsConflict.conflict {p q : Props} (h : PortsConflict p q) : Conflict p q := by
  cases p <;> cases q <;> first | exact h | exact h.elim

theorem sharesKey_iff {p q : Props} (hp : p.Valid) (hq : q.Valid) :
    SharesKey p q ↔ Miscut p q ∨ (Conflict p q ∧ ¬ Respelt p q) := by
  rw [← glued_iff hp hq, ← respelled_iff, Glued, Respelled]
  tauto

/-- Only ports have more than one key. -/
theorem portsConflict_or_single {p q : Props} (h : Conflict p q) :
    PortsConflict p q ∨ ∃ u, p.uniq = [u] := by
  cases p <;> first
    | exact Or.inr ⟨_, rfl⟩
    | (cases q <;> exact Or.inl h)

/-- An id that reads like a missing one is no number. -/
theorem not_respelt_of_miscut {p q q' : Props} {u : UniqKey × String} (hu : p.uniq = [u])
    (hcut : Miscut p q) : ¬ Respelt p q' := by
  intro hspelt
  cases p
  case LS p =>
    have hno : lsId p = .inr p.lsID := by
      cases q <;> first | exact lsId_of_noneText hcut | exact hcut.elim
    have hnum : ∃ n, p.lsID.bind parseInt = some n := by
      cases q' <;> first | exact ⟨_, hspelt.1⟩ | exact ⟨_, hspelt.choose_spec.1⟩ | exact hspelt.elim
    obtain ⟨n, hn⟩ := hnum
    cases hno.symm.trans (lsId_eq_inl_iff.mpr hn)
  case LR p => cases q <;> exact hcut.elim
  all_goals cases q' <;> first | exact hspelt.elim | cases hu

section live
variable {z : Zoo}

theorem Indexed.valid_of_live (h : Indexed z) {q : Props} (hq : z.Live q) : q.Valid := by
  obtain ⟨t, key, hq⟩ := hq
  obtain ⟨e, he, rfl⟩ := Option.map_eq_some_iff.mp hq
  exact h.valid t key e he

/-- Two live entities that have one key are the same. -/
theorem Indexed.eq_of_sharesKey (h : Indexed z) {q q' : Props} (hq : z.Live q) (hq' : z.Live q')
    (hshares : SharesKey q q') : q = q' := by
  obtain ⟨t, key, hq⟩ := hq
  obtain ⟨t', key', hq'⟩ := hq'
  obtain ⟨u, hu, hu'⟩ := hshares
  by_cases hkey : (t, key) = (t', key')
  · obtain ⟨rfl, rfl⟩ := Prod.mk.inj hkey
    exact Option.some.inj (hq.symm.trans hq')
  · obtain ⟨e, he, rfl⟩ := Option.map_eq_some_iff.mp hq
    obtain ⟨e', he', rfl⟩ := Option.map_eq_some_iff.mp hq'
    exact absurd hu' (h.apart t key e t' key' e' he he' hkey u hu)

/-- Of the entities with one key only, one that reads like a live one conflicts with none. -/
theorem portsConflict_of_glued (h : Indexed z) {p q q' : Props} (hp : p.Valid) (hq : z.Live q)
    (hq' : z.Live q') (hglued : Glued p q) (hconflict : Conflict p q') : PortsConflict p q' := by
  refine (portsConflict_or_single hconflict).resolve_right ?_
  rintro ⟨u, hu⟩
  by_cases hshares : SharesKey p q'
  · obtain ⟨v, hv, hvq⟩ := hglued.1
    obtain ⟨v', hv', hvq'⟩ := hshares
    rw [hu, List.mem_singleton] at hv hv'
    subst hv hv'
    obtain rfl := h.eq_of_sharesKey hq hq' ⟨_, hvq, hvq'⟩
    exact hglued.2 hconflict
  · exact not_respelt_of_miscut hu ((glued_iff hp (h.valid_of_live hq)).mp hglued)
      (respelled_iff.mp ⟨hconflict, hshares⟩)

end live

/-- **Conflict detection**: a new entity is refused exactly for a conflict iff neither a text that
is cut differently nor a component that is spelled differently does any harm. -/
theorem detection_exact_iff {x : Extra} {z : Zoo} (h : Unrefused x z) {a : Args} {p : Props}
    (ha : a.construct = some p) :
    ((insertIdxmap p.uniq z.entityIdxmap).2 = false ↔ ∃ q, z.Live q ∧ Conflict p q) ↔
      Clear z p := by
  have hindexed := h.reachable.indexed
  have hp := Args.construct_valid ha
  rw [refuses_iff_sharesKey h p]
  constructor
  · intro hexact
    constructor
    · intro q hq hcut
      have hglued := (glued_iff hp (hindexed.valid_of_live hq)).mpr hcut
      obtain ⟨q', hq', hconflict⟩ := hexact.mp ⟨q, hq, hglued.1⟩
      exact ⟨q', hq', portsConflict_of_glued hindexed hp hq hq' hglued hconflict⟩
    · intro q hq hspelt
      obtain ⟨q', hq', hshares⟩ := hexact.mpr ⟨q, hq, (respelled_iff.mpr hspelt).1⟩
      exact ⟨q', hq', (sharesKey_iff hp (hindexed.valid_of_live hq')).mp hshares⟩
  · intro hclear
    constructor
    · rintro ⟨q, hq, hshares⟩
      rcases (sharesKey_iff hp (hindexed.valid_of_live hq)).mp hshares with hcut | ⟨hconflict, _⟩
      · obtain ⟨q', hq', hports⟩ := hclear.cut q hq hcut
        exact ⟨q', hq', hports.conflict⟩
      · exact ⟨q, hq, hconflict⟩
    · rintro ⟨q, hq, hconflict⟩
      by_cases hshares : SharesKey p q
      · exact ⟨q, hq, hshares⟩
      · obtain ⟨q', hq', hread⟩ := hclear.spelling q hq (respelled_iff.mp ⟨hconflict, hshares⟩)
        exact ⟨q', hq', (sharesKey_iff hp (hindexed.valid_of_live hq')).mpr hread⟩

theorem not_keyTaken_of_accepted {x : Extra} {a : Args} {z : Zoo} {p : Props} {idx : ℕ}
    {g : IlkGroup} (hp : a.construct = some p) (hg : getIlkIdx x p z.ilkGroup = some (idx, g))
    (hfree : (insertIdxmap p.uniq (z.vacate g p).entityIdxmap).2 = true) : ¬ KeyTaken x a z := by
  rintro ⟨_, p', idx', g', hp', hg', htaken⟩
  obtain rfl := Option.some.inj (hp.symm.trans hp')
  obtain ⟨rfl, rfl⟩ := Prod.mk.inj (Option.some.inj (hg.symm.trans hg'))
  rw [hfree] at htaken
  cases htaken

theorem not_keyTaken_empty (x : Extra) (a : Args) : ¬ KeyTaken x a empty := by
  rintro ⟨_, p, idx, g, _, _, htaken⟩
  have hsame : empty.vacate g p = empty.setIlkGroup g := move_of_none (entity?_empty p.etype p.uuid)
  rw [hsame, insertIdxmap_refuses_iff p.uniq_nodup] at htaken
  obtain ⟨u, _, hu⟩ := htaken
  exact Finset.notMem_empty u hu

set_option maxRecDepth 100000 in
theorem unrefused_twoPorts : Unrefused (.node false "hv1") twoPorts :=
  .addEntity _ (.addEntity _ .empty (not_keyTaken_empty _ _))
    (not_keyTaken_of_accepted rfl rfl (by decide +kernel))

/-- A third port with the MAC of the first one, written with dashes. -/
theorem detection_exact_iff_respeltMac :
    ((insertIdxmap (Props.lsp ⟨"lsp-portC", "10.10.1.4", 168427780, "00-00-06-08-06-03", 101189123,
          none, "LS-A", none⟩).uniq twoPorts.entityIdxmap).2 = false ↔
        ∃ q, twoPorts.Live q ∧ Conflict (.lsp ⟨"lsp-portC", "10.10.1.4", 168427780,
          "00-00-06-08-06-03", 101189123, none, "LS-A", none⟩) q) ↔
      Clear twoPorts (.lsp ⟨"lsp-portC", "10.10.1.4", 168427780, "00-00-06-08-06-03", 101189123,
        none, "LS-A", none⟩) :=
  detection_exact_iff (a := .lsp "lsp-portC" (some "10.10.1.4") (some "00-00-06-08-06-03") "LS-A"
    none none) unrefused_twoPorts (by decide)

set_option maxRecDepth 100000 in
/-- `11.2.3.4` in the switch `A` is taken for `1.2.3.4` in the switch `A1`. -/
theorem detection_not_exact_gluedAddress : ¬ ∀ (x : Extra) (z : Zoo), Unrefused x z →
    ∀ (a : Args) p, a.construct = some p → z.entity? p.etype p.uuid = none →
      ((insertIdxmap p.uniq z.entityIdxmap).2 = false ↔ ∃ q, z.Live q ∧ Conflict p q) := by
  intro hall
  have hp : (Args.lsp "lsp-portA" (some "1.2.3.4") (some "00:00:06:08:06:03") "A1" none
      none).construct = some (.lsp ⟨"lsp-portA", "1.2.3.4", 16909060, "00:00:06:08:06:03",
        101189123, none, "A1", none⟩) := by decide
  have hexact := hall (.node false "hv1") _
    (.addEntity (.lsp "lsp-portA" (some "1.2.3.4") (some "00:00:06:08:06:03") "A1" none none) .empty
      (not_keyTaken_empty _ _))
    (.lsp "lsp-portB" (some "11.2.3.4") (some "00:00:06:08:06:04") "A" none none)
    (.lsp ⟨"lsp-portB", "11.2.3.4", 184681220, "00:00:06:08:06:04", 101189124, none, "A", none⟩)
    (by decide) (by decide +kernel)
  obtain ⟨q, ⟨t, key, hq⟩, hconflict⟩ := hexact.mp (by decide +kernel)
  by_cases hkey : t = .lsp ∧ key = "lsp-portA"
  · obtain ⟨rfl, rfl⟩ := hkey
    have hlive : (empty.addEntity (.node false "hv1") (.lsp "lsp-portA" (some "1.2.3.4")
        (some "00:00:06:08:06:03") "A1" none none)).props? .lsp "lsp-portA" =
          some (.lsp ⟨"lsp-portA", "1.2.3.4", 16909060, "00:00:06:08:06:03", 101189123, none, "A1",
            none⟩) := by decide +kernel
    obtain rfl := Option.some.inj (hlive.symm.trans hq)
    exact absurd hconflict.1 (by decide)
  · rw [props?_addEntity_of_ne hp hkey, props?, entity?_empty] at hq
    cases hq

end Zoo

end TupleNet
