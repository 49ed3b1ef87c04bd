import TupleNet.Control.DeletePlan

/-! # Recursive deletes

`Controller.Delete(true, dev)` of a switch or a router by a client that runs alone.  Its transaction
demands that the ip book of the device is stored, which it is only while the device has ports, so
the deletion of a device without ports fails; and it deletes what lies below the key of the book, as
if that belonged to the device. -/

namespace TupleNet.Control

open TxnStore

/-- A switch or a router with the key of its ip book and its id. -/
inductive Owner : Device → String → ℕ → Prop where
  | switch (s : Switch) : Owner (.switch s) (switchIPBookPath s.name) s.id
  | router (r : Router) : Owner (.router r) (routerIPBookPath r.name) r.id

/-- What a recursive delete is to do: the device, all below it and its book are gone, its id is
free, and all other keys are as before. -/
structure RemovesSubtree (codec : BitmapCodec) (db : Store Stored) (dev : Device) (book : String)
    (id : ℕ) (res : Store Stored × Outcome) : Prop where
  ok : res.2 = .ok
  gone : ∀ key, Within dev.path key → res.1 key = none
  bookGone : res.1 book = none
  ids : bits codec res.1 deviceIDsPath = (bits codec db deviceIDsPath).erase id
  kept : ∀ key, ¬ Within dev.path key → key ≠ book → key ≠ deviceIDsPath → res.1 key = db key

/-- The keys that the transaction demands are stored, and nothing lies below the book. -/
structure Deletable (db : Store Stored) (book : String) : Prop where
  bookStored : db book ≠ none
  idsStored : db deviceIDsPath ≠ none
  below : ∀ key, (book ++ "/").toList <+: key.toList → db key = none

section delete
variable {codec : BitmapCodec} {order : List (String × MapEntry) → List (String × MapEntry)}
  {dev : Device} {book : String} {id : ℕ} {db : Store Stored}

theorem Owner.deleteKeys (h : Owner dev book id) :
    deleteKeys true dev = [dev.path, book] := by
  cases h <;> rfl

theorem Owner.bit (h : Owner dev book id) : dev.bit = some (deviceIDsPath, id) := by
  cases h <;> rfl

theorem Owner.isMapKey (h : Owner dev book id) : IsMapKey book := by
  cases h with
  | switch s => exact Or.inr ⟨s.name, Or.inl rfl⟩
  | router r => exact Or.inr ⟨r.name, Or.inr rfl⟩

/-- What the bitmap of ids has been when it is read, and without the id of the device. -/
def idsEntry (codec : BitmapCodec) (db : Store Stored) (id : ℕ) : MapEntry :=
  ⟨(bits codec db deviceIDsPath).erase id, ((db deviceIDsPath).map Stored.raw).getD ""⟩

/-- What the call has collected. -/
def deleteState (codec : BitmapCodec) (db : Store Stored) (dev : Device) (id : ℕ) : TxnState :=
  (deleteKeys true dev).foldl (fun st key => st.remove true key)
    (TxnState.empty.setMap deviceIDsPath (idsEntry codec db id))

/-- The same for a call that is recursive or not. -/
def deleteStateFor (recursive : Bool) (codec : BitmapCodec) (db : Store Stored) (dev : Device)
    (id : ℕ) : TxnState :=
  (deleteKeys recursive dev).foldl (fun st key => st.remove recursive key)
    (TxnState.empty.setMap deviceIDsPath (idsEntry codec db id))

section anyDelete
variable {recursive : Bool}

theorem Owner.deletePlanFor (h : Owner dev book id) :
    DeletePlan codec recursive (deleteStateFor recursive codec db dev id) [dev] := by
  have hcurrent : Current codec TxnState.empty deviceIDsPath
      ⟨bits codec db deviceIDsPath, ((db deviceIDsPath).map Stored.raw).getD ""⟩ :=
    Or.inr ⟨rfl, rfl⟩
  exact DeletePlan.empty.remove_bit hcurrent h.bit

theorem deleteStateFor_lookup (key : String) :
    (deleteStateFor recursive codec db dev id).idMaps.lookup key =
      if key = deviceIDsPath then some (idsEntry codec db id) else none := by
  rw [deleteStateFor, (foldl_remove recursive _ _).2.2]
  exact Dict.lookup_insert_eq _ _ _ _

/-- The call reads the ids and tries its transaction. -/
theorem Owner.exec_deleteFor (h : Owner dev book id) (recursive : Bool) (codec : BitmapCodec)
    (order : List (String × MapEntry) → List (String × MapEntry)) (db : Store Stored) :
    (delete codec order recursive [dev]).exec Stored.raw db =
      let t := deleteTxn codec order (deleteStateFor recursive codec db dev id)
      if t.Accepted ∧ t.Holds Stored.raw db then (t.apply db, .ok) else (db, .error) := by
  have hread : ∀ next : TxnState → Client, (returnID codec id .empty next).exec Stored.raw db =
      (next (TxnState.empty.setMap deviceIDsPath (idsEntry codec db id))).exec Stored.raw db := by
    intro next
    rfl
  have hcommit : ∀ t : Txn Stored, (commit t).exec Stored.raw db =
      if t.Accepted ∧ t.Holds Stored.raw db then (t.apply db, Outcome.ok) else (db, .error) := by
    intro t
    unfold commit
    rw [Prog.exec]
    by_cases hacc : t.Accepted
    · by_cases hholds : t.Holds Stored.raw db
      · rw [if_neg (not_not.mpr hacc), if_pos hholds, if_pos ⟨hacc, hholds⟩]
        rfl
      · rw [if_neg (not_not.mpr hacc), if_neg hholds, if_neg fun h => hholds h.2]
        rfl
    · rw [if_pos hacc, if_neg fun h => hacc h.1]
      rfl
  cases h with
  | switch s =>
      rw [delete, deleteLoop, hread]
      exact hcommit _
  | router r =>
      rw [delete, deleteLoop, hread]
      exact hcommit _

/-! ### The transaction -/

theorem deleteStateFor_items : (deleteStateFor recursive codec db dev id).idMaps.items =
    [(deviceIDsPath, idsEntry codec db id)] := by
  rw [deleteStateFor, (foldl_remove recursive _ _).2.2]
  rfl

variable (horder : ∀ l, (order l).Perm l) (h : Owner dev book id)
include horder h

theorem Owner.opsFor : (deleteTxn codec order (deleteStateFor recursive codec db dev id)).ops =
    (Control.deleteKeys recursive dev).flatMap (removeOps recursive) ++
      deleteOps codec (deviceIDsPath, idsEntry codec db id) := by
  have hitems : order (deleteStateFor recursive codec db dev id).idMaps.items =
      [(deviceIDsPath, idsEntry codec db id)] := by
    refine List.perm_singleton.mp ((horder _).trans ?_)
    rw [deleteStateFor_items]
  rw [deleteTxn, h.deletePlanFor.ops, hitems, List.flatMap_singleton, List.flatMap_singleton]

/-- The transaction touches no key twice. -/
theorem Owner.acceptedFor :
    (deleteTxn codec order (deleteStateFor recursive codec db dev id)).Accepted := by
  have hkept : ¬ Removed recursive [dev] deviceIDsPath := by
    intro hremoved
    obtain ⟨_, k, hk, hdel⟩ := hremoved.book (Or.inl rfl)
    have hi : k.toList[1]? = some 'i' := by
      rcases hk with ⟨s, _, rfl⟩ | ⟨r, _, rfl⟩
      · exact (switchIPBookPath_start s.name).2
      · exact (routerIPBookPath_start r.name).2
    exact absurd (start_of_deletes hdel hi) (by decide)
  unfold Txn.Accepted
  rw [h.opsFor horder, putKeys_removeOps]
  unfold deleteOps
  split_ifs with h1 h2
  · exact ⟨List.nodup_nil, fun key hkey => by cases hkey⟩
  · refine ⟨List.nodup_singleton _, fun key hkey o ho hdel => ?_⟩
    obtain rfl := List.mem_singleton.mp hkey
    rcases List.mem_append.mp ho with ho | ho
    · obtain ⟨k, hk, ho⟩ := List.mem_flatMap.mp ho
      exact hkept ⟨dev, List.mem_singleton.mpr rfl, k, hk, o, ho, hdel⟩
    · rw [List.mem_singleton.mp ho] at hdel
      exact hdel
  · exact ⟨List.nodup_nil, fun key hkey => by cases hkey⟩

/-- The comparisons hold when the keys are stored. -/
theorem Owner.holds_iffFor :
    (deleteTxn codec order (deleteStateFor recursive codec db dev id)).Holds Stored.raw db ↔
      (∀ k ∈ Control.deleteKeys recursive dev, db k ≠ none) ∧ db deviceIDsPath ≠ none := by
  have hplan : DeletePlan codec recursive (deleteStateFor recursive codec db dev id) [dev] :=
    h.deletePlanFor
  unfold Txn.Holds
  simp only [hplan.mem_cmps horder, deleteStateFor_lookup, List.mem_singleton]
  constructor
  · intro hall
    refine ⟨fun k hk => hall (.keyExists k) (Or.inl ⟨dev, rfl, k, hk, rfl⟩), fun hnone => ?_⟩
    have hvalue := hall (.valueIs deviceIDsPath (idsEntry codec db id).oldVal)
      (Or.inr ⟨deviceIDsPath, _, if_pos rfl, rfl⟩)
    rw [Cmp.Holds, hnone] at hvalue
    cases hvalue
  · rintro ⟨hkeys, hids⟩ c (⟨d, rfl, k, hk, rfl⟩ | ⟨key, e, he, rfl⟩)
    · exact hkeys k hk
    · split_ifs at he with hkey
      obtain rfl := Option.some.inj he
      obtain ⟨v, hv⟩ := Option.ne_none_iff_exists'.mp hids
      rw [Cmp.Holds, hkey, idsEntry, hv]
      rfl

end anyDelete

/-! ### The recursive transaction -/

theorem Owner.deletePlan (h : Owner dev book id) :
    DeletePlan codec true (deleteState codec db dev id) [dev] := h.deletePlanFor

theorem deleteState_lookup (key : String) : (deleteState codec db dev id).idMaps.lookup key =
    if key = deviceIDsPath then some (idsEntry codec db id) else none := deleteStateFor_lookup key

theorem Owner.exec_delete (h : Owner dev book id) (codec : BitmapCodec)
    (order : List (String × MapEntry) → List (String × MapEntry)) (db : Store Stored) :
    (delete codec order true [dev]).exec Stored.raw db =
      let t := deleteTxn codec order (deleteState codec db dev id)
      if t.Accepted ∧ t.Holds Stored.raw db then (t.apply db, .ok) else (db, .error) :=
  h.exec_deleteFor true codec order db

variable (horder : ∀ l, (order l).Perm l) (h : Owner dev book id)
include horder h

theorem Owner.accepted : (deleteTxn codec order (deleteState codec db dev id)).Accepted :=
  h.acceptedFor horder

/-- The comparisons hold when the keys are stored. -/
theorem Owner.holds_iff (hstored : db dev.path ≠ none) :
    (deleteTxn codec order (deleteState codec db dev id)).Holds Stored.raw db ↔
      db book ≠ none ∧ db deviceIDsPath ≠ none := by
  have hiff : (deleteTxn codec order (deleteStateFor true codec db dev id)).Holds Stored.raw db ↔
      (∀ k ∈ Control.deleteKeys true dev, db k ≠ none) ∧ db deviceIDsPath ≠ none :=
    h.holds_iffFor horder
  rw [h.deleteKeys] at hiff
  simp only [List.forall_mem_cons, hstored, List.not_mem_nil, false_imp_iff, implies_true, and_true,
    ne_eq, not_false_eq_true, true_and] at hiff
  exact hiff

omit horder in
theorem Owner.removed_iff {key : String} : Removed true [dev] key ↔
    Within dev.path key ∨ Within book key := by
  unfold Removed Within
  simp only [exists_eq_left, h.deleteKeys, mem_removeOps, true_and,
    List.mem_cons, List.not_mem_nil, or_false, or_and_right, exists_or, exists_eq_left,
    eq_comm (a := key)]

/-- A key other than that of the ids that is not removed keeps its value. -/
theorem Owner.apply_of_kept {key : String} (hne : key ≠ deviceIDsPath)
    (hkept : ¬ Removed true [dev] key) :
    (deleteTxn codec order (deleteState codec db dev id)).apply db key = db key := by
  have hplan : DeletePlan codec true (deleteState codec db dev id) [dev] := h.deletePlan
  refine applyOps_of_untouched (fun o ho hdel => ?_) (fun hput => ?_) db
  · rcases hplan.of_deletes horder ho hdel with hremoved | ⟨e, he, _⟩
    · exact hkept hremoved
    · rw [deleteState_lookup, if_neg hne] at he
      cases he
  · obtain ⟨v, hv⟩ := mem_putKeys.mp hput
    obtain ⟨e, he, _⟩ := hplan.of_put horder hv
    rw [deleteState_lookup, if_neg hne] at he
    cases he

omit horder in
/-- The second character tells what lies below the device from what lies below its book, and both
from the ids. -/
theorem Owner.second {key : String} :
    (Within dev.path key → key.toList[1]? = some 'e') ∧
      (Within book key → key.toList[1]? = some 'i') := by
  have hbook : book.toList[1]? = some 'i' := by
    cases h with
    | switch s => exact (switchIPBookPath_start s.name).2
    | router r => exact (routerIPBookPath_start r.name).2
  exact ⟨fun hw => start_of_deletes (hw.imp_left Eq.symm) dev.path_second,
    fun hw => start_of_deletes (hw.imp_left Eq.symm) hbook⟩

omit horder in
theorem Owner.ids_kept : ¬ Removed true [dev] deviceIDsPath := by
  rw [h.removed_iff]
  have hsecond : deviceIDsPath.toList[1]? = some 'g' := by decide
  rintro (hw | hw)
  · have he := h.second.1 hw
    rw [hsecond] at he
    cases he
  · have hi := h.second.2 hw
    rw [hsecond] at hi
    cases hi

/-- **Recursive delete**: it removes exactly the subtree of a stored device, its book and its id iff
the book and the ids are stored and nothing lies below the book. -/
theorem removesSubtree_iff (hstored : db dev.path ≠ none) :
    RemovesSubtree codec db dev book id
        ((delete codec order true [dev]).exec Stored.raw db) ↔
      Deletable db book := by
  have hplan : DeletePlan codec true (deleteState codec db dev id) [dev] := h.deletePlan
  have hacc : (deleteTxn codec order (deleteState codec db dev id)).Accepted := h.accepted horder
  rw [h.exec_delete codec order db]
  dsimp only
  split_ifs with hcommit
  · have hholds := hcommit.2
    obtain ⟨hbook, hids⟩ := (h.holds_iff horder hstored).mp hholds
    constructor
    · refine fun hres => ⟨hbook, hids, fun key hkey => ?_⟩
      have hwithin : Within book key := Or.inr hkey
      have hi := h.second.2 hwithin
      have hgone := hplan.apply_of_removed horder hacc (h.removed_iff.mpr (Or.inr hwithin)) db
      refine (hres.kept key (fun hpath => ?_) ?_ ?_).symm.trans hgone
      · have he := h.second.1 hpath
        rw [hi] at he
        cases he
      · rintro rfl
        have hlen := List.IsPrefix.length_le hkey
        rw [String.toList_append, List.length_append] at hlen
        exact absurd hlen (by simp)
      · rintro rfl
        exact absurd hi (by decide)
    · intro hdel
      refine ⟨rfl, fun key hkey => ?_, ?_, ?_, fun key hpath hne hids' => ?_⟩
      · exact hplan.apply_of_removed horder hacc (h.removed_iff.mpr (Or.inl hkey)) db
      · exact hplan.apply_of_removed horder hacc (h.removed_iff.mpr (Or.inr (Or.inl rfl))) db
      · rw [hplan.bits_after horder hacc hholds ((deleteState_lookup _).trans (if_pos rfl))
          h.ids_kept]
        rfl
      · by_cases hremoved : Removed true [dev] key
        · rcases h.removed_iff.mp hremoved with hw | hw
          · exact absurd hw hpath
          · rw [hdel.below key (hw.resolve_left hne)]
            exact hplan.apply_of_removed horder hacc hremoved db
        · exact h.apply_of_kept horder hids' hremoved
  · refine iff_of_false (fun hres => ?_) fun hdel => ?_
    · cases hres.ok
    · exact hcommit ⟨hacc, (h.holds_iff horder hstored).mpr ⟨hdel.bookStored, hdel.idsStored⟩⟩

end delete

/-! ### Devices with and without ports -/

/-- The router `r` with a port. -/
def portedRouterStore : Store Stored := fun key =>
  if key = deviceIDsPath then some (.ofText "OjAAAAEAAAAAAAAAEAAAAAEA")
  else if key = routerIPBookPath "r" then some (.ofText "OjAAAAEAAAAAAAAAEAAAAAEA")
  else if key = routerPath "r" then some (.ofDevice (.router ⟨"r", 1, ""⟩))
  else if key = routerPortPath "r" "p" then
    some (.ofDevice (.routerPort ⟨"r", "p", "10.0.0.1", 24, "f2:01:0a:00:00:01", ""⟩))
  else none

theorem removesSubtree_iff_portedRouter : RemovesSubtree sampleCodec portedRouterStore
    (.router ⟨"r", 1, ""⟩) (routerIPBookPath "r") 1
    ((delete sampleCodec id true [.router ⟨"r", 1, ""⟩]).exec Stored.raw portedRouterStore) := by
  refine (removesSubtree_iff (fun _ => List.Perm.refl _) (.router ⟨"r", 1, ""⟩) (by decide)).mpr
    ⟨by decide, by decide, fun key hkey => ?_⟩
  unfold portedRouterStore
  split_ifs with h1 h2 h3 h4
  · rw [h1] at hkey
    exact absurd hkey (by decide)
  · rw [h2] at hkey
    exact absurd hkey (by decide)
  · rw [h3] at hkey
    exact absurd hkey (by decide)
  · rw [h4] at hkey
    exact absurd hkey (by decide)
  · rfl

/-- What calls of `Save` and `Delete` one after another make of an empty store. -/
inductive Reached (codec : BitmapCodec)
    (order : List (String × MapEntry) → List (String × MapEntry)) : Store Stored → Prop where
  | empty : Reached codec order (fun _ => none)
  | save (devs : List Device) {db : Store Stored} (h : Reached codec order db) :
      Reached codec order ((save codec order devs).exec Stored.raw db).1
  | delete (recursive : Bool) (devs : List Device) {db : Store Stored}
      (h : Reached codec order db) :
      Reached codec order ((delete codec order recursive devs).exec Stored.raw db).1

/-- A router that has just been saved has no book, and its recursive deletion fails. -/
theorem removesSubtree_fails_withoutPorts : ¬ ∀ (codec : BitmapCodec)
    (order : List (String × MapEntry) → List (String × MapEntry)), (∀ l, (order l).Perm l) →
    ∀ db, Reached codec order db → ∀ dev book id, Owner dev book id → db dev.path ≠ none →
      RemovesSubtree codec db dev book id ((delete codec order true [dev]).exec Stored.raw db) := by
  intro hall
  have h := hall sampleCodec id (fun _ => List.Perm.refl _) _ (.save [.router ⟨"r", 0, ""⟩] .empty)
    (.router ⟨"r", 1, ""⟩) _ _ (.router ⟨"r", 1, ""⟩) (by decide)
  have hfails : ((delete sampleCodec id true [.router ⟨"r", 1, ""⟩]).exec Stored.raw
      ((save sampleCodec id [.router ⟨"r", 0, ""⟩]).exec Stored.raw fun _ => none).1).2 =
      .error := by
    decide
  rw [h.ok] at hfails
  cases hfails

end TupleNet.Control
