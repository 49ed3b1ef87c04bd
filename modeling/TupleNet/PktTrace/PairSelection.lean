import TupleNet.Lib.Collect
import TupleNet.Lib.Dict
import TupleNet.Lib.InetAddr
import Mathlib.Data.Finset.Prod
import Mathlib.Tactic.Linarith

/-! # The pairs that are probed

`select_random_src_target` of `pkt-trace.py` draws an active port and a target, which is an active
port or an address, and keeps a pair unless the texts of both, joined, are those of a pair it has.
It goes on until it has as many pairs as it counted from the lengths of the lists.  The draws are
left open: the loop is a machine whose labels they are, and it collects texts (`map_drawPair`).

The count is `N * (N + M - 1)`, for the pairs of different ends.  A port may however be drawn with
itself, and addresses that are given twice are counted twice, so the loop selects as it should only
when there is nothing to select (`selects_iff`).  With ports and pairs of different texts it can
finish unless two addresses are repeated and more pairs are asked for than there are
(`canFinish_iff_addresses`). -/

namespace TupleNet.PktTrace

open StepMachine InetAddr

/-! ### The program -/

/-- `TPObject`: the items of its `__dict__`, among which is its name. -/
structure TPObject where
  dict : Dict String String
  named : (dict.lookup "name").isSome

theorem TPObject.entries_inj {a b : TPObject} : a.dict.entries = b.dict.entries ↔ a = b := by
  rw [← AList.ext_iff, TPObject.mk.injEq]

instance : DecidableEq TPObject := fun _ _ => decidable_of_iff _ TPObject.entries_inj

def TPObject.name (o : TPObject) : String := (o.dict.lookup "name").get o.named

/-- `__str__`. -/
def TPObject.str (o : TPObject) : String :=
  o.dict.items.foldl (fun ret i => ret ++ (i.1 ++ "=" ++ i.2 ++ ", ")) (o.name ++ ":")

/-- What a pair leads to. -/
inductive Target
  | port (lsp : TPObject)
  | ip (address : String)
deriving DecidableEq

def Target.str : Target → String
  | port lsp => lsp.str
  | ip address => address

/-- `entity_zoo`, as far as the ports and the chassis go. -/
structure EntityZoo where
  lsp : Dict String TPObject
  chassis : Dict String TPObject

/-- `_find_all_active_lsp_by_ls`; an attribute that is missing reads as `None`. -/
def findAllActiveLspByLs (zoo : EntityZoo) (lsArray : List String) : List TPObject :=
  (zoo.lsp.items.map Prod.snd).filter (fun lsp =>
    (lsp.dict.lookup "chassis").any (fun c => (zoo.chassis.lookup c).isSome) &&
      (lsp.dict.lookup "parent").any (fun p => lsArray.contains p))

/-- The segments of the command line, as `auto_detect_network` tells them apart: the names of
switches and the addresses. -/
def splitTargets (autoDetect : String) : List String × List String :=
  let segments := Text.split ',' autoDetect
  (segments.filter (fun s => (inetAton s).isNone), segments.filter (fun s => (inetAton s).isSome))

/-- The number of pairs that is waited for, once the requested number is `batchN`. -/
def waitsFor (lspArray : List TPObject) (targetIpArray : List String) (batchN : ℤ) : ℤ :=
  min (lspArray.length * (lspArray.length + targetIpArray.length - 1)) batchN

def targetArray (lspArray : List TPObject) (targetIpArray : List String) : List Target :=
  lspArray.map .port ++ targetIpArray.map .ip

/-- The key of a pair. -/
def pairKey (pair : TPObject × Target) : String := pair.1.str ++ pair.2.str

/-- The variables of the loop. -/
structure Selection where
  n : ℕ
  pairs : Dict String (TPObject × Target)

def Selection.init : Selection := ⟨0, ∅⟩

/-- The pairs that may be drawn. -/
def pool (lspArray : List TPObject) (targetIpArray : List String) : List (TPObject × Target) :=
  lspArray.product (targetArray lspArray targetIpArray)

/-- One round of `select_random_src_target`, in which this pair is drawn. -/
def drawPair (lspArray : List TPObject) (targetIpArray : List String) (batchN : ℤ) (s : Selection)
    (pair : TPObject × Target) : Option Selection :=
  if (s.n : ℤ) < waitsFor lspArray targetIpArray batchN ∧ pair ∈ pool lspArray targetIpArray then
    if pairKey pair ∈ s.pairs then some s
    else some ⟨s.n + 1, s.pairs.insert (pairKey pair) pair⟩
  else none

/-- The different keys that the loop can produce. -/
def producible (lspArray : List TPObject) (targetIpArray : List String) : Finset String :=
  Collect.keys pairKey (pool lspArray targetIpArray)

/-- From every state of a run the loop can be brought to its end. -/
def CanFinish (lspArray : List TPObject) (targetIpArray : List String) (batchN : ℤ) : Prop :=
  ∀ draws s, run (drawPair lspArray targetIpArray batchN) .init draws = some s →
    ∃ draws' s', run (drawPair lspArray targetIpArray batchN) s draws' = some s' ∧
      waitsFor lspArray targetIpArray batchN ≤ s'.n

/-- The selection as it is meant: no more pairs are waited for than there are keys, and the ends of
every pair that is selected differ. -/
structure Selects (lspArray : List TPObject) (targetIpArray : List String) (batchN : ℤ) : Prop where
  bound : waitsFor lspArray targetIpArray batchN ≤ (producible lspArray targetIpArray).card
  distinct : ∀ draws s, run (drawPair lspArray targetIpArray batchN) .init draws = some s →
    ∀ k src target, s.pairs.lookup k = some (src, target) → target ≠ .port src

section
variable {lspArray : List TPObject} {targetIpArray : List String} {batchN : ℤ}

theorem mem_pool {src : TPObject} {target : Target} :
    (src, target) ∈ pool lspArray targetIpArray ↔
      src ∈ lspArray ∧ target ∈ targetArray lspArray targetIpArray :=
  List.pair_mem_product

/-! ### The loop collects keys -/

/-- `n` counts the pairs. -/
def Selection.Counted (s : Selection) : Prop := s.n = s.pairs.keys.length

/-- The keys that the loop has. -/
def Selection.keySet (s : Selection) : Finset String := s.pairs.keys.toFinset

theorem mem_keySet {s : Selection} {k : String} : k ∈ s.keySet ↔ k ∈ s.pairs := by
  rw [Selection.keySet, List.mem_toFinset, AList.mem_keys]

theorem counted_init : Selection.Counted .init := rfl

theorem card_keySet {s : Selection} (h : s.Counted) : s.keySet.card = s.n := by
  rw [Selection.keySet, List.toFinset_card_of_nodup s.pairs.keys_nodup, h]

theorem keys_insert_of_not_mem {s : Selection} {k : String} (h : k ∉ s.pairs)
    (pair : TPObject × Target) : (s.pairs.insert k pair).keys = k :: s.pairs.keys := by
  rw [AList.keys_insert, List.erase_of_not_mem (by rwa [AList.mem_keys] at h)]

theorem counted_drawPair {s s' : Selection} {pair : TPObject × Target} (hs : s.Counted)
    (h : drawPair lspArray targetIpArray batchN s pair = some s') : s'.Counted := by
  unfold drawPair at h
  split_ifs at h with hdraw hknown
  · rwa [← Option.some.inj h]
  · rw [← Option.some.inj h, Selection.Counted, keys_insert_of_not_mem hknown, List.length_cons, hs]

/-- A round of the loop draws a key. -/
theorem map_drawPair {s : Selection} (hs : s.Counted) (pair : TPObject × Target) :
    (drawPair lspArray targetIpArray batchN s pair).map Selection.keySet =
      Collect.step pairKey (pool lspArray targetIpArray) (waitsFor lspArray targetIpArray batchN)
        s.keySet pair := by
  unfold drawPair Collect.step
  rw [card_keySet hs]
  split_ifs with hdraw hknown
  · rw [Option.map_some, Finset.insert_eq_of_mem (mem_keySet.mpr hknown)]
  · have hkeys : Selection.keySet ⟨s.n + 1, s.pairs.insert (pairKey pair) pair⟩ =
        insert (pairKey pair) s.keySet := by
      rw [Selection.keySet, keys_insert_of_not_mem hknown, List.toFinset_cons, Selection.keySet]
    rw [Option.map_some, hkeys]
  · rfl

theorem map_run {s : Selection} (hs : s.Counted) (draws : List (TPObject × Target)) :
    (run (drawPair lspArray targetIpArray batchN) s draws).map Selection.keySet =
      run (Collect.step pairKey (pool lspArray targetIpArray)
        (waitsFor lspArray targetIpArray batchN))
        s.keySet draws :=
  run_map _ (fun _ _ _ hs h => counted_drawPair hs h) (fun _ pair hs => map_drawPair hs pair) hs
    draws

theorem counted_run {s s' : Selection} {draws : List (TPObject × Target)} (hs : s.Counted)
    (h : run (drawPair lspArray targetIpArray batchN) s draws = some s') : s'.Counted :=
  run_preserves _ (fun _ _ _ hs h => counted_drawPair hs h) hs h

theorem collect_of_run {s s' : Selection} {draws : List (TPObject × Target)} (hs : s.Counted)
    (h : run (drawPair lspArray targetIpArray batchN) s draws = some s') :
    run (Collect.step pairKey (pool lspArray targetIpArray)
      (waitsFor lspArray targetIpArray batchN))
      s.keySet draws = some s'.keySet := by
  rw [← map_run hs, h, Option.map_some]

theorem run_of_collect {s : Selection} {draws : List (TPObject × Target)} {keys : Finset String}
    (hs : s.Counted)
    (h : run (Collect.step pairKey (pool lspArray targetIpArray)
      (waitsFor lspArray targetIpArray batchN)) s.keySet draws = some keys) :
    ∃ s', run (drawPair lspArray targetIpArray batchN) s draws = some s' ∧ s'.keySet = keys := by
  rw [← map_run hs] at h
  exact Option.map_eq_some_iff.mp h

theorem keySet_subset {s : Selection} {draws : List (TPObject × Target)}
    (h : run (drawPair lspArray targetIpArray batchN) .init draws = some s) :
    s.keySet ⊆ producible lspArray targetIpArray :=
  Collect.subset_run (Finset.empty_subset _) (collect_of_run counted_init h)

/-- No run has more pairs than there are keys, so it never ends if more are waited for. -/
theorem n_le_card {s : Selection} {draws : List (TPObject × Target)}
    (h : run (drawPair lspArray targetIpArray batchN) .init draws = some s) :
    s.n ≤ (producible lspArray targetIpArray).card := by
  rw [← card_keySet (counted_run counted_init h)]
  exact Finset.card_le_card (keySet_subset h)

/-- **The loop can always finish** iff it waits for no more pairs than there are keys. -/
theorem canFinish_iff_waitsFor_le : CanFinish lspArray targetIpArray batchN ↔
    waitsFor lspArray targetIpArray batchN ≤ (producible lspArray targetIpArray).card := by
  constructor
  · intro h
    obtain ⟨draws, s, hrun, hend⟩ := h [] .init rfl
    have hle := n_le_card hrun
    omega
  · intro h draws s hrun
    have hs := counted_run counted_init hrun
    obtain ⟨draws', keys, hrun', hend⟩ :=
      (Collect.canFinish_iff _ _ _).mpr h draws s.keySet (collect_of_run counted_init hrun)
    obtain ⟨s', hlast, rfl⟩ := run_of_collect hs hrun'
    refine ⟨draws', s', hlast, ?_⟩
    rwa [card_keySet (counted_run hs hlast)] at hend

/-! ### How many keys there are -/

theorem toFinset_pool : (pool lspArray targetIpArray).toFinset =
    lspArray.toFinset ×ˢ (targetArray lspArray targetIpArray).toFinset := by
  ext ⟨src, target⟩
  rw [List.mem_toFinset, mem_pool, Finset.mem_product, List.mem_toFinset, List.mem_toFinset]

theorem card_targetArray (hports : lspArray.Nodup) :
    (targetArray lspArray targetIpArray).toFinset.card =
      lspArray.length + targetIpArray.toFinset.card := by
  have hdisj :
      Disjoint (lspArray.map Target.port).toFinset (targetIpArray.map Target.ip).toFinset := by
    rw [Finset.disjoint_left]
    intro target hport hip
    obtain ⟨lsp, -, rfl⟩ := List.mem_map.mp (List.mem_toFinset.mp hport)
    obtain ⟨address, -, hne⟩ := List.mem_map.mp (List.mem_toFinset.mp hip)
    exact Target.noConfusion hne
  have hip : (targetIpArray.map Target.ip).toFinset = targetIpArray.toFinset.image Target.ip := by
    ext target
    simp
  rw [targetArray, List.toFinset_append, Finset.card_union_of_disjoint hdisj,
    List.toFinset_card_of_nodup (hports.map (fun _ _ h => Target.port.inj h)), List.length_map, hip,
    Finset.card_image_of_injective _ (fun _ _ h => Target.ip.inj h)]

/-- Ports are drawn with themselves as well. -/
theorem card_producible (hports : lspArray.Nodup)
    (hkeys : Set.InjOn pairKey {pair | pair ∈ pool lspArray targetIpArray}) :
    (producible lspArray targetIpArray).card =
      lspArray.length * (lspArray.length + targetIpArray.toFinset.card) := by
  have himage : producible lspArray targetIpArray =
      (pool lspArray targetIpArray).toFinset.image pairKey := by
    ext k
    simp [producible, Collect.keys]
  have hinj :
      Set.InjOn pairKey ((pool lspArray targetIpArray).toFinset : Set (TPObject × Target)) := by
    rwa [List.coe_toFinset]
  rw [himage, Finset.card_image_of_injOn hinj, toFinset_pool, Finset.card_product,
    card_targetArray hports, List.toFinset_card_of_nodup hports]

/-- With different ports and pairs of different texts, the loop can finish unless two addresses are
repeated and more pairs are asked for than there are. -/
theorem canFinish_iff_addresses (hports : lspArray.Nodup)
    (hkeys : Set.InjOn pairKey {pair | pair ∈ pool lspArray targetIpArray}) :
    CanFinish lspArray targetIpArray batchN ↔
      lspArray = [] ∨ targetIpArray.length ≤ targetIpArray.toFinset.card + 1 ∨
        batchN ≤ lspArray.length * (lspArray.length + targetIpArray.toFinset.card) := by
  rw [canFinish_iff_waitsFor_le, card_producible hports hkeys, waitsFor, min_le_iff, ← or_assoc]
  push_cast
  refine or_congr_left ?_
  rw [← List.length_eq_zero_iff]
  constructor
  · intro h
    by_contra hcon
    obtain ⟨hpos, hlen⟩ := not_or.mp hcon
    have := mul_lt_mul_of_pos_left (a := (lspArray.length : ℤ))
      (b := lspArray.length + targetIpArray.toFinset.card)
      (c := lspArray.length + targetIpArray.length - 1) (by omega) (by omega)
    omega
  · rintro (h | h)
    · simp [h]
    · exact mul_le_mul_of_nonneg_left (by omega) (by omega)

/-! ### What is selected -/

theorem waitsFor_nonpos_iff : waitsFor lspArray targetIpArray batchN ≤ 0 ↔
    lspArray = [] ∨ batchN ≤ 0 ∨ (lspArray.length = 1 ∧ targetIpArray = []) := by
  rw [waitsFor, min_le_iff, ← List.length_eq_zero_iff, ← List.length_eq_zero_iff (l :=
    targetIpArray)]
  constructor
  · rintro (hprod | hbatch)
    · by_contra hcon
      have hpos := mul_pos (a := (lspArray.length : ℤ))
        (b := lspArray.length + targetIpArray.length - 1) (by omega) (by omega)
      omega
    · exact Or.inr (Or.inl hbatch)
  · rintro (hports | hbatch | ⟨hone, hnone⟩)
    · exact Or.inl (by simp [hports])
    · exact Or.inr hbatch
    · exact Or.inl (by simp [hone, hnone])

/-- Nothing is drawn when nothing is waited for. -/
theorem run_of_waitsFor_nonpos (h : waitsFor lspArray targetIpArray batchN ≤ 0) {s : Selection}
    {draws : List (TPObject × Target)}
    (hrun : run (drawPair lspArray targetIpArray batchN) .init draws = some s) : s = .init := by
  cases draws with
  | nil => exact (Option.some.inj hrun).symm
  | cons pair draws =>
      obtain ⟨s₁, hstep, -⟩ := (run_cons_eq_some _).mp hrun
      have hnone : drawPair lspArray targetIpArray batchN .init pair = none :=
        if_neg (fun hdraw => by have := hdraw.1; simp [Selection.init] at this; omega)
      rw [hnone] at hstep
      exact absurd hstep (by simp)

/-- A port can be drawn with itself at once. -/
theorem drawPair_self {lsp : TPObject} (h : 0 < waitsFor lspArray targetIpArray batchN)
    (hlsp : lsp ∈ lspArray) :
    drawPair lspArray targetIpArray batchN .init (lsp, .port lsp) =
      some ⟨1, AList.insert (pairKey (lsp, .port lsp)) (lsp, .port lsp) ∅⟩ := by
  have hmem : (lsp, Target.port lsp) ∈ pool lspArray targetIpArray :=
    mem_pool.mpr ⟨hlsp, List.mem_append_left _ (List.mem_map_of_mem hlsp)⟩
  have hnew : pairKey (lsp, .port lsp) ∉ Selection.init.pairs := AList.notMem_empty _
  rw [drawPair, if_pos ⟨h, hmem⟩, if_neg hnew]
  rfl

end

/-- **The selection is as it is meant** exactly when there is nothing to select: as soon as one pair
is waited for, the first that is drawn may be a port with itself. -/
theorem selects_iff (lspArray : List TPObject) (targetIpArray : List String) (batchN : ℤ) :
    Selects lspArray targetIpArray batchN ↔
      lspArray = [] ∨ batchN ≤ 0 ∨ (lspArray.length = 1 ∧ targetIpArray = []) := by
  rw [← waitsFor_nonpos_iff]
  constructor
  · intro h
    by_contra hpos
    have hpos : 0 < waitsFor lspArray targetIpArray batchN := by omega
    have hne : lspArray ≠ [] := by
      rintro rfl
      simp [waitsFor] at hpos
    obtain ⟨lsp, hlsp⟩ := List.exists_mem_of_ne_nil _ hne
    refine h.distinct [(lsp, .port lsp)] _ ((run_cons_eq_some _).mpr
      ⟨_, drawPair_self hpos hlsp, rfl⟩) (pairKey (lsp, .port lsp)) lsp (.port lsp) ?_ rfl
    rw [Dict.lookup_insert_eq, if_pos rfl]
  · intro h
    refine ⟨by omega, fun draws s hrun k src target hpair => ?_⟩
    rw [run_of_waitsFor_nonpos h hrun] at hpair
    simp [Selection.init] at hpair

/-! ### An address that is given three times -/

/-- A port with its attributes. -/
def portAt (name parent chassis : String) : TPObject where
  dict := AList.insert "name" name (AList.insert "parent" parent (AList.insert "chassis" chassis ∅))
  named := by
    rw [Dict.lookup_insert_eq, if_pos rfl]
    rfl

/-- One switch with one active port. -/
def oneActivePort : EntityZoo where
  lsp := AList.insert "lsp1" (portAt "lsp1" "ls1" "hv1") ∅
  chassis := AList.insert "hv1" (portAt "hv1" "chassis" "hv1") ∅

def oneAddressThrice : List String × List String := splitTargets "ls1,10.0.0.9,10.0.0.9,10.0.0.9"

set_option maxRecDepth 100000 in
/-- Three pairs are waited for, and there are two keys. -/
theorem selects_oneAddressThrice :
    findAllActiveLspByLs oneActivePort oneAddressThrice.1 = [portAt "lsp1" "ls1" "hv1"] ∧
      ¬ Selects (findAllActiveLspByLs oneActivePort oneAddressThrice.1) oneAddressThrice.2 10 := by
  refine ⟨by decide +kernel, fun h => ?_⟩
  have hbound : ¬ waitsFor (findAllActiveLspByLs oneActivePort oneAddressThrice.1)
      oneAddressThrice.2 10 ≤
      (producible (findAllActiveLspByLs oneActivePort oneAddressThrice.1)
        oneAddressThrice.2).card := by
    decide +kernel
  exact hbound h.bound

end TupleNet.PktTrace
