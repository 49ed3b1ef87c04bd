import TupleNet.Lib.Table
import Mathlib.Data.List.Range
import Mathlib.Data.List.TakeWhile

/-! # Committing flows

`commit_flows` of `commit_ovs.py` with the calls of `ovs-ofctl` below it.  The flows are handed over
in batches of 500; a batch that contains a flow which OVS does not accept changes the table up to
some flow before it and raises, and is repeated.  After a failure the flows are handed over one by
one, from the deletes or only from the adds.

Whatever a failed batch has done is done again, so the result does not depend on it
(`commit_flows_eq`). -/

namespace TupleNet

open KeyedTable

namespace CommitOvs

/-! ### `ovs-ofctl` -/

/-- What OVS makes of the text of a flow, if it accepts it, and how many flows the `n`-th call
applies at most when it comes to raise. -/
structure Ofctl (κ α : Type) where
  delFlow : String → Option κ
  addFlow : String → Option (κ × α)
  reach : ℕ → ℕ

/-- The flow table, and the number of calls so far. -/
structure Bridge (κ α : Type) where
  table : Table κ α
  calls : ℕ

/-- A kind of calls: how a text is read and what one flow does. -/
structure FlowMod (κ α E : Type) where
  read : String → Option E
  apply : E → Table κ α → Table κ α

variable {κ α E : Type}

/-- The flows, in order. -/
def FlowMod.applyAll (m : FlowMod κ α E) (es : List E) (t : Table κ α) : Table κ α :=
  es.foldl (fun t e => m.apply e t) t

section calls
variable (o : Ofctl κ α) (m : FlowMod κ α E)

/-- `call_popen`, and whether it returns: the flows are applied, or if one is not accepted some of
those before it. -/
def callPopen (flows : List String) (b : Bridge κ α) : Bridge κ α × Bool :=
  let accepted := (flows.takeWhile (fun f => (m.read f).isSome)).filterMap m.read
  if flows.all (fun f => (m.read f).isSome) then (⟨m.applyAll accepted b.table, b.calls + 1⟩, true)
  else (⟨m.applyAll (accepted.take (o.reach b.calls)) b.table, b.calls + 1⟩, false)

/-- The loop of `call_ovsprog` with the number of tries that are left. -/
def callOvsprogLoop (flows : List String) : ℕ → Bridge κ α → Bridge κ α × Bool
  | 0, b => (b, false)
  | n + 1, b => match callPopen o m flows b with
      | (b, true) => (b, true)
      | (b, false) => callOvsprogLoop flows n b

/-- `call_ovsprog`. -/
def callOvsprog (flows : List String) (b : Bridge κ α) : Bridge κ α × Bool :=
  callOvsprogLoop o m flows 3 b

/-- `aggregate_flows`: the slices that start at `range(0, len(flows), 500)`. -/
def aggregateFlows (flows : List String) : List (List String) :=
  (List.range ((flows.length + 499) / 500)).map (fun i => (flows.drop (500 * i)).take 500)

/-- The loop of `ovs_ofctl_delflows_batch` and of `ovs_ofctl_addflows_batch`. -/
def batchLoop : List (List String) → Bridge κ α → Bridge κ α × Bool
  | [], b => (b, true)
  | seg :: segs, b => match callOvsprog o m seg b with
      | (b, true) => batchLoop segs b
      | (b, false) => (b, false)

/-- `ovs_ofctl_delflows_batch`, `ovs_ofctl_addflows_batch`. -/
def batch (flows : List String) (b : Bridge κ α) : Bridge κ α × Bool :=
  batchLoop o m (aggregateFlows flows) b

/-- A loop over single flows, with the number of those that did not raise. -/
def oneByOne : List String → Bridge κ α → Bridge κ α × ℕ
  | [], b => (b, 0)
  | flow :: flows, b => match callOvsprog o m [flow] b with
      | (b, ok) => ((oneByOne flows b).1, (oneByOne flows b).2 + if ok then 1 else 0)

end calls

variable [DecidableEq κ]

/-- `del-flows --strict`. -/
def Ofctl.del (o : Ofctl κ α) : FlowMod κ α κ where
  read := o.delFlow
  apply k t := Function.update t k none

/-- `add-flow`. -/
def Ofctl.add (o : Ofctl κ α) : FlowMod κ α (κ × α) where
  read := o.addFlow
  apply e t := Function.update t e.1 (some e.2)

/-- The part of `commit_flows` after a failure. -/
def fallback (o : Ofctl κ α) (addFlows delFlows : List String) (b : Bridge κ α) : Bridge κ α × ℕ :=
  let dels := oneByOne o o.del delFlows b
  let adds := oneByOne o o.add addFlows dels.1
  (adds.1, dels.2 + adds.2)

/-- `commit_flows`. -/
def commitFlows (o : Ofctl κ α) (addFlows delFlows : List String) (b : Bridge κ α) :
    Bridge κ α × ℕ :=
  match (if 0 < delFlows.length then batch o o.del delFlows b else (b, true)) with
  | (b, false) => fallback o addFlows delFlows b
  | (b, true) =>
      match (if 0 < addFlows.length then batch o o.add addFlows b else (b, true)) with
      | (b, false) => fallback o addFlows [] b
      | (b, true) => (b, delFlows.length + addFlows.length)

/-! ### Chunks -/

omit [DecidableEq κ] in
theorem applyAll_append (m : FlowMod κ α E) (es es' : List E) (t : Table κ α) :
    m.applyAll (es ++ es') t = m.applyAll es' (m.applyAll es t) := List.foldl_append

theorem flatten_slices (n k : ℕ) (flows : List String) :
    ((List.range k).map (fun i => (flows.drop (n * i)).take n)).flatten = flows.take (n * k) := by
  induction k with
  | zero => rw [Nat.mul_zero, List.take_zero]; rfl
  | succ k ih =>
      rw [List.range_succ, List.map_append, List.flatten_append, ih, List.map_singleton,
        List.flatten_singleton, Nat.mul_succ, List.take_add]

/-- No flow is lost and none is repeated. -/
theorem flatten_aggregateFlows (flows : List String) : (aggregateFlows flows).flatten = flows := by
  rw [aggregateFlows, flatten_slices, List.take_of_length_le]
  omega

/-! ### What the calls do -/

/-- Flows that are applied before all of a list that contains them make no difference. -/
def Absorbs (m : FlowMod κ α E) : Prop :=
  ∀ es es' t, es ⊆ es' → m.applyAll es' (m.applyAll es t) = m.applyAll es' t

/-- The flows that OVS accepts. -/
def accepted (m : FlowMod κ α E) (flows : List String) : List E := flows.filterMap m.read

/-- What calls with some flows do: all of them are accepted and applied, or one is not and some of
those that are accepted have been applied. -/
structure Applied (m : FlowMod κ α E) (flows : List String) (b : Bridge κ α)
    (r : Bridge κ α × Bool) : Prop where
  ok : r.2 = true → r.1.table = m.applyAll (accepted m flows) b.table
  failed : r.2 = false → ∃ es, es ⊆ accepted m flows ∧ r.1.table = m.applyAll es b.table

section applied
variable {o : Ofctl κ α} {m : FlowMod κ α E}

omit [DecidableEq κ] in
theorem callPopen_ok {flows : List String} (h : ∀ f ∈ flows, (m.read f).isSome)
    (b : Bridge κ α) :
    callPopen o m flows b = (⟨m.applyAll (accepted m flows) b.table, b.calls + 1⟩, true) := by
  have hall : flows.all (fun f => (m.read f).isSome) = true := List.all_eq_true.mpr h
  have hwhile : flows.takeWhile (fun f => (m.read f).isSome) = flows :=
    List.takeWhile_eq_self_iff.mpr h
  simp only [callPopen, hall, if_true, hwhile, accepted]

omit [DecidableEq κ] in
theorem callPopen_failed {flows : List String} (h : ¬ ∀ f ∈ flows, (m.read f).isSome)
    (b : Bridge κ α) : (callPopen o m flows b).2 = false ∧
      ∃ es, es ⊆ accepted m flows ∧ (callPopen o m flows b).1.table = m.applyAll es b.table := by
  have hall : ¬ flows.all (fun f => (m.read f).isSome) = true := fun hall =>
    h (List.all_eq_true.mp hall)
  simp only [callPopen, if_neg hall]
  refine ⟨trivial, _, fun e he => ?_, rfl⟩
  have hsub := (List.takeWhile_prefix (p := fun f => (m.read f).isSome) (l := flows)).sublist
  exact (hsub.filterMap m.read).subset (List.mem_of_mem_take he)

omit [DecidableEq κ] in
theorem callOvsprogLoop_failed {flows : List String} (h : ¬ ∀ f ∈ flows, (m.read f).isSome)
    (n : ℕ) (b : Bridge κ α) : (callOvsprogLoop o m flows n b).2 = false ∧
      ∃ es, es ⊆ accepted m flows ∧
        (callOvsprogLoop o m flows n b).1.table = m.applyAll es b.table := by
  induction n generalizing b with
  | zero => exact ⟨rfl, [], List.nil_subset _, rfl⟩
  | succ n ih =>
      obtain ⟨hfail, es, hes, htable⟩ := callPopen_failed (o := o) h b
      obtain ⟨hrest, es', hes', htable'⟩ := ih (callPopen o m flows b).1
      have hloop : callOvsprogLoop o m flows (n + 1) b =
          callOvsprogLoop o m flows n (callPopen o m flows b).1 := by
        rw [callOvsprogLoop]
        split
        · next heq =>
            rw [heq] at hfail
            cases hfail
        · next heq => rw [heq]
      rw [hloop]
      refine ⟨hrest, es ++ es', List.append_subset.mpr ⟨hes, hes'⟩, ?_⟩
      rw [htable', htable, applyAll_append]

omit [DecidableEq κ] in
theorem callOvsprog_applied (flows : List String) (b : Bridge κ α) :
    Applied m flows b (callOvsprog o m flows b) := by
  by_cases h : ∀ f ∈ flows, (m.read f).isSome
  · have hcall : callOvsprog o m flows b =
        (⟨m.applyAll (accepted m flows) b.table, b.calls + 1⟩, true) := by
      rw [callOvsprog, callOvsprogLoop, callPopen_ok h]
    rw [hcall]
    exact ⟨fun _ => rfl, fun hfalse => Bool.noConfusion hfalse⟩
  · obtain ⟨hfail, hes⟩ := callOvsprogLoop_failed (o := o) h 3 b
    refine ⟨fun hok => ?_, fun _ => hes⟩
    cases hfail.symm.trans hok

omit [DecidableEq κ] in
theorem batchLoop_applied (segs : List (List String)) (b : Bridge κ α) :
    Applied m segs.flatten b (batchLoop o m segs b) := by
  induction segs generalizing b with
  | nil => exact ⟨fun _ => rfl, fun hfalse => Bool.noConfusion hfalse⟩
  | cons seg segs ih =>
      have hsplit :
          accepted m (seg :: segs).flatten = accepted m seg ++ accepted m segs.flatten := by
        rw [List.flatten_cons, accepted, List.filterMap_append]
        rfl
      have hseg := callOvsprog_applied (o := o) (m := m) seg b
      rw [batchLoop]
      split
      · next b' heq =>
          rw [heq] at hseg
          have htable : b'.table = m.applyAll (accepted m seg) b.table := hseg.ok rfl
          have hrest := ih b'
          refine ⟨fun hok => ?_, fun hfail => ?_⟩
          · rw [hsplit, applyAll_append, hrest.ok hok, htable]
          · obtain ⟨es, hes, hes'⟩ := hrest.failed hfail
            refine ⟨accepted m seg ++ es, ?_, ?_⟩
            · rw [hsplit]
              exact List.append_subset.mpr
                ⟨List.subset_append_left _ _, fun e he => List.mem_append_right _ (hes he)⟩
            · rw [hes', htable, applyAll_append]
      · next b' heq =>
          rw [heq] at hseg
          obtain ⟨es, hes, hes'⟩ := hseg.failed rfl
          refine ⟨fun hok => Bool.noConfusion hok, fun _ => ⟨es, fun e he => ?_, hes'⟩⟩
          rw [hsplit]
          exact List.mem_append_left _ (hes he)

omit [DecidableEq κ] in
theorem batch_applied (flows : List String) (b : Bridge κ α) :
    Applied m flows b (batch o m flows b) := by
  have h := batchLoop_applied (o := o) (m := m) (aggregateFlows flows) b
  rwa [flatten_aggregateFlows] at h

omit [DecidableEq κ] in
/-- A call with one flow applies it or does nothing. -/
theorem callOvsprog_single (flow : String) (b : Bridge κ α) :
    (callOvsprog o m [flow] b).1.table = m.applyAll (accepted m [flow]) b.table := by
  cases hread : m.read flow with
  | some e =>
      have hall : ∀ f ∈ [flow], (m.read f).isSome := by simp [hread]
      rw [callOvsprog, callOvsprogLoop, callPopen_ok hall]
  | none =>
      have hnot : ¬ ∀ f ∈ [flow], (m.read f).isSome := by simp [hread]
      have hnil : accepted m [flow] = [] := by simp [accepted, hread]
      obtain ⟨_, es, hes, htable⟩ := callOvsprogLoop_failed (o := o) hnot 3 b
      rw [hnil] at hes ⊢
      rw [List.subset_nil.mp hes] at htable
      exact htable

omit [DecidableEq κ] in
/-- One by one, all accepted flows are applied in order. -/
theorem oneByOne_table (flows : List String) (b : Bridge κ α) :
    (oneByOne o m flows b).1.table = m.applyAll (accepted m flows) b.table := by
  induction flows generalizing b with
  | nil => rfl
  | cons flow flows ih =>
      have hsplit : accepted m ([flow] ++ flows) = accepted m [flow] ++ accepted m flows :=
        List.filterMap_append
      rw [List.singleton_append] at hsplit
      have hone : (oneByOne o m (flow :: flows) b).1 =
          (oneByOne o m flows (callOvsprog o m [flow] b).1).1 := rfl
      rw [hone, ih, hsplit, applyAll_append, callOvsprog_single]

end applied

/-! ### Deletes and adds -/

/-- The table after all accepted deletes and then all accepted adds. -/
def committed (o : Ofctl κ α) (addFlows delFlows : List String) (t : Table κ α) : Table κ α :=
  addEntries (addFlows.filterMap o.addFlow) (delKeys (delFlows.filterMap o.delFlow) t)

section
variable {o : Ofctl κ α}

theorem applyAll_del (ks : List κ) (t : Table κ α) : o.del.applyAll ks t = delKeys ks t := by
  induction ks generalizing t with
  | nil => rfl
  | cons k ks ih => exact ih _

theorem applyAll_add (es : List (κ × α)) (t : Table κ α) :
    o.add.applyAll es t = addEntries es t := by
  induction es generalizing t with
  | nil => rfl
  | cons e es ih => exact ih _

theorem absorbs_del : Absorbs o.del := by
  intro ks ks' t hsub
  rw [applyAll_del, applyAll_del, applyAll_del]
  funext k
  rw [delKeys_apply, delKeys_apply, delKeys_apply]
  by_cases hk : k ∈ ks'
  · rw [if_pos hk, if_pos hk]
  · rw [if_neg hk, if_neg hk, if_neg fun h => hk (hsub h)]

theorem absorbs_add : Absorbs o.add := by
  intro es es' t hsub
  rw [applyAll_add, applyAll_add, applyAll_add]
  exact addEntries_absorb hsub t

theorem fallback_table (addFlows delFlows : List String) (b : Bridge κ α) :
    (fallback o addFlows delFlows b).1.table = committed o addFlows delFlows b.table := by
  rw [fallback, oneByOne_table, oneByOne_table, applyAll_add, applyAll_del]
  rfl

omit [DecidableEq κ] in
/-- What a failed batch has done is done again. -/
theorem Applied.absorbed {E : Type} {m : FlowMod κ α E} (hm : Absorbs m) {flows : List String}
    {b : Bridge κ α} {r : Bridge κ α × Bool} (h : Applied m flows b r) :
    m.applyAll (accepted m flows) r.1.table = m.applyAll (accepted m flows) b.table := by
  cases hok : r.2 with
  | true =>
      rw [h.ok hok]
      exact hm _ _ _ (List.Subset.refl _)
  | false =>
      obtain ⟨es, hes, htable⟩ := h.failed hok
      rw [htable]
      exact hm _ _ _ hes

/-- **The fallback agrees with the batches**: whatever flows OVS refuses and however far the batches
that fail have come, `commit_flows` leaves the table that all accepted deletes and then all accepted
adds give, in order. -/
theorem commit_flows_eq (o : Ofctl κ α) (addFlows delFlows : List String) (b : Bridge κ α) :
    (commitFlows o addFlows delFlows b).1.table =
      addEntries (addFlows.filterMap o.addFlow)
      (delKeys (delFlows.filterMap o.delFlow) b.table) := by
  have hguard : ∀ {E : Type} (m : FlowMod κ α E) (flows : List String) (b : Bridge κ α),
      Applied m flows b (if 0 < flows.length then batch o m flows b else (b, true)) := by
    intro E m flows b
    split_ifs with hlen
    · exact batch_applied flows b
    · have hnil : flows = [] := List.eq_nil_of_length_eq_zero (by omega)
      rw [hnil]
      exact ⟨fun _ => rfl, fun hfalse => Bool.noConfusion hfalse⟩
  have hdels := hguard o.del delFlows b
  unfold commitFlows
  split
  · next b' heq =>
      -- the deletes are done again
      rw [heq] at hdels
      have habsorbed := hdels.absorbed absorbs_del
      rw [applyAll_del, applyAll_del] at habsorbed
      rw [fallback_table, committed]
      exact congrArg _ habsorbed
  · next b' heq =>
      rw [heq] at hdels
      have htable : b'.table = delKeys (delFlows.filterMap o.delFlow) b.table :=
        (hdels.ok rfl).trans (applyAll_del _ _)
      have hadds := hguard o.add addFlows b'
      split
      · next b'' heq' =>
          -- only the adds are done again
          rw [heq'] at hadds
          have habsorbed := hadds.absorbed absorbs_add
          rw [applyAll_add, applyAll_add] at habsorbed
          rw [fallback_table, ← htable]
          exact habsorbed
      · next b'' heq' =>
          rw [heq'] at hadds
          rw [← htable]
          exact (hadds.ok rfl).trans (applyAll_add _ _)

end

end CommitOvs

end TupleNet
