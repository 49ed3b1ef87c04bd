import TupleNet.Control.DeletePlan

/-! # Deletes that run side by side with Saves

A client that deletes reads its devices first, each in one step, and calls `Delete` with these
copies; other clients save fresh devices.  The transaction of a `Delete` compares the bitmaps by
value and the keys of its copies by existence only.  As long as nobody saves another record under
the key of a copy, every `Delete` gives back exactly the bits of the records that it removes
(`deletes_exact`); a record that has been deleted and saved again with another id breaks this
(`recreated_keeps_foreign_bit`). -/

namespace TupleNet.Control

open TxnStore StepMachine

/-- What a client wants. -/
inductive Call where
  | save (devs : List Device)
  /-- Read the devices of these keys and delete the copies. -/
  | delete (recursive : Bool) (keys : List String)
deriving DecidableEq, Repr

/-- What a client is doing. -/
inductive Phase where
  | saving
  | reading (recursive : Bool) (keys : List String) (copies : List Device)
  | deleting (recursive : Bool) (copies : List Device)
  /-- A read has failed. -/
  | failed
deriving DecidableEq, Repr

/-- The store with the programs of the clients, and what these are doing. -/
structure Cluster where
  sys : System Stored Outcome
  phase : ℕ → Phase

/-- A client that saves starts its program at once. -/
def Call.prog (codec : BitmapCodec) (order : List (String × MapEntry) → List (String × MapEntry)) :
    Call → Client
  | save devs => TupleNet.Control.save codec order devs
  | delete _ _ => .ret .error

def Call.phase : Call → Phase
  | save _ => .saving
  | delete recursive keys => .reading recursive keys []

namespace Cluster

section machine
variable (codec : BitmapCodec) (order : ℕ → List (String × MapEntry) → List (String × MapEntry))

/-- Nobody has moved yet. -/
def start (db : Store Stored) (calls : ℕ → Call) : Cluster where
  sys := .start db (fun i => (calls i).prog codec (order i))
  phase := fun i => (calls i).phase

/-- A client goes over to another phase. -/
def enter (s : Cluster) (i : ℕ) (phase : Phase) : Cluster :=
  { s with phase := Function.update s.phase i phase }

/-- One read, one transaction or the call of `Delete` of one client. -/
def step (s : Cluster) (a : ℕ × Bool) : Option Cluster :=
  match s.phase a.1 with
  | .reading recursive (key :: keys) copies =>
      match (if a.2 then deviceAt s.sys.db key else none) with
      | some dev => some (s.enter a.1 (.reading recursive keys (copies ++ [dev])))
      | none => some (s.enter a.1 .failed)
  | .reading recursive [] copies =>
      some { s.enter a.1 (.deleting recursive copies) with
        sys := s.sys.goOn a.1 (delete codec (order a.1) recursive copies) }
  | .failed => none
  | _ => (System.step Stored.raw s.sys a).map (fun sys => { s with sys := sys })

/-- The copies that a client that is not done has read. -/
def copies (s : Cluster) (i : ℕ) : List Device :=
  match s.phase i, s.sys.prog i with
  | .reading _ _ copies, _ => copies
  | .deleting _ _, .ret _ => []
  | .deleting _ copies, _ => copies
  | _, _ => []

/-- A `Save` that is about to commit puts no other record under the key of a copy. -/
def Careful (s : Cluster) (a : ℕ × Bool) : Prop :=
  ∀ t next, s.phase a.1 = .saving → s.sys.prog a.1 = .txn t next →
    a.2 = true → t.Accepted → t.Holds Stored.raw s.sys.db →
    ∀ i, ∀ copy ∈ s.copies i, ∀ dev, .put copy.path (.ofDevice dev) ∈ t.ops → dev.bit = copy.bit

variable {codec order}

theorem mem_copies {s : Cluster} {i : ℕ} {copy : Device} : copy ∈ s.copies i ↔
    (∃ recursive keys copies, s.phase i = .reading recursive keys copies ∧ copy ∈ copies) ∨
      ∃ recursive copies, s.phase i = .deleting recursive copies ∧
        (∀ x, s.sys.prog i ≠ .ret x) ∧ copy ∈ copies := by
  unfold copies
  cases s.phase i with
  | saving => simp
  | reading recursive keys copies => simp
  | deleting recursive copies => cases s.sys.prog i <;> simp
  | failed => simp

/-- What one step does. -/
theorem step_cases {s s' : Cluster} {a : ℕ × Bool} (h : step codec order s a = some s') :
    (∃ recursive key keys copies dev, s.phase a.1 = .reading recursive (key :: keys) copies ∧
      deviceAt s.sys.db key = some dev ∧
      s' = s.enter a.1 (.reading recursive keys (copies ++ [dev]))) ∨
    s' = s.enter a.1 .failed ∨
    (∃ recursive copies, s.phase a.1 = .reading recursive [] copies ∧
      s' = { s.enter a.1 (.deleting recursive copies) with
        sys := s.sys.goOn a.1 (delete codec (order a.1) recursive copies) }) ∨
    ((s.phase a.1 = .saving ∨ ∃ recursive copies, s.phase a.1 = .deleting recursive copies) ∧
      ∃ sys, System.step Stored.raw s.sys a = some sys ∧ s' = { s with sys := sys }) := by
  unfold step at h
  split at h
  · next recursive key keys copies hphase =>
      split at h
      · next dev hdev =>
          split_ifs at hdev
          exact Or.inl ⟨recursive, key, keys, copies, dev, hphase, hdev, (Option.some.inj h).symm⟩
      · exact Or.inr (Or.inl (Option.some.inj h).symm)
  · next recursive copies hphase =>
      exact Or.inr (Or.inr (Or.inl ⟨recursive, copies, hphase, (Option.some.inj h).symm⟩))
  · cases h
  · next hno hno' hfailed =>
      obtain ⟨sys, hsys, rfl⟩ := Option.map_eq_some_iff.mp h
      refine Or.inr (Or.inr (Or.inr ⟨?_, sys, hsys, rfl⟩))
      cases hphase : s.phase a.1 with
      | saving => exact Or.inl rfl
      | reading recursive keys copies =>
          cases keys with
          | nil => exact absurd hphase (hno' recursive copies)
          | cons key keys => exact absurd hphase (hno recursive key keys copies)
      | deleting recursive copies => exact Or.inr ⟨recursive, copies, rfl⟩
      | failed => exact absurd hphase hfailed

/-- What holds in every state of a run of careful steps. -/
structure Sound (codec : BitmapCodec) (s : Cluster) : Prop where
  consistent : Consistent codec s.sys.db
  wellStored : WellStored s.sys.db
  saving : ∀ i, s.phase i = .saving → (s.sys.prog i).Issues (SaveTxn codec)
  deleting : ∀ i recursive copies, s.phase i = .deleting recursive copies →
    (s.sys.prog i).Issues (DeleteTxn codec recursive copies)
  holds : ∀ i, ∀ copy ∈ s.copies i, Holds s.sys.db copy

theorem enter_phase (s : Cluster) (i j : ℕ) (phase : Phase) :
    (s.enter i phase).phase j = if j = i then phase else s.phase j := by
  simp [enter, Function.update_apply]

/-- A client that reads one more device. -/
theorem Sound.read {s : Cluster} (h : Sound codec s) {i : ℕ} {recursive : Bool} {key : String}
    {keys : List String} {copies : List Device} {dev : Device}
    (hphase : s.phase i = .reading recursive (key :: keys) copies)
    (hdev : deviceAt s.sys.db key = some dev) :
    Sound codec (s.enter i (.reading recursive keys (copies ++ [dev]))) where
  consistent := h.consistent
  wellStored := h.wellStored
  saving := by
    intro j hj
    rw [enter_phase] at hj
    split_ifs at hj with hji
    exact h.saving j hj
  deleting := by
    intro j recursive' copies' hj
    rw [enter_phase] at hj
    split_ifs at hj with hji
    exact h.deleting j recursive' copies' hj
  holds := by
    intro j copy hcopy
    rw [mem_copies, enter_phase] at hcopy
    split_ifs at hcopy with hji
    · rcases hcopy with ⟨r, k, c, heq, hc⟩ | ⟨r, c, heq, _⟩
      · obtain ⟨rfl, rfl, rfl⟩ := Phase.reading.inj heq
        rcases List.mem_append.mp hc with hc | hc
        · exact h.holds i copy (mem_copies.mpr (Or.inl ⟨_, _, _, hphase, hc⟩))
        · -- the copy is what is stored
          obtain rfl := List.mem_singleton.mp hc
          refine Or.inr ⟨copy, ?_, rfl⟩
          rw [h.wellStored key copy hdev]
          exact hdev
      · cases heq
    · exact h.holds j copy (mem_copies.mpr hcopy)

theorem Sound.failed {s : Cluster} (h : Sound codec s) (i : ℕ) :
    Sound codec (s.enter i .failed) where
  consistent := h.consistent
  wellStored := h.wellStored
  saving := by
    intro j hj
    rw [enter_phase] at hj
    split_ifs at hj with hji
    exact h.saving j hj
  deleting := by
    intro j recursive copies hj
    rw [enter_phase] at hj
    split_ifs at hj with hji
    exact h.deleting j recursive copies hj
  holds := by
    intro j copy hcopy
    rw [mem_copies, enter_phase] at hcopy
    split_ifs at hcopy with hji
    · rcases hcopy with ⟨r, k, c, heq, _⟩ | ⟨r, c, heq, _⟩
      · cases heq
      · cases heq
    · exact h.holds j copy (mem_copies.mpr hcopy)

/-- A client that calls `Delete`. -/
theorem Sound.call (horder : ∀ i l, (order i l).Perm l) {s : Cluster} (h : Sound codec s) {i : ℕ}
    {recursive : Bool} {copies : List Device}
    (hphase : s.phase i = .reading recursive [] copies) :
    Sound codec { s.enter i (.deleting recursive copies) with
      sys := s.sys.goOn i (delete codec (order i) recursive copies) } := by
  have hprog : ∀ j, (s.sys.goOn i (delete codec (order i) recursive copies)).prog j =
      if j = i then delete codec (order i) recursive copies else s.sys.prog j :=
    fun j => Function.update_apply ..
  refine ⟨h.consistent, h.wellStored, fun j hj => ?_, fun j r c hj => ?_, fun j copy hcopy => ?_⟩
  · rw [enter_phase] at hj
    split_ifs at hj with hji
    rw [hprog, if_neg hji]
    exact h.saving j hj
  · rw [enter_phase] at hj
    rw [hprog]
    split_ifs at hj ⊢ with hji
    · obtain ⟨rfl, rfl⟩ := Phase.deleting.inj hj
      exact delete_issues (horder i) copies
    · exact h.deleting j r c hj
  · rw [mem_copies, enter_phase, hprog] at hcopy
    split_ifs at hcopy with hji
    · rcases hcopy with ⟨r, k, c, heq, _⟩ | ⟨r, c, heq, _, hc⟩
      · cases heq
      · obtain ⟨rfl, rfl⟩ := Phase.deleting.inj heq
        exact h.holds i copy (mem_copies.mpr (Or.inl ⟨_, _, _, hphase, hc⟩))
    · exact h.holds j copy (mem_copies.mpr hcopy)

/-- What a client in this phase may still issue. -/
def Issued (codec : BitmapCodec) (s : Cluster) (i : ℕ) (t : Txn Stored) : Prop :=
  (s.phase i = .saving → SaveTxn codec t) ∧
    ∀ recursive copies, s.phase i = .deleting recursive copies → DeleteTxn codec recursive copies t

theorem Sound.issued {s : Cluster} (h : Sound codec s) (i : ℕ) :
    (s.sys.prog i).Issues (Issued codec s i) := by
  cases hphase : s.phase i with
  | saving =>
      refine (h.saving i hphase).mono fun t ht => ⟨fun _ => ht, fun r c heq => ?_⟩
      rw [hphase] at heq
      cases heq
  | deleting recursive copies =>
      refine (h.deleting i recursive copies hphase).mono fun t ht =>
        ⟨fun heq => ?_, fun r c heq => ?_⟩
      · rw [hphase] at heq
        cases heq
      · rw [hphase] at heq
        obtain ⟨rfl, rfl⟩ := Phase.deleting.inj heq
        exact ht
  | reading recursive keys copies =>
      exact Prog.issues_of_forall (fun t => ⟨by simp [hphase], by simp [hphase]⟩) _
  | failed => exact Prog.issues_of_forall (fun t => ⟨by simp [hphase], by simp [hphase]⟩) _

/-- A step of a program gives no client a copy. -/
theorem copies_subset {s : Cluster} {a : ℕ × Bool} {sys : System Stored Outcome}
    (hsys : System.step Stored.raw s.sys a = some sys) {i : ℕ} {copy : Device}
    (h : copy ∈ ({ s with sys := sys } : Cluster).copies i) : copy ∈ s.copies i := by
  rw [mem_copies] at h ⊢
  refine h.imp id ?_
  rintro ⟨recursive, copies, hphase, hret, hcopy⟩
  refine ⟨recursive, copies, hphase, fun x hx => ?_, hcopy⟩
  by_cases hi : i = a.1
  · subst hi
    simp [System.step, hx] at hsys
  · refine hret x ?_
    have hprog : ∀ p : Client, (s.sys.goOn a.1 p).prog i = s.sys.prog i :=
      fun p => Function.update_of_ne hi ..
    rcases System.step_cases Stored.raw hsys with ⟨_, _, r, _, rfl⟩ | ⟨_, _, r, _, _, rfl⟩ |
      ⟨_, _, _, _, _, rfl⟩
    · exact (hprog _).trans hx
    · exact (hprog _).trans hx
    · exact (hprog _).trans hx

/-- A committed transaction keeps everything when it is careful. -/
theorem Sound.commit {s : Cluster} (h : Sound codec s) {i : ℕ}
    (hphase : s.phase i = .saving ∨ ∃ recursive copies, s.phase i = .deleting recursive copies)
    {t : Txn Stored} {next : TxnResult → Client} (hprog : s.sys.prog i = .txn t next)
    (hacc : t.Accepted) (hholds : t.Holds Stored.raw s.sys.db)
    (hcareful : s.phase i = .saving → ∀ j, ∀ copy ∈ s.copies j, ∀ dev,
      .put copy.path (.ofDevice dev) ∈ t.ops → dev.bit = copy.bit) :
    Consistent codec (t.apply s.sys.db) ∧ WellStored (t.apply s.sys.db) ∧
      ∀ j, ∀ copy ∈ s.copies j, Holds (t.apply s.sys.db) copy := by
  have hissues := h.issued i
  rw [hprog] at hissues
  rcases hphase with hphase | ⟨recursive, copies, hphase⟩
  · have ht : SaveTxn codec t := hissues.1.1 hphase
    refine ⟨(ht.sound hacc hholds h.consistent).1, ht.wellStored hacc h.wellStored, ?_⟩
    intro j copy hcopy
    exact ht.holds hacc (hcareful hphase j copy hcopy) (h.holds j copy hcopy)
  · have ht : DeleteTxn codec recursive copies t := hissues.1.2 recursive copies hphase
    -- the client is not done, so the store has the bits of its copies
    have hcopies : ∀ copy ∈ copies, Holds s.sys.db copy := by
      intro copy hcopy
      refine h.holds i copy (mem_copies.mpr (Or.inr ⟨recursive, copies, hphase, ?_, hcopy⟩))
      intro x hx
      rw [hprog] at hx
      cases hx
    exact ⟨ht.sound hacc hholds h.consistent h.wellStored hcopies,
      ht.wellStored hacc h.wellStored, fun j copy hcopy => ht.holds hacc (h.holds j copy hcopy)⟩

theorem Sound.sys_step {s : Cluster} (h : Sound codec s) {a : ℕ × Bool} (hcareful : s.Careful a)
    (hphase : s.phase a.1 = .saving ∨ ∃ recursive copies, s.phase a.1 = .deleting recursive copies)
    {sys : System Stored Outcome} (hsys : System.step Stored.raw s.sys a = some sys) :
    Sound codec { s with sys := sys } := by
  have hissued := System.step_issues h.issued hsys
  have hstore : Consistent codec sys.db ∧ WellStored sys.db ∧
      ∀ j, ∀ copy ∈ s.copies j, Holds sys.db copy := by
    cases ha : a.2 with
    | false =>
        have hdb : sys.db = s.sys.db := by
          unfold System.step at hsys
          rw [ha] at hsys
          split at hsys
          · cases hsys
          · obtain rfl := Option.some.inj hsys
            rfl
          · rw [if_pos (Or.inl rfl)] at hsys
            obtain rfl := Option.some.inj hsys
            rfl
        rw [hdb]
        exact ⟨h.consistent, h.wellStored, h.holds⟩
    | true =>
        rcases System.step_cases Stored.raw hsys with ⟨_, _, r, _, rfl⟩ | ⟨_, _, r, _, _, rfl⟩ |
          ⟨t, next, hprog, hacc, hholds, rfl⟩
        · exact ⟨h.consistent, h.wellStored, h.holds⟩
        · exact ⟨h.consistent, h.wellStored, h.holds⟩
        · exact h.commit hphase hprog hacc hholds
            fun hsaving => hcareful t next hsaving hprog ha hacc hholds
  refine ⟨hstore.1, hstore.2.1, fun i hi => ?_, fun i recursive copies hi => ?_,
    fun i copy hcopy => hstore.2.2 i copy (copies_subset hsys hcopy)⟩
  · exact (hissued i).mono fun t ht => ht.1 hi
  · exact (hissued i).mono fun t ht => ht.2 recursive copies hi

/-- One careful step. -/
theorem Sound.step (horder : ∀ i l, (order i l).Perm l) {s s' : Cluster} {a : ℕ × Bool}
    (hcareful : s.Careful a) (h : Sound codec s) (hstep : step codec order s a = some s') :
    Sound codec s' := by
  rcases step_cases hstep with ⟨_, _, _, _, _, hphase, hdev, rfl⟩ | rfl | ⟨_, _, hphase, rfl⟩ |
    ⟨hphase, sys, hsys, rfl⟩
  · exact h.read hphase hdev
  · exact h.failed a.1
  · exact h.call horder hphase
  · exact h.sys_step hcareful hphase hsys

theorem start_sound (horder : ∀ i l, (order i l).Perm l) {db : Store Stored} {calls : ℕ → Call}
    (hfresh : ∀ i devs, calls i = .save devs → ∀ dev ∈ devs, dev.Fresh)
    (hdb : Consistent codec db) (hwell : WellStored db) :
    Sound codec (start codec order db calls) where
  consistent := hdb
  wellStored := hwell
  saving := by
    intro i hi
    change ((calls i).prog codec (order i)).Issues (SaveTxn codec)
    have hphase : (calls i).phase = .saving := hi
    cases hcall : calls i with
    | save devs => exact save_issues (horder i) (hfresh i devs hcall)
    | delete recursive keys => trivial
  deleting := by
    intro i recursive copies hi
    have hphase : (calls i).phase = .deleting recursive copies := hi
    cases hcall : calls i with
    | save devs => rw [hcall] at hphase; cases hphase
    | delete recursive keys => rw [hcall] at hphase; cases hphase
  holds := by
    intro i copy hcopy
    rcases mem_copies.mp hcopy with ⟨r, k, c, hi, hc⟩ | ⟨r, c, hi, _⟩
    · have hphase : (calls i).phase = .reading r k c := hi
      cases hcall : calls i with
      | save devs => rw [hcall] at hphase; cases hphase
      | delete recursive keys =>
          rw [hcall] at hphase
          obtain ⟨_, _, rfl⟩ := Phase.reading.inj hphase
          cases hc
    · have hphase : (calls i).phase = .deleting r c := hi
      cases hcall : calls i with
      | save devs => rw [hcall] at hphase; cases hphase
      | delete recursive keys => rw [hcall] at hphase; cases hphase

/-- **Exact deletes**: in every run in which no `Save` commits another record under the key of a
copy that is still to be deleted, every device that is stored has its bit set, and a `Delete`
without `recursive` that commits removes the records of its copies and clears the bits of the
records that it removes, these and no others. -/
theorem deletes_exact (horder : ∀ i l, (order i l).Perm l) {db : Store Stored} {calls : ℕ → Call}
    (hfresh : ∀ i devs, calls i = .save devs → ∀ dev ∈ devs, dev.Fresh)
    (hdb : Consistent codec db) (hwell : WellStored db) {s : Cluster} {as : List (ℕ × Bool)}
    (hcareful : Meets (step codec order) Careful (start codec order db calls) as)
    (hrun : run (step codec order) (start codec order db calls) as = some s) :
    Consistent codec s.sys.db ∧
    ∀ a s' copies, s.phase a.1 = .deleting false copies → step codec order s a = some s' →
      s'.sys.log ≠ s.sys.log →
      Consistent codec s'.sys.db ∧
      (∀ copy ∈ copies, (∃ dev, deviceAt s.sys.db copy.path = some dev ∧ dev.bit = copy.bit) ∧
        s'.sys.db copy.path = none) ∧
      ∀ book b, IsMapKey book →
        (b ∈ bits codec s.sys.db book ∧ b ∉ bits codec s'.sys.db book ↔
          ∃ key dev, deviceAt s.sys.db key = some dev ∧ s'.sys.db key = none ∧
            dev.bit = some (book, b)) := by
  have hsound : Sound codec s := run_invariant (step codec order)
    (fun s a s' hok h hstep => h.step horder hok hstep) hcareful
    (start_sound horder hfresh hdb hwell) hrun
  refine ⟨hsound.consistent, fun a s' copies hphase hstep hlog => ?_⟩
  have hissues := hsound.deleting a.1 false copies hphase
  have hafter : Sound codec s' := by
    refine hsound.step horder (fun t next hsaving => ?_) hstep
    rw [hphase] at hsaving
    cases hsaving
  rcases step_cases hstep with ⟨_, _, _, _, _, hphase', _⟩ | rfl | ⟨_, _, hphase', _⟩ |
    ⟨_, sys, hsys, rfl⟩
  · rw [hphase] at hphase'; cases hphase'
  · exact absurd rfl hlog
  · rw [hphase] at hphase'; cases hphase'
  · rcases System.step_cases Stored.raw hsys with ⟨_, _, r, _, rfl⟩ | ⟨_, _, r, _, _, rfl⟩ |
      ⟨t, next, hprog, hacc, hholds, rfl⟩
    · exact absurd rfl hlog
    · exact absurd rfl hlog
    · rw [hprog] at hissues
      have ht : DeleteTxn codec false copies t := hissues.1
      have hcopies : ∀ copy ∈ copies, Holds s.sys.db copy := by
        intro copy hcopy
        refine hsound.holds a.1 copy (mem_copies.mpr (Or.inr ⟨false, copies, hphase, ?_, hcopy⟩))
        intro x hx
        rw [hprog] at hx
        cases hx
      refine ⟨hafter.consistent, fun copy hcopy => ?_, fun book b hbook => ?_⟩
      · exact ht.removes hacc hholds (hcopies copy hcopy) hcopy
      · exact ht.clears hacc hholds hsound.consistent hsound.wellStored hcopies hbook b

/-! ### A record that is deleted and saved again -/

theorem step_phase_ne_saving {s s' : Cluster} {a : ℕ × Bool}
    (h : step codec order s a = some s') {i : ℕ} (hi : s.phase i ≠ .saving) :
    s'.phase i ≠ .saving := by
  rcases step_cases h with ⟨_, _, _, _, _, _, _, rfl⟩ | rfl | ⟨_, _, _, rfl⟩ | ⟨_, _, _, rfl⟩
  · rw [enter_phase]
    split_ifs
    · nofun
    · exact hi
  · rw [enter_phase]
    split_ifs
    · nofun
    · exact hi
  · rw [enter_phase]
    split_ifs
    · nofun
    · exact hi
  · exact hi

/-- Steps of clients that delete are careful. -/
theorem meets_careful {s : Cluster} {as : List (ℕ × Bool)}
    (h : ∀ a ∈ as, s.phase a.1 ≠ .saving) : Meets (step codec order) Careful s as := by
  induction as generalizing s with
  | nil => trivial
  | cons a as ih =>
      refine ⟨fun t next hsaving => absurd hsaving (h a List.mem_cons_self), fun s' hs' => ?_⟩
      exact ih fun b hb => step_phase_ne_saving hs' (h b (List.mem_cons_of_mem _ hb))

end machine

/-- Two clients delete the switch `a`, one saves the switch `b` and one the switch `a`. -/
def switchCalls : ℕ → Call
  | 0 => .delete false [switchPath "a"]
  | 1 => .delete false [switchPath "a"]
  | 2 => .save [.switch ⟨"b", 0⟩]
  | 3 => .save [.switch ⟨"a", 0⟩]
  | _ => .save []

/-- These clients on a store with the switch `a`. -/
def switchRun (as : List (ℕ × Bool)) : Option Cluster :=
  run (step sampleCodec (fun _ l => l))
    (start sampleCodec (fun _ l => l) oneSwitchStore switchCalls) as

theorem switchCalls_fresh (i : ℕ) (devs : List Device) (h : switchCalls i = .save devs) :
    ∀ dev ∈ devs, dev.Fresh := by
  match i with
  | 0 => cases h
  | 1 => cases h
  | 2 => obtain rfl := Call.save.inj h; simp [Device.Fresh]
  | 3 => obtain rfl := Call.save.inj h; simp [Device.Fresh]
  | _ + 4 => obtain rfl := Call.save.inj h; simp

theorem oneSwitchStore_wellStored : WellStored oneSwitchStore := by
  intro key dev hdev
  obtain ⟨rfl, rfl⟩ := oneSwitchStore_deviceAt hdev
  rfl

/-- Both clients have read the switch and one of them is about to commit. -/
def twoDeletes : List (ℕ × Bool) := [(0, true), (1, true), (1, true), (1, true)]

theorem deletes_exact_twoDeletes : ∃ s s', switchRun twoDeletes = some s ∧
    step sampleCodec (fun _ l => l) s (1, true) = some s' ∧ Consistent sampleCodec s'.sys.db ∧
    s'.sys.db (switchPath "a") = none ∧
    1 ∈ bits sampleCodec s.sys.db deviceIDsPath ∧
    1 ∉ bits sampleCodec s'.sys.db deviceIDsPath := by
  obtain ⟨s', hs'⟩ := Option.isSome_iff_exists.mp
    (show (switchRun (twoDeletes ++ [(1, true)])).isSome from by decide +kernel)
  obtain ⟨s, hs, hlast⟩ := (run_append _).mp hs'
  obtain ⟨s₁, hstep, hend⟩ := (run_cons_eq_some _).mp hlast
  obtain rfl := Option.some.inj hend
  have hbefore : ∀ s ∈ switchRun twoDeletes,
      s.phase 1 = .deleting false [.switch ⟨"a", 1⟩] ∧ s.sys.log.length = 0 ∧
        deviceAt s.sys.db (switchPath "a") = some (.switch ⟨"a", 1⟩) := by decide +kernel
  have hafter : ∀ s ∈ switchRun (twoDeletes ++ [(1, true)]), s.sys.log.length = 1 := by
    decide +kernel
  obtain ⟨hphase, hlen, hdev⟩ := hbefore s hs
  have hlog : s₁.sys.log ≠ s.sys.log := by
    intro heq
    have hone := hafter s₁ hs'
    rw [heq, hlen] at hone
    cases hone
  have hphases : ∀ a ∈ twoDeletes, (switchCalls a.1).phase ≠ .saving := by decide
  obtain ⟨_, hcommit⟩ := deletes_exact (fun _ l => List.Perm.refl l) switchCalls_fresh
    oneSwitchStore_consistent oneSwitchStore_wellStored (meets_careful hphases) hs
  obtain ⟨hconsistent, hremoves, hclears⟩ := hcommit (1, true) s₁ _ hphase hstep hlog
  have hgone : s₁.sys.db (switchPath "a") = none := (hremoves _ List.mem_cons_self).2
  obtain ⟨h1, h2⟩ := (hclears deviceIDsPath 1 (Or.inl rfl)).mpr ⟨_, _, hdev, hgone, rfl⟩
  exact ⟨s, s₁, hs, hstep, hconsistent, hgone, h1, h2⟩

/-- The switch is deleted by another client; its id goes to `b` and it is saved with a new one. -/
def recreated : List (ℕ × Bool) :=
  [(0, true), (1, true), (1, true), (1, true), (1, true), (2, true), (2, true), (3, true),
    (3, true), (0, true), (0, true)]

/-- The copy has the id `1`, the record that goes with it the id `2`, and `b` loses its bit. -/
theorem recreated_keeps_foreign_bit : ¬ ∀ (codec : BitmapCodec)
    (order : ℕ → List (String × MapEntry) → List (String × MapEntry)) (db : Store Stored)
    (calls : ℕ → Call) (as : List (ℕ × Bool)) (s s' : Cluster) (a : ℕ × Bool)
    (copies : List Device),
    (∀ i l, (order i l).Perm l) →
    (∀ i devs, calls i = .save devs → ∀ dev ∈ devs, dev.Fresh) →
    Consistent codec db → WellStored db →
    run (step codec order) (start codec order db calls) as = some s →
    s.phase a.1 = .deleting false copies → step codec order s a = some s' →
    s'.sys.log ≠ s.sys.log →
    Consistent codec s'.sys.db ∧ ∀ copy ∈ copies, ∀ dev,
      deviceAt s.sys.db copy.path = some dev → dev.bit = copy.bit := by
  intro h
  obtain ⟨s', hs'⟩ := Option.isSome_iff_exists.mp
    (show (switchRun (recreated ++ [(0, true)])).isSome from by decide +kernel)
  obtain ⟨s, hs, hlast⟩ := (run_append _).mp hs'
  obtain ⟨s₁, hstep, hend⟩ := (run_cons_eq_some _).mp hlast
  obtain rfl := Option.some.inj hend
  have hbefore : ∀ s ∈ switchRun recreated, s.phase 0 = .deleting false [.switch ⟨"a", 1⟩] ∧
      s.sys.log.length = 3 ∧
        deviceAt s.sys.db (switchPath "a") = some (.switch ⟨"a", 2⟩) := by decide +kernel
  have hafter : ∀ s ∈ switchRun (recreated ++ [(0, true)]), s.sys.log.length = 4 ∧
      bits sampleCodec s.sys.db deviceIDsPath = {2} ∧
        deviceAt s.sys.db (switchPath "b") = some (.switch ⟨"b", 1⟩) := by decide +kernel
  obtain ⟨hphase, hlen, hdev⟩ := hbefore s hs
  obtain ⟨hlen', hbits, hb⟩ := hafter s₁ hs'
  have hlog : s₁.sys.log ≠ s.sys.log := by
    intro heq
    rw [heq, hlen] at hlen'
    cases hlen'
  obtain ⟨hconsistent, _⟩ := h sampleCodec (fun _ l => l) oneSwitchStore switchCalls recreated s s₁
    (0, true) _ (fun _ l => List.Perm.refl l) switchCalls_fresh oneSwitchStore_consistent
    oneSwitchStore_wellStored hs hphase hstep hlog
  have hmem := hconsistent.recorded (switchPath "b") _ deviceIDsPath 1 hb rfl
  rw [hbits] at hmem
  exact absurd hmem (by decide)

end Cluster

end TupleNet.Control
