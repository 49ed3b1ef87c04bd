import TupleNet.Control.SubnetAllocation

/-! # Why `SaveSwitchPort` gives up

After a failed transaction `SaveSwitchPort` reads the book and chooses an address again.  When it is
the address of the failed transaction, it takes the port itself for the cause and returns an error.
But the book may have changed without a change of its least free number.  `RetrySystem` runs such
clients among others that save and delete devices, on a store that always answers, and keeps for
each call the states of the store that it has seen.  An error has a reason in one of these states if
each time the book is read again it gives another address, or there has been a reason before
(`errors_have_reasons`); otherwise the call may end without one at its next step
(`error_without_reason`). -/

namespace TupleNet.Control

open TxnStore StepMachine

/-- What a client does. -/
inductive PortClient where
  /-- `SaveSwitchPort`. -/
  | port (call : SaveCall)
  | save (devs : List Device)
  | delete (recursive : Bool) (devs : List Device)

/-- The clients, and what the store was at the moments of each call of `SaveSwitchPort`. -/
structure RetrySystem where
  cluster : PortCluster
  moments : ℕ → List (Store Stored)

/-- A reason for an error: the switch is missing, the port is stored or no address of the subnet is
free. -/
def SaveCall.Reason (codec : BitmapCodec) (call : SaveCall) (db : Store Stored) : Prop :=
  db (switchPath call.sp.owner) = none ∨ db (switchPortPath call.sp.owner call.sp.name) ≠ none ∨
    ∀ x, iPv4ToU32 call.cip = some x →
      ∀ v, ¬ Available (bits codec db (switchIPBookPath call.sp.owner)) x call.cprefixLen v

instance (codec : BitmapCodec) (call : SaveCall) : DecidablePred (call.Reason codec) := fun db =>
  decidable_of_iff ((db (switchPath call.sp.owner)).isNone ∨
    (db (switchPortPath call.sp.owner call.sp.name)).isSome ∨
    ∀ x ∈ iPv4ToU32 call.cip, ∀ v < masked (lastAddr x call.cprefixLen),
      masked (netAddr x call.cprefixLen) + 2 ≤ v →
        v ∈ bits codec db (switchIPBookPath call.sp.owner)) (by
    rw [Option.isNone_iff_eq_none, Option.isSome_iff_ne_none]
    refine or_congr_right (or_congr_right (forall_congr' fun x => forall_congr' fun hx =>
      forall_congr' fun v => ?_))
    constructor
    · exact fun h hv => hv.2.2 (h hv.2.1 hv.1)
    · exact fun h hlast hlow => by_contra fun hfree => h ⟨hlow, hlast, hfree⟩)

namespace RetrySystem

section machine
variable (codec : BitmapCodec) (order : ℕ → List (String × MapEntry) → List (String × MapEntry))
  (jobs : ℕ → PortClient)

/-- Nobody has moved yet. -/
def start (db : Store Stored) : RetrySystem where
  cluster :=
    { sys := .start db (fun i => match jobs i with
        | .port _ => .ret .error
        | .save devs => save codec (order i) devs
        | .delete recursive devs => delete codec (order i) recursive devs)
      saver := fun _ => ⟨"", .getSwitch⟩ }
  moments _ := []

/-- The stage is an end of the call. -/
def finished : SaveStage → Bool
  | .returned _ => true
  | _ => false

/-- The moments of the calls when client `i` moves: it begins with its first step. -/
def observe (s : RetrySystem) (i : ℕ) : ℕ → List (Store Stored) := fun j =>
  if j = i ∨ s.moments j ≠ [] ∧ finished (s.cluster.saver j).stage = false then
    s.moments j ++ [s.cluster.sys.db]
  else s.moments j

/-- One step of client `i`; the store answers. -/
def step (s : RetrySystem) (i : ℕ) : Option RetrySystem :=
  (match jobs i with
    | .port call => PortCluster.saveStep codec call s.cluster i true
    | .save _ => (System.step Stored.raw s.cluster.sys (i, true)).map
        (fun sys => { s.cluster with sys := sys })
    | .delete _ _ => (System.step Stored.raw s.cluster.sys (i, true)).map
        (fun sys => { s.cluster with sys := sys })).map
    (fun cluster => ⟨cluster, s.observe i⟩)

/-- There has been a reason for an error of the call, or there is one now. -/
def Excused (s : RetrySystem) (i : ℕ) (call : SaveCall) : Prop :=
  ∃ db ∈ s.moments i ++ [s.cluster.sys.db], call.Reason codec db

instance (s : RetrySystem) (i : ℕ) (call : SaveCall) : Decidable (Excused codec s i call) :=
  inferInstanceAs (Decidable (∃ db ∈ _, _))

/-- Every error that a call has returned has a reason at some moment of the call. -/
def Justified (s : RetrySystem) : Prop :=
  ∀ i call, jobs i = .port call → (s.cluster.saver i).stage = .returned .error →
    ∃ db ∈ s.moments i, call.Reason codec db

/-- If the client is about to read the book, it gives another address than that of the failed
transaction, or the call is excused. -/
def Moves (s : RetrySystem) (i : ℕ) : Prop :=
  ∀ call, jobs i = .port call → (s.cluster.saver i).stage = .readBook →
    ∀ a, allocSwitchPortIP codec (rawAt s.cluster.sys.db (switchIPBookPath call.sp.owner)) call.cip
        call.cprefixLen = .got a →
      a.ip = (s.cluster.saver i).prevIP → Excused codec s i call

instance (s : RetrySystem) : DecidablePred (Moves codec jobs s) := fun i => by
  unfold Moves
  cases jobs i with
  | save devs => exact isTrue (by simp)
  | delete recursive devs => exact isTrue (by simp)
  | port call =>
      by_cases hstage : (s.cluster.saver i).stage = .readBook
      · cases halloc : allocSwitchPortIP codec
            (rawAt s.cluster.sys.db (switchIPBookPath call.sp.owner)) call.cip call.cprefixLen with
        | got a =>
            exact decidable_of_iff (a.ip = (s.cluster.saver i).prevIP → Excused codec s i call)
              (by simp [hstage, halloc])
        | error => exact isTrue (by simp [halloc])
        | panic => exact isTrue (by simp [halloc])
        | loops => exact isTrue (by simp [halloc])
      · exact isTrue (by simp [hstage])

end machine

/-! ### One step -/

section step
variable {codec : BitmapCodec} {order : ℕ → List (String × MapEntry) → List (String × MapEntry)}
  {jobs : ℕ → PortClient} {call : SaveCall}

/-- The allocation gives an error only when no address of the subnet is free. -/
theorem reason_of_error {db : Store Stored} (h : allocSwitchPortIP codec
    (rawAt db (switchIPBookPath call.sp.owner)) call.cip call.cprefixLen = .error) :
    call.Reason codec db := by
  refine Or.inr (Or.inr fun x hx v hv => ?_)
  by_cases hle : call.cprefixLen ≤ 32
  · unfold allocSwitchPortIP at h
    simp only [hx] at h
    split at h
    · cases h
    · next id m hnext =>
        split_ifs at h with hmax
        obtain ⟨id', hfree, heq⟩ := Option.map_eq_some_iff.mp hnext
        obtain ⟨rfl, rfl⟩ := Prod.mk.inj heq
        obtain ⟨hnew, hlt, hpassed⟩ := freeFrom_eq_some hfree (Nat.mod_lt _ (by decide))
        rw [firstID, networkOf_eq hle] at hpassed
        have hfound : Found (bits codec db (switchIPBookPath call.sp.owner)) x call.cprefixLen
            id' :=
          ⟨hnew, hlt, hpassed⟩
        rw [maxID_networkOf hle] at hmax
        exact (hfound.last hle hmax).2 v hv
  · -- the subnet is a single address
    obtain ⟨hlow, hlast, _⟩ := hv
    rw [lastAddr, show 32 - call.cprefixLen = 0 by omega, pow_zero, Nat.sub_self,
      Nat.add_zero] at hlast
    omega

/-- What a step makes of the local variables: the ways to an error, and to an allocation. -/
structure SaverStep (codec : BitmapCodec) (call : SaveCall) (c c' : PortCluster) (i : ℕ) :
    Prop where
  others : ∀ j, j ≠ i → c'.saver j = c.saver j
  error : (c'.saver i).stage = .returned .error →
    (c.saver i).stage = .getSwitch ∧ c.sys.db (switchPath call.sp.owner) = none ∨
    (c.saver i).stage = .readBook ∧ allocSwitchPortIP codec
      (rawAt c.sys.db (switchIPBookPath call.sp.owner)) call.cip call.cprefixLen = .error ∨
    ∃ a, (c.saver i).stage = .recheck a ∧ a.ip = (c.saver i).prevIP
  allocated : ∀ a, (c'.saver i).stage = .recheck a →
    (c'.saver i).prevIP = (c.saver i).prevIP ∧ (c.saver i).stage = .readBook ∧
    allocSwitchPortIP codec (rawAt c.sys.db (switchIPBookPath call.sp.owner)) call.cip
      call.cprefixLen = .got a

theorem saverStep_enter {c : PortCluster} {i : ℕ} {v : Saver}
    (herror : v.stage = .returned .error →
      (c.saver i).stage = .getSwitch ∧ c.sys.db (switchPath call.sp.owner) = none ∨
      (c.saver i).stage = .readBook ∧ allocSwitchPortIP codec
        (rawAt c.sys.db (switchIPBookPath call.sp.owner)) call.cip call.cprefixLen = .error ∨
      ∃ a, (c.saver i).stage = .recheck a ∧ a.ip = (c.saver i).prevIP)
    (halloc : ∀ a, v.stage = .recheck a →
      v.prevIP = (c.saver i).prevIP ∧ (c.saver i).stage = .readBook ∧
      allocSwitchPortIP codec (rawAt c.sys.db (switchIPBookPath call.sp.owner)) call.cip
        call.cprefixLen = .got a) : SaverStep codec call c (c.enter i v) i := by
  have hself : (c.enter i v).saver i = v := Function.update_self ..
  refine ⟨fun j hj => Function.update_of_ne hj .., ?_, ?_⟩
  · rw [hself]
    exact herror
  · rw [hself]
    exact halloc

theorem saverStep {c c' : PortCluster} {i : ℕ}
    (h : PortCluster.saveStep codec call c i true = some c') : SaverStep codec call c c' i := by
  unfold PortCluster.saveStep at h
  simp only [true_and, if_true] at h
  cases hstage : (c.saver i).stage with
  | getSwitch =>
      simp only [hstage] at h
      split_ifs at h with hsw
      · obtain rfl := Option.some.inj h
        exact saverStep_enter (fun he => by cases he) (fun a ha => by cases ha)
      · obtain rfl := Option.some.inj h
        rw [Option.not_isSome_iff_eq_none] at hsw
        exact saverStep_enter (fun _ => Or.inl ⟨hstage, hsw⟩) (fun a ha => by cases ha)
  | readBook =>
      simp only [hstage] at h
      cases halloc : allocSwitchPortIP codec (rawAt c.sys.db (switchIPBookPath call.sp.owner))
          call.cip call.cprefixLen with
      | got a =>
          simp only [halloc] at h
          obtain rfl := Option.some.inj h
          refine saverStep_enter (fun he => by cases he) fun a' ha' => ⟨rfl, hstage, ?_⟩
          rw [halloc, SaveStage.recheck.inj ha']
      | error =>
          simp only [halloc] at h
          obtain rfl := Option.some.inj h
          exact saverStep_enter (fun _ => Or.inr (Or.inl ⟨hstage, halloc⟩))
            (fun a ha => by cases ha)
      | panic =>
          simp only [halloc] at h
          obtain rfl := Option.some.inj h
          exact saverStep_enter (fun he => by cases he) (fun a ha => by cases ha)
      | loops =>
          simp only [halloc] at h
          obtain rfl := Option.some.inj h
          exact saverStep_enter (fun he => by cases he) (fun a ha => by cases ha)
  | recheck a =>
      simp only [hstage] at h
      split_ifs at h with hne
      · obtain rfl := Option.some.inj h
        exact saverStep_enter (fun he => by cases he) (fun a ha => by cases ha)
      · obtain rfl := Option.some.inj h
        exact saverStep_enter (fun _ => Or.inr (Or.inr ⟨a, hstage, (not_not.mp hne).symm⟩))
          (fun a ha => by cases ha)
  | commit a missing =>
      simp only [hstage] at h
      split_ifs at h with hcommit
      · obtain rfl := Option.some.inj h
        have hok : SaverStep codec call c (c.enter i ⟨(c.saver i).prevIP, .returned .ok⟩) i :=
          saverStep_enter (fun he => by cases he) (fun a ha => by cases ha)
        exact ⟨hok.others, hok.error, hok.allocated⟩
      · obtain rfl := Option.some.inj h
        exact saverStep_enter (fun he => by cases he) (fun a ha => by cases ha)
  | returned r => simp only [hstage] at h; cases h
  | loops => simp only [hstage] at h; cases h

/-- What holds along a run: errors have reasons, and so has an address that comes again. -/
structure Inv (codec : BitmapCodec) (jobs : ℕ → PortClient) (s : RetrySystem) : Prop where
  justified : Justified codec jobs s
  again : ∀ i call a, jobs i = .port call → (s.cluster.saver i).stage = .recheck a →
    a.ip = (s.cluster.saver i).prevIP → ∃ db ∈ s.moments i, call.Reason codec db

theorem moments_subset (s : RetrySystem) (i j : ℕ) : s.moments j ⊆ s.observe i j := by
  unfold observe
  split_ifs
  · exact List.subset_append_left _ _
  · exact List.Subset.refl _

theorem now_mem_observe (s : RetrySystem) (i : ℕ) : s.cluster.sys.db ∈ s.observe i i := by
  rw [observe, if_pos (Or.inl rfl)]
  exact List.mem_append_right _ (List.mem_singleton_self _)

theorem exists_observe {s : RetrySystem} (i : ℕ) {j : ℕ}
    (h : ∃ db ∈ s.moments j, call.Reason codec db) :
    ∃ db ∈ s.observe i j, call.Reason codec db := by
  obtain ⟨db, hdb, hreason⟩ := h
  exact ⟨db, moments_subset s i j hdb, hreason⟩

/-- Clients whose local variables do not change. -/
theorem Inv.of_saver {s : RetrySystem} (h : Inv codec jobs s) (i : ℕ) {c : PortCluster}
    (hsaver : ∀ j call, jobs j = .port call → c.saver j = s.cluster.saver j) :
    Inv codec jobs ⟨c, s.observe i⟩ where
  justified := by
    intro j call hjob hstage
    rw [hsaver j call hjob] at hstage
    exact exists_observe i (h.justified j call hjob hstage)
  again := by
    intro j call a hjob hstage hip
    rw [hsaver j call hjob] at hstage hip
    exact exists_observe i (h.again j call a hjob hstage hip)

theorem Inv.step {s s' : RetrySystem} {i : ℕ} (hok : Moves codec jobs s i) (h : Inv codec jobs s)
    (hs : RetrySystem.step codec jobs s i = some s') : Inv codec jobs s' := by
  obtain ⟨c, hc, rfl⟩ := Option.map_eq_some_iff.mp hs
  cases hjob : jobs i with
  | save devs =>
      rw [hjob] at hc
      obtain ⟨sys, _, rfl⟩ := Option.map_eq_some_iff.mp hc
      exact h.of_saver i fun _ _ _ => rfl
  | delete recursive devs =>
      rw [hjob] at hc
      obtain ⟨sys, _, rfl⟩ := Option.map_eq_some_iff.mp hc
      exact h.of_saver i fun _ _ _ => rfl
  | port call =>
      rw [hjob] at hc
      have hstep := saverStep hc
      refine ⟨fun j call' hjob' hstage => ?_, fun j call' a hjob' hstage hip => ?_⟩
      · by_cases hj : j = i
        · subst hj
          obtain rfl := PortClient.port.inj (hjob.symm.trans hjob')
          rcases hstep.error hstage with ⟨_, hmissing⟩ | ⟨_, herror⟩ | ⟨a, hrecheck, hip⟩
          · exact ⟨_, now_mem_observe s j, Or.inl hmissing⟩
          · exact ⟨_, now_mem_observe s j, reason_of_error herror⟩
          · exact exists_observe j (h.again j call a hjob hrecheck hip)
        · have hsame : c.saver j = s.cluster.saver j := hstep.others j hj
          dsimp only at hstage
          rw [hsame] at hstage
          exact exists_observe i (h.justified j call' hjob' hstage)
      · by_cases hj : j = i
        · subst hj
          obtain rfl := PortClient.port.inj (hjob.symm.trans hjob')
          -- the book has just been read
          obtain ⟨hprev, hread, halloc⟩ := hstep.allocated a hstage
          obtain ⟨db, hdb, hreason⟩ := hok call hjob hread a halloc (hip.trans hprev)
          refine ⟨db, ?_, hreason⟩
          dsimp only
          rw [observe, if_pos (Or.inl rfl)]
          exact hdb
        · have hsame : c.saver j = s.cluster.saver j := hstep.others j hj
          dsimp only at hstage hip
          rw [hsame] at hstage hip
          exact exists_observe i (h.again j call' a hjob' hstage hip)

end step

/-! ### Runs -/

/-- **Errors have reasons**: in a run in which a book that is read again gives another address than
before, or the call is excused, `SaveSwitchPort` returns an error only if at some moment of the call
the switch was missing, the port was stored or no address of the subnet was free. -/
theorem errors_have_reasons {codec : BitmapCodec}
    {order : ℕ → List (String × MapEntry) → List (String × MapEntry)} {jobs : ℕ → PortClient}
    {db : Store Stored} {is : List ℕ} {s : RetrySystem}
    (hok : Meets (step codec jobs) (Moves codec jobs) (start codec order jobs db) is)
    (hrun : run (step codec jobs) (start codec order jobs db) is = some s) :
    Justified codec jobs s := by
  have hstart : Inv codec jobs (start codec order jobs db) := by
    refine ⟨fun i call _ hstage => ?_, fun i call a _ hstage _ => ?_⟩
    · cases hstage
    · cases hstage
  exact (run_invariant (step codec jobs) (fun _ _ _ hok h hs => h.step hok hs) hok hstart
    hrun).justified

/-- Where the condition fails, the call returns an error without a reason if it makes its next two
steps at once. -/
theorem error_without_reason {codec : BitmapCodec} {jobs : ℕ → PortClient} {s : RetrySystem} {i : ℕ}
    (h : ¬ Moves codec jobs s i) :
    ∃ s', run (step codec jobs) s [i, i] = some s' ∧ ¬ Justified codec jobs s' := by
  unfold Moves at h
  simp only [not_forall] at h
  obtain ⟨call, hjob, hstage, a, halloc, hip, hno⟩ := h
  have hread : step codec jobs s i =
      some ⟨s.cluster.enter i ⟨(s.cluster.saver i).prevIP, .recheck a⟩, s.observe i⟩ := by
    simp only [step, hjob, PortCluster.saveStep, hstage, halloc, if_true, Option.map_some]
  have hself : ∀ v, (s.cluster.enter i v).saver i = v := fun v => Function.update_self ..
  have hcompare : step codec jobs
      ⟨s.cluster.enter i ⟨(s.cluster.saver i).prevIP, .recheck a⟩, s.observe i⟩ i =
      some ⟨(s.cluster.enter i ⟨(s.cluster.saver i).prevIP, .recheck a⟩).enter i
          ⟨(s.cluster.saver i).prevIP, .returned .error⟩,
        observe ⟨s.cluster.enter i ⟨(s.cluster.saver i).prevIP, .recheck a⟩, s.observe i⟩ i⟩ := by
    simp only [step, hjob, PortCluster.saveStep, hself, hip, ne_eq, not_true_eq_false, and_false,
      if_false, Option.map_some]
  refine ⟨_, (run_cons_eq_some _).mpr ⟨_, hread, (run_cons_eq_some _).mpr ⟨_, hcompare, rfl⟩⟩, ?_⟩
  intro hjust
  have hstage' : ((s.cluster.enter i ⟨(s.cluster.saver i).prevIP, .recheck a⟩).enter i
      ⟨(s.cluster.saver i).prevIP, .returned .error⟩).saver i =
        ⟨(s.cluster.saver i).prevIP, .returned .error⟩ := Function.update_self ..
  obtain ⟨db, hdb, hreason⟩ := hjust i call hjob (congrArg Saver.stage hstage')
  refine hno ⟨db, ?_, hreason⟩
  -- the store does not change while the client reads and compares
  simp only [observe, true_or, if_true, PortCluster.enter, List.mem_append, List.mem_singleton,
    or_assoc, or_self] at hdb
  exact List.mem_append.mpr (hdb.imp_right List.mem_singleton.mpr)

/-! ### A port is saved while another one is -/

/-- One client saves a port with an address of `10.0.0.0/24`, the others save one with a given
address. -/
def portAndSave (ip : String) : ℕ → PortClient
  | 0 => .port ⟨⟨"a", "q", "", "", "", ""⟩, "10.0.0.0", 24⟩
  | _ => .save [.switchPort ⟨"a", "r", ip, "f2:01:0a:00:00:09", "", ""⟩]

/-- What becomes of a store with the switch `a` when the other port is saved before the transaction
of the first client. -/
def raceLost (ip : String) (rest : ℕ) : Option RetrySystem :=
  run (step sampleCodec (portAndSave ip))
    (start sampleCodec (fun _ l => l) (portAndSave ip) oneSwitchStore)
    ([0, 0, 0, 1, 1, 0] ++ List.replicate rest 0)

/-- The other port takes the address that was chosen, and the client takes the next one. -/
theorem errors_have_reasons_taken : ∃ s, raceLost "10.0.0.2" 4 = some s ∧
    (s.cluster.saver 0).stage = .returned .ok ∧
    Justified sampleCodec (portAndSave "10.0.0.2") s := by
  obtain ⟨s, hs⟩ := Option.isSome_iff_exists.mp
    (show (raceLost "10.0.0.2" 4).isSome from by decide +kernel)
  have hok : ∀ s ∈ raceLost "10.0.0.2" 4, (s.cluster.saver 0).stage = .returned .ok := by
    decide +kernel
  exact ⟨s, hs, hok s hs, errors_have_reasons (by decide +kernel) hs⟩

/-- The other port has the address `10.0.0.9`, so `10.0.0.2` is chosen again. -/
theorem error_for_lost_race : ¬ ∀ (codec : BitmapCodec)
    (order : ℕ → List (String × MapEntry) → List (String × MapEntry)) (jobs : ℕ → PortClient)
    (db : Store Stored) (is : List ℕ) (s : RetrySystem),
    run (step codec jobs) (start codec order jobs db) is = some s → Justified codec jobs s := by
  intro h
  obtain ⟨s, hs⟩ := Option.isSome_iff_exists.mp
    (show (raceLost "10.0.0.9" 3).isSome from by decide +kernel)
  have hfacts : ∀ s ∈ raceLost "10.0.0.9" 3, (s.cluster.saver 0).stage = .returned .error ∧
      ∀ db ∈ s.moments 0, db (switchPath "a") ≠ none ∧ db (switchPortPath "a" "q") = none ∧
        2 ∉ bits sampleCodec db (switchIPBookPath "a") := by decide +kernel
  obtain ⟨hstage, hmoments⟩ := hfacts s hs
  obtain ⟨db, hdb, hreason⟩ := h sampleCodec (fun _ l => l) (portAndSave "10.0.0.9") _ _ s hs 0 _
    rfl hstage
  obtain ⟨hswitch, hport, hfree⟩ := hmoments db hdb
  rcases hreason with hmissing | hstored | hfull
  · exact hswitch hmissing
  · exact hstored hport
  · refine hfull 167772160 (by decide) 2 ⟨by decide, by decide, hfree⟩

end RetrySystem

end TupleNet.Control
