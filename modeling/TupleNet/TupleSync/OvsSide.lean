import TupleNet.Lib.Machine
import TupleNet.Flow.Convert

/-! # Two threads update the flow table

`update_ovs_side` is called by the main loop and by the thread of the packet controller.  A call
computes its batch of flows and sweeps the zoo under the zoo lock; later, outside the lock, it reads
`had_clean_ovs_flows` to decide whether its batch replaces the whole table or is a delta, and then
commits it under the flow lock.  A call is a label with a number, and its position in the code is
its `Phase`; between the steps of one call those of any other may come.

`replay` is the table that the batches give in the order in which they were computed.  A run in
which no call decides or commits out of turn (`InTurn`) ends with this table
(`update_ovs_side_inTurn`).  The zoo, the flows computed from it and the sweep are parameters. -/

namespace TupleNet

open KeyedTable StepMachine

/-- What `convert_tuple2flow` returns: the add list and the delete list. -/
abbrev Batch (μ α : Type) := List (FlowKey μ × α) × List (FlowKey μ)

/-- Where a call of `update_ovs_side` is. -/
inductive Phase (μ α : Type) where
  | notStarted
  | computed (b : Batch μ α)
  | replacing (b : Batch μ α)
  | flagged (b : Batch μ α) (arp : List (FlowKey μ × α))
  | updating (b : Batch μ α)
  | returned
deriving DecidableEq

/-- The zoo, the flag, the file of learned addresses, the flow table and the calls; `order` lists
the calls in the order in which they computed their batches. -/
structure OvsSide (Z μ α : Type) where
  zoo : Z
  hadCleanOvsFlows : Bool
  arpFile : List (FlowKey μ × α)
  table : Table (FlowKey μ) α
  phase : ℕ → Phase μ α
  order : List (ℕ × Batch μ α)

/-- The steps of the threads. -/
inductive OvsAct (Z : Type) where
  | changeZoo (z : Z)
  | compute (call : ℕ)
  | checkFlag (call : ℕ)
  | setFlag (call : ℕ)
  | commit (call : ℕ)

namespace OvsSide

variable {Z μ α : Type}

/-- Before the first call; the table is what an earlier process left. -/
def start (z : Z) (arp₀ : List (FlowKey μ × α)) (t₀ : Table (FlowKey μ) α) : OvsSide Z μ α where
  zoo := z
  hadCleanOvsFlows := false
  arpFile := arp₀
  table := t₀
  phase _ := .notStarted
  order := []

/-- A call moves on. -/
def setPhase (s : OvsSide Z μ α) (call : ℕ) (p : Phase μ α) : OvsSide Z μ α :=
  { s with phase := Function.update s.phase call p }

section step
variable [DecidableEq μ] (buildFlows : Z → List (LFlow μ α)) (constFlows : List (LFlow μ α))
  (sweepZoo : Z → Z)

/-- One step of one thread. -/
def step (s : OvsSide Z μ α) : OvsAct Z → Option (OvsSide Z μ α)
  | .changeZoo z => some { s with zoo := z }
  | .compute call => match s.phase call with
      | .notStarted =>
          -- "must insert const flows in init stage"
          let lflows := buildFlows s.zoo ++ if s.hadCleanOvsFlows then [] else constFlows
          let b := convertTuple2flow lflows
          some { s.setPhase call (.computed b) with
            zoo := sweepZoo s.zoo
            order := s.order ++ [(call, b)] }
      | _ => none
  | .checkFlag call => match s.phase call with
      | .computed b =>
          some (s.setPhase call (if s.hadCleanOvsFlows then .updating b else .replacing b))
      | _ => none
  | .setFlag call => match s.phase call with
      | .replacing b =>
          -- the file of learned addresses is read and truncated
          some { s.setPhase call (.flagged b s.arpFile) with
            hadCleanOvsFlows := true
            arpFile := [] }
      | _ => none
  | .commit call => match s.phase call with
      | .flagged b arp =>
          some { s.setPhase call .returned with table := addEntries (b.1 ++ arp) (fun _ => none) }
      | .updating b =>
          some { s.setPhase call .returned with table := commitFlows s.table b }
      | _ => none

end step

/-- The table after the batches in order, the first one as a replacement. -/
def replay [DecidableEq μ] (t₀ : Table (FlowKey μ) α) (arp₀ : List (FlowKey μ × α)) :
    List (Batch μ α) → Table (FlowKey μ) α
  | [] => t₀
  | b :: bs => bs.foldl commitFlows (addEntries (b.1 ++ arp₀) (fun _ => none))

/-- Every call that has computed a batch has returned. -/
def AllReturned (s : OvsSide Z μ α) : Prop := ∀ x ∈ s.order, s.phase x.1 = .returned

/-- Only the call that computed first decides before the flag is set, and a call commits only when
the calls that computed before it have returned. -/
def InTurn (s : OvsSide Z μ α) : OvsAct Z → Prop
  | .checkFlag call => s.hadCleanOvsFlows = true ∨ ∀ x ∈ s.order.head?, x.1 = call
  | .commit call => ∀ x ∈ s.order.takeWhile (fun x => x.1 ≠ call), s.phase x.1 = .returned
  | _ => True

instance [DecidableEq μ] [DecidableEq α] (s : OvsSide Z μ α) : DecidablePred (InTurn s) :=
  fun a => by cases a <;> unfold InTurn <;> infer_instance

theorem replay_append [DecidableEq μ] {t₀ : Table (FlowKey μ) α} {arp₀ : List (FlowKey μ × α)}
    {bs : List (Batch μ α)} (hbs : bs ≠ []) (b : Batch μ α) :
    replay t₀ arp₀ (bs ++ [b]) = commitFlows (replay t₀ arp₀ bs) b := by
  cases bs with
  | nil => exact absurd rfl hbs
  | cons b' bs => exact List.foldl_append

/-! ### The invariant -/

/-- What holds when the calls go in turn. -/
structure Inv [DecidableEq μ] (t₀ : Table (FlowKey μ) α) (arp₀ : List (FlowKey μ × α))
    (s : OvsSide Z μ α) : Prop where
  nodup : (s.order.map Prod.fst).Nodup
  started : ∀ x ∈ s.order, s.phase x.1 ≠ .notStarted
  unstarted : ∀ call, call ∉ s.order.map Prod.fst → s.phase call = .notStarted
  /-- Nobody has computed yet. -/
  empty : s.order = [] → s.hadCleanOvsFlows = false ∧ s.arpFile = arp₀
  /-- The call that computed first replaces the table. -/
  first : ∀ x rest, s.order = x :: rest →
    (s.phase x.1 = .computed x.2 ∨ s.phase x.1 = .replacing x.2) ∧
        s.hadCleanOvsFlows = false ∧ s.arpFile = arp₀ ∨
      (s.phase x.1 = .flagged x.2 arp₀ ∨ s.phase x.1 = .returned) ∧ s.hadCleanOvsFlows = true
  /-- The others are deltas. -/
  later : ∀ x ∈ s.order.tail, s.phase x.1 = .computed x.2 ∨ s.phase x.1 = .updating x.2 ∨
    s.phase x.1 = .returned
  /-- Those that have returned are the first ones, and the table is theirs. -/
  committed : ∃ done rest, s.order = done ++ rest ∧ (∀ x ∈ done, s.phase x.1 = .returned) ∧
    (∀ x ∈ rest, s.phase x.1 ≠ .returned) ∧ s.table = replay t₀ arp₀ (done.map Prod.snd)

variable [DecidableEq μ] {t₀ : Table (FlowKey μ) α} {arp₀ : List (FlowKey μ × α)}
  {s : OvsSide Z μ α}

theorem start_inv (z : Z) : Inv t₀ arp₀ (start z arp₀ t₀) where
  nodup := List.nodup_nil
  started := nofun
  unstarted _ _ := rfl
  empty _ := ⟨rfl, rfl⟩
  first := nofun
  later := nofun
  committed := ⟨[], [], rfl, nofun, nofun, rfl⟩

/-- A call that has started is the first one or a later one. -/
theorem Inv.cases_call (h : Inv t₀ arp₀ s) {call : ℕ} (hc : s.phase call ≠ .notStarted) :
    ∃ x rest, s.order = x :: rest ∧
      (x.1 = call ∧ call ∉ rest.map Prod.fst ∨ x.1 ≠ call ∧ ∃ b, (call, b) ∈ rest) := by
  have hmem : call ∈ s.order.map Prod.fst := by
    by_contra hno
    exact hc (h.unstarted call hno)
  have hnd := h.nodup
  cases ho : s.order with
  | nil => rw [ho] at hmem; cases hmem
  | cons x rest =>
      rw [ho, List.map_cons] at hmem hnd
      refine ⟨x, rest, rfl, ?_⟩
      by_cases hx : x.1 = call
      · exact Or.inl ⟨hx, hx ▸ (List.nodup_cons.mp hnd).1⟩
      · rcases List.mem_cons.mp hmem with hm | hm
        · exact absurd hm.symm hx
        · obtain ⟨y, hy, rfl⟩ := List.mem_map.mp hm
          exact Or.inr ⟨hx, y.2, hy⟩

section compute
variable (h : Inv t₀ arp₀ s) {call : ℕ} (hc : s.phase call = .notStarted)
include h hc

theorem Inv.not_mem_order {x : ℕ × Batch μ α} (hx : x ∈ s.order) : x.1 ≠ call := by
  rintro rfl
  exact h.started x hx hc

theorem Inv.compute (b : Batch μ α) (z : Z) :
    Inv t₀ arp₀ { s.setPhase call (.computed b) with
      zoo := z
      order := s.order ++ [(call, b)] } where
  nodup := by
    rw [List.map_append, List.nodup_append]
    refine ⟨h.nodup, by simp, fun i hi j hj hij => ?_⟩
    obtain ⟨x, hx, rfl⟩ := List.mem_map.mp hi
    exact h.not_mem_order hc hx (hij.trans (by simpa using hj))
  started x hx := by
    rcases List.mem_append.mp hx with hx | hx
    · simp only [setPhase, Function.update_of_ne (h.not_mem_order hc hx)]
      exact h.started x hx
    · rw [List.mem_singleton.mp hx]
      simp [setPhase]
  unstarted i hi := by
    rw [List.map_append, List.mem_append, not_or] at hi
    have hne : i ≠ call := by simpa using hi.2
    simp only [setPhase, Function.update_of_ne hne]
    exact h.unstarted i hi.1
  empty ho := by simp at ho
  first x rest ho := by
    cases hs : s.order with
    | nil =>
        obtain ⟨hflag, harp⟩ := h.empty hs
        simp only [hs, List.nil_append, List.cons.injEq] at ho
        obtain ⟨rfl, _⟩ := ho
        exact Or.inl ⟨Or.inl (Function.update_self ..), hflag, harp⟩
    | cons y tail =>
        simp only [hs, List.cons_append, List.cons.injEq] at ho
        obtain ⟨rfl, _⟩ := ho
        simp only [setPhase,
          Function.update_of_ne (h.not_mem_order hc (hs ▸ List.mem_cons_self : y ∈ s.order))]
        exact h.first y tail hs
  later x hx := by
    cases hs : s.order with
    | nil => simp [hs] at hx
    | cons y tail =>
        simp only [hs, List.cons_append, List.tail_cons] at hx
        rcases List.mem_append.mp hx with hx | hx
        · have hmem : x ∈ s.order := hs ▸ List.mem_cons_of_mem _ hx
          simp only [setPhase, Function.update_of_ne (h.not_mem_order hc hmem)]
          exact h.later x (by rw [hs]; exact hx)
        · rw [List.mem_singleton.mp hx]
          exact Or.inl (Function.update_self ..)
  committed := by
    obtain ⟨done, rest, ho, hdone, hrest, ht⟩ := h.committed
    refine ⟨done, rest ++ [(call, b)], by simp only [ho, List.append_assoc], fun x hx => ?_,
      fun x hx => ?_, ht⟩
    · have hmem : x ∈ s.order := ho ▸ List.mem_append_left _ hx
      simp only [setPhase, Function.update_of_ne (h.not_mem_order hc hmem)]
      exact hdone x hx
    · rcases List.mem_append.mp hx with hx | hx
      · have hmem : x ∈ s.order := ho ▸ List.mem_append_right _ hx
        simp only [setPhase, Function.update_of_ne (h.not_mem_order hc hmem)]
        exact hrest x hx
      · rw [List.mem_singleton.mp hx]
        simp [setPhase]

end compute

section move
variable (h : Inv t₀ arp₀ s) {call : ℕ} {p : Phase μ α}
include h

/-- What does not depend on which step the call has taken. -/
theorem Inv.setPhase_started (hc : s.phase call ≠ .notStarted) (hp : p ≠ .notStarted) :
    (∀ x ∈ s.order, Function.update s.phase call p x.1 ≠ .notStarted) ∧
      ∀ i, i ∉ s.order.map Prod.fst → Function.update s.phase call p i = .notStarted := by
  constructor
  · intro x hx
    by_cases hx' : x.1 = call
    · rw [hx', Function.update_self]; exact hp
    · rw [Function.update_of_ne hx']; exact h.started x hx
  · intro i hi
    have hne : i ≠ call := by
      rintro rfl
      exact hc (h.unstarted _ hi)
    rw [Function.update_of_ne hne]
    exact h.unstarted i hi

/-- A call that moves on without committing leaves the others and the table alone. -/
theorem Inv.setPhase_committed (hold : s.phase call ≠ .returned) (hp' : p ≠ .returned) :
    ∃ done rest, s.order = done ++ rest ∧
      (∀ x ∈ done, Function.update s.phase call p x.1 = .returned) ∧
      (∀ x ∈ rest, Function.update s.phase call p x.1 ≠ .returned) ∧
      s.table = replay t₀ arp₀ (done.map Prod.snd) := by
  obtain ⟨done, rest, ho, hdone, hrest, ht⟩ := h.committed
  refine ⟨done, rest, ho, fun x hx => ?_, fun x hx => ?_, ht⟩
  · have hne : x.1 ≠ call := by
      intro hx'
      exact hold (hx' ▸ hdone x hx)
    rw [Function.update_of_ne hne]
    exact hdone x hx
  · by_cases hx' : x.1 = call
    · rw [hx', Function.update_self]; exact hp'
    · rw [Function.update_of_ne hx']; exact hrest x hx

end move

/-- The first call decides to replace the table, the others to update it. -/
theorem Inv.checkFlag {call : ℕ} {b : Batch μ α} (h : Inv t₀ arp₀ s)
    (hc : s.phase call = .computed b)
    (hturn : s.hadCleanOvsFlows = true ∨ ∀ x ∈ s.order.head?, x.1 = call) :
    Inv t₀ arp₀ (s.setPhase call (if s.hadCleanOvsFlows then .updating b else .replacing b)) := by
  have hstart : s.phase call ≠ .notStarted := by rw [hc]; nofun
  have hret : s.phase call ≠ .returned := by rw [hc]; nofun
  obtain ⟨x, rest, ho, ⟨rfl, hnot⟩ | ⟨hx, b', hb'⟩⟩ := h.cases_call hstart
  · have hfirst := h.first x rest ho
    simp only [hc, Phase.computed.injEq, reduceCtorEq, or_false, false_and, or_self] at hfirst
    obtain ⟨rfl, hflag, harp⟩ := hfirst
    rw [hflag, if_neg Bool.false_ne_true]
    obtain ⟨h1, h2⟩ := h.setPhase_started (p := .replacing x.2) hstart nofun
    refine ⟨h.nodup, h1, h2, h.empty, fun y rest' ho' => ?_, fun y hy => ?_,
      h.setPhase_committed hret nofun⟩
    · simp only [setPhase, ho, List.cons.injEq] at ho'
      obtain ⟨rfl, rfl⟩ := ho'
      exact Or.inl ⟨Or.inr (Function.update_self ..), hflag, harp⟩
    · have hy' : y ∈ rest := by simpa [setPhase, ho] using hy
      have hne : y.1 ≠ x.1 := fun heq => hnot (heq ▸ List.mem_map_of_mem hy')
      simp only [setPhase, Function.update_of_ne hne]
      exact h.later y hy
  · have hflag : s.hadCleanOvsFlows = true :=
      hturn.resolve_right (fun hhead => hx (hhead x (by rw [ho]; rfl)))
    rw [hflag, if_pos rfl]
    obtain ⟨h1, h2⟩ := h.setPhase_started (p := .updating b) hstart nofun
    refine ⟨h.nodup, h1, h2, h.empty, fun y rest' ho' => ?_, fun y hy => ?_,
      h.setPhase_committed hret nofun⟩
    · obtain ⟨rfl, rfl⟩ := List.cons.inj (ho.symm.trans ho')
      simp only [setPhase, Function.update_of_ne hx]
      exact h.first x rest ho
    · have hlater := h.later y hy
      by_cases hy' : y.1 = call
      · rw [hy', hc] at hlater
        simp only [Phase.computed.injEq, reduceCtorEq, or_false] at hlater
        rw [hy', hlater]
        exact Or.inr (Or.inl (Function.update_self ..))
      · simp only [setPhase, Function.update_of_ne hy']
        exact hlater

/-- The first call sets the flag. -/
theorem Inv.setFlag {call : ℕ} {b : Batch μ α} (h : Inv t₀ arp₀ s)
    (hc : s.phase call = .replacing b) :
    Inv t₀ arp₀ { s.setPhase call (.flagged b s.arpFile) with
      hadCleanOvsFlows := true
      arpFile := [] } := by
  have hstart : s.phase call ≠ .notStarted := by rw [hc]; nofun
  have hret : s.phase call ≠ .returned := by rw [hc]; nofun
  obtain ⟨x, rest, ho, ⟨rfl, hnot⟩ | ⟨hx, b', hb'⟩⟩ := h.cases_call hstart
  · have hfirst := h.first x rest ho
    simp only [hc, Phase.replacing.injEq, reduceCtorEq, false_or, or_false, false_and] at hfirst
    obtain ⟨rfl, hflag, harp⟩ := hfirst
    rw [harp]
    obtain ⟨h1, h2⟩ := h.setPhase_started (p := .flagged x.2 arp₀) hstart nofun
    refine ⟨h.nodup, h1, h2, fun he => ?_, fun y rest' ho' => ?_, fun y hy => ?_,
      h.setPhase_committed hret nofun⟩
    · rw [show s.order = [] from he] at ho; cases ho
    · obtain ⟨rfl, rfl⟩ := List.cons.inj (ho.symm.trans ho')
      exact Or.inr ⟨Or.inl (Function.update_self ..), rfl⟩
    · have hy' : y ∈ rest := by simpa [setPhase, ho] using hy
      have hne : y.1 ≠ x.1 := fun heq => hnot (heq ▸ List.mem_map_of_mem hy')
      simp only [setPhase, Function.update_of_ne hne]
      exact h.later y hy
  · -- the others never get here
    have hlater := h.later (call, b') (by rw [ho]; exact hb')
    simp [hc] at hlater

/-- The first call replaces the table. -/
theorem Inv.commitReplace {call : ℕ} {b : Batch μ α} {arp : List (FlowKey μ × α)}
    (h : Inv t₀ arp₀ s) (hc : s.phase call = .flagged b arp) :
    Inv t₀ arp₀ { s.setPhase call .returned with
      table := addEntries (b.1 ++ arp) (fun _ => none) } := by
  have hstart : s.phase call ≠ .notStarted := by rw [hc]; nofun
  obtain ⟨x, tail, ho, ⟨rfl, hnot⟩ | ⟨hx, b', hb'⟩⟩ := h.cases_call hstart
  · have hfirst := h.first x tail ho
    simp only [hc, Phase.flagged.injEq, reduceCtorEq, or_self, or_false, false_and,
      false_or] at hfirst
    obtain ⟨⟨rfl, rfl⟩, hflag⟩ := hfirst
    have htail : ∀ y ∈ tail, y.1 ≠ x.1 := fun y hy heq => hnot (heq ▸ List.mem_map_of_mem hy)
    obtain ⟨h1, h2⟩ := h.setPhase_started (p := .returned) hstart nofun
    refine ⟨h.nodup, h1, h2, fun he => ?_, fun y rest' ho' => ?_, fun y hy => ?_,
      [x], tail, ho, fun y hy => ?_, fun y hy => ?_, rfl⟩
    · rw [show s.order = [] from he] at ho; cases ho
    · obtain ⟨rfl, rfl⟩ := List.cons.inj (ho.symm.trans ho')
      exact Or.inr ⟨Or.inr (Function.update_self ..), hflag⟩
    · have hy' : y ∈ tail := by simpa [setPhase, ho] using hy
      simp only [setPhase, Function.update_of_ne (htail y hy')]
      exact h.later y hy
    · rw [List.mem_singleton.mp hy]
      exact Function.update_self ..
    · simp only [setPhase, Function.update_of_ne (htail y hy)]
      obtain ⟨done, rest, hor, hdone, hrest, _⟩ := h.committed
      -- nobody has returned before the first call
      cases done with
      | nil =>
          have : y ∈ rest := by
            rw [List.nil_append] at hor
            rw [← hor, ho]
            exact List.mem_cons_of_mem _ hy
          exact hrest y this
      | cons z done =>
          obtain ⟨rfl, _⟩ := List.cons.inj (ho.symm.trans hor)
          have := hdone x List.mem_cons_self
          rw [hc] at this
          cases this
  · have hlater := h.later (call, b') (by rw [ho]; exact hb')
    simp [hc] at hlater

/-- A later call in turn is the next to commit. -/
theorem Inv.commitUpdate {call : ℕ} {b : Batch μ α} (h : Inv t₀ arp₀ s)
    (hc : s.phase call = .updating b)
    (hturn : ∀ x ∈ s.order.takeWhile (fun x => x.1 ≠ call), s.phase x.1 = .returned) :
    Inv t₀ arp₀ { s.setPhase call .returned with table := commitFlows s.table b } := by
  have hstart : s.phase call ≠ .notStarted := by rw [hc]; nofun
  obtain ⟨x, tail, ho, ⟨rfl, hnot⟩ | ⟨hx, b', hb'⟩⟩ := h.cases_call hstart
  · have hfirst := h.first x tail ho
    simp [hc] at hfirst
  · obtain ⟨done, rest, hor, hdone, hrest, ht⟩ := h.committed
    have hdc : ∀ y ∈ done, y.1 ≠ call := by
      intro y hy hyc
      have := hdone y hy
      rw [hyc, hc] at this
      cases this
    -- the calls before this one have returned, so it heads the rest
    obtain ⟨y, rest', rfl, rfl⟩ : ∃ y rest', rest = y :: rest' ∧ y.1 = call := by
      cases rest with
      | nil =>
          have : (call, b') ∈ done := by
            rw [List.append_nil] at hor
            rw [← hor, ho]
            exact List.mem_cons_of_mem _ hb'
          exact absurd rfl (hdc _ this)
      | cons y rest' =>
          refine ⟨y, rest', rfl, ?_⟩
          by_contra hy
          refine hrest y List.mem_cons_self (hturn y ?_)
          rw [hor, List.takeWhile_append_of_pos (fun z hz => by simpa using hdc z hz),
            List.takeWhile_cons_of_pos (by simpa using hy)]
          exact List.mem_append_right _ List.mem_cons_self
    have hnil : done ≠ [] := by
      rintro rfl
      obtain ⟨rfl, _⟩ := List.cons.inj (ho.symm.trans hor)
      exact hx rfl
    have hytail : y ∈ s.order.tail := by
      rw [hor, List.tail_append_of_ne_nil hnil]
      exact List.mem_append_right _ List.mem_cons_self
    have hlater := h.later y hytail
    simp only [hc, reduceCtorEq, Phase.updating.injEq, false_or, or_false] at hlater
    subst hlater
    have hrc : ∀ z ∈ rest', z.1 ≠ y.1 := by
      intro z hz heq
      have hnd := h.nodup
      rw [hor, List.map_append, List.nodup_append, List.map_cons, List.nodup_cons] at hnd
      exact hnd.2.1.1 (heq ▸ List.mem_map_of_mem hz)
    obtain ⟨h1, h2⟩ := h.setPhase_started (p := .returned) hstart nofun
    refine ⟨h.nodup, h1, h2, h.empty, fun z rest ho' => ?_, fun z hz => ?_,
      done ++ [y], rest', by simp [setPhase, hor], fun z hz => ?_, fun z hz => ?_, ?_⟩
    · obtain ⟨rfl, rfl⟩ := List.cons.inj (ho.symm.trans ho')
      simp only [setPhase, Function.update_of_ne hx]
      exact h.first x tail ho
    · by_cases hz' : z.1 = y.1
      · rw [hz']
        exact Or.inr (Or.inr (Function.update_self ..))
      · simp only [setPhase, Function.update_of_ne hz']
        exact h.later z hz
    · rcases List.mem_append.mp hz with hz | hz
      · simp only [setPhase, Function.update_of_ne (hdc z hz)]
        exact hdone z hz
      · rw [List.mem_singleton.mp hz]
        exact Function.update_self ..
    · simp only [setPhase, Function.update_of_ne (hrc z hz)]
      exact hrest z (List.mem_cons_of_mem _ hz)
    · rw [List.map_append, List.map_singleton, replay_append (by simpa using hnil), ← ht]

/-! ### Runs -/

section run
variable {buildFlows : Z → List (LFlow μ α)} {constFlows : List (LFlow μ α)} {sweepZoo : Z → Z}

theorem Inv.step {s' : OvsSide Z μ α} {a : OvsAct Z} (h : Inv t₀ arp₀ s) (hturn : InTurn s a)
    (hs : OvsSide.step buildFlows constFlows sweepZoo s a = some s') : Inv t₀ arp₀ s' := by
  cases a with
  | changeZoo z =>
      obtain rfl := Option.some.inj hs
      exact { h with }
  | compute call =>
      cases hc : s.phase call <;>
        simp only [OvsSide.step, hc, reduceCtorEq, Option.some.injEq] at hs
      subst hs
      exact h.compute hc _ _
  | checkFlag call =>
      cases hc : s.phase call <;>
        simp only [OvsSide.step, hc, reduceCtorEq, Option.some.injEq] at hs
      subst hs
      exact h.checkFlag hc hturn
  | setFlag call =>
      cases hc : s.phase call <;>
        simp only [OvsSide.step, hc, reduceCtorEq, Option.some.injEq] at hs
      subst hs
      exact h.setFlag hc
  | commit call =>
      cases hc : s.phase call <;>
        simp only [OvsSide.step, hc, reduceCtorEq, Option.some.injEq] at hs
      · subst hs
        exact h.commitReplace hc
      · subst hs
        exact h.commitUpdate hc hturn

/-- **Updates in turn**: when every call decides and commits in turn and all have returned, the
flow table is the one that the computed batches give in their order, the first one as a
replacement. -/
theorem update_ovs_side_inTurn (buildFlows : Z → List (LFlow μ α)) (constFlows : List (LFlow μ α))
    (sweepZoo : Z → Z) (z : Z) (arp₀ : List (FlowKey μ × α)) (t₀ : Table (FlowKey μ) α)
    (as : List (OvsAct Z)) (s : OvsSide Z μ α)
    (hturn : Meets (step buildFlows constFlows sweepZoo) InTurn (start z arp₀ t₀) as)
    (hrun : run (step buildFlows constFlows sweepZoo) (start z arp₀ t₀) as = some s)
    (hret : AllReturned s) : s.table = replay t₀ arp₀ (s.order.map Prod.snd) := by
  have hinv : Inv t₀ arp₀ s :=
    run_invariant _ (fun _ _ _ hok h hs => h.step hok hs) hturn (start_inv z) hrun
  obtain ⟨done, rest, ho, _, hrest, ht⟩ := hinv.committed
  cases rest with
  | nil => rw [ht, ho, List.append_nil]
  | cons x rest =>
      have hx : x ∈ s.order := ho ▸ List.mem_append_right _ List.mem_cons_self
      exact absurd (hret x hx) (hrest x List.mem_cons_self)

end run

/-- A zoo of ports, each with a flow of its own. -/
def portRule : FlowRule ℕ ℕ ℕ := Datalog.Rule.fact (fun port => some (⟨7, 5, port⟩, port))

/-- The steps on a zoo that is a base of facts. -/
def portStep : OvsSide (List (ℕ × State)) ℕ ℕ → OvsAct (List (ℕ × State)) →
    Option (OvsSide (List (ℕ × State)) ℕ ℕ) :=
  step (TupleNet.buildFlows portRule) [⟨⟨0, 0, 0⟩, 0, 1⟩] sweepFacts

/-- Two calls after the first, about a port that comes and goes. -/
def portCalls (lastCommits : List (OvsAct (List (ℕ × State)))) : List (OvsAct (List (ℕ × State))) :=
  [.compute 0, .checkFlag 0, .setFlag 0, .commit 0, .changeZoo [(1, .ADD)], .compute 1,
    .checkFlag 1, .changeZoo [(1, .DEL)], .compute 2, .checkFlag 2] ++ lastCommits

theorem update_ovs_side_inTurn_port :
    ∃ s, run portStep (start [] [] (fun _ => none)) (portCalls [.commit 1, .commit 2]) = some s ∧
      s.table = replay (fun _ => none) [] (s.order.map Prod.snd) := by
  obtain ⟨s, hs⟩ : ∃ s, run portStep (start [] [] (fun _ => none))
      (portCalls [.commit 1, .commit 2]) = some s := Option.isSome_iff_exists.mp (by decide)
  have hret : ∀ t ∈ run portStep (start [] [] (fun _ => none)) (portCalls [.commit 1, .commit 2]),
      AllReturned t := by unfold AllReturned; decide
  exact ⟨s, hs, update_ovs_side_inTurn _ _ _ [] [] (fun _ => none)
    (portCalls [.commit 1, .commit 2])
    s (by unfold portCalls; decide) hs (hret s hs)⟩

/-- The delta that adds the port lands after the one that deletes it: the flow stays. -/
theorem stale_delta_lands_last :
    ∃ s, run portStep (start [] [] (fun _ => none)) (portCalls [.commit 2, .commit 1]) = some s ∧
      AllReturned s ∧ s.table ≠ replay (fun _ => none) [] (s.order.map Prod.snd) := by
  obtain ⟨s, hs⟩ : ∃ s, run portStep (start [] [] (fun _ => none))
      (portCalls [.commit 2, .commit 1]) = some s := Option.isSome_iff_exists.mp (by decide)
  have hlost : ∀ t ∈ run portStep (start [] [] (fun _ => none)) (portCalls [.commit 2, .commit 1]),
      AllReturned t ∧ t.table ⟨7, 5, 1⟩ ≠
        replay (fun _ => none) [] (t.order.map Prod.snd) ⟨7, 5, 1⟩ := by
    unfold AllReturned; decide
  obtain ⟨hret, hne⟩ := hlost s hs
  exact ⟨s, hs, hret, fun h => hne (congrFun h _)⟩

end OvsSide

end TupleNet
