import Mathlib.Data.List.Basic

/-! # Labelled step machines

A machine is a partial step function `step : σ → α → Option σ`: `step s a` is the state after
the label `a`, and `none` when `a` is not enabled in `s`.  Several parties that interleave are
one machine whose labels name the party and its step, so a statement about every list of
labels is a statement about every interleaving.

`Meets step ok s as` says that every label of the run `as` from `s` is taken in a state that
allows it.  `run_invariant` is the induction rule: an invariant that every allowed step
preserves holds at the end of every allowed run, and hence in every state such a run reaches,
since the prefixes of an allowed run are allowed (`meets_append`). -/

namespace StepMachine

variable {σ α : Type} (step : σ → α → Option σ)

/-- The state after the labels, in order; `none` if one of them is not enabled. -/
def run : σ → List α → Option σ
  | s, [] => some s
  | s, a :: as => match step s a with
      | none => none
      | some s' => run s' as

/-- Every label of the run from `s` is taken in a state that allows it. -/
def Meets (ok : σ → α → Prop) : σ → List α → Prop
  | _, [] => True
  | s, a :: as => ok s a ∧ ∀ s', step s a = some s' → Meets ok s' as

instance decidableMeets (ok : σ → α → Prop) [∀ s a, Decidable (ok s a)] :
    (s : σ) → (as : List α) → Decidable (Meets step ok s as)
  | _, [] => isTrue trivial
  | s, a :: as => match h : step s a with
      | none => decidable_of_iff (ok s a) (by simp [Meets, h])
      | some s' =>
          have := decidableMeets ok s' as
          decidable_of_iff (ok s a ∧ Meets step ok s' as) (by simp [Meets, h])

@[simp] theorem run_nil (s : σ) : run step s [] = some s := rfl

theorem run_cons_eq_some {s s' : σ} {a : α} {as : List α} :
    run step s (a :: as) = some s' ↔ ∃ s₁, step s a = some s₁ ∧ run step s₁ as = some s' := by
  simp only [run]
  cases h : step s a with
  | none => simp
  | some s₁ => simp

theorem run_append {s s' : σ} {as bs : List α} :
    run step s (as ++ bs) = some s' ↔
      ∃ s₁, run step s as = some s₁ ∧ run step s₁ bs = some s' := by
  induction as generalizing s with
  | nil => simp
  | cons a as ih =>
      rw [List.cons_append, run_cons_eq_some]
      constructor
      · rintro ⟨s₁, h1, h2⟩
        obtain ⟨s₂, h3, h4⟩ := ih.mp h2
        exact ⟨s₂, (run_cons_eq_some step).mpr ⟨s₁, h1, h3⟩, h4⟩
      · rintro ⟨s₂, h1, h2⟩
        obtain ⟨s₁, h3, h4⟩ := (run_cons_eq_some step).mp h1
        exact ⟨s₁, h3, ih.mpr ⟨s₂, h4, h2⟩⟩

/-- A prefix of an allowed run is allowed. -/
theorem meets_append {ok : σ → α → Prop} {s : σ} {as bs : List α}
    (h : Meets step ok s (as ++ bs)) : Meets step ok s as := by
  induction as generalizing s with
  | nil => trivial
  | cons a as ih => exact ⟨h.1, fun s' hs => ih (h.2 s' hs)⟩

theorem meets_of_forall {ok : σ → α → Prop} (h : ∀ s a, ok s a) (s : σ) (as : List α) :
    Meets step ok s as := by
  induction as generalizing s with
  | nil => trivial
  | cons a as ih => exact ⟨h s a, fun s' _ => ih s'⟩

theorem Meets.mono {ok ok' : σ → α → Prop} (h : ∀ s a, ok s a → ok' s a) {s : σ} {as : List α}
    (hok : Meets step ok s as) : Meets step ok' s as := by
  induction as generalizing s with
  | nil => trivial
  | cons a as ih => exact ⟨h s a hok.1, fun s' hs => ih (hok.2 s' hs)⟩

/-- **Induction over runs**: what every allowed step preserves, every allowed run preserves. -/
theorem run_invariant {ok : σ → α → Prop} {I : σ → Prop}
    (hstep : ∀ s a s', ok s a → I s → step s a = some s' → I s')
    {s s' : σ} {as : List α} (hok : Meets step ok s as) (hs : I s)
    (hrun : run step s as = some s') : I s' := by
  induction as generalizing s with
  | nil => rw [run_nil, Option.some.injEq] at hrun; rwa [← hrun]
  | cons a as ih =>
      obtain ⟨s₁, h1, h2⟩ := (run_cons_eq_some step).mp hrun
      exact ih (hok.2 s₁ h1) (hstep s a s₁ hok.1 hs h1) h2

/-- What every step preserves, every run preserves. -/
theorem run_preserves {I : σ → Prop} (hstep : ∀ s a s', I s → step s a = some s' → I s')
    {s s' : σ} {as : List α} (hs : I s) (hrun : run step s as = some s') : I s' :=
  run_invariant step (fun s a s' (_ : True) => hstep s a s')
    (meets_of_forall step (fun _ _ => trivial) s as) hs hrun

/-- Conditions that agree on every step that an invariant allows agree on runs. -/
theorem meets_congr {ok ok' : σ → α → Prop} {I : σ → Prop}
    (hI : ∀ s a s', I s → step s a = some s' → I s') (h : ∀ s a, I s → (ok s a ↔ ok' s a))
    {s : σ} (hs : I s) (as : List α) : Meets step ok s as ↔ Meets step ok' s as := by
  induction as generalizing s with
  | nil => exact Iff.rfl
  | cons a as ih =>
      exact and_congr (h s a hs) (forall_congr' fun s' =>
        forall_congr' fun hstep => ih (hI s a s' hs hstep))

/-- **Refinement**: if every step from a state with the invariant is a step of the other machine,
and is enabled when that is, the same holds of runs. -/
theorem run_map {τ : Type} {step' : τ → α → Option τ} {I : σ → Prop} {f : σ → τ}
    (hI : ∀ s a s', I s → step s a = some s' → I s')
    (hstep : ∀ s a, I s → (step s a).map f = step' (f s) a) {s : σ} (hs : I s) (as : List α) :
    (run step s as).map f = run step' (f s) as := by
  induction as generalizing s with
  | nil => rfl
  | cons a as ih =>
      have h := hstep s a hs
      rw [run, run]
      cases hnext : step s a with
      | none =>
          rw [hnext, Option.map_none] at h
          rw [← h]
          rfl
      | some s' =>
          rw [hnext, Option.map_some] at h
          rw [← h]
          exact ih (hI s a s' hs hnext)

/-- **Exact conditions of runs**: if a step from a state with `J` leads to `J` iff it is allowed,
`J` holds all along a run iff all its steps are allowed.  `I` is an invariant that the steps of the
run keep in any case. -/
theorem forall_prefix_iff_meets {ok ok' : σ → α → Prop} {I J : σ → Prop}
    (hI : ∀ s a s', ok' s a → I s → step s a = some s' → I s')
    (hJ : ∀ s a s', ok' s a → I s → J s → step s a = some s' → (J s' ↔ ok s a))
    {s : σ} {as : List α} (hs : I s) (hj : J s) (hok : Meets step ok' s as)
    (hrun : (run step s as).isSome) :
    (∀ bs, bs <+: as → ∀ s', run step s bs = some s' → J s') ↔ Meets step ok s as := by
  induction as generalizing s with
  | nil =>
      refine ⟨fun _ => trivial, fun _ bs hbs s' hs' => ?_⟩
      rw [List.prefix_nil.mp hbs, run_nil, Option.some.injEq] at hs'
      exact hs' ▸ hj
  | cons a as ih =>
      obtain ⟨s', hs'⟩ := Option.isSome_iff_exists.mp hrun
      obtain ⟨s₁, hstep, hrest⟩ := (run_cons_eq_some step).mp hs'
      have hs₁ : I s₁ := hI s a s₁ hok.1 hs hstep
      have hiff : J s₁ ↔ ok s a := hJ s a s₁ hok.1 hs hj hstep
      have hsome : (run step s₁ as).isSome := Option.isSome_iff_exists.mpr ⟨s', hrest⟩
      constructor
      · intro h
        have hone : run step s [a] = some s₁ := (run_cons_eq_some step).mpr ⟨s₁, hstep, rfl⟩
        have hj₁ : J s₁ := h [a] (List.prefix_cons_inj a |>.mpr List.nil_prefix) s₁ hone
        refine ⟨hiff.mp hj₁, fun s₂ hs₂ => ?_⟩
        obtain rfl := Option.some.inj (hstep.symm.trans hs₂)
        refine (ih hs₁ hj₁ (hok.2 s₁ hstep) hsome).mp fun bs hbs s₂ hs₂ => ?_
        exact h (a :: bs) ((List.prefix_cons_inj a).mpr hbs) s₂
          ((run_cons_eq_some step).mpr ⟨s₁, hstep, hs₂⟩)
      · intro h bs hbs s₂ hs₂
        have hj₁ : J s₁ := hiff.mpr h.1
        cases bs with
        | nil =>
            rw [run_nil, Option.some.injEq] at hs₂
            exact hs₂ ▸ hj
        | cons b bs =>
            obtain ⟨rfl, hbs'⟩ := List.cons_prefix_cons.mp hbs
            obtain ⟨s₃, hstep₃, hrest₃⟩ := (run_cons_eq_some step).mp hs₂
            obtain rfl := Option.some.inj (hstep.symm.trans hstep₃)
            exact (ih hs₁ hj₁ (hok.2 s₁ hstep) hsome).mpr (h.2 s₁ hstep) bs hbs' s₂ hrest₃

end StepMachine
