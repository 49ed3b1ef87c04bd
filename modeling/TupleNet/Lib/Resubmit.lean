import Mathlib.Logic.Relation
import Mathlib.Order.WellFounded

/-! # Tables that look up each other

A pipeline of match-action tables.  A packet is looked up in a table and takes the actions of a
flow; an action can look the packet up in another table, before the remaining actions are taken.  So
tables are procedures: a run has a stack of frames, and a table can be reached again while a frame
of it waits.

A `Contract` says for every table what holds when it is looked up, how the packet that comes back is
related to the one that was looked up, and what may be put out.  If the actions of every flow meet
the contract, where they rely on it for the tables that they look up, then it holds of every run
(`Contract.out_of_emits`, `Contract.pre_of_reaches`); if moreover each lookup is lower than the one
that causes it in a well-founded order, then no run goes on for ever (`Contract.not_diverges`).

`Brings` is the other direction, for lookups whose effects are determined: every run comes to its
end and puts out exactly this (`Brings.emits_iff`). -/

namespace Resubmit

variable {τ σ ε ω : Type}

/-! ### Runs -/

/-- What an action makes of a packet. -/
inductive Effect (τ σ ω : Type) where
  /-- The packet goes on. -/
  | go (p : σ)
  /-- Something is put out, and the packet goes on. -/
  | send (w : ω)
  /-- The remaining actions of the flow are not taken. -/
  | stop
  /-- The packet is looked up in a table, and the packet that comes back goes on. -/
  | call (t : τ) (p : σ)
  /-- A copy is looked up in a table, and the packet goes on. -/
  | fork (t : τ) (p : σ)

/-- Tables and what their actions do. -/
structure Pipeline (τ σ ε ω : Type) where
  /-- The effects that an action of a table can have. -/
  act : τ → ε → σ → Effect τ σ ω → Prop
  /-- The actions that a packet can find in a table. -/
  select : τ → σ → List ε → Prop

/-- A flow whose actions are being taken. -/
structure Frame (τ σ ε : Type) where
  table : τ
  rest : List ε
  /-- The packet that goes on after a copy. -/
  keep : Option σ

/-- A packet and the flows that work on it. -/
structure Config (τ σ ε : Type) where
  packet : σ
  stack : List (Frame τ σ ε)

namespace Pipeline
variable (P : Pipeline τ σ ε ω)

/-- One step of a run. -/
inductive Step : Config τ σ ε → Config τ σ ε → Prop where
  | ret {p : σ} {t : τ} {k : Option σ} {fs : List (Frame τ σ ε)} :
      Step ⟨p, ⟨t, [], k⟩ :: fs⟩ ⟨k.getD p, fs⟩
  | go {p p' : σ} {t : τ} {a : ε} {as : List ε} {k : Option σ} {fs : List (Frame τ σ ε)}
      (ha : P.act t a p (.go p')) : Step ⟨p, ⟨t, a :: as, k⟩ :: fs⟩ ⟨p', ⟨t, as, k⟩ :: fs⟩
  | send {p : σ} {w : ω} {t : τ} {a : ε} {as : List ε} {k : Option σ} {fs : List (Frame τ σ ε)}
      (ha : P.act t a p (.send w)) : Step ⟨p, ⟨t, a :: as, k⟩ :: fs⟩ ⟨p, ⟨t, as, k⟩ :: fs⟩
  | stop {p : σ} {t : τ} {a : ε} {as : List ε} {k : Option σ} {fs : List (Frame τ σ ε)}
      (ha : P.act t a p .stop) : Step ⟨p, ⟨t, a :: as, k⟩ :: fs⟩ ⟨p, ⟨t, [], k⟩ :: fs⟩
  | call {p p' : σ} {t t' : τ} {a : ε} {as bs : List ε} {k : Option σ} {fs : List (Frame τ σ ε)}
      (ha : P.act t a p (.call t' p')) (hbs : P.select t' p' bs) :
      Step ⟨p, ⟨t, a :: as, k⟩ :: fs⟩ ⟨p', ⟨t', bs, none⟩ :: ⟨t, as, k⟩ :: fs⟩
  | fork {p p' : σ} {t t' : τ} {a : ε} {as bs : List ε} {k : Option σ} {fs : List (Frame τ σ ε)}
      (ha : P.act t a p (.fork t' p')) (hbs : P.select t' p' bs) :
      Step ⟨p, ⟨t, a :: as, k⟩ :: fs⟩ ⟨p', ⟨t', bs, some p⟩ :: ⟨t, as, k⟩ :: fs⟩

/-- The next action can put this out. -/
inductive Sends : Config τ σ ε → ω → Prop where
  | intro {p : σ} {w : ω} {t : τ} {a : ε} {as : List ε} {k : Option σ} {fs : List (Frame τ σ ε)}
      (ha : P.act t a p (.send w)) : Sends ⟨p, ⟨t, a :: as, k⟩ :: fs⟩ w

/-- A packet has been looked up in a table. -/
inductive Starts (t : τ) (p : σ) : Config τ σ ε → Prop where
  | intro {as : List ε} (has : P.select t p as) : Starts t p ⟨p, [⟨t, as, none⟩]⟩

/-- A lookup can go on for ever. -/
def Diverges (t : τ) (p : σ) : Prop :=
  ∃ run : ℕ → Config τ σ ε, P.Starts t p (run 0) ∧ ∀ n, P.Step (run n) (run (n + 1))

/-- A lookup can put this out. -/
def Emits (t : τ) (p : σ) (w : ω) : Prop :=
  ∃ c c', P.Starts t p c ∧ Relation.ReflTransGen P.Step c c' ∧ P.Sends c' w

/-- The next step looks a packet up in a table. -/
inductive Looks : Config τ σ ε → τ → σ → Prop where
  | call {p p' : σ} {t t' : τ} {a : ε} {as : List ε} {k : Option σ} {fs : List (Frame τ σ ε)}
      (ha : P.act t a p (.call t' p')) : Looks ⟨p, ⟨t, a :: as, k⟩ :: fs⟩ t' p'
  | fork {p p' : σ} {t t' : τ} {a : ε} {as : List ε} {k : Option σ} {fs : List (Frame τ σ ε)}
      (ha : P.act t a p (.fork t' p')) : Looks ⟨p, ⟨t, a :: as, k⟩ :: fs⟩ t' p'

/-- A lookup can lead to another one. -/
def Reaches (t : τ) (p : σ) (t' : τ) (p' : σ) : Prop :=
  ∃ c c', P.Starts t p c ∧ Relation.ReflTransGen P.Step c c' ∧ P.Looks c' t' p'

/-- A lookup causes another one: an action of its own flow does, after all lookups of the actions
before it have come back. -/
def Causes (l l' : τ × σ) : Prop :=
  ∃ c c', P.Starts l.1 l.2 c ∧ Relation.ReflTransGen P.Step c c' ∧ c'.stack.length = 1 ∧
    P.Looks c' l'.1 l'.2

/-- A configuration from which no run goes on for ever. -/
def Halts (c : Config τ σ ε) : Prop := Acc (fun c' c => P.Step c c') c

variable {P} {c c' : Config τ σ ε}

theorem Halts.not_infinite (h : P.Halts c) :
    ¬ ∃ run : ℕ → Config τ σ ε, run 0 = c ∧ ∀ n, P.Step (run n) (run (n + 1)) :=
  fun ⟨run, hzero, hrun⟩ => (acc_iff_isEmpty_descending_chain.mp h).false ⟨run, hzero, hrun⟩

/-! ### Fewer runs -/

/-- The effects of one pipeline, and what packets find in it, are some of those of the other. -/
structure Below (P Q : Pipeline τ σ ε ω) : Prop where
  act : ∀ {t a p e}, P.act t a p e → Q.act t a p e
  select : ∀ {t p as}, P.select t p as → Q.select t p as

variable {Q : Pipeline τ σ ε ω} {t : τ} {p : σ} {w : ω}

theorem Below.step (h : P.Below Q) (hstep : P.Step c c') : Q.Step c c' := by
  cases hstep with
  | ret => exact .ret
  | go ha => exact .go (h.act ha)
  | send ha => exact .send (h.act ha)
  | stop ha => exact .stop (h.act ha)
  | call ha hbs => exact .call (h.act ha) (h.select hbs)
  | fork ha hbs => exact .fork (h.act ha) (h.select hbs)

/-- What the smaller one can put out, the other can. -/
theorem Below.emits (h : P.Below Q) (hw : P.Emits t p w) : Q.Emits t p w := by
  obtain ⟨c, c', hstart, hsteps, hsends⟩ := hw
  refine ⟨c, c', ?_, Relation.ReflTransGen.lift id (fun _ _ => h.step) _ _ hsteps, ?_⟩
  · cases hstart with
    | intro has => exact .intro (h.select has)
  · cases hsends with
    | intro ha => exact .intro (h.act ha)

end Pipeline

/-! ### Evaluation -/

namespace Pipeline

section eval
variable (choose : τ → σ → List ε) (effect : τ → ε → σ → Effect τ σ ω)

/-- The actions of a flow in a table, with lookups as given: the packet at the end and what has been
put out. -/
def evalActs (look : τ → σ → Option (σ × List ω)) (t : τ) : List ε → σ → Option (σ × List ω)
  | [], p => some (p, [])
  | a :: as, p =>
      match effect t a p with
      | .go q => evalActs look t as q
      | .send w => (evalActs look t as p).map (fun r => (r.1, w :: r.2))
      | .stop => some (p, [])
      | .call t' q => (look t' q).bind (fun r =>
          (evalActs look t as r.1).map (fun r' => (r'.1, r.2 ++ r'.2)))
      | .fork t' q => (look t' q).bind (fun r =>
          (evalActs look t as p).map (fun r' => (r'.1, r.2 ++ r'.2)))

/-- A lookup, if it comes to an end with `n` nested lookups. -/
def eval : ℕ → τ → σ → Option (σ × List ω)
  | 0, _, _ => none
  | n + 1, t, p => evalActs effect (eval n) t (choose t p) p

variable {choose effect} {P : Pipeline τ σ ε ω}

/-- A frame runs to its end and puts out some of this. -/
structure Ends (P : Pipeline τ σ ε ω) (c c' : Config τ σ ε) (ws : List ω) : Prop where
  steps : Relation.ReflTransGen P.Step c c'
  sends : ∀ w ∈ ws, ∃ d, Relation.ReflTransGen P.Step c d ∧ P.Sends d w

theorem Ends.head {c d e : Config τ σ ε} {ws : List ω} (h : P.Step c d) (hd : Ends P d e ws) :
    Ends P c e ws :=
  ⟨hd.steps.head h, fun w hw => let ⟨b, hb, hs⟩ := hd.sends w hw; ⟨b, hb.head h, hs⟩⟩

theorem Ends.trans {c d e : Config τ σ ε} {ws vs : List ω} (h : Ends P c d ws)
    (hd : Ends P d e vs) : Ends P c e (ws ++ vs) := by
  refine ⟨h.steps.trans hd.steps, fun w hw => ?_⟩
  rcases List.mem_append.mp hw with hw | hw
  · exact h.sends w hw
  · obtain ⟨b, hb, hs⟩ := hd.sends w hw
    exact ⟨b, h.steps.trans hb, hs⟩

theorem ends_ret {p : σ} {t : τ} {k : Option σ} {fs : List (Frame τ σ ε)} :
    Ends P ⟨p, ⟨t, [], k⟩ :: fs⟩ ⟨k.getD p, fs⟩ [] :=
  ⟨.single .ret, fun _ hw => by cases hw⟩

/-- What is evaluated is a run. -/
theorem ends_of_eval (hchoose : ∀ t p, P.select t p (choose t p))
    (heffect : ∀ t a p, P.act t a p (effect t a p)) {n : ℕ} {t : τ} {p q : σ} {ws : List ω}
    (h : eval choose effect n t p = some (q, ws)) (k : Option σ) (fs : List (Frame τ σ ε)) :
    Ends P ⟨p, ⟨t, choose t p, k⟩ :: fs⟩ ⟨k.getD q, fs⟩ ws := by
  induction n generalizing t p q ws k fs with
  | zero => cases h
  | succ n ih =>
      rw [eval] at h
      generalize choose t p = as at h ⊢
      -- inside on the actions that are left
      induction as generalizing p q ws with
      | nil =>
          obtain ⟨rfl, rfl⟩ := Prod.mk.inj (Option.some.inj h)
          exact ends_ret
      | cons a as iha =>
          rw [evalActs] at h
          have hact := heffect t a p
          cases he : effect t a p with
          | go p' =>
              rw [he] at h hact
              exact (iha h).head (.go hact)
          | send w =>
              rw [he] at h hact
              obtain ⟨⟨q', vs⟩, hrest, heq⟩ := Option.map_eq_some_iff.mp h
              obtain ⟨rfl, rfl⟩ := Prod.mk.inj heq
              have hends := (iha hrest).head (.send hact)
              refine ⟨hends.steps, fun v hv => ?_⟩
              rcases List.mem_cons.mp hv with rfl | hv
              · exact ⟨_, .refl, .intro hact⟩
              · exact hends.sends v hv
          | stop =>
              rw [he] at h hact
              obtain ⟨rfl, rfl⟩ := Prod.mk.inj (Option.some.inj h)
              exact ends_ret.head (.stop hact)
          | call t' p' =>
              rw [he] at h hact
              obtain ⟨⟨r, vs⟩, hlook, h⟩ := Option.bind_eq_some_iff.mp h
              obtain ⟨⟨q', us⟩, hrest, heq⟩ := Option.map_eq_some_iff.mp h
              obtain ⟨rfl, rfl⟩ := Prod.mk.inj heq
              exact ((ih hlook none _).trans (iha hrest)).head (.call hact (hchoose t' p'))
          | fork t' p' =>
              rw [he] at h hact
              obtain ⟨⟨r, vs⟩, hlook, h⟩ := Option.bind_eq_some_iff.mp h
              obtain ⟨⟨q', us⟩, hrest, heq⟩ := Option.map_eq_some_iff.mp h
              obtain ⟨rfl, rfl⟩ := Prod.mk.inj heq
              exact ((ih hlook (some p) _).trans (iha hrest)).head (.fork hact (hchoose t' p'))

/-- What an evaluation puts out can be put out. -/
theorem emits_of_eval (hchoose : ∀ t p, P.select t p (choose t p))
    (heffect : ∀ t a p, P.act t a p (effect t a p)) {n : ℕ} {t : τ} {p q : σ} {ws : List ω}
    (h : eval choose effect n t p = some (q, ws)) {w : ω} (hw : w ∈ ws) : P.Emits t p w := by
  obtain ⟨d, hsteps, hsends⟩ := (ends_of_eval hchoose heffect h none []).sends w hw
  exact ⟨_, d, .intro (hchoose t p), hsteps, hsends⟩

end eval

end Pipeline

/-! ### Runs that are determined -/

namespace Pipeline

section yields
variable (P : Pipeline τ σ ε ω)

/-- Every run from here comes to its end, and has then put out exactly this, in this order. -/
inductive Yields : Config τ σ ε → List ω → Prop where
  | nil {p : σ} : Yields ⟨p, []⟩ []
  | ret {p : σ} {t : τ} {k : Option σ} {fs : List (Frame τ σ ε)} {ws : List ω}
      (h : Yields ⟨k.getD p, fs⟩ ws) : Yields ⟨p, ⟨t, [], k⟩ :: fs⟩ ws
  | go {p p' : σ} {t : τ} {a : ε} {as : List ε} {k : Option σ} {fs : List (Frame τ σ ε)}
      {ws : List ω}
      (hact : ∀ e, P.act t a p e ↔ e = .go p') (h : Yields ⟨p', ⟨t, as, k⟩ :: fs⟩ ws) :
      Yields ⟨p, ⟨t, a :: as, k⟩ :: fs⟩ ws
  | send {p : σ} {w : ω} {t : τ} {a : ε} {as : List ε} {k : Option σ} {fs : List (Frame τ σ ε)}
      {ws : List ω} (hact : ∀ e, P.act t a p e ↔ e = .send w)
      (h : Yields ⟨p, ⟨t, as, k⟩ :: fs⟩ ws) : Yields ⟨p, ⟨t, a :: as, k⟩ :: fs⟩ (w :: ws)
  | call {p p' : σ} {t t' : τ} {a : ε} {as : List ε} {k : Option σ} {fs : List (Frame τ σ ε)}
      {ws : List ω} (hact : ∀ e, P.act t a p e ↔ e = .call t' p') (hsome : ∃ bs, P.select t' p' bs)
      (h : ∀ bs, P.select t' p' bs → Yields ⟨p', ⟨t', bs, none⟩ :: ⟨t, as, k⟩ :: fs⟩ ws) :
      Yields ⟨p, ⟨t, a :: as, k⟩ :: fs⟩ ws

/-- Every run of a lookup above these frames puts out exactly this. -/
def Brings (t : τ) (p : σ) (fs : List (Frame τ σ ε)) (ws : List ω) : Prop :=
  (∃ as, P.select t p as) ∧ ∀ as, P.select t p as → P.Yields ⟨p, ⟨t, as, none⟩ :: fs⟩ ws

variable {P} {c d : Config τ σ ε} {ws : List ω} {w : ω}

theorem Brings.call {t t' : τ} {p p' : σ} {a : ε} {as : List ε} {k : Option σ}
    {fs : List (Frame τ σ ε)} (h : P.Brings t' p' (⟨t, as, k⟩ :: fs) ws)
    (hact : ∀ e, P.act t a p e ↔ e = .call t' p') : P.Yields ⟨p, ⟨t, a :: as, k⟩ :: fs⟩ ws :=
  .call hact h.1 h.2

/-- A step puts out the first or nothing. -/
theorem Yields.step (h : P.Yields c ws) (hstep : P.Step c d) :
    P.Yields d ws ∨ ∃ w ws', ws = w :: ws' ∧ P.Yields d ws' := by
  cases hstep with
  | ret => cases h with
    | ret h => exact Or.inl h
  | go ha => cases h with
    | go hact h =>
        cases (hact _).mp ha
        exact Or.inl h
    | send hact _ => cases (hact _).mp ha
    | call hact _ _ => cases (hact _).mp ha
  | send ha => cases h with
    | go hact _ => cases (hact _).mp ha
    | send _ h => exact Or.inr ⟨_, _, rfl, h⟩
    | call hact _ _ => cases (hact _).mp ha
  | stop ha => cases h with
    | go hact _ => cases (hact _).mp ha
    | send hact _ => cases (hact _).mp ha
    | call hact _ _ => cases (hact _).mp ha
  | call ha hbs => cases h with
    | go hact _ => cases (hact _).mp ha
    | send hact _ => cases (hact _).mp ha
    | call hact _ h =>
        cases (hact _).mp ha
        exact Or.inl (h _ hbs)
  | fork ha hbs => cases h with
    | go hact _ => cases (hact _).mp ha
    | send hact _ => cases (hact _).mp ha
    | call hact _ _ => cases (hact _).mp ha

theorem Yields.mem_of_sends (h : P.Yields c ws) (hsends : P.Sends c w) : w ∈ ws := by
  cases hsends with
  | intro ha => cases h with
    | go hact _ => cases (hact _).mp ha
    | send hact _ =>
        cases (hact _).mp ha
        exact List.mem_cons_self
    | call hact _ _ => cases (hact _).mp ha

theorem Yields.mem_of_steps (h : P.Yields c ws) (hsteps : Relation.ReflTransGen P.Step c d)
    (hsends : P.Sends d w) : w ∈ ws := by
  induction hsteps using Relation.ReflTransGen.head_induction_on generalizing ws with
  | refl => exact h.mem_of_sends hsends
  | head hstep _ ih =>
      rcases h.step hstep with hrest | ⟨v, ws', rfl, hrest⟩
      · exact ih hrest
      · exact List.mem_cons_of_mem _ (ih hrest)

theorem Yields.emits (h : P.Yields c ws) (hw : w ∈ ws) :
    ∃ d, Relation.ReflTransGen P.Step c d ∧ P.Sends d w := by
  have hhead : ∀ {c c' : Config τ σ ε}, P.Step c c' →
      (∃ d, Relation.ReflTransGen P.Step c' d ∧ P.Sends d w) →
      ∃ d, Relation.ReflTransGen P.Step c d ∧ P.Sends d w :=
    fun hstep ⟨d, hsteps, hsends⟩ => ⟨d, hsteps.head hstep, hsends⟩
  induction h with
  | nil => cases hw
  | ret _ ih => exact hhead .ret (ih hw)
  | go hact _ ih => exact hhead (.go ((hact _).mpr rfl)) (ih hw)
  | send hact _ ih =>
      rcases List.mem_cons.mp hw with rfl | hw
      · exact ⟨_, .refl, .intro ((hact _).mpr rfl)⟩
      · exact hhead (.send ((hact _).mpr rfl)) (ih hw)
  | call hact hsome _ ih =>
      obtain ⟨bs, hbs⟩ := hsome
      exact hhead (.call ((hact _).mpr rfl) hbs) (ih bs hbs hw)

/-- **The rule for determined runs**: exactly this can be put out. -/
theorem Brings.emits_iff {t : τ} {p : σ} (h : P.Brings t p [] ws) : P.Emits t p w ↔ w ∈ ws := by
  constructor
  · rintro ⟨c, d, hstart, hsteps, hsends⟩
    cases hstart with
    | intro has => exact (h.2 _ has).mem_of_steps hsteps hsends
  · intro hw
    obtain ⟨as, has⟩ := h.1
    obtain ⟨d, hsteps, hsends⟩ := (h.2 as has).emits hw
    exact ⟨_, d, .intro has, hsteps, hsends⟩

end yields

end Pipeline

/-! ### Contracts -/

/-- What the tables of a pipeline rely on and grant. -/
structure Contract (τ σ ω : Type) where
  /-- What holds when a table is looked up. -/
  pre : τ → σ → Prop
  /-- How the packet that comes back is related to the packet that was looked up. -/
  post : τ → σ → σ → Prop
  /-- What may be put out. -/
  out : ω → Prop

namespace Contract
variable (C : Contract τ σ ω) (P : Pipeline τ σ ε ω) (lower : τ × σ → τ × σ → Prop)

section meets
variable (t₀ : τ) (p₀ : σ)

/-- What an effect on a packet has to meet when the packet that goes on has to meet `next`. -/
def After (next : σ → Prop) (p : σ) : Effect τ σ ω → Prop
  | .go p' => next p'
  | .send w => C.out w ∧ next p
  | .stop => C.post t₀ p₀ p
  | .call t p' => C.pre t p' ∧ lower (t, p') (t₀, p₀) ∧ ∀ q, C.post t p' q → next q
  | .fork t p' => C.pre t p' ∧ lower (t, p') (t₀, p₀) ∧ next p

/-- The actions of a flow that the packet `p₀` found in the table `t₀` meet the contract from a
packet on. -/
def Meets : List ε → σ → Prop
  | [], p => C.post t₀ p₀ p
  | a :: as, p => ∀ e, P.act t₀ a p e → C.After lower t₀ p₀ (Meets as) p e

end meets

/-- The actions of all flows meet the contract. -/
def Holds : Prop := ∀ t p as, C.pre t p → P.select t p as → C.Meets P lower t p as p

variable {C P lower}

/-! ### What holds along a run -/

variable (C P lower) in
/-- Every frame can go on with each packet that the frames above it can give back.  The list has the
lookups that the frames belong to. -/
inductive Invariant : σ → List (Frame τ σ ε) → List (τ × σ) → Prop where
  | nil {p : σ} : Invariant p [] []
  | cons {p p₀ : σ} {t₀ : τ} {as : List ε} {k : Option σ} {fs : List (Frame τ σ ε)}
      {ls : List (τ × σ)} (has : C.Meets P lower t₀ p₀ as p) (hlength : ls.length = fs.length)
      (hk : ∀ q, C.post t₀ p₀ q → Invariant (k.getD q) fs ls) :
      Invariant p (⟨t₀, as, k⟩ :: fs) ((t₀, p₀) :: ls)

theorem Invariant.length_eq {p : σ} {fs : List (Frame τ σ ε)} {ls : List (τ × σ)}
    (h : C.Invariant P lower p fs ls) : ls.length = fs.length := by
  cases h with
  | nil => rfl
  | cons _ hlength _ => exact congrArg (· + 1) hlength

/-- A step leaves the lookup at the bottom as it is, until it comes back. -/
theorem Invariant.step (hC : C.Holds P lower) {c c' : Config τ σ ε} {ls : List (τ × σ)}
    (h : C.Invariant P lower c.packet c.stack ls) (hc : P.Step c c') :
    ∃ ls', C.Invariant P lower c'.packet c'.stack ls' ∧
    (ls' = [] ∨ ls'.getLast? = ls.getLast?) := by
  cases hc with
  | ret =>
      cases h with
      | @cons _ _ _ _ _ _ ls has _ hk =>
          refine ⟨ls, hk _ has, ?_⟩
          cases ls with
          | nil => exact Or.inl rfl
          | cons l ls => exact Or.inr List.getLast?_cons_cons.symm
  | go ha =>
      cases h with
      | cons has hlength hk => exact ⟨_, .cons (has _ ha) hlength hk, Or.inr rfl⟩
  | send ha =>
      cases h with
      | cons has hlength hk => exact ⟨_, .cons (has _ ha).2 hlength hk, Or.inr rfl⟩
  | stop ha =>
      cases h with
      | cons has hlength hk =>
          exact ⟨_, .cons (show C.Meets P lower _ _ [] _ from has _ ha) hlength hk, Or.inr rfl⟩
  | call ha hbs =>
      cases h with
      | cons has hlength hk =>
          obtain ⟨hpre, _, hpost⟩ := has _ ha
          exact ⟨_, .cons (hC _ _ _ hpre hbs) (congrArg (· + 1) hlength)
            fun q hq => .cons (hpost q hq) hlength hk, Or.inr List.getLast?_cons_cons⟩
  | fork ha hbs =>
      cases h with
      | cons has hlength hk =>
          obtain ⟨hpre, _, hp⟩ := has _ ha
          exact ⟨_, .cons (hC _ _ _ hpre hbs) (congrArg (· + 1) hlength)
            fun q _ => .cons hp hlength hk, Or.inr List.getLast?_cons_cons⟩

theorem Invariant.steps (hC : C.Holds P lower) {c c' : Config τ σ ε} {ls : List (τ × σ)}
    (h : C.Invariant P lower c.packet c.stack ls) (hc : Relation.ReflTransGen P.Step c c') :
    ∃ ls', C.Invariant P lower c'.packet c'.stack ls' ∧
    (ls' = [] ∨ ls'.getLast? = ls.getLast?) := by
  induction hc with
  | refl => exact ⟨ls, h, Or.inr rfl⟩
  | tail _ hstep ih =>
      obtain ⟨ls', h', hlast⟩ := ih
      obtain ⟨ls'', h'', hlast'⟩ := h'.step hC hstep
      refine ⟨ls'', h'', hlast'.imp_right fun heq => heq.trans (hlast.resolve_left ?_)⟩
      -- no step is left when all frames have come back
      rintro rfl
      have hempty := List.length_eq_zero_iff.mp h'.length_eq.symm
      cases hstep <;> cases hempty

theorem Invariant.of_starts (hC : C.Holds P lower) {t : τ} {p : σ} (hpre : C.pre t p)
    {c : Config τ σ ε} (hc : P.Starts t p c) : C.Invariant P lower c.packet c.stack [(t, p)] := by
  cases hc with
  | intro has => exact .cons (hC t p _ hpre has) rfl fun _ _ => .nil

/-- **The rule for outputs**: what is put out may be. -/
theorem out_of_emits (hC : C.Holds P lower) {t : τ} {p : σ} (hpre : C.pre t p) {w : ω}
    (hw : P.Emits t p w) : C.out w := by
  obtain ⟨c, c', hstart, hsteps, hsends⟩ := hw
  obtain ⟨_, h, _⟩ := (Invariant.of_starts hC hpre hstart).steps hC hsteps
  cases hsends with
  | intro ha =>
      cases h with
      | cons has _ _ => exact (has _ ha).1

/-- **The rule for lookups**: every lookup meets its condition. -/
theorem pre_of_reaches (hC : C.Holds P lower) {t t' : τ} {p p' : σ} (hpre : C.pre t p)
    (h : P.Reaches t p t' p') : C.pre t' p' := by
  obtain ⟨c, c', hstart, hsteps, hlooks⟩ := h
  obtain ⟨_, h, _⟩ := (Invariant.of_starts hC hpre hstart).steps hC hsteps
  cases hlooks with
  | call ha =>
      cases h with
      | cons has _ _ => exact (has _ ha).1
  | fork ha =>
      cases h with
      | cons has _ _ => exact (has _ ha).1

/-- **The rule for causes**: a lookup meets its condition and is lower than the one that causes
it. -/
theorem lower_of_causes (hC : C.Holds P lower) {l l' : τ × σ} (hpre : C.pre l.1 l.2)
    (h : P.Causes l l') : C.pre l'.1 l'.2 ∧ lower l' l := by
  obtain ⟨c, c', hstart, hsteps, hone, hlooks⟩ := h
  obtain ⟨ls, h, hlast⟩ := (Invariant.of_starts hC hpre hstart).steps hC hsteps
  have hl : ls = [l] := by
    obtain ⟨l₀, rfl⟩ := List.length_eq_one_iff.mp (h.length_eq.trans hone)
    rcases hlast with hnil | hlast
    · cases hnil
    · exact congrArg (fun m => [m]) (Option.some.inj hlast)
  subst hl
  cases hlooks with
  | call ha =>
      cases h with
      | cons has _ _ => exact ⟨(has _ ha).1, (has _ ha).2.1⟩
  | fork ha =>
      cases h with
      | cons has _ _ => exact ⟨(has _ ha).1, (has _ ha).2.1⟩

/-! ### Termination -/

theorem halts_nil {t : τ} {p : σ} {k : Option σ} {fs : List (Frame τ σ ε)}
    (h : P.Halts ⟨k.getD p, fs⟩) : P.Halts ⟨p, ⟨t, [], k⟩ :: fs⟩ := by
  refine Acc.intro _ fun c' hc => ?_
  cases hc with
  | ret => exact h

/-- The frame of a flow comes to an end if the frames under it do, for every packet that it can give
back. -/
theorem halts_frame (wf : WellFounded lower) (hC : C.Holds P lower) (l : τ × σ)
    (hpre : C.pre l.1 l.2) {as : List ε} (has : P.select l.1 l.2 as) (k : Option σ)
    (fs : List (Frame τ σ ε)) (hk : ∀ q, C.post l.1 l.2 q → P.Halts ⟨k.getD q, fs⟩) :
    P.Halts ⟨l.2, ⟨l.1, as, k⟩ :: fs⟩ := by
  -- on the lookup, and inside on the actions that are left
  induction l using wf.induction generalizing as k fs with
  | _ l ih =>
  have hrest : ∀ as p, C.Meets P lower l.1 l.2 as p → P.Halts ⟨p, ⟨l.1, as, k⟩ :: fs⟩ := by
    intro as
    induction as with
    | nil => exact fun p hp => halts_nil (hk p hp)
    | cons a as iha =>
        intro p hp
        refine Acc.intro _ fun c' hc => ?_
        cases hc with
        | go ha => exact iha _ (hp _ ha)
        | send ha => exact iha _ (hp _ ha).2
        | stop ha => exact halts_nil (hk p (hp _ ha))
        | @call _ p' _ t' _ _ bs _ _ ha hbs =>
            obtain ⟨hpre', hlt, hpost⟩ := hp _ ha
            exact ih (t', p') hlt hpre' hbs none _ fun q hq => iha q (hpost q hq)
        | @fork _ p' _ t' _ _ bs _ _ ha hbs =>
            obtain ⟨hpre', hlt, hp'⟩ := hp _ ha
            exact ih (t', p') hlt hpre' hbs (some p) _ fun q _ => iha p hp'
  exact hrest as l.2 (hC _ _ _ hpre has)

/-- **The rule for termination**: with lower lookups only, no lookup goes on for ever. -/
theorem not_diverges (wf : WellFounded lower) (hC : C.Holds P lower) {t : τ} {p : σ}
    (hpre : C.pre t p) : ¬ P.Diverges t p := by
  rintro ⟨run, hstart, hrun⟩
  have hhalts : P.Halts (run 0) := by
    generalize run 0 = c at hstart
    cases hstart with
    | intro has =>
        refine halts_frame wf hC (t, p) hpre has none [] fun q _ => Acc.intro _ fun c' hc => ?_
        cases hc
  exact hhalts.not_infinite ⟨run, rfl, hrun⟩

/-! ### Actions one by one -/

/-- An action that has one effect. -/
theorem meets_cons {t₀ : τ} {p₀ p : σ} {a : ε} {as : List ε} {e : Effect τ σ ω}
    (hact : ∀ e', P.act t₀ a p e' → e' = e)
    (h : C.After lower t₀ p₀ (C.Meets P lower t₀ p₀ as) p e) :
    C.Meets P lower t₀ p₀ (a :: as) p := by
  intro e' he'
  rw [hact e' he']
  exact h

end Contract

end Resubmit
