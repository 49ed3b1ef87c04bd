import Mathlib.Algebra.GroupWithZero.Nat
import Mathlib.Algebra.BigOperators.Group.List.Basic

/-! # Streams that arrive in pieces

A sender writes the texts of its messages one after another; the reader gets the stream in pieces
whose ends have nothing to do with those of the texts.  `EndsOn B ps` says that every piece ends
where `B` allows it.

A reader that starts afresh on every piece finds in it at most what the piece can hold.  So when it
has found everything that was written, every piece gave all it could (`tight`), which tells where
the pieces end. -/

namespace Pieces

variable {α β : Type}

/-- The pieces of a stream: none of them is empty or longer than the buffer. -/
structure Cut (size : ℕ) (s : List β) (ps : List (List β)) : Prop where
  flatten : ps.flatten = s
  ne_nil : ∀ p ∈ ps, p ≠ []
  length_le : ∀ p ∈ ps, p.length ≤ size

/-- After every piece the stream has come to a place where `B` holds. -/
def EndsOn (B : List β → Prop) (ps : List (List β)) : Prop := ∀ u, u <+: ps → B u.flatten

theorem EndsOn.mono {B B' : List β → Prop} (h : ∀ s, B s → B' s) {ps : List (List β)}
    (hps : EndsOn B ps) : EndsOn B' ps := fun u hu => h _ (hps u hu)

theorem EndsOn.of_prefix {B : List β → Prop} {u ps : List (List β)} (h : EndsOn B ps)
    (hu : u <+: ps) : EndsOn B u := fun v hv => h v (hv.trans hu)

/-! ### What a piece can hold -/

section tight
variable {read : List β → List α} {weight : α → ℕ} (room : List β → ℕ)

theorem weight_readEach_le (happend : ∀ u v, room (u ++ v) = room u + room v)
    {ps : List (List β)} (hle : ∀ p ∈ ps, ((read p).map weight).sum ≤ room p) :
    ((ps.flatMap read).map weight).sum ≤ room ps.flatten := by
  induction ps with
  | nil => exact Nat.zero_le _
  | cons p ps ih =>
      have hp := hle p List.mem_cons_self
      have hps := ih fun q hq => hle q (List.mem_cons_of_mem _ hq)
      rw [List.flatMap_cons, List.map_append, List.sum_append, List.flatten_cons, happend]
      omega

/-- If all that was read fills the stream, then what was read up to the end of a piece fills the
stream up to there. -/
theorem tight (happend : ∀ u v, room (u ++ v) = room u + room v) {ps : List (List β)}
    (hle : ∀ p ∈ ps, ((read p).map weight).sum ≤ room p)
    (hfull : room ps.flatten ≤ ((ps.flatMap read).map weight).sum) {u : List (List β)}
    (hu : u <+: ps) : ((u.flatMap read).map weight).sum = room u.flatten := by
  obtain ⟨v, rfl⟩ := hu
  have hu := weight_readEach_le room happend (fun p hp => hle p (List.mem_append_left v hp))
  have hv := weight_readEach_le room happend (fun p hp => hle p (List.mem_append_right u hp))
  rw [List.flatten_append, happend, List.flatMap_append, List.map_append, List.sum_append] at hfull
  omega

end tight

/-! ### The texts of messages -/

/-- Of two beginnings of the messages the one with the longer stream has the other as a
beginning. -/
theorem prefix_of_length_le {text : α → List β} {msgs : List α} (hne : ∀ m ∈ msgs, text m ≠ [])
    {ms₁ ms₂ : List α} (h₁ : ms₁ <+: msgs) (h₂ : ms₂ <+: msgs)
    (hle : (ms₁.flatMap text).length ≤ (ms₂.flatMap text).length) : ms₁ <+: ms₂ := by
  rcases List.prefix_or_prefix_of_prefix h₁ h₂ with h | ⟨t, rfl⟩
  · exact h
  · cases t with
    | nil => simp
    | cons m t =>
        have hm : m ∈ msgs := h₁.subset (List.mem_append_right ms₂ List.mem_cons_self)
        have hpos := List.length_pos_of_ne_nil (hne m hm)
        simp only [List.flatMap_append, List.flatMap_cons, List.length_append] at hle
        omega

end Pieces
