import Mathlib.Data.List.Basic

/-! # One text cut in two ways

Words written one after another without a separator read the same as other words iff the cut between
two of them can be moved: a word of the one is continued in the other by some letters, and what
follows it in the one begins with these letters.  `Shift` is a move of the only cut between two
words, `Recut` one of the first cut that differs between as many words as there are. -/

namespace Cuts

/-- The letters `s` stand at the end of one of the first words and at the start of the second word
of the other. -/
def Shift {α : Type*} [Append α] (s a b a' b' : α) : Prop :=
  (a' = a ++ s ∧ b = s ++ b') ∨ (a = a' ++ s ∧ b' = s ++ b)

variable {α : Type*}

/-- Two lists of words that are the same up to one, which is continued in one of them by letters
with which the rest of the other begins. -/
inductive Recut : List (List α) → List (List α) → Prop
  | same (a : List α) {as bs : List (List α)} : Recut as bs → Recut (a :: as) (a :: bs)
  | left (a : List α) {s : List α} {as bs : List (List α)} : s ≠ [] →
      as.flatten = s ++ bs.flatten → Recut (a :: as) ((a ++ s) :: bs)
  | right (a : List α) {s : List α} {as bs : List (List α)} : s ≠ [] →
      bs.flatten = s ++ as.flatten → Recut ((a ++ s) :: as) (a :: bs)

/-- Two words read the same as two others: they are these, or the cut has moved. -/
theorem append_eq_append_iff_shift {a b a' b' : List α} :
    a ++ b = a' ++ b' ↔ (a = a' ∧ b = b') ∨ ∃ s, s ≠ [] ∧ Shift s a b a' b' := by
  constructor
  · intro h
    rcases List.append_eq_append_iff.mp h with ⟨s, ha, hb⟩ | ⟨s, ha, hb⟩
    · by_cases hs : s = []
      · subst hs
        exact Or.inl ⟨by rw [ha, List.append_nil], hb⟩
      · exact Or.inr ⟨s, hs, Or.inl ⟨ha, hb⟩⟩
    · by_cases hs : s = []
      · subst hs
        exact Or.inl ⟨by rw [ha, List.append_nil], hb.symm⟩
      · exact Or.inr ⟨s, hs, Or.inr ⟨ha, hb⟩⟩
  · rintro (⟨rfl, rfl⟩ | ⟨s, _, ⟨rfl, rfl⟩ | ⟨rfl, rfl⟩⟩)
    · rfl
    · rw [List.append_assoc]
    · rw [List.append_assoc]

/-- **Equally many words read the same as others** iff the first cut that differs has moved. -/
theorem recut_iff {as bs : List (List α)} (h : as.length = bs.length) :
    Recut as bs ↔ as.flatten = bs.flatten ∧ as ≠ bs := by
  induction as generalizing bs with
  | nil =>
      obtain rfl := List.eq_nil_of_length_eq_zero h.symm
      exact iff_of_false nofun (fun hno => hno.2 rfl)
  | cons a as ih =>
      obtain ⟨b, bs, rfl⟩ := List.exists_cons_of_length_eq_add_one h.symm
      have hlen : as.length = bs.length := Nat.succ.inj h
      rw [List.flatten_cons, List.flatten_cons]
      constructor
      · intro hcut
        cases hcut with
        | same _ hrest =>
            obtain ⟨hflat, hne⟩ := (ih hlen).mp hrest
            exact ⟨by rw [hflat], fun heq => hne (List.cons.inj heq).2⟩
        | @left _ s _ _ hs hrest =>
            refine ⟨by rw [hrest, List.append_assoc], fun heq => hs ?_⟩
            exact List.append_right_eq_self.mp (List.cons.inj heq).1.symm
        | @right _ s _ _ hs hrest =>
            refine ⟨by rw [hrest, List.append_assoc], fun heq => hs ?_⟩
            exact List.append_right_eq_self.mp (List.cons.inj heq).1
      · rintro ⟨hflat, hne⟩
        rcases append_eq_append_iff_shift.mp hflat with ⟨rfl, hrest⟩ | ⟨s, hs, hshift⟩
        · exact .same _ ((ih hlen).mpr ⟨hrest, fun heq => hne (by rw [heq])⟩)
        · obtain ⟨rfl, hrest⟩ | ⟨rfl, hrest⟩ := hshift
          · exact .left a hs hrest
          · exact .right b hs hrest

/-! ### Strings -/

theorem Shift.ne {s a b a' b' : String} (h : Shift s a b a' b') (hs : s ≠ "") : a ≠ a' := by
  rintro rfl
  obtain ⟨heq, _⟩ | ⟨heq, _⟩ := h
  · exact hs (String.append_eq_left_iff.mp heq.symm)
  · exact hs (String.append_eq_left_iff.mp heq.symm)

theorem Shift.toList {s a b a' b' : String} (h : Shift s a b a' b') :
    Shift s.toList a.toList b.toList a'.toList b'.toList := by
  unfold Shift at h ⊢
  simpa only [← String.toList_append, String.toList_inj] using h

/-- The texts of two pairs are the same: the pairs are, or the cut has moved. -/
theorem string_append_eq_append_iff_shift {a b a' b' : String} :
    a ++ b = a' ++ b' ↔ (a = a' ∧ b = b') ∨ ∃ s, s ≠ "" ∧ Shift s a b a' b' := by
  rw [← String.toList_inj, String.toList_append, String.toList_append, append_eq_append_iff_shift,
    String.toList_inj, String.toList_inj]
  refine or_congr Iff.rfl ⟨?_, ?_⟩
  · rintro ⟨s, hs, hshift⟩
    refine ⟨String.ofList s, fun hnil => hs ?_, ?_⟩
    · rw [← String.toList_ofList (l := s), hnil]
      rfl
    · unfold Shift at hshift ⊢
      simpa only [← String.toList_inj, String.toList_append, String.toList_ofList] using hshift
  · rintro ⟨s, hs, hshift⟩
    exact ⟨s.toList, fun hnil => hs (String.toList_inj.mp hnil), hshift.toList⟩

end Cuts
