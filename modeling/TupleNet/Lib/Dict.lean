import Mathlib.Data.List.AList

/-! # Dictionaries

A dictionary is an association list without repeated keys.  The order of its entries is the
order in which it is iterated, so a statement about every dictionary is a statement about every
iteration order; what is looked up does not depend on it (`mem_items`).

`groupBy` splits a dictionary by a class of its values into a dictionary of dictionaries. -/

/-- A dictionary with its iteration order. -/
abbrev Dict (κ ν : Type) := AList (fun _ : κ => ν)

namespace Dict

variable {κ ν γ : Type}

/-- The entries in iteration order. -/
def items (d : Dict κ ν) : List (κ × ν) := d.entries.map (fun e => (e.1, e.2))

@[simp] theorem items_empty : items (∅ : Dict κ ν) = [] := rfl

theorem items_map_fst (d : Dict κ ν) : d.items.map Prod.fst = d.keys := by
  simp [items, AList.keys, List.keys]

theorem nodup_items_fst (d : Dict κ ν) : (d.items.map Prod.fst).Nodup := by
  rw [items_map_fst]
  exact d.keys_nodup

variable [DecidableEq κ]

theorem mem_items {d : Dict κ ν} {k : κ} {v : ν} : (k, v) ∈ d.items ↔ d.lookup k = some v := by
  rw [← Option.mem_def, AList.mem_lookup_iff, items, List.mem_map]
  constructor
  · rintro ⟨e, he, h⟩
    obtain ⟨rfl, rfl⟩ := Prod.mk.inj h
    exact he
  · exact fun h => ⟨⟨k, v⟩, h, rfl⟩

theorem mem_keys_iff {d : Dict κ ν} {k : κ} : k ∈ d.keys ↔ ∃ v, d.lookup k = some v := by
  rw [← AList.mem_keys, ← AList.lookup_isSome, Option.isSome_iff_exists]

theorem lookup_insert_eq (d : Dict κ ν) (k j : κ) (v : ν) :
    (d.insert k v).lookup j = if j = k then some v else d.lookup j := by
  by_cases h : j = k
  · subst h; simp
  · simp [h]

theorem lookup_erase_eq (d : Dict κ ν) (k j : κ) :
    (d.erase k).lookup j = if j = k then none else d.lookup j := by
  by_cases h : j = k
  · subst h; simp
  · simp [h]

/-! ### Entries up to their order -/

omit [DecidableEq κ] in
theorem nodup_items (d : Dict κ ν) : d.items.Nodup := d.nodup_items_fst.of_map

theorem perm_items_iff {d : Dict κ ν} {l : List (κ × ν)} (hl : l.Nodup) :
    d.items.Perm l ↔ ∀ k v, d.lookup k = some v ↔ (k, v) ∈ l := by
  rw [List.perm_ext_iff_of_nodup d.nodup_items hl]
  simp only [Prod.forall, mem_items]

/-- The entry of a key and the others. -/
theorem items_perm_erase {d : Dict κ ν} {k : κ} {v : ν} (h : d.lookup k = some v) :
    d.items.Perm ((k, v) :: items (d.erase k)) := by
  have hnot : (k, v) ∉ items (d.erase k) := by
    rw [mem_items, lookup_erase_eq, if_pos rfl]
    simp
  refine (perm_items_iff (List.nodup_cons.mpr ⟨hnot, nodup_items _⟩)).mpr fun j w => ?_
  rw [List.mem_cons, mem_items, lookup_erase_eq, Prod.mk.injEq]
  by_cases hj : j = k
  · subst hj
    rw [h, if_pos rfl, Option.some.injEq]
    simp [eq_comm]
  · simp [hj]

theorem items_insert_perm (d : Dict κ ν) (k : κ) (v : ν) :
    (items (d.insert k v)).Perm ((k, v) :: items (d.erase k)) := by
  have h : (d.insert k v).lookup k = some v := by rw [lookup_insert_eq, if_pos rfl]
  refine (items_perm_erase h).trans (List.Perm.cons _ ?_)
  refine (perm_items_iff (nodup_items _)).mpr fun j w => ?_
  rw [mem_items, lookup_erase_eq, lookup_erase_eq, lookup_insert_eq]
  split_ifs <;> rfl

theorem items_erase_perm_of_none {d : Dict κ ν} {k : κ} (h : d.lookup k = none) :
    (items (d.erase k)).Perm d.items := by
  refine (perm_items_iff (nodup_items _)).mpr fun j w => ?_
  rw [mem_items, lookup_erase_eq]
  split_ifs with hj
  · rw [hj, h]
    simp
  · rfl

/-! ### Values -/

/-- Apply a function to all values. -/
def mapVal {μ : Type} (f : ν → μ) (d : Dict κ ν) : Dict κ μ where
  entries := d.entries.map (fun e => ⟨e.1, f e.2⟩)
  nodupKeys := by
    have h := d.nodupKeys
    rw [List.NodupKeys, List.keys] at h ⊢
    rwa [List.map_map]

omit [DecidableEq κ] in
theorem items_mapVal {μ : Type} (f : ν → μ) (d : Dict κ ν) :
    (mapVal f d).items = d.items.map (fun i => (i.1, f i.2)) := by
  simp [items, mapVal, Function.comp_def]

theorem lookup_mapVal {μ : Type} (f : ν → μ) (d : Dict κ ν) (k : κ) :
    (mapVal f d).lookup k = (d.lookup k).map f := by
  refine Option.ext fun w => ?_
  simp only [← mem_items, items, mapVal, List.map_map, List.mem_map, Option.map_eq_some_iff]
  constructor
  · rintro ⟨e, he, h⟩
    obtain ⟨rfl, rfl⟩ := Prod.mk.inj h
    exact ⟨e.2, ⟨e, he, rfl⟩, rfl⟩
  · rintro ⟨v, ⟨e, he, h⟩, rfl⟩
    obtain ⟨rfl, rfl⟩ := Prod.mk.inj h
    exact ⟨e, he, rfl⟩

/-! ### Grouping -/

section groupBy
variable [DecidableEq γ] (f : ν → γ)

/-- One step of the grouping loop: put the entry into the group of its class. -/
def addToGroup (g : Dict γ (Dict κ ν)) (e : κ × ν) : Dict γ (Dict κ ν) :=
  g.insert (f e.2) (((g.lookup (f e.2)).getD ∅).insert e.1 e.2)

/-- The entries of `d` grouped by the class of their values. -/
def groupBy (d : Dict κ ν) : Dict γ (Dict κ ν) := d.items.foldl (addToGroup f) ∅

/-- The value of a key in a group; `none` also when there is no such group. -/
def lookupIn (g : Dict γ (Dict κ ν)) (c : γ) (k : κ) : Option ν :=
    (g.lookup c).bind (fun d => d.lookup k)

theorem lookupIn_addToGroup (g : Dict γ (Dict κ ν)) (e : κ × ν) (c : γ) (k : κ) :
    lookupIn (addToGroup f g e) c k =
      if f e.2 = c ∧ e.1 = k then some e.2 else lookupIn g c k := by
  unfold lookupIn addToGroup
  rw [lookup_insert_eq]
  by_cases hc : f e.2 = c
  · subst hc
    rw [if_pos rfl, Option.bind_some, lookup_insert_eq]
    by_cases hk : e.1 = k
    · simp [hk]
    · rw [if_neg (fun h => hk h.symm), if_neg (by simp [hk])]
      cases g.lookup (f e.2) <;> simp
  · rw [if_neg (fun h => hc h.symm), if_neg (by simp [hc])]

theorem lookupIn_foldl_of_not_mem {l : List (κ × ν)} {c : γ} {k : κ}
    (h : ∀ v, (k, v) ∈ l → f v ≠ c) (g : Dict γ (Dict κ ν)) :
    lookupIn (l.foldl (addToGroup f) g) c k = lookupIn g c k := by
  induction l generalizing g with
  | nil => rfl
  | cons e l ih =>
      rw [List.foldl_cons, ih (fun v hv => h v (List.mem_cons_of_mem _ hv)), lookupIn_addToGroup,
        if_neg]
      rintro ⟨hc, rfl⟩
      exact h e.2 List.mem_cons_self hc

theorem lookupIn_foldl_of_mem {l : List (κ × ν)} (hl : (l.map Prod.fst).Nodup) {c : γ} {k : κ}
    {v : ν} (h : (k, v) ∈ l) (hc : f v = c) (g : Dict γ (Dict κ ν)) :
    lookupIn (l.foldl (addToGroup f) g) c k = some v := by
  induction l generalizing g with
  | nil => cases h
  | cons e l ih =>
      rw [List.map_cons, List.nodup_cons] at hl
      rcases List.mem_cons.mp h with rfl | h
      · have hno : ∀ w, (k, w) ∈ l → f w ≠ c :=
          fun w hw => absurd (List.mem_map_of_mem (f := Prod.fst) hw) hl.1
        rw [List.foldl_cons, lookupIn_foldl_of_not_mem f hno, lookupIn_addToGroup,
          if_pos ⟨hc, rfl⟩]
      · exact ih hl.2 h (addToGroup f g e)

/-- The group of class `c` holds exactly the entries of class `c`. -/
theorem lookupIn_groupBy (d : Dict κ ν) (c : γ) (k : κ) (v : ν) :
    lookupIn (groupBy f d) c k = some v ↔ d.lookup k = some v ∧ f v = c := by
  by_cases h : ∃ w, (k, w) ∈ d.items ∧ f w = c
  · obtain ⟨w, hw, hc⟩ := h
    rw [groupBy, lookupIn_foldl_of_mem f d.nodup_items_fst hw hc, mem_items.mp hw]
    constructor
    · intro hv
      obtain rfl := Option.some.inj hv
      exact ⟨rfl, hc⟩
    · exact fun hv => hv.1
  · have hno : ∀ w, (k, w) ∈ d.items → f w ≠ c := fun w hw hc => h ⟨w, hw, hc⟩
    rw [groupBy, lookupIn_foldl_of_not_mem f hno]
    constructor
    · intro hv; cases hv
    · exact fun hv => absurd hv.2 (hno v (mem_items.mpr hv.1))

end groupBy

end Dict
