import TupleNet.Control.RecordText

/-! # Whose record a key is

The control side lists the keys with a prefix and keeps those whose rest has no slash
(`getKVs`); the watch master takes the last components of a key (`readKey`).  A key is found by one
listing at most (`listing_unique`), but only a device whose owner and name have no slash is found
and read under its own kind, owner and name (`findable_iff`). -/

namespace TupleNet.Control

open Text

/-! ### Listings of the control side -/

/-- What `getKVs` makes of a key: the rest after the prefix, unless there is a slash in it. -/
def nameIn (pre key : String) : Option String :=
  let rest := key.toList.drop pre.toList.length
  if pre.toList <+: key.toList ∧ '/' ∉ rest then some (String.ofList rest) else none

/-- The calls of `getKVs` in the functions that list devices, by these functions. -/
inductive Listing where
  | getSwitches
  | getSwitchPorts (s : String)
  | getRouters
  | getRouterPorts (r : String)
  | getRouterStaticRoutes (r : String)
  | getRouterNATs (r : String)
  | getChassises
deriving DecidableEq, Repr

/-- The prefix that is listed. -/
def Listing.path : Listing → String
  | getSwitches => switchPath ""
  | getSwitchPorts s => switchPortPath s ""
  | getRouters => routerPath ""
  | getRouterPorts r => routerPortPath r ""
  | getRouterStaticRoutes r => routerStaticRoutePath r ""
  | getRouterNATs r => routerNATPath r ""
  | getChassises => chassisPath ""

/-- The listing that a device belongs to. -/
def Device.listing : Device → Listing
  | switch _ => .getSwitches
  | router _ => .getRouters
  | switchPort p => .getSwitchPorts p.owner
  | routerPort p => .getRouterPorts p.owner
  | chassis _ => .getChassises
  | staticRoute r => .getRouterStaticRoutes r.owner
  | nat n => .getRouterNATs n.owner

/-! ### The reader of the watch master -/

/-- The type of a key by `parse_key`, `path[-1]`, and `path[-3]` where the type has a parent. -/
def readKey (key : String) : Option (Mark × String × Option String) :=
  let path := (split '/' key).reverse
  (parseKey key).map (fun mark =>
    (mark, path.headD "", if mark ∈ [.lsp, .lrp, .lsr, .lnat] then path[2]? else none))

/-- The device that owns the record, if there is one. -/
def Device.owner? : Device → Option String
  | switchPort p => some p.owner
  | routerPort p => some p.owner
  | staticRoute r => some r.owner
  | nat n => some n.owner
  | _ => none

/-- A device is found under its own kind, owner and name: by the listing that it belongs to and no
other, and by the watch master, whose keys begin with a common prefix. -/
structure Device.Findable (root : String) (dev : Device) : Prop where
  listed : nameIn dev.listing.path dev.path = some dev.name
  only : ∀ (l : Listing) (name : String), nameIn l.path dev.path = some name →
    l = dev.listing ∧ name = dev.name
  read : readKey (root ++ dev.path) = some (dev.mark, dev.name, dev.owner?)

/-! ### One listing at most -/

theorem nameIn_eq_some {pre key name : String} :
    nameIn pre key = some name ↔ key = pre ++ name ∧ '/' ∉ name.toList := by
  unfold nameIn
  dsimp only
  constructor
  · intro h
    split_ifs at h with hcond
    obtain ⟨⟨rest, hrest⟩, hslash⟩ := hcond
    obtain rfl := Option.some.inj h
    rw [← hrest, List.drop_left] at hslash ⊢
    refine ⟨?_, by rwa [String.toList_ofList]⟩
    rw [← String.toList_inj, String.toList_append, String.toList_ofList, hrest]
  · rintro ⟨rfl, hslash⟩
    have hdrop : (pre ++ name).toList.drop pre.toList.length = name.toList := by
      rw [String.toList_append, List.drop_left]
    rw [hdrop, if_pos ⟨⟨name.toList, String.toList_append.symm⟩, hslash⟩, String.ofList_toList]

/-- The last slash ends the prefix. -/
theorem append_slash_inj {a a' b b' : List Char} (hb : '/' ∉ b) (hb' : '/' ∉ b')
    (h : a ++ '/' :: b = a' ++ '/' :: b') : a = a' ∧ b = b' := by
  have hrev := congrArg List.reverse h
  simp only [List.reverse_append, List.reverse_cons, List.append_assoc, List.singleton_append]
    at hrev
  have hsplit := splitChars1_append_cons (c := '/') (p := b.reverse) (by simpa using hb) a.reverse
  rw [hrev, splitChars1_append_cons (by simpa using hb')] at hsplit
  obtain ⟨hb, ha⟩ := Prod.mk.inj (Option.some.inj hsplit)
  exact ⟨(List.reverse_injective ha).symm, (List.reverse_injective hb).symm⟩

/-- The characters that tell the prefixes of listings apart: the last one of the root directory, and
the last one before the final slash. -/
def Listing.tag : Listing → Option Char × Option Char
  | getSwitches => (some 'S', some 'S')
  | getSwitchPorts _ => (some 'S', some 'p')
  | getRouters => (some 'R', some 'R')
  | getRouterPorts _ => (some 'R', some 'p')
  | getRouterStaticRoutes _ => (some 'R', some 'r')
  | getRouterNATs _ => (some 'R', some 't')
  | getChassises => (some 'h', some 's')

theorem getElem?_append_of_left {a : String} {c : Char} {i : ℕ} (h : a.toList[i]? = some c)
    (s : String) : (a ++ s).toList[i]? = some c := by
  obtain ⟨hlen, _⟩ := List.getElem?_eq_some_iff.mp h
  rw [String.toList_append, List.getElem?_append_left hlen, h]

theorem getElem?_append_reverse {a : String} {c : Char} {i : ℕ} (h : a.toList.reverse[i]? = some c)
    (s : String) : (s ++ a).toList.reverse[i]? = some c := by
  obtain ⟨hlen, _⟩ := List.getElem?_eq_some_iff.mp h
  rw [String.toList_append, List.reverse_append, List.getElem?_append_left hlen, h]

theorem Listing.tag_eq (l : Listing) : (l.path.toList[14]?, l.path.toList.reverse[1]?) = l.tag := by
  have hroot : ∀ {root dir : String} {c d : Char}, root.toList[14]? = some c →
      dir.toList.reverse[1]? = some d → ∀ owner : String,
      ((root ++ owner ++ dir ++ "").toList[14]?, (root ++ owner ++ dir ++ "").toList.reverse[1]?) =
        (some c, some d) := by
    intro root dir c d hc hd owner
    rw [String.append_empty, getElem?_append_reverse hd, String.append_assoc,
      getElem?_append_of_left hc]
  cases l with
  | getSwitches => decide
  | getSwitchPorts s => exact hroot (by decide) (by decide) s
  | getRouters => decide
  | getRouterPorts r => exact hroot (by decide) (by decide) r
  | getRouterStaticRoutes r => exact hroot (by decide) (by decide) r
  | getRouterNATs r => exact hroot (by decide) (by decide) r
  | getChassises => decide

theorem Listing.path_injective {l l' : Listing} (h : l.path = l'.path) : l = l' := by
  have htag : l.tag = l'.tag := by rw [← l.tag_eq, ← l'.tag_eq, h]
  have hcancel : ∀ {root dir o o' : String}, root ++ o ++ dir ++ "" = root ++ o' ++ dir ++ "" →
      o = o' := by
    intro root dir o o' heq
    rw [← String.toList_inj] at heq ⊢
    simpa using heq
  cases l <;> cases l' <;> first
    | rfl
    | (simp [tag] at htag; done)
    | exact congrArg _ (hcancel h)

theorem Listing.path_slash (l : Listing) : ∃ cs, l.path.toList = cs ++ ['/'] := by
  have hdir : ∀ (dir owner : String), dir.toList.getLast? = some '/' →
      ∃ cs, (owner ++ dir ++ "").toList = cs ++ ['/'] := by
    intro dir owner h
    obtain ⟨cs, hcs⟩ := List.getLast?_eq_some_iff.mp h
    refine ⟨owner.toList ++ cs, ?_⟩
    rw [String.append_empty, String.toList_append, hcs, List.append_assoc]
  cases l with
  | getSwitches => exact ⟨"/entity_view/LS".toList, by decide⟩
  | getSwitchPorts s => exact hdir "/lsp/" _ (by decide)
  | getRouters => exact ⟨"/entity_view/LR".toList, by decide⟩
  | getRouterPorts r => exact hdir "/lrp/" _ (by decide)
  | getRouterStaticRoutes r => exact hdir "/lsr/" _ (by decide)
  | getRouterNATs r => exact hdir "/lnat/" _ (by decide)
  | getChassises => exact ⟨"/entity_view/chassis".toList, by decide⟩

/-- **A key is found by one listing at most, under one name.** -/
theorem listing_unique {l l' : Listing} {key n n' : String} (h : nameIn l.path key = some n)
    (h' : nameIn l'.path key = some n') : l = l' ∧ n = n' := by
  obtain ⟨rfl, hn⟩ := nameIn_eq_some.mp h
  obtain ⟨heq, hn'⟩ := nameIn_eq_some.mp h'
  obtain ⟨cs, hcs⟩ := l.path_slash
  obtain ⟨cs', hcs'⟩ := l'.path_slash
  rw [← String.toList_inj, String.toList_append, String.toList_append, hcs, hcs'] at heq
  simp only [List.append_assoc, List.singleton_append] at heq
  obtain ⟨hpath, hname⟩ := append_slash_inj hn hn' heq
  refine ⟨Listing.path_injective ?_, String.toList_inj.mp hname⟩
  rw [← String.toList_inj, hcs, hcs', hpath]

/-! ### Keys without slashes in their names -/

namespace Device

theorem path_eq_listing (dev : Device) : dev.path = dev.listing.path ++ dev.name := by
  have hroot : ∀ root name : String, root ++ name = root ++ "" ++ name := by
    intro root name
    rw [String.append_empty]
  cases dev with
  | switch s => exact hroot _ _
  | router r => exact hroot _ _
  | switchPort p => exact hroot (switchPath p.owner ++ "/lsp/") _
  | routerPort p => exact hroot (routerPath p.owner ++ "/lrp/") _
  | chassis c => exact hroot _ _
  | staticRoute r => exact hroot (routerPath r.owner ++ "/lsr/") _
  | nat n => exact hroot (routerPath n.owner ++ "/lnat/") _

/-- A device is found by its own listing iff its name has no slash. -/
theorem listed_iff (dev : Device) :
    nameIn dev.listing.path dev.path = some dev.name ↔ '/' ∉ dev.name.toList := by
  rw [nameIn_eq_some, and_iff_right dev.path_eq_listing]

theorem namesPlain_iff (dev : Device) :
    dev.NamesPlain ↔ '/' ∉ dev.name.toList ∧ ∀ o ∈ dev.owner?, '/' ∉ o.toList := by
  have hempty : '/' ∉ "".toList := by decide
  have hroot : '/' ∉ "entity_view".toList := by decide
  have hdir : ∀ m : Mark, '/' ∉ m.name.toList := by intro m; cases m <;> decide
  have hls := hdir .LS
  have hlr := hdir .LR
  have hlsp := hdir .lsp
  have hlrp := hdir .lrp
  have hlsr := hdir .lsr
  have hlnat := hdir .lnat
  have hchassis := hdir .chassis
  simp only [Mark.name] at hls hlr hlsp hlrp hlsr hlnat hchassis
  unfold NamesPlain
  cases dev <;> simp only [components, name, owner?, List.forall_mem_cons, hempty, hroot, hls, hlr,
    hlsp, hlrp, hlsr, hlnat, hchassis, List.not_mem_nil, not_false_eq_true, false_imp_iff,
    implies_true, true_and, Option.mem_def, Option.some.injEq, forall_eq', reduceCtorEq, and_comm]

/-- The components of a key below a common prefix. -/
theorem split_root_path {dev : Device} (h : dev.NamesPlain) (root : String) :
    split '/' (root ++ dev.path) = split '/' root ++ dev.components.tail := by
  have htail : dev.components.tail ≠ [] := by cases dev <;> simp [components]
  have hpath : dev.path = String.singleton '/' ++ "/".intercalate dev.components.tail := by
    rw [path_eq]
    cases dev <;> rfl
  have hslash : "/" = String.singleton '/' := rfl
  rw [hpath, ← String.append_assoc, split_append, hslash,
    split_intercalate (fun p hp => h p (List.mem_of_mem_tail hp)) htail]

theorem plain_of_mem_split {s p : String} (h : p ∈ split '/' s) : '/' ∉ p.toList := by
  obtain ⟨q, hq, rfl⟩ := List.mem_map.mp h
  rw [String.toList_ofList]
  exact not_mem_of_mem_splitChars hq

/-- **A device is found under its own kind, owner and name iff neither its owner nor its name has a
slash.** -/
theorem findable_iff (root : String) (dev : Device) : dev.Findable root ↔ dev.NamesPlain := by
  constructor
  · intro h
    rw [namesPlain_iff]
    refine ⟨dev.listed_iff.mp h.listed, fun o ho => ?_⟩
    -- a component of a key has no slash
    have hread := h.read
    refine plain_of_mem_split (s := root ++ dev.path) ?_
    rw [readKey] at hread
    obtain ⟨mark, _, hmark⟩ := Option.map_eq_some_iff.mp hread
    obtain ⟨_, howner⟩ := Prod.mk.inj (Prod.mk.inj hmark).2
    rw [ho] at howner
    split_ifs at howner
    exact List.mem_reverse.mp (List.mem_of_getElem? howner)
  · intro h
    have hlisted := dev.listed_iff.mpr (namesPlain_iff dev |>.mp h).1
    refine ⟨hlisted, fun l name hl => listing_unique hl hlisted, ?_⟩
    rw [readKey, parseKey, split_root_path h, List.reverse_append]
    cases dev <;> rfl

end Device

end TupleNet.Control
