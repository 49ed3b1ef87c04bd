import TupleNet.Control.SaveConcurrent
import TupleNet.Zoo.Zoo

/-! # Two kinds of writers of switch ports

The controller creates and removes switch ports by guarded transactions.  The nodes write them, too:
`revise_lsp_chassis` finds the ports whose OVS port is on the node and whose chassis is another one,
and `put_entity_view_batch` puts each of them with the new chassis, without any comparison.  What is
put comes from the zoo, so from some earlier state of etcd.

`Created` says that a stored port is that of a `Save` that no later `Delete` has undone.  It holds
in every run in which a put finds the port that it writes still stored (`port_writers_created`):
what `generate_lsp_kv` writes is read back with the same address, MAC and peer. -/

namespace TupleNet

open TxnStore StepMachine Control

/-! ### The node -/

/-- `update_lsp_chassis`: the ports whose OVS port is here while their chassis is another one. -/
def updateLspChassis (z : Zoo) (systemId : String) : List Lsp :=
  (z.entitySet .ovsport).items.filterMap (fun ke => match ke.2.row.props with
    | .ovsport o => match (z.entity? .lsp o.ifaceId).map (fun e => e.row.props) with
        | some (Props.lsp p) => if p.chassis ≠ some systemId then some p else none
        | _ => none
    | _ => none)

/-- The key and the value that `generate_lsp_kv` makes of a port. -/
def lspKv (systemId : String) (p : Lsp) : String × String :=
  ("LS/" ++ p.lsUuid ++ "/lsp/" ++ p.uuid,
    "ip=" ++ p.ip ++ ",mac=" ++ p.mac ++ ",chassis=" ++ systemId ++
      p.peer.elim "" (fun peer => ",peer=" ++ peer))

/-- `generate_lsp_kv`. -/
def generateLspKv (lspArray : List Lsp) (systemId : String) : List (String × String) :=
  lspArray.map (lspKv systemId)

/-- `revise_lsp_chassis`. -/
def reviseLspChassis (z : Zoo) (systemId : String) : List (String × String) :=
  generateLspKv (updateLspChassis z systemId) systemId

/-- What a put of a node stores, and the device that the controller reads from it. -/
def lspStored (systemId : String) (p : Lsp) : Stored where
  raw := (lspKv systemId p).2
  device := some (.switchPort ⟨p.lsUuid, p.uuid, p.ip, p.mac, p.peer.getD "", systemId⟩)

/-- `PREFIX_PATH_ENTITY_VIEW` in front of a key. -/
def entityViewKey (key : String) : String := "/entity_view/" ++ key

theorem entityViewKey_lspKv (systemId : String) (p : Lsp) :
    entityViewKey (lspKv systemId p).1 = switchPortPath p.lsUuid p.uuid := by
  have hpath : switchPortPath p.lsUuid p.uuid = "/entity_view/LS/" ++ p.lsUuid ++ "/lsp/" ++
      p.uuid :=
    rfl
  apply String.toList_injective
  rw [hpath]
  simp [entityViewKey, lspKv]

/-- Two texts have the same address, MAC and peer. -/
def SamePort (raw raw' : String) : Prop :=
  ∀ k ∈ ["ip", "mac", "peer"], (parseValue raw).lookup k = (parseValue raw').lookup k

/-- The text has the address, MAC and peer of the port. -/
def Shows (p : Lsp) (raw : String) : Prop :=
  (parseValue raw).lookup "ip" = some p.ip ∧ (parseValue raw).lookup "mac" = some p.mac ∧
    (parseValue raw).lookup "peer" = p.peer

instance (p : Lsp) (raw : String) : Decidable (Shows p raw) :=
  inferInstanceAs (Decidable (_ ∧ _ ∧ _))

theorem Shows.samePort {p : Lsp} {raw raw' : String} (h : Shows p raw) (h' : Shows p raw') :
    SamePort raw raw' := by
  intro k hk
  rcases List.mem_cons.mp hk with rfl | hk
  · rw [h.1, h'.1]
  · rcases List.mem_cons.mp hk with rfl | hk
    · rw [h.2.1, h'.2.1]
    · obtain rfl := List.mem_singleton.mp hk
      rw [h.2.2, h'.2.2]

/-- The properties in the text of a node. -/
def lspFields (systemId : String) (p : Lsp) : List (String × String) :=
  [("ip", p.ip), ("mac", p.mac), ("chassis", systemId)] ++ p.peer.toList.map (fun x => ("peer", x))

theorem lspKv_text (systemId : String) (p : Lsp) :
    (lspKv systemId p).2 = kvText (lspFields systemId p) := by
  apply String.toList_injective
  cases hp : p.peer <;> simp [lspKv, kvText, lspFields, hp]

/-- **The chassis is all that a node changes**: a text that shows the port is replaced by one that
shows it. -/
theorem shows_lspKv {systemId raw : String} {p : Lsp} (hid : ',' ∉ systemId.toList)
    (h : Shows p raw) : Shows p (lspKv systemId p).2 := by
  obtain ⟨hip, hmac, hpeer⟩ := h
  have hkeys : ∀ k ∈ ["ip", "mac", "chassis", "peer"], '=' ∉ k.toList ∧ ',' ∉ k.toList := by decide
  have hparse : parseValue (lspKv systemId p).2 =
      (lspFields systemId p).foldl (fun kvSet kv => kvSet.insert kv.1 kv.2) ∅ := by
    rw [lspKv_text]
    refine parseValue_kvText fun kv hkv => ?_
    rw [← and_assoc]
    rcases List.mem_append.mp hkv with hkv | hkv
    · simp only [List.mem_cons, List.not_mem_nil, or_false] at hkv
      rcases hkv with rfl | rfl | rfl
      · exact ⟨hkeys "ip" (by decide), not_mem_of_lookup_parseValue hip⟩
      · exact ⟨hkeys "mac" (by decide), not_mem_of_lookup_parseValue hmac⟩
      · exact ⟨hkeys "chassis" (by decide), hid⟩
    · obtain ⟨peer, hx, rfl⟩ := List.mem_map.mp hkv
      have hx : p.peer = some peer := by simpa using hx
      exact ⟨hkeys "peer" (by decide), not_mem_of_lookup_parseValue (hpeer.trans hx)⟩
  rw [Shows, hparse]
  cases hp : p.peer <;>
    simp only [lspFields, hp, Option.toList_none, Option.toList_some, List.map_nil, List.map_cons,
      List.append_nil, List.cons_append, List.nil_append, List.foldl_cons, List.foldl_nil,
      Dict.lookup_insert_eq, AList.lookup_empty, String.reduceEq, reduceIte, and_self]

/-! ### The clients -/

/-- A call of the controller on switch ports. -/
inductive PortCall where
  | save (ports : List SwitchPort)
  | delete (recursive : Bool) (ports : List SwitchPort)

/-- The client that makes a call. -/
def PortCall.prog (codec : BitmapCodec)
    (order : List (String × MapEntry) → List (String × MapEntry)) : PortCall → Client
  | save ports => Control.save codec order (ports.map .switchPort)
  | delete recursive ports => Control.delete codec order recursive (ports.map .switchPort)

/-- The operation does not put anything but a bitmap or a port that the call saves. -/
def PortCall.Permits (call : PortCall) : Op Stored → Prop
  | .put key v => IsMapKey key ∨ ∃ ports, call = .save ports ∧ ∃ p ∈ ports,
      key = switchPortPath p.owner p.name ∧ v = .ofDevice (.switchPort p)
  | _ => True

/-- All operations of a transaction are permitted. -/
def PortCall.Writes (call : PortCall) (t : Txn Stored) : Prop := ∀ o ∈ t.ops, call.Permits o

/-- What has been collected so far is permitted. -/
structure PortCall.Collects (call : PortCall) (st : TxnState) : Prop where
  ops : ∀ o ∈ st.ops, call.Permits o
  maps : ∀ key e, st.idMaps.lookup key = some e → IsMapKey key

section writes
variable {codec : BitmapCodec} {order : List (String × MapEntry) → List (String × MapEntry)}
  {call : PortCall} {st : TxnState}

theorem PortCall.Collects.setMap (h : call.Collects st) {key : String} (hkey : IsMapKey key)
    (e : MapEntry) : call.Collects (st.setMap key e) where
  ops := h.ops
  maps := by
    intro k e' hk
    rw [TxnState.setMap, Dict.lookup_insert_eq] at hk
    split_ifs at hk with heq
    · exact heq ▸ hkey
    · exact h.maps k e' hk

theorem PortCall.Collects.create {ports : List SwitchPort} (h : (save ports).Collects st)
    {p : SwitchPort} (hp : p ∈ ports) : (save ports).Collects (st.create (.switchPort p)) where
  ops := by
    intro o ho
    rcases List.mem_append.mp ho with ho | ho
    · exact h.ops o ho
    · rw [List.mem_singleton.mp ho]
      exact Or.inr ⟨ports, rfl, p, hp, rfl, rfl⟩
  maps := h.maps

theorem PortCall.Collects.remove (h : call.Collects st) (recursive : Bool) (key : String) :
    call.Collects (st.remove recursive key) where
  ops := by
    intro o ho
    rcases List.mem_append.mp ho with ho | ho
    · rcases List.mem_append.mp ho with ho | ho
      · exact h.ops o ho
      · cases recursive with
        | false => cases ho
        | true => rw [List.mem_singleton.mp ho]; trivial
    · rw [List.mem_singleton.mp ho]
      trivial
  maps := h.maps

theorem commit_issues {G : Txn Stored → Prop} {t : Txn Stored} (h : G t) : (commit t).Issues G := by
  refine ⟨h, fun r => ?_⟩
  cases r <;> trivial

variable (horder : ∀ l, (order l).Perm l)
include horder

theorem PortCall.Collects.saveTxn (h : call.Collects st) :
    call.Writes (saveTxn codec order st) := by
  intro o ho
  rcases List.mem_append.mp ho with ho | ho
  · exact h.ops o ho
  · obtain ⟨⟨key, e⟩, hke, ho⟩ := List.mem_flatMap.mp ho
    obtain ⟨rfl, _⟩ := mem_saveOps.mp ho
    exact Or.inl (h.maps key e ((mem_order horder).mp hke))

theorem PortCall.Collects.deleteTxn (h : call.Collects st) :
    call.Writes (deleteTxn codec order st) := by
  intro o ho
  rcases List.mem_append.mp ho with ho | ho
  · exact h.ops o ho
  · obtain ⟨⟨key, e⟩, hke, ho⟩ := List.mem_flatMap.mp ho
    unfold deleteOps at ho
    split_ifs at ho
    · rw [List.mem_singleton.mp ho]
      trivial
    · rw [List.mem_singleton.mp ho]
      exact Or.inl (h.maps key e ((mem_order horder).mp hke))
    · cases ho

theorem saveLoop_writes {ports ps : List SwitchPort} (hps : ∀ p ∈ ps, p ∈ ports)
    (h : (PortCall.save ports).Collects st) :
    (saveLoop codec order (ps.map .switchPort) st).Issues (PortCall.save ports).Writes := by
  induction ps generalizing st with
  | nil => exact commit_issues (h.saveTxn horder)
  | cons p ps ih =>
      refine markIPUsed_issues fun e x _ _ _ _ => ih (fun q hq => hps q (List.mem_cons_of_mem _ hq))
        ?_
      exact (h.setMap (Or.inr ⟨p.owner, Or.inl rfl⟩) _).create (hps p List.mem_cons_self)

theorem deleteLoop_writes {recursive : Bool} {ps : List SwitchPort} (h : call.Collects st) :
    (deleteLoop codec order recursive (ps.map .switchPort) st).Issues call.Writes := by
  induction ps generalizing st with
  | nil => exact commit_issues (h.deleteTxn horder)
  | cons p ps ih =>
      refine idMapFor_issues fun e _ => ?_
      split
      · trivial
      · exact ih ((h.setMap (Or.inr ⟨p.owner, Or.inl rfl⟩) _).remove recursive _)

/-- A call writes nothing but bitmaps and, if it is a `Save`, its ports. -/
theorem PortCall.prog_issues (call : PortCall) : (call.prog codec order).Issues call.Writes := by
  have hempty : call.Collects .empty := ⟨nofun, by simp [TxnState.empty]⟩
  cases call with
  | save ports => exact saveLoop_writes horder (fun _ hp => hp) hempty
  | delete recursive ports => exact deleteLoop_writes horder hempty

end writes

/-! ### Clients and nodes on one etcd -/

/-- The clients on etcd, all states that etcd has had, and for each node the ports of its batch that
are still to be put. -/
structure PortSystem where
  etcd : System Stored Outcome
  history : List (Store Stored)
  pending : ℕ → List Lsp

/-- A read or transaction of a client, a `revise_lsp_chassis` of a node, or a put of its batch.  A
put may reach etcd or not, and the node may try it again. -/
inductive PortAct where
  | call (client : ℕ) (answers : Bool)
  | revise (node age : ℕ) (paths : List String) (z : Zoo)
  | put (node : ℕ) (applied again : Bool)

/-- The switch ports of the zoo come from records that etcd had under some of the paths. -/
def LoadedFrom (db : Store Stored) (paths : List String) (z : Zoo) : Prop :=
  ∀ ke ∈ (z.entitySet .lsp).items, ∃ path ∈ paths, parseKey path = some .lsp ∧
    ∃ v ∈ db path, (Args.ofKv .lsp path (valueSet .lsp v.raw).kv.lookup).bind Args.construct =
      some ke.2.row.props ∧ ke.2.row.props.uuid = ke.1

instance (db : Store Stored) (paths : List String) (z : Zoo) : Decidable (LoadedFrom db paths z) :=
  inferInstanceAs (Decidable (∀ _ ∈ _, ∃ _ ∈ _, _ ∧ ∃ _ ∈ _, _))

namespace PortSystem

/-- Nobody has moved yet. -/
def start (db : Store Stored) (prog : ℕ → Client) : PortSystem where
  etcd := System.start db prog
  history := [db]
  pending _ := []

/-- A put has reached etcd. -/
def putLsp (systemId : String) (p : Lsp) (s : PortSystem) : PortSystem :=
  let db := Function.update s.etcd.db (entityViewKey (lspKv systemId p).1)
    (some (lspStored systemId p))
  { s with etcd := { s.etcd with db := db }, history := s.history ++ [db] }

/-- One step; `systemId` names the nodes. -/
def step (systemId : ℕ → String) (s : PortSystem) : PortAct → Option PortSystem
  | .call client answers =>
      (System.step Stored.raw s.etcd (client, answers)).map (fun etcd =>
        { s with etcd := etcd, history := s.history ++ [etcd.db] })
  | .revise node age paths z => match s.history[age]? with
      | none => none
      | some db =>
          if s.pending node = [] ∧ LoadedFrom db paths z then
            some { s with pending := Function.update s.pending node
                            (updateLspChassis z (systemId node)) }
          else none
  | .put node applied again => match s.pending node with
      | [] => none
      | p :: ps =>
          let s' := if applied then s.putLsp (systemId node) p else s
          some { s' with pending := Function.update s.pending node (if again then p :: ps else ps) }

/-- The stored port is one that a `Save` has created and no `Delete` has removed since. -/
def Created (calls : ℕ → PortCall) (log : List (ℕ × Txn Stored)) (key raw : String) : Prop :=
  ∃ before client t after ports p, log = before ++ (client, t) :: after ∧
    calls client = .save ports ∧ p ∈ ports ∧ .put key (.ofDevice (.switchPort p)) ∈ t.ops ∧
    (∀ x ∈ after, ∀ o ∈ x.2.ops, ¬ o.Deletes key) ∧ SamePort raw (marshalTuplenet (.switchPort p))

/-- A put reaches etcd while the port is stored, with the address, MAC and peer that the node knows;
the name of the node fits into a value. -/
def OnTime (systemId : ℕ → String) (s : PortSystem) : PortAct → Prop
  | .put node true _ => ',' ∉ (systemId node).toList ∧ ∀ p ∈ (s.pending node).head?,
      ∃ v ∈ s.etcd.db (switchPortPath p.lsUuid p.uuid), Shows p v.raw
  | _ => True

instance (systemId : ℕ → String) (s : PortSystem) (a : PortAct) :
    Decidable (OnTime systemId s a) :=
  match a with
  | .call _ _ => isTrue trivial
  | .revise _ _ _ _ => isTrue trivial
  | .put _ false _ => isTrue trivial
  | .put _ true _ => inferInstanceAs (Decidable (_ ∧ ∀ _ ∈ _, ∃ _ ∈ _, _))

theorem switchPortPath_not_map (owner name : String) : ¬ IsMapKey (switchPortPath owner name) :=
  Device.path_not_map (.switchPort ⟨owner, name, "", "", "", ""⟩)

section run
variable {codec : BitmapCodec} {order : ℕ → List (String × MapEntry) → List (String × MapEntry)}
  {calls : ℕ → PortCall} {systemId : ℕ → String} {s s' : PortSystem} {a : PortAct}

/-- Every client keeps to its call, and every stored port has been created. -/
structure Inv (calls : ℕ → PortCall) (s : PortSystem) : Prop where
  issues : ∀ i, (s.etcd.prog i).Issues (calls i).Writes
  created : ∀ owner name v, s.etcd.db (switchPortPath owner name) = some v →
    Created calls s.etcd.log (switchPortPath owner name) v.raw

/-- After a transaction a stored port is one that it puts, or one that it has not deleted. -/
theorem Created.commit {client : ℕ} {t : Txn Stored} {log : List (ℕ × Txn Stored)}
    {db : Store Stored} {owner name : String} (ht : (calls client).Writes t) (hacc : t.Accepted)
    (hold : ∀ v, db (switchPortPath owner name) = some v →
      Created calls log (switchPortPath owner name) v.raw) {v : Stored}
    (hv : t.apply db (switchPortPath owner name) = some v) :
    Created calls (log ++ [(client, t)]) (switchPortPath owner name) v.raw := by
  by_cases hput : switchPortPath owner name ∈ putKeys t.ops
  · obtain ⟨w, hw⟩ := mem_putKeys.mp hput
    obtain rfl : w = v := Option.some.inj ((Txn.apply_of_put hacc hw db).symm.trans hv)
    rcases ht _ hw with hmap | ⟨ports, hcall, p, hp, _, rfl⟩
    · exact absurd hmap (switchPortPath_not_map owner name)
    · exact ⟨log, client, t, [], ports, p, rfl, hcall, hp, hw, nofun, fun _ _ => rfl⟩
  · by_cases hdel : ∃ o ∈ t.ops, o.Deletes (switchPortPath owner name)
    · have hnone : t.apply db (switchPortPath owner name) = none := applyOps_of_delete hput hdel db
      rw [hnone] at hv
      cases hv
    · have hkeep : ∀ o ∈ t.ops, ¬ o.Deletes (switchPortPath owner name) :=
        fun o ho h => hdel ⟨o, ho, h⟩
      have hsame : t.apply db (switchPortPath owner name) = db (switchPortPath owner name) :=
        applyOps_of_untouched hkeep hput db
      obtain ⟨before, c, t', after, ports, p, rfl, hcall, hp, hput', hafter, hport⟩ :=
        hold v (hsame.symm.trans hv)
      refine ⟨before, c, t', after ++ [(client, t)], ports, p, by simp, hcall, hp, hput', ?_, hport⟩
      intro x hx
      rcases List.mem_append.mp hx with hx | hx
      · exact hafter x hx
      · rw [List.mem_singleton.mp hx]
        exact hkeep

/-- A put in time changes the chassis of a port that has been created. -/
theorem Inv.putLsp {id : String} {p : Lsp} (h : Inv calls s) (hid : ',' ∉ id.toList)
    (hshows : ∃ v ∈ s.etcd.db (switchPortPath p.lsUuid p.uuid), Shows p v.raw) :
    Inv calls (s.putLsp id p) where
  issues := h.issues
  created := by
    intro owner name v hv
    simp only [PortSystem.putLsp, entityViewKey_lspKv] at hv ⊢
    by_cases hkey : switchPortPath owner name = switchPortPath p.lsUuid p.uuid
    · rw [hkey, Function.update_self] at hv
      obtain rfl := Option.some.inj hv
      obtain ⟨w, hw, hshows⟩ := hshows
      obtain ⟨before, c, t, after, ports, q, hlog, hcall, hq, hput, hafter, hport⟩ :=
        h.created p.lsUuid p.uuid w hw
      rw [hkey]
      refine ⟨before, c, t, after, ports, q, hlog, hcall, hq, hput, hafter, fun k hk => ?_⟩
      rw [← hport k hk]
      exact (shows_lspKv hid hshows).samePort hshows k hk
    · rw [Function.update_of_ne hkey] at hv
      exact h.created owner name v hv

theorem Inv.step (hok : OnTime systemId s a) (h : Inv calls s)
    (hs : PortSystem.step systemId s a = some s') : Inv calls s' := by
  cases a with
  | call client answers =>
      obtain ⟨etcd, hetcd, rfl⟩ := Option.map_eq_some_iff.mp hs
      refine ⟨System.step_issues h.issues hetcd, fun owner name v hv => ?_⟩
      rcases System.step_db (h.issues client) hetcd with ⟨hdb, hlog⟩ | ⟨t, ht, hacc, _, hdb, hlog⟩
      · simp only [hdb] at hv
        simp only [hlog]
        exact h.created owner name v hv
      · simp only [hdb] at hv
        simp only [hlog]
        exact Created.commit ht hacc (h.created owner name) hv
  | revise node age paths z =>
      simp only [PortSystem.step] at hs
      split at hs
      · cases hs
      · split_ifs at hs
        obtain rfl := Option.some.inj hs
        exact ⟨h.issues, h.created⟩
  | put node applied again =>
      cases hpending : s.pending node with
      | nil => simp [PortSystem.step, hpending] at hs
      | cons p ps =>
          simp only [PortSystem.step, hpending, Option.some.injEq] at hs
          subst hs
          cases applied with
          | false => exact ⟨h.issues, h.created⟩
          | true =>
              have hput := h.putLsp hok.1 (hok.2 p (by rw [hpending]; rfl))
              exact ⟨hput.issues, hput.created⟩

end run

/-- **Deleted ports stay deleted**: when every put of a node finds its port still stored, a stored
port is at every moment one that a `Save` has created and no `Delete` has removed since, with the
address, MAC and peer of that `Save`. -/
theorem port_writers_created (codec : BitmapCodec)
    (order : ℕ → List (String × MapEntry) → List (String × MapEntry))
    (horder : ∀ i l, (order i l).Perm l) (calls : ℕ → PortCall) (systemId : ℕ → String)
    (db : Store Stored) (hdb : ∀ owner name, db (switchPortPath owner name) = none)
    (as : List PortAct) (s : PortSystem)
    (hok : Meets (step systemId) (OnTime systemId)
      (start db (fun i => (calls i).prog codec (order i))) as)
    (hrun : run (step systemId) (start db (fun i => (calls i).prog codec (order i))) as = some s)
    (owner name : String) (v : Stored) (hv : s.etcd.db (switchPortPath owner name) = some v) :
    Created calls s.etcd.log (switchPortPath owner name) v.raw := by
  have hstart : Inv calls (start db (fun i => (calls i).prog codec (order i))) := by
    refine ⟨fun i => PortCall.prog_issues (horder i) (calls i), fun owner name v hv => ?_⟩
    have hnone := hdb owner name
    rw [show db (switchPortPath owner name) = some v from hv] at hnone
    cases hnone
  have hinv : Inv calls s :=
    run_invariant (step systemId) (fun _ _ _ hok h hs => h.step hok hs) hok hstart hrun
  exact hinv.created owner name v hv

/-! ### A port, its node and a client that deletes it -/

/-- A port without a chassis. -/
def onePort : SwitchPort := ⟨"a", "p", "10.0.0.1", "02:00:0a:00:00:01", "", ""⟩

/-- One client saves the port, the others delete it. -/
def saveThenDelete (client : ℕ) : PortCall :=
  if client = 0 then .save [onePort] else .delete false [onePort]

/-- The zoo of a node that has the port and an OVS port for it. -/
def nodeZoo : Zoo :=
  (Zoo.empty.addEntity (.node false "hyper1")
    (.lsp "p" (some "10.0.0.1") (some "02:00:0a:00:00:01") "a" none none)).addEntity
    (.node false "hyper1") (.ovsport "eth0" "p" 1 false)

/-- The port is saved, and a node finds that it is its own. -/
def saveAndRevise : List PortAct :=
  [.call 0 true, .call 0 true, .revise 0 2 [switchPortPath "a" "p"] nodeZoo]

/-- What becomes of an empty etcd. -/
def oneNodeRun (as : List PortAct) : Option PortSystem :=
  run (step (fun _ => "hyper1"))
    (start (fun _ => none) (fun i => (saveThenDelete i).prog sampleCodec (fun l => l))) as

/-- One client saves the port, another one deletes it, and the others save it again. -/
def saveDeleteSave (client : ℕ) : PortCall :=
  if client = 1 then .delete false [onePort] else .save [onePort]

/-- The node puts the port before a client deletes it; then it is saved again. -/
def putInTime : List PortAct :=
  saveAndRevise ++ [.put 0 true false, .call 1 true, .call 1 true, .call 2 true, .call 2 true]

/-- What becomes of an empty etcd. -/
def inTimeRun : Option PortSystem :=
  run (step (fun _ => "hyper1"))
    (start (fun _ => none) (fun i => (saveDeleteSave i).prog sampleCodec (fun l => l))) putInTime

theorem port_writers_created_inTime :
    ∃ s v, inTimeRun = some s ∧ s.etcd.db (switchPortPath "a" "p") = some v ∧
      s.etcd.log.map Prod.fst = [0, 1, 2] ∧
      Created saveDeleteSave s.etcd.log (switchPortPath "a" "p") v.raw := by
  obtain ⟨s, hs⟩ := Option.isSome_iff_exists.mp (show inTimeRun.isSome from by decide +kernel)
  have hfacts : ∀ s ∈ inTimeRun, (s.etcd.db (switchPortPath "a" "p")).isSome ∧
      s.etcd.log.map Prod.fst = [0, 1, 2] := by decide +kernel
  obtain ⟨hstored, hlog⟩ := hfacts s hs
  obtain ⟨v, hv⟩ := Option.isSome_iff_exists.mp hstored
  exact ⟨s, v, hs, hv, hlog, port_writers_created sampleCodec (fun _ l => l)
    (fun _ l => List.Perm.refl l) saveDeleteSave (fun _ => "hyper1") _ (fun _ _ => rfl) _ s
    (by decide +kernel) hs "a" "p" v hv⟩

/-- When a client deletes the port first, the put creates it again. -/
theorem port_writers_resurrect : ¬ ∀ (codec : BitmapCodec)
    (order : ℕ → List (String × MapEntry) → List (String × MapEntry))
    (calls : ℕ → PortCall) (systemId : ℕ → String) (db : Store Stored) (as : List PortAct)
    (s : PortSystem), (∀ i l, (order i l).Perm l) →
    (∀ owner name, db (switchPortPath owner name) = none) →
    run (step systemId) (start db (fun i => (calls i).prog codec (order i))) as = some s →
    ∀ owner name v, s.etcd.db (switchPortPath owner name) = some v →
      Created calls s.etcd.log (switchPortPath owner name) v.raw := by
  intro h
  obtain ⟨s, hs⟩ := Option.isSome_iff_exists.mp (show (oneNodeRun
    (saveAndRevise ++ [.call 1 true, .call 1 true, .put 0 true false])).isSome from by
    decide +kernel)
  have hfacts : ∀ s ∈ oneNodeRun
      (saveAndRevise ++ [.call 1 true, .call 1 true, .put 0 true false]),
      (s.etcd.db (switchPortPath "a" "p")).isSome ∧ s.etcd.log.map Prod.fst = [0, 1] ∧
        ∀ x ∈ s.etcd.log, x.1 = 1 → ∃ o ∈ x.2.ops, o.Deletes (switchPortPath "a" "p") := by
    decide +kernel
  obtain ⟨hstored, hclients, hdel⟩ := hfacts s hs
  obtain ⟨v, hv⟩ := Option.isSome_iff_exists.mp hstored
  obtain ⟨before, client, t, after, ports, p, hlog, hcall, _, _, hafter, _⟩ :=
    h sampleCodec (fun _ l => l) saveThenDelete (fun _ => "hyper1") _ _ s
      (fun _ l => List.Perm.refl l) (fun _ _ => rfl) hs "a" "p" v hv
  have hclient : client = 0 := by
    by_contra hne
    rw [saveThenDelete, if_neg hne] at hcall
    cases hcall
  rw [hlog] at hclients hdel
  subst hclient
  -- the first client comes first, so the deletion comes later
  match before, after with
  | [], x :: after =>
      simp only [List.nil_append, List.map_cons, List.cons.injEq, true_and] at hclients
      obtain ⟨o, ho, hdeletes⟩ := hdel x (by simp) hclients.1
      exact hafter x List.mem_cons_self o ho hdeletes
  | [], [] => simp at hclients
  | [b], after => simp at hclients
  | b :: b' :: before, after => simp at hclients

end PortSystem

end TupleNet
