import TupleNet.Lib.Machine
import TupleNet.LinkMaster.Replica
import Mathlib.Data.Fintype.Defs

/-! # Watching across reconnects

Two watches, on the entity keys and on the commands for this node, call `watchCallback` from
threads of their own, and the reader goes through `read_remote_kvdata` again and again: it reads,
adds the watches that are not in service, and notes how to read next.  `Session` holds etcd's
history, the watches with the events that they still have to deliver, the watch master and the
position of the reader; a label of `Session.step` is one step of one of the parties, so a run is an
interleaving.

A watch delivers, in revision order, every event of its range from its start revision on.  Nothing
is promised between two watches, and a watch that has been disabled may go on delivering: it is
stopped when the reader adds its successor, and only if the connection is still the same.

What has been filed in the pools is recorded beside the state: `pooled` since the last drain,
`drained` before.  The entity events that are newer than the last full read are the *news*.  The
reader resumes at `last_ver + 1`, and `last_ver` is pushed by both watches; so the news reach the
pools exactly once as long as a watch is resumed only when nothing up to `last_ver` is missing
(`Careful`, `news_recorded`). -/

namespace TupleNet

open WatchMaster StepMachine

/-! ### The parties -/

/-- The revision that made the change. -/
def KvEvent.modRevision : KvEvent → ℤ
  | put rev _ _ => rev
  | delete rev _ => rev

/-- The key that changes. -/
def KvEvent.key : KvEvent → String
  | put _ key _ => key
  | delete _ key => key

/-- A change in etcd's history, with the watched range in which its key lies. -/
structure Entry where
  range : WatchKey
  event : KvEvent
deriving DecidableEq, Repr

/-- A watch that etcd serves: its connection, its range, where it started and what it still has to
deliver. -/
structure Watch where
  client : ℕ
  range : WatchKey
  startRevision : ℤ
  queue : List Entry
deriving DecidableEq, Repr

/-- Where the reader is in `read_remote_kvdata`; `gotData` is `add is not None`. -/
inductive ReaderPc where
  | idle
  | afterRead (gotData : Bool)
  | afterEntityWatch (gotData : Bool)
  | afterCommWatch (gotData : Bool)
deriving DecidableEq, Repr

/-- etcd, the watches and the node. -/
structure Session where
  revision : ℤ
  log : List Entry
  watch : ℕ → Option Watch
  nextId : ℕ
  client : ℕ
  wm : WatchMaster
  pc : ReaderPc
  fullRead : ℤ
  drained : List Entry
  pooled : List Entry

/-- The steps of the parties. -/
inductive Act where
  | commit (es : List Entry)
  | deliver (id : ℕ)
  | compacted (id : ℕ) (compactedRevision : ℤ)
  | rpcError (id : ℕ)
  | reconnMaster
  | readIncremental
  | readEntire (read : PrefixRead)
  | entityWatch (success : Bool)
  | commWatch (success : Bool)
  | scheduleRead

namespace Session

/-- Nothing has been read and nothing is watched; etcd is empty. -/
def start (systemId : Option String) : Session where
  revision := 1
  log := []
  watch _ := none
  nextId := 0
  client := 0
  wm := WatchMaster.init systemId
  pc := .idle
  fullRead := 0
  drained := []
  pooled := []

/-- A new watch from a revision on. -/
def openWatch (s : Session) (range : WatchKey) (startRevision : ℤ) : Watch where
  client := s.client
  range := range
  startRevision := startRevision
  queue := s.log.filter (fun e => e.range = range ∧ startRevision ≤ e.event.modRevision)

/-- What a commit adds to a watch. -/
def Watch.extend (es : List Entry) (w : Watch) : Watch :=
  { w with queue := w.queue ++
      es.filter (fun e => e.range = w.range ∧ w.startRevision ≤ e.event.modRevision) }

/-- The callback files an event in the pools. -/
def Files (w : WatchMaster) (e : Entry) : Prop :=
  w.watchCanceled = false ∧ w.entityAddPool.isSome ∧ w.entityDelPool.isSome ∧
    (parseKey e.event.key).isSome

instance (w : WatchMaster) (e : Entry) : Decidable (Files w e) :=
  inferInstanceAs (Decidable (_ ∧ _))

/-- One transaction is committed: etcd's history and the watches get its events. -/
def commit (s : Session) (es : List Entry) : Session :=
  { s with
    revision := s.revision + 1
    log := s.log ++ es
    watch := fun id => (s.watch id).map (Watch.extend es) }

/-- Watch `id` hands `e` to the callback and is left with `queue`. -/
def deliver (s : Session) (id : ℕ) (w : Watch) (e : Entry) (queue : List Entry) : Session :=
  { s with
    watch := Function.update s.watch id (some { w with queue := queue })
    wm := s.wm.watchCallback e.event.toWatch
    pooled := if Files s.wm e then s.pooled ++ [e] else s.pooled }

/-- A watch reports a compaction. -/
def compact (s : Session) (compactedRevision : ℤ) : Session :=
  { s with
    wm := s.wm.watchCallback (.compacted compactedRevision)
    pooled := if s.wm.watchCanceled then s.pooled else [] }

/-- The reader takes the pools. -/
def drain (s : Session) : Session :=
  let res := s.wm.readRemoteIncrementalKvdata
  { s with
    wm := res.1
    drained := s.drained ++ s.pooled
    pooled := []
    pc := .afterRead res.2.addPool.isSome }

/-- The reader has read the whole prefix; if the iteration raises the round ends at once. -/
def readAll (s : Session) (read : PrefixRead) : Session :=
  match s.wm.readRemoteEntireKvdata read with
  | (_, none) => s
  | (w, some res) =>
      { s with
        wm := w
        fullRead := if res.addPool.isSome then s.revision else s.fullRead
        pc := .afterRead res.addPool.isSome }

/-- `_stop_watch` of the watch that `watch_id_hash` has for a range; a watch of an earlier
connection does not notice. -/
def stopWatch (s : Session) (key : WatchKey) : ℕ → Option Watch :=
  match s.wm.watchIdHash key with
  | none => s.watch
  | some i =>
      if (s.watch i.watchId).any (fun w => w.client = s.client) then
        Function.update s.watch i.watchId none
      else s.watch

/-- `reconn_master`: the watches are disabled and a new connection is made. -/
def reconnMaster (s : Session) : Session :=
  { s with client := s.client + 1, wm := s.wm.disableAllWatches }

/-- The reader adds the entity watch from `last_ver + 1` on. -/
def addEntityWatch (s : Session) (success : Bool) : Session :=
  if s.wm.InService .entityView then s
  else if success then
    { s with
      wm := s.wm.runEntityWatch (some s.nextId)
      watch := Function.update (s.stopWatch .entityView) s.nextId
        (some (s.openWatch .entityView (s.wm.lastVer + 1)))
      nextId := s.nextId + 1
      pooled := [] }
  else
    { s with
      wm := s.wm.runEntityWatch none
      watch := s.stopWatch .entityView
      pooled := [] }

/-- The reader adds the communicate watch; without a start revision it begins with the next. -/
def addCommWatch (s : Session) (success : Bool) : Session :=
  if s.wm.systemId = none ∨ s.wm.InService .commuPush then s
  else if success then
    { s with
      wm := s.wm.runCommunicateWatch (some s.nextId)
      watch := Function.update (s.stopWatch .commuPush) s.nextId
        (some (s.openWatch .commuPush (s.revision + 1)))
      nextId := s.nextId + 1 }
  else { s with watch := s.stopWatch .commuPush }

/-- One step of one party. -/
def step (s : Session) : Act → Option Session
  | .commit es =>
      -- the events of a transaction share its revision and touch different keys
      if (∀ e ∈ es, e.event.modRevision = s.revision + 1) ∧ es.Nodup then some (s.commit es)
      else none
  | .deliver id => match s.watch id with
      | none => none
      | some w => match w.queue with
          | [] => none
          | e :: queue => some (s.deliver id w e queue)
  | .compacted id compactedRevision =>
      if (s.watch id).isSome ∧ compactedRevision ≤ s.revision then
        some (s.compact compactedRevision)
      else none
  | .rpcError id =>
      if (s.watch id).isSome then some { s with wm := s.wm.watchCallback .rpcError } else none
  | .reconnMaster => some s.reconnMaster
  | .readIncremental =>
      if s.pc = .idle ∧ s.wm.readRemoteFunc = .incremental then some s.drain else none
  | .readEntire read =>
      if s.pc = .idle ∧ s.wm.readRemoteFunc = .entire ∧
          ∀ kv ∈ read.data, kv.modRevision ≤ s.revision then some (s.readAll read)
      else none
  | .entityWatch success => match s.pc with
      | .afterRead gotData =>
          some { s.addEntityWatch success with pc := .afterEntityWatch gotData }
      | _ => none
  | .commWatch success => match s.pc with
      | .afterEntityWatch gotData =>
          some { s.addCommWatch success with pc := .afterCommWatch gotData }
      | _ => none
  | .scheduleRead => match s.pc with
      | .afterCommWatch gotData =>
          some { s with wm := s.wm.scheduleRead gotData, pc := .idle }
      | _ => none

/-! ### News -/

/-- An entity event of known type that is newer than revision `r`. -/
def IsNews (r : ℤ) (e : Entry) : Prop :=
  e.range = .entityView ∧ (parseKey e.event.key).isSome ∧ r < e.event.modRevision

instance (r : ℤ) : DecidablePred (IsNews r) := fun _ => inferInstanceAs (Decidable (_ ∧ _))

/-- The entity events after the last full read, in etcd's order. -/
def news (s : Session) : List Entry := s.log.filter (IsNews s.fullRead)

/-- Those of them that have been filed in the pools, in the order of filing. -/
def recordedNews (s : Session) : List Entry := (s.drained ++ s.pooled).filter (IsNews s.fullRead)

/-- The reader has finished a round, the entity watch is in service and has nothing to deliver. -/
def Settled (s : Session) : Prop :=
  s.pc = .idle ∧ s.wm.watchCanceled = false ∧
    ∃ i ∈ s.wm.watchIdHash .entityView, i.status = true ∧ ∃ w ∈ s.watch i.watchId, w.queue = []

instance : DecidablePred Settled := fun _ => inferInstanceAs (Decidable (_ ∧ _))

/-- Every entity event after the last full read has been recorded exactly once, and for every key
in the order of revisions, or a full read is scheduled. -/
def RecordedOrReread (s : Session) : Prop :=
  s.wm.readRemoteFunc = .entire ∨
    ∀ key, (recordedNews s).filter (fun e => e.event.key = key) =
      (news s).filter (fun e => e.event.key = key)

/-- What keeps the news: after a successful read the entity watch is added again only with no
news left in the pools and none up to `last_ver` missing from what was drained; entity events
are filed only by the watch in service; no compaction is reported between a successful read and
the entity watch that follows it. -/
def Careful (s : Session) : Act → Prop
  | .entityWatch _ =>
      s.pc = .afterRead true → ¬ s.wm.InService .entityView →
        (∀ e ∈ s.pooled, ¬ IsNews s.fullRead e) ∧
        ∀ e ∈ s.log, IsNews s.fullRead e → e.event.modRevision ≤ s.wm.lastVer → e ∈ s.drained
  | .deliver id => ∀ w ∈ s.watch id, ∀ e ∈ w.queue.head?, e.range = .entityView →
      Files s.wm e → s.wm.watchIdHash .entityView = some ⟨id, true⟩
  | .compacted _ _ => s.wm.watchCanceled = false → s.pc ≠ .afterRead true
  | _ => True

instance (s : Session) : DecidablePred (Careful s) := fun a => by
  cases a <;> unfold Careful <;> infer_instance

/-! ### The invariant -/

/-- What holds of the parties at any time. -/
structure Wf (s : Session) : Prop where
  started : 0 ≤ s.revision
  logNodup : s.log.Nodup
  logRevision : ∀ e ∈ s.log, e.event.modRevision ≤ s.revision
  lastVer : s.wm.lastVer ≤ s.revision
  recorded : ∀ e ∈ s.drained ++ s.pooled, e.event.modRevision ≤ s.revision
  fresh : ∀ id w, s.watch id = some w → id < s.nextId ∧ w.startRevision ≤ s.revision + 1 ∧
    ∀ e ∈ w.queue, e.event.modRevision ≤ s.revision
  hashed : ∀ key i, s.wm.watchIdHash key = some i → i.watchId < s.nextId
  ranges : ∀ key i w, s.wm.watchIdHash key = some i → s.watch i.watchId = some w → w.range = key
  pools : s.wm.entityDelPool.isSome = s.wm.entityAddPool.isSome
  serving : ∀ id, s.wm.watchIdHash .entityView = some ⟨id, true⟩ → s.wm.watchCanceled = false ∧
    s.wm.entityAddPool.isSome ∧ ∃ w, s.watch id = some w

/-- The news recorded so far are the first ones, and the watch in service still has the others. -/
structure Exact (s : Session) : Prop where
  recent : ∀ e ∈ recordedNews s, e.event.modRevision ≤ s.wm.lastVer
  first : recordedNews s <+: news s
  serving : ∀ id w, s.wm.watchIdHash .entityView = some ⟨id, true⟩ → s.watch id = some w →
    recordedNews s ++ w.queue.filter (IsNews s.fullRead) = news s

/-- A full read will come: the pools have been abandoned, the current round has no data, or the
next one reads everything. -/
def Rereads (s : Session) : Prop :=
  (s.wm.entityAddPool = none ∧ s.pc ≠ .afterRead true) ∨
    (s.pc = .afterRead false ∨ s.pc = .afterEntityWatch false ∨ s.pc = .afterCommWatch false) ∨
    (s.pc = .idle ∧ s.wm.readRemoteFunc = .entire)

theorem inService_iff {w : WatchMaster} {key : WatchKey} :
    w.InService key ↔ ∃ id, w.watchIdHash key = some ⟨id, true⟩ := by
  unfold InService
  cases h : w.watchIdHash key with
  | none => simp
  | some i => obtain ⟨id, status⟩ := i; simp

theorem disableAllWatches_not_serving (w : WatchMaster) (key : WatchKey) (id : ℕ) :
    w.disableAllWatches.watchIdHash key ≠ some ⟨id, true⟩ := by
  simp only [disableAllWatches, ne_eq, Option.map_eq_some_iff, WatchInfo.mk.injEq, not_exists]
  rintro i ⟨_, _, h⟩
  cases h

/-- What the callback does with a change of a key, the pools' contents aside. -/
theorem watchCallback_toWatch (w : WatchMaster) (e : KvEvent) :
    let w' := w.watchCallback e.toWatch
    w'.watchIdHash = w.watchIdHash ∧ w'.watchCanceled = w.watchCanceled ∧
      w'.readRemoteFunc = w.readRemoteFunc ∧
      w'.entityAddPool.isSome = w.entityAddPool.isSome ∧
      w'.entityDelPool.isSome = w.entityDelPool.isSome ∧
      w'.lastVer = if w.watchCanceled then w.lastVer else max e.modRevision w.lastVer := by
  cases hc : w.watchCanceled with
  | true => simp [watchCallback, hc]
  | false =>
      cases e with
      | put rev key value =>
          cases hk : parseKey key <;> cases ha : w.entityAddPool <;> cases hd : w.entityDelPool <;>
            simp [watchCallback, KvEvent.toWatch, KvEvent.modRevision, hc, hk, record, ha, hd]
      | delete rev key =>
          cases hk : parseKey key <;> cases ha : w.entityAddPool <;> cases hd : w.entityDelPool <;>
            simp [watchCallback, KvEvent.toWatch, KvEvent.modRevision, hc, hk, record, ha, hd]

/-- A step that neither brings nor records news keeps exactness. -/
theorem Exact.mono {s s' : Session} (h : Exact s) (hrec : recordedNews s' = recordedNews s)
    (hnews : news s' = news s) (hfull : s'.fullRead = s.fullRead)
    (hver : s.wm.lastVer ≤ s'.wm.lastVer)
    (hserve : ∀ id w', s'.wm.watchIdHash .entityView = some ⟨id, true⟩ → s'.watch id = some w' →
      ∃ w, s.wm.watchIdHash .entityView = some ⟨id, true⟩ ∧ s.watch id = some w ∧
        w'.queue.filter (IsNews s.fullRead) = w.queue.filter (IsNews s.fullRead)) : Exact s' := by
  refine ⟨fun e he => ?_, ?_, fun id w' hid hw' => ?_⟩
  · rw [hrec] at he
    exact le_trans (h.recent e he) hver
  · rw [hrec, hnews]
    exact h.first
  · obtain ⟨w, hid', hw, hq⟩ := hserve id w' hid hw'
    rw [hrec, hnews, hfull, hq]
    exact h.serving id w hid' hw

/-! ### Each step keeps the invariant -/

section commit
variable {s : Session} {es : List Entry} (hrev : ∀ e ∈ es, e.event.modRevision = s.revision + 1)
include hrev

theorem Wf.commit (hnd : es.Nodup) (h : Wf s) : Wf (s.commit es) where
  started := Int.le_add_one h.started
  logNodup := by
    refine List.nodup_append.mpr ⟨h.logNodup, hnd, fun a ha b hb hab => ?_⟩
    have := h.logRevision a ha
    have := hrev b hb
    subst hab
    omega
  logRevision e he := by
    rcases List.mem_append.mp he with he | he
    · exact Int.le_add_one (h.logRevision e he)
    · exact le_of_eq (hrev e he)
  lastVer := Int.le_add_one h.lastVer
  recorded e he := Int.le_add_one (h.recorded e he)
  fresh id w hw := by
    obtain ⟨w₀, hw₀, rfl⟩ := Option.map_eq_some_iff.mp hw
    obtain ⟨h1, h2, h3⟩ := h.fresh id w₀ hw₀
    refine ⟨h1, Int.le_add_one h2, fun e he => ?_⟩
    rcases List.mem_append.mp he with he | he
    · exact Int.le_add_one (h3 e he)
    · exact le_of_eq (hrev e (List.mem_filter.mp he).1)
  hashed := h.hashed
  ranges key i w hi hw := by
    obtain ⟨w₀, hw₀, rfl⟩ := Option.map_eq_some_iff.mp hw
    exact h.ranges key i w₀ hi hw₀
  pools := h.pools
  serving id hid := by
    obtain ⟨h1, h2, w, hw⟩ := h.serving id hid
    exact ⟨h1, h2, Watch.extend es w, by simp only [Session.commit, hw, Option.map_some]⟩

omit hrev in
theorem news_commit : news (s.commit es) = news s ++ es.filter (IsNews s.fullRead) :=
  List.filter_append ..

theorem Exact.commit (hwf : Wf s) (h : Exact s) : Exact (s.commit es) where
  recent := h.recent
  first := by
    rw [news_commit]
    exact h.first.trans (List.prefix_append _ _)
  serving id w hid hw := by
    obtain ⟨w₀, hw₀, rfl⟩ := Option.map_eq_some_iff.mp hw
    have hr := hwf.ranges _ _ w₀ hid hw₀
    have hstart := (hwf.fresh id w₀ hw₀).2.1
    -- the watch in service gets all the news of the commit
    have hall : (es.filter (fun e => e.range = w₀.range ∧
        w₀.startRevision ≤ e.event.modRevision)).filter (IsNews s.fullRead) =
        es.filter (IsNews s.fullRead) := by
      rw [List.filter_filter]
      refine List.filter_congr fun e he => ?_
      rw [hrev e he, hr]
      by_cases hn : IsNews s.fullRead e
      · simp [hn, hn.1, hstart]
      · simp [hn]
    rw [news_commit, ← h.serving id w₀ hid hw₀, List.append_assoc]
    refine congrArg (recordedNews s ++ ·) ?_
    rw [← hall, ← List.filter_append]
    rfl

end commit

section deliver
variable {s : Session} {id : ℕ} {w : Watch} {e : Entry} {queue : List Entry}
  (hw : s.watch id = some w) (hq : w.queue = e :: queue)
include hw hq

theorem Wf.deliver (h : Wf s) : Wf (s.deliver id w e queue) := by
  obtain ⟨hhash, hcan, hfunc, hadd, hdel, hver⟩ := watchCallback_toWatch s.wm e.event
  obtain ⟨hfresh, hstart, hqueue⟩ := h.fresh id w hw
  rw [hq] at hqueue
  have he := hqueue e List.mem_cons_self
  refine ⟨h.started, h.logNodup, h.logRevision, ?_, fun a ha => ?_, fun j w' hj => ?_,
    fun key i hi => ?_, fun key i w' hi hiw => ?_, ?_, fun j hj => ?_⟩
  · have := h.lastVer
    simp only [Session.deliver, hver]
    split_ifs <;> omega
  · simp only [Session.deliver] at ha
    split_ifs at ha
    · rw [← List.append_assoc] at ha
      rcases List.mem_append.mp ha with ha | ha
      · exact h.recorded a ha
      · rw [List.mem_singleton.mp ha]; exact he
    · exact h.recorded a ha
  · simp only [Session.deliver] at hj
    by_cases hij : j = id
    · subst hij
      rw [Function.update_self, Option.some.injEq] at hj
      subst hj
      exact ⟨hfresh, hstart, fun a ha => hqueue a (List.mem_cons_of_mem _ ha)⟩
    · rw [Function.update_of_ne hij] at hj
      exact h.fresh j w' hj
  · simp only [Session.deliver, hhash] at hi
    exact h.hashed key i hi
  · simp only [Session.deliver, hhash] at hi hiw
    by_cases hij : i.watchId = id
    · rw [hij, Function.update_self, Option.some.injEq] at hiw
      subst hiw
      exact h.ranges key i w hi (hij ▸ hw)
    · rw [Function.update_of_ne hij] at hiw
      exact h.ranges key i w' hi hiw
  · simp only [Session.deliver, hadd, hdel]
    exact h.pools
  · simp only [Session.deliver, hhash, hcan, hadd] at hj ⊢
    obtain ⟨h1, h2, w', hjw⟩ := h.serving j hj
    refine ⟨h1, h2, ?_⟩
    by_cases hij : j = id
    · exact ⟨_, by rw [hij]; exact Function.update_self ..⟩
    · exact ⟨w', by rw [Function.update_of_ne hij]; exact hjw⟩

theorem Exact.deliver (hwf : Wf s) (hcare : e.range = .entityView → Files s.wm e →
      s.wm.watchIdHash .entityView = some ⟨id, true⟩) (h : Exact s) :
    Exact (s.deliver id w e queue) := by
  obtain ⟨hhash, hcan, hfunc, hadd, hdel, hver⟩ := watchCallback_toWatch s.wm e.event
  by_cases hnew : IsNews s.fullRead e ∧ s.wm.watchIdHash .entityView = some ⟨id, true⟩
  · -- the watch in service brings the next of the news
    obtain ⟨hnews, hid⟩ := hnew
    obtain ⟨hopen, hpool, _⟩ := hwf.serving id hid
    have hfiles : Files s.wm e := ⟨hopen, hpool, by rw [hwf.pools]; exact hpool, hnews.2.1⟩
    have hserve := h.serving id w hid hw
    simp only [hq, List.filter_cons, hnews, decide_true, if_true] at hserve
    have hrec : recordedNews (s.deliver id w e queue) = recordedNews s ++ [e] := by
      simp [recordedNews, Session.deliver, hfiles, hnews]
    refine ⟨fun a ha => ?_, ?_, fun j w' hj hjw => ?_⟩
    · rw [hrec] at ha
      simp only [Session.deliver, hver, hopen, Bool.false_eq_true, if_false]
      rcases List.mem_append.mp ha with ha | ha
      · exact le_trans (h.recent a ha) (le_max_right _ _)
      · rw [List.mem_singleton.mp ha]; exact le_max_left _ _
    · rw [hrec]
      refine ⟨queue.filter (IsNews s.fullRead), ?_⟩
      rw [List.append_assoc]
      exact hserve
    · simp only [Session.deliver, hhash, hid, Option.some.injEq, WatchInfo.mk.injEq,
        and_true] at hj
      subst hj
      simp only [Session.deliver, Function.update_self, Option.some.injEq] at hjw
      subst hjw
      rw [hrec, List.append_assoc]
      exact hserve
  · refine h.mono ?_ rfl rfl ?_ fun j w' hj hjw => ?_
    · -- what is filed here is no news
      by_cases hfiles : Files s.wm e
      · have hno : ¬ IsNews s.fullRead e := fun hn => hnew ⟨hn, hcare hn.1 hfiles⟩
        simp [recordedNews, Session.deliver, hfiles, hno]
      · simp [recordedNews, Session.deliver, hfiles]
    · simp only [Session.deliver, hver]
      split_ifs
      · exact le_refl _
      · exact le_max_right _ _
    · simp only [Session.deliver, hhash] at hj hjw ⊢
      by_cases hij : j = id
      · subst hij
        rw [Function.update_self, Option.some.injEq] at hjw
        subst hjw
        have hno : ¬ IsNews s.fullRead e := fun hn => hnew ⟨hn, hj⟩
        refine ⟨w, hj, hw, ?_⟩
        rw [hq]
        exact (List.filter_cons_of_neg (by simpa using hno)).symm
      · rw [Function.update_of_ne hij] at hjw
        exact ⟨w', hj, hjw, rfl⟩

end deliver

theorem disableAllWatches_hash {w : WatchMaster} {key : WatchKey} {i : WatchInfo}
    (h : w.disableAllWatches.watchIdHash key = some i) :
    ∃ i', w.watchIdHash key = some i' ∧ i'.watchId = i.watchId := by
  obtain ⟨i', hi', rfl⟩ := Option.map_eq_some_iff.mp h
  exact ⟨i', hi', rfl⟩

/-- Disabling the watches loses nothing. -/
theorem Wf.disable {s : Session} (h : Wf s) : Wf { s with wm := s.wm.disableAllWatches } :=
  { h with
    hashed := fun key i hi => by
      obtain ⟨i', hi', heq⟩ := disableAllWatches_hash hi
      exact heq ▸ h.hashed key i' hi'
    ranges := fun key i w hi hw => by
      obtain ⟨i', hi', heq⟩ := disableAllWatches_hash hi
      exact h.ranges key i' w hi' (heq ▸ hw)
    serving := fun id hid => absurd hid (disableAllWatches_not_serving s.wm _ id) }

theorem Exact.disable {s : Session} (h : Exact s) : Exact { s with wm := s.wm.disableAllWatches } :=
  h.mono rfl rfl rfl (le_refl _)
    fun id _ hid _ => absurd hid (disableAllWatches_not_serving s.wm _ id)

theorem Rereads.disable {s : Session} (h : Rereads s) :
    Rereads { s with wm := s.wm.disableAllWatches } := h

theorem watchCallback_rpcError (w : WatchMaster) :
    w.watchCallback .rpcError = if w.watchCanceled then w else w.disableAllWatches := rfl

theorem watchCallback_compacted (w : WatchMaster) (r : ℤ) :
    w.watchCallback (.compacted r) = if w.watchCanceled then w else
      disableAllWatches { w with
        lastVer := r
        readRemoteFunc := .entire
        entityAddPool := none
        entityDelPool := none } := rfl

theorem Wf.compact {s : Session} {r : ℤ} (hr : r ≤ s.revision) (h : Wf s) : Wf (s.compact r) := by
  cases hc : s.wm.watchCanceled with
  | true =>
      have : s.compact r = s := by simp [Session.compact, watchCallback_compacted, hc]
      rw [this]
      exact h
  | false =>
      simp only [Session.compact, watchCallback_compacted, hc, Bool.false_eq_true, if_false]
      exact ⟨h.started, h.logNodup, h.logRevision, hr,
        fun e he => h.recorded e (by simp only [List.append_nil] at he; simp [he]), h.fresh,
        h.disable.hashed, h.disable.ranges, rfl,
        fun id hid => absurd hid (disableAllWatches_not_serving _ _ id)⟩

/-- After a reported compaction the prefix will be read again. -/
theorem inv_compact {s : Session} {r : ℤ} (hcare : s.wm.watchCanceled = false →
    s.pc ≠ .afterRead true)
    (h : Exact s ∨ Rereads s) : Exact (s.compact r) ∨ Rereads (s.compact r) := by
  cases hc : s.wm.watchCanceled with
  | true =>
      have : s.compact r = s := by simp [Session.compact, watchCallback_compacted, hc]
      rw [this]
      exact h
  | false =>
      refine Or.inr (Or.inl ⟨?_, hcare hc⟩)
      simp [Session.compact, watchCallback_compacted, hc, disableAllWatches]

theorem Wf.drain {s : Session} (h : Wf s) : Wf s.drain :=
  { h with
    recorded := fun e he => h.recorded e (by simpa only [Session.drain, List.append_nil] using he)
    pools := rfl
    serving := fun id hid => ⟨(h.serving id hid).1, rfl, (h.serving id hid).2.2⟩ }

theorem Exact.drain {s : Session} (h : Exact s) : Exact s.drain :=
  h.mono (by simp [recordedNews, Session.drain]; rfl) rfl rfl (le_refl _)
    fun _ w' hid hw' => ⟨w', hid, hw', rfl⟩

/-- Without pools the drain has no data. -/
theorem Rereads.drain {s : Session} (hpc : s.pc = .idle) (hf : s.wm.readRemoteFunc = .incremental)
    (h : Rereads s) : Rereads s.drain := by
  rcases h with ⟨hnone, _⟩ | (hpc' | hpc' | hpc') | ⟨_, hf'⟩
  · exact Or.inr (Or.inl (Or.inl (by simp [Session.drain, readRemoteIncrementalKvdata, hnone])))
  · rw [hpc] at hpc'; cases hpc'
  · rw [hpc] at hpc'; cases hpc'
  · rw [hpc] at hpc'; cases hpc'
  · rw [hf] at hf'; cases hf'

theorem foldl_max_le {data : List KvMeta} {r v : ℤ} (hv : v ≤ r)
    (h : ∀ kv ∈ data, kv.modRevision ≤ r) :
    data.foldl (fun version kv => max kv.modRevision version) v ≤ r := by
  induction data generalizing v with
  | nil => exact hv
  | cons kv data ih =>
      exact ih (max_le (h kv List.mem_cons_self) hv)
        (fun kv' h' => h kv' (List.mem_cons_of_mem _ h'))

theorem Wf.readAll {s : Session} {read : PrefixRead} (h : Wf s)
    (hdata : ∀ kv ∈ read.data, kv.modRevision ≤ s.revision) : Wf (s.readAll read) := by
  cases read with
  | callRaises => exact { h with }
  | iterationRaises _ => exact h
  | items data =>
      have hversion := foldl_max_le (v := -1) (le_trans (by decide) h.started) hdata
      exact { h with lastVer := max_le hversion h.lastVer }

/-- A full read makes everything old; a failed one leaves the reader with a full read to do. -/
theorem inv_readAll {s : Session} {read : PrefixRead} (hpc : s.pc = .idle)
    (hf : s.wm.readRemoteFunc = .entire) (h : Wf s) :
    Exact (s.readAll read) ∨ Rereads (s.readAll read) := by
  cases read with
  | callRaises => exact Or.inr (Or.inr (Or.inl (Or.inl rfl)))
  | iterationRaises _ => exact Or.inr (Or.inr (Or.inr ⟨hpc, hf⟩))
  | items data =>
      have hold : ∀ l : List Entry, (∀ e ∈ l, e.event.modRevision ≤ s.revision) →
          l.filter (IsNews s.revision) = [] := by
        intro l hl
        rw [List.filter_eq_nil_iff]
        intro e he hn
        have := (of_decide_eq_true hn).2.2
        have := hl e he
        omega
      have hrec : recordedNews (s.readAll (.items data)) = [] := hold _ h.recorded
      have hnews : news (s.readAll (.items data)) = [] := hold _ h.logRevision
      refine Or.inl ⟨?_, ?_, fun id w hid hw => ?_⟩
      · rw [hrec]; exact nofun
      · rw [hrec]
        exact List.nil_prefix
      · rw [hrec, hnews]
        exact hold w.queue (h.fresh id w hw).2.2

/-! ### Adding watches -/

theorem runEntityWatch_of_not {w : WatchMaster} (hin : ¬ w.InService .entityView) (i : ℕ) :
    w.runEntityWatch (some i) =
      { w.initEntityPool with
        watchCanceled := false
        watchIdHash := fun k => if k = .entityView then some ⟨i, true⟩ else w.watchIdHash k } :=
  if_neg hin

theorem runCommunicateWatch_of_not {w : WatchMaster} (hid : w.systemId ≠ none)
    (hin : ¬ w.InService .commuPush) (i : ℕ) :
    w.runCommunicateWatch (some i) =
      { w with
        watchCanceled := false
        watchIdHash := fun k => if k = .commuPush then some ⟨i, true⟩ else w.watchIdHash k } := by
  rw [runCommunicateWatch, if_pos (Option.isSome_iff_ne_none.mpr hid)]
  exact if_neg hin

theorem stopWatch_eq_some {s : Session} {key : WatchKey} {id : ℕ} {w : Watch}
    (h : s.stopWatch key id = some w) : s.watch id = some w := by
  cases hi : s.wm.watchIdHash key with
  | none => simpa only [stopWatch, hi] using h
  | some i =>
      simp only [stopWatch, hi] at h
      split_ifs at h with hc
      · by_cases hid : id = i.watchId
        · rw [hid, Function.update_self] at h; cases h
        · rwa [Function.update_of_ne hid] at h
      · exact h

theorem stopWatch_of_ne {s : Session} {key : WatchKey} {id : ℕ}
    (h : ∀ i, s.wm.watchIdHash key = some i → id ≠ i.watchId) :
    s.stopWatch key id = s.watch id := by
  cases hi : s.wm.watchIdHash key with
  | none => simp only [stopWatch, hi]
  | some i =>
      simp only [stopWatch, hi]
      split_ifs
      · exact Function.update_of_ne (h i hi) ..
      · rfl

section openWatch
variable {s : Session} (h : Wf s) (key : WatchKey) {startRevision : ℤ}
  {id : ℕ} {w : Watch}
include h

/-- The watches after the old one of a range has been stopped and a new one has been opened. -/
theorem Wf.fresh_openWatch (hstart : startRevision ≤ s.revision + 1)
    (hw : Function.update (s.stopWatch key) s.nextId
      (some (s.openWatch key startRevision)) id = some w) :
    id < s.nextId + 1 ∧ w.startRevision ≤ s.revision + 1 ∧
      ∀ e ∈ w.queue, e.event.modRevision ≤ s.revision := by
  by_cases hid : id = s.nextId
  · subst hid
    rw [Function.update_self, Option.some.injEq] at hw
    subst hw
    exact ⟨Nat.lt_succ_self _, hstart, fun e he => h.logRevision e (List.mem_filter.mp he).1⟩
  · rw [Function.update_of_ne hid] at hw
    obtain ⟨h1, h2⟩ := h.fresh id w (stopWatch_eq_some hw)
    exact ⟨Nat.lt_succ_of_lt h1, h2⟩

theorem Wf.hashed_openWatch {k : WatchKey} {i : WatchInfo}
    (hi : (if k = key then some ⟨s.nextId, true⟩ else s.wm.watchIdHash k) = some i) :
    i.watchId < s.nextId + 1 := by
  split_ifs at hi
  · obtain rfl := Option.some.inj hi
    exact Nat.lt_succ_self _
  · exact Nat.lt_succ_of_lt (h.hashed k i hi)

theorem Wf.ranges_openWatch {k : WatchKey} {i : WatchInfo}
    (hi : (if k = key then some ⟨s.nextId, true⟩ else s.wm.watchIdHash k) = some i)
    (hw : Function.update (s.stopWatch key) s.nextId (some (s.openWatch key startRevision))
      i.watchId = some w) : w.range = k := by
  split_ifs at hi with hk
  · obtain rfl := Option.some.inj hi
    rw [Function.update_self, Option.some.injEq] at hw
    subst hw
    exact hk.symm
  · rw [Function.update_of_ne (Nat.ne_of_lt (h.hashed k i hi))] at hw
    exact h.ranges k i w hi (stopWatch_eq_some hw)

end openWatch

theorem Wf.addEntityWatch {s : Session} (h : Wf s) (success : Bool) :
    Wf (s.addEntityWatch success) := by
  unfold Session.addEntityWatch
  by_cases hin : s.wm.InService .entityView
  · rw [if_pos hin]
    exact h
  rw [if_neg hin]
  have hrec : ∀ e ∈ s.drained ++ [], e.event.modRevision ≤ s.revision :=
    fun e he => h.recorded e (by simp only [List.append_nil] at he; simp [he])
  cases success with
  | true =>
      rw [if_pos rfl, runEntityWatch_of_not hin]
      refine ⟨h.started, h.logNodup, h.logRevision, h.lastVer, hrec,
        fun id w => h.fresh_openWatch .entityView (by have := h.lastVer; omega),
        fun key i => h.hashed_openWatch .entityView, fun key i w => h.ranges_openWatch .entityView,
        rfl, fun id hid => ?_⟩
      simp only [if_true, Option.some.injEq, WatchInfo.mk.injEq, and_true] at hid
      subst hid
      exact ⟨rfl, rfl, _, Function.update_self ..⟩
  | false =>
      have heq : s.wm.runEntityWatch none = s.wm.initEntityPool := if_neg hin
      rw [if_neg (by decide), heq]
      refine ⟨h.started, h.logNodup, h.logRevision, h.lastVer, hrec,
        fun id w hw => h.fresh id w (stopWatch_eq_some hw), h.hashed,
        fun key i w hi hw => h.ranges key i w hi (stopWatch_eq_some hw), rfl, fun id hid => ?_⟩
      exact absurd (inService_iff.mpr ⟨id, hid⟩) hin

/-- Resuming at `last_ver + 1` continues the news where the pools have all of them up to
`last_ver`. -/
theorem Exact.addEntityWatch {s : Session} (success : Bool) (hwf : Wf s)
    (hcare : ¬ s.wm.InService .entityView → (∀ e ∈ s.pooled, ¬ IsNews s.fullRead e) ∧
      ∀ e ∈ s.log, IsNews s.fullRead e → e.event.modRevision ≤ s.wm.lastVer → e ∈ s.drained)
    (h : Exact s) : Exact (s.addEntityWatch success) := by
  unfold Session.addEntityWatch
  by_cases hin : s.wm.InService .entityView
  · rw [if_pos hin]
    exact h
  rw [if_neg hin]
  obtain ⟨hpooled, hdrained⟩ := hcare hin
  have hrec : (s.drained ++ []).filter (IsNews s.fullRead) = recordedNews s := by
    have : s.pooled.filter (IsNews s.fullRead) = [] :=
      List.filter_eq_nil_iff.mpr (fun e he => by simpa using hpooled e he)
    simp [recordedNews, this]
  have hfirst : (s.drained ++ []).filter (IsNews s.fullRead) <+: news s := by
    rw [hrec]; exact h.first
  cases success with
  | true =>
      rw [if_pos rfl, runEntityWatch_of_not hin]
      refine ⟨fun e he => h.recent e (hrec ▸ he), hfirst, fun id w hid hw => ?_⟩
      simp only [if_true, Option.some.injEq, WatchInfo.mk.injEq, and_true] at hid
      subst hid
      simp only [Function.update_self, Option.some.injEq] at hw
      subst hw
      obtain ⟨rest, hrest⟩ := h.first
      have hnd : (recordedNews s ++ rest).Nodup := hrest ▸ hwf.logNodup.filter _
      -- what is left of the news lies beyond `last_ver`
      have hlater : ∀ e ∈ rest, s.wm.lastVer + 1 ≤ e.event.modRevision := by
        intro e he
        by_contra hlt
        have hmem : e ∈ news s := hrest ▸ List.mem_append_right _ he
        obtain ⟨hlog, hn⟩ := List.mem_filter.mp hmem
        have hd := hdrained e hlog (of_decide_eq_true hn) (by omega)
        have hr : e ∈ recordedNews s := hrec ▸ List.mem_filter.mpr ⟨by simpa using hd, hn⟩
        exact (List.nodup_append.mp hnd).2.2 e hr e he rfl
      have hqueue : ((s.openWatch .entityView (s.wm.lastVer + 1)).queue).filter
          (IsNews s.fullRead) = rest := by
        simp only [openWatch]
        rw [List.filter_comm, ← news, ← hrest, List.filter_append,
          List.filter_eq_nil_iff.mpr, List.nil_append, List.filter_eq_self.mpr]
        · intro e he
          have hn : e ∈ news s := hrest ▸ List.mem_append_right _ he
          have hn := of_decide_eq_true (List.mem_filter.mp hn).2
          simp [hn.1, hlater e he]
        · intro e he
          have := h.recent e he
          simp only [Bool.not_eq_true, decide_eq_false_iff_not, not_and]
          intro _
          omega
      have hgoal : (s.drained ++ []).filter (IsNews s.fullRead) ++
          ((s.openWatch .entityView (s.wm.lastVer + 1)).queue).filter (IsNews s.fullRead) =
          news s := by rw [hrec, hqueue, hrest]
      exact hgoal
  | false =>
      have heq : s.wm.runEntityWatch none = s.wm.initEntityPool := if_neg hin
      rw [if_neg (by decide), heq]
      refine ⟨fun e he => h.recent e (hrec ▸ he), hfirst, fun id w hid _ => ?_⟩
      exact absurd (inService_iff.mpr ⟨id, hid⟩) hin

/-- Stopping and adding the communicate watch leaves the entity watch alone. -/
theorem Wf.stopWatch_entity {s : Session} {id : ℕ} (h : Wf s)
    (hid : s.wm.watchIdHash .entityView = some ⟨id, true⟩) :
    s.stopWatch .commuPush id = s.watch id ∧ id ≠ s.nextId := by
  obtain ⟨_, _, w, hw⟩ := h.serving id hid
  refine ⟨stopWatch_of_ne fun i hi heq => ?_, Nat.ne_of_lt (h.hashed _ _ hid)⟩
  have h1 := h.ranges .entityView _ w hid hw
  have h2 := h.ranges .commuPush i w hi (heq ▸ hw)
  rw [h1] at h2
  cases h2

theorem Wf.addCommWatch {s : Session} (h : Wf s) (success : Bool) :
    Wf (s.addCommWatch success) := by
  unfold Session.addCommWatch
  split_ifs with hskip hs
  · exact h
  · obtain ⟨hid, hin⟩ := not_or.mp hskip
    rw [runCommunicateWatch_of_not hid hin]
    refine ⟨h.started, h.logNodup, h.logRevision, h.lastVer, h.recorded,
      fun id w => h.fresh_openWatch .commuPush (le_refl _),
      fun key i => h.hashed_openWatch .commuPush, fun key i w => h.ranges_openWatch .commuPush,
      h.pools, fun id hid => ?_⟩
    have hid' : s.wm.watchIdHash .entityView = some ⟨id, true⟩ := by simpa using hid
    obtain ⟨hstop, hne⟩ := h.stopWatch_entity hid'
    simp only [Function.update_of_ne hne, hstop]
    exact ⟨trivial, (h.serving id hid').2⟩
  · refine { h with fresh := ?_, ranges := ?_, serving := fun id hid => ?_ }
    · exact fun id w hw => h.fresh id w (stopWatch_eq_some hw)
    · exact fun key i w hi hw => h.ranges key i w hi (stopWatch_eq_some hw)
    · simp only [(h.stopWatch_entity hid).1]
      exact h.serving id hid

theorem Exact.addCommWatch {s : Session} (success : Bool) (hwf : Wf s) (h : Exact s) :
    Exact (s.addCommWatch success) := by
  unfold Session.addCommWatch
  split_ifs with hskip hs
  · exact h
  · obtain ⟨hid, hin⟩ := not_or.mp hskip
    rw [runCommunicateWatch_of_not hid hin]
    refine h.mono rfl rfl rfl (le_refl _) fun id w' hid' hw' => ?_
    have hid' : s.wm.watchIdHash .entityView = some ⟨id, true⟩ := by simpa using hid'
    obtain ⟨hstop, hne⟩ := hwf.stopWatch_entity hid'
    simp only [Function.update_of_ne hne, hstop] at hw'
    exact ⟨w', hid', hw', rfl⟩
  · refine h.mono rfl rfl rfl (le_refl _) fun id w' hid' hw' => ?_
    simp only [(hwf.stopWatch_entity hid').1] at hw'
    exact ⟨w', hid', hw', rfl⟩

theorem addCommWatch_addPool (s : Session) (success : Bool) :
    (s.addCommWatch success).wm.entityAddPool = s.wm.entityAddPool := by
  unfold Session.addCommWatch
  split_ifs with hskip hs
  · rfl
  · obtain ⟨hid, hin⟩ := not_or.mp hskip
    rw [runCommunicateWatch_of_not hid hin]
  · rfl

/-! ### Runs -/

theorem Wf.step {s s' : Session} {a : Act} (h : Wf s) (hs : Session.step s a = some s') :
    Wf s' := by
  cases a with
  | commit es =>
      simp only [Session.step, Option.ite_none_right_eq_some, Option.some.injEq] at hs
      obtain ⟨⟨hrev, hnd⟩, rfl⟩ := hs
      exact h.commit hrev hnd
  | deliver id =>
      cases hw : s.watch id with
      | none => simp [Session.step, hw] at hs
      | some w =>
          cases hq : w.queue with
          | nil => simp [Session.step, hw, hq] at hs
          | cons e queue =>
              simp only [Session.step, hw, hq, Option.some.injEq] at hs
              subst hs
              exact h.deliver hw hq
  | compacted id r =>
      simp only [Session.step, Option.ite_none_right_eq_some, Option.some.injEq] at hs
      obtain ⟨⟨_, hr⟩, rfl⟩ := hs
      exact h.compact hr
  | rpcError id =>
      simp only [Session.step, Option.ite_none_right_eq_some, Option.some.injEq] at hs
      obtain ⟨_, rfl⟩ := hs
      rw [watchCallback_rpcError]
      split_ifs
      · exact h
      · exact h.disable
  | reconnMaster =>
      simp only [Session.step, Option.some.injEq] at hs
      subst hs
      exact { h.disable with }
  | readIncremental =>
      simp only [Session.step, Option.ite_none_right_eq_some, Option.some.injEq] at hs
      obtain ⟨_, rfl⟩ := hs
      exact h.drain
  | readEntire read =>
      simp only [Session.step, Option.ite_none_right_eq_some, Option.some.injEq] at hs
      obtain ⟨⟨_, _, hdata⟩, rfl⟩ := hs
      exact h.readAll hdata
  | entityWatch success =>
      cases hpc : s.pc <;> simp only [Session.step, hpc, reduceCtorEq, Option.some.injEq] at hs
      subst hs
      exact { h.addEntityWatch success with }
  | commWatch success =>
      cases hpc : s.pc <;> simp only [Session.step, hpc, reduceCtorEq, Option.some.injEq] at hs
      subst hs
      exact { h.addCommWatch success with }
  | scheduleRead =>
      cases hpc : s.pc <;> simp only [Session.step, hpc, reduceCtorEq, Option.some.injEq] at hs
      subst hs
      exact { h with }

/-- What a careful step keeps: the news are recorded in order or will be read again. -/
theorem inv_step {s s' : Session} {a : Act} (hwf : Wf s) (hcare : Careful s a)
    (h : Exact s ∨ Rereads s) (hs : Session.step s a = some s') : Exact s' ∨ Rereads s' := by
  cases a with
  | commit es =>
      simp only [Session.step, Option.ite_none_right_eq_some, Option.some.injEq] at hs
      obtain ⟨⟨hrev, hnd⟩, rfl⟩ := hs
      exact h.imp (fun he => he.commit hrev hwf) id
  | deliver id =>
      cases hw : s.watch id with
      | none => simp [Session.step, hw] at hs
      | some w =>
          cases hq : w.queue with
          | nil => simp [Session.step, hw, hq] at hs
          | cons e queue =>
              simp only [Session.step, hw, hq, Option.some.injEq] at hs
              subst hs
              refine h.imp (fun he => he.deliver hw hq hwf (hcare w hw e (by rw [hq]; rfl)))
                (fun hr => ?_)
              obtain ⟨_, _, hfunc, hadd, _, _⟩ := watchCallback_toWatch s.wm e.event
              have hnone : (s.wm.watchCallback e.event.toWatch).entityAddPool = none ↔
                  s.wm.entityAddPool = none := by
                rw [← Option.not_isSome_iff_eq_none, ← Option.not_isSome_iff_eq_none, hadd]
              simp only [Rereads, Session.deliver, hfunc, hnone] at hr ⊢
              exact hr
  | compacted id r =>
      simp only [Session.step, Option.ite_none_right_eq_some, Option.some.injEq] at hs
      obtain ⟨_, rfl⟩ := hs
      exact inv_compact hcare h
  | rpcError id =>
      simp only [Session.step, Option.ite_none_right_eq_some, Option.some.injEq] at hs
      obtain ⟨_, rfl⟩ := hs
      rw [watchCallback_rpcError]
      split_ifs
      · exact h
      · exact h.imp Exact.disable Rereads.disable
  | reconnMaster =>
      simp only [Session.step, Option.some.injEq] at hs
      subst hs
      exact h.imp (fun he => { he.disable with }) Rereads.disable
  | readIncremental =>
      simp only [Session.step, Option.ite_none_right_eq_some, Option.some.injEq] at hs
      obtain ⟨⟨hpc, hf⟩, rfl⟩ := hs
      exact h.imp Exact.drain (Rereads.drain hpc hf)
  | readEntire read =>
      simp only [Session.step, Option.ite_none_right_eq_some, Option.some.injEq] at hs
      obtain ⟨⟨hpc, hf, _⟩, rfl⟩ := hs
      exact inv_readAll hpc hf hwf
  | entityWatch success =>
      cases hpc : s.pc with
      | afterRead gotData =>
          simp only [Session.step, hpc, Option.some.injEq] at hs
          subst hs
          cases gotData with
          | false => exact Or.inr (Or.inr (Or.inl (Or.inr (Or.inl rfl))))
          | true =>
              have he : Exact s := by
                rcases h with he | hr
                · exact he
                · simp [Rereads, hpc] at hr
              have := he.addEntityWatch success hwf (hcare hpc)
              exact Or.inl { this with }
      | _ => simp [Session.step, hpc] at hs
  | commWatch success =>
      cases hpc : s.pc with
      | afterEntityWatch gotData =>
          simp only [Session.step, hpc, Option.some.injEq] at hs
          subst hs
          refine h.imp (fun he => { he.addCommWatch success hwf with }) fun hr => ?_
          simp only [Rereads, hpc, addCommWatch_addPool] at hr ⊢
          simpa using hr
      | _ => simp [Session.step, hpc] at hs
  | scheduleRead =>
      cases hpc : s.pc with
      | afterCommWatch gotData =>
          simp only [Session.step, hpc, Option.some.injEq] at hs
          subst hs
          refine h.imp (fun he => { he with }) fun hr => ?_
          simp only [Rereads, hpc, WatchMaster.scheduleRead] at hr ⊢
          cases gotData
          · exact Or.inr (Or.inr ⟨trivial, rfl⟩)
          · simpa using hr
      | _ => simp [Session.step, hpc] at hs

/-! ### The record beside the state is what the pools hold -/

/-- File an event in the pools. -/
def fileIn (p : Pool × Pool) (e : Entry) : Pool × Pool :=
  match parseKey e.event.key, e.event with
  | none, _ => p
  | some mark, .put _ key value => recordPut key value mark p.1 p.2
  | some mark, .delete _ key => recordDelete key mark p.1 p.2

/-- The pools hold what has been filed since the last drain. -/
def PoolsHold (s : Session) : Prop :=
  ∀ add del, s.wm.entityAddPool = some add → s.wm.entityDelPool = some del →
    (add, del) = s.pooled.foldl fileIn (∅, ∅)

theorem watchCallback_pools {w : WatchMaster} {e : Entry} {add del : Pool}
    (hadd : w.entityAddPool = some add) (hdel : w.entityDelPool = some del) :
    let w' := w.watchCallback e.event.toWatch
    let p := if Files w e then fileIn (add, del) e else (add, del)
    w'.entityAddPool = some p.1 ∧ w'.entityDelPool = some p.2 := by
  obtain ⟨range, event⟩ := e
  cases hc : w.watchCanceled with
  | true => simp [watchCallback, Files, hc, hadd, hdel]
  | false =>
      cases event with
      | put rev key value =>
          cases hk : parseKey key <;>
            simp [watchCallback, KvEvent.toWatch, KvEvent.key, Files, fileIn, record, hc, hk, hadd,
              hdel]
      | delete rev key =>
          cases hk : parseKey key <;>
            simp [watchCallback, KvEvent.toWatch, KvEvent.key, Files, fileIn, record, hc, hk, hadd,
              hdel]

/-- Empty pools hold an empty record. -/
theorem poolsHold_initEntityPool {s : Session} (hadd : s.wm.entityAddPool = some ∅)
    (hdel : s.wm.entityDelPool = some ∅) (hp : s.pooled = []) : PoolsHold s := by
  intro add del ha hd
  rw [hadd, Option.some.injEq] at ha
  rw [hdel, Option.some.injEq] at hd
  rw [hp, ← ha, ← hd]
  rfl

theorem PoolsHold.deliver {s : Session} {id : ℕ} {w : Watch} {e : Entry} {queue : List Entry}
    (hwf : Wf s) (h : PoolsHold s) : PoolsHold (s.deliver id w e queue) := by
  obtain ⟨_, _, _, hsome, _, _⟩ := watchCallback_toWatch s.wm e.event
  intro add' del' hadd' hdel'
  simp only [Session.deliver] at hadd' hdel' ⊢
  rw [hadd', Option.isSome_some] at hsome
  obtain ⟨add, hadd⟩ := Option.isSome_iff_exists.mp hsome.symm
  obtain ⟨del, hdel⟩ := Option.isSome_iff_exists.mp (hwf.pools.trans hsome.symm)
  obtain ⟨h1, h2⟩ := watchCallback_pools (e := e) hadd hdel
  have hp := h add del hadd hdel
  rw [hadd', Option.some.injEq] at h1
  rw [hdel', Option.some.injEq] at h2
  rw [h1, h2]
  split_ifs with hf
  · rw [List.foldl_append, ← hp]
    rfl
  · exact hp

theorem PoolsHold.addEntityWatch {s : Session} {success : Bool} (h : PoolsHold s) :
    PoolsHold (s.addEntityWatch success) := by
  unfold Session.addEntityWatch
  split_ifs with hin hs
  · exact h
  · rw [runEntityWatch_of_not hin]
    exact poolsHold_initEntityPool rfl rfl rfl
  · have heq : s.wm.runEntityWatch none = s.wm.initEntityPool := if_neg hin
    rw [heq]
    exact poolsHold_initEntityPool rfl rfl rfl

theorem PoolsHold.addCommWatch {s : Session} {success : Bool} (h : PoolsHold s) :
    PoolsHold (s.addCommWatch success) := by
  unfold Session.addCommWatch
  split_ifs with hskip hs
  · exact h
  · obtain ⟨hid, hin⟩ := not_or.mp hskip
    rw [runCommunicateWatch_of_not hid hin]
    exact h
  · exact h

theorem PoolsHold.step {s s' : Session} {a : Act} (hwf : Wf s) (h : PoolsHold s)
    (hs : Session.step s a = some s') : PoolsHold s' := by
  cases a with
  | commit es =>
      simp only [Session.step, Option.ite_none_right_eq_some, Option.some.injEq] at hs
      obtain ⟨_, rfl⟩ := hs
      exact h
  | deliver id =>
      cases hw : s.watch id with
      | none => simp [Session.step, hw] at hs
      | some w =>
          cases hq : w.queue with
          | nil => simp [Session.step, hw, hq] at hs
          | cons e queue =>
              simp only [Session.step, hw, hq, Option.some.injEq] at hs
              subst hs
              exact h.deliver hwf
  | compacted id r =>
      simp only [Session.step, Option.ite_none_right_eq_some, Option.some.injEq] at hs
      obtain ⟨_, rfl⟩ := hs
      cases hc : s.wm.watchCanceled with
      | true => simpa [PoolsHold, compact, watchCallback_compacted, hc] using h
      | false => simp [PoolsHold, compact, watchCallback_compacted, hc, disableAllWatches]
  | rpcError id =>
      simp only [Session.step, Option.ite_none_right_eq_some, Option.some.injEq] at hs
      obtain ⟨_, rfl⟩ := hs
      rw [watchCallback_rpcError]
      split_ifs <;> exact h
  | reconnMaster =>
      simp only [Session.step, Option.some.injEq] at hs
      subst hs
      exact h
  | readIncremental =>
      simp only [Session.step, Option.ite_none_right_eq_some, Option.some.injEq] at hs
      obtain ⟨_, rfl⟩ := hs
      exact poolsHold_initEntityPool rfl rfl rfl
  | readEntire read =>
      simp only [Session.step, Option.ite_none_right_eq_some, Option.some.injEq] at hs
      obtain ⟨_, rfl⟩ := hs
      cases read <;> exact h
  | entityWatch success =>
      cases hpc : s.pc <;> simp only [Session.step, hpc, reduceCtorEq, Option.some.injEq] at hs
      subst hs
      exact h.addEntityWatch
  | commWatch success =>
      cases hpc : s.pc <;> simp only [Session.step, hpc, reduceCtorEq, Option.some.injEq] at hs
      subst hs
      exact h.addCommWatch
  | scheduleRead =>
      cases hpc : s.pc <;> simp only [Session.step, hpc, reduceCtorEq, Option.some.injEq] at hs
      subst hs
      exact h

theorem start_wf (systemId : Option String) : Wf (start systemId) where
  started := Int.one_nonneg
  logNodup := List.nodup_nil
  logRevision := nofun
  lastVer := by simp [start, WatchMaster.init]
  recorded := nofun
  fresh := nofun
  hashed := nofun
  ranges := nofun
  pools := rfl
  serving := nofun

/-- In every run the pools hold exactly what has been filed since the last drain. -/
theorem run_poolsHold {systemId : Option String} {as : List Act} {s : Session}
    (hrun : run step (start systemId) as = some s) : PoolsHold s := by
  have hinv : Wf s ∧ PoolsHold s := by
    refine run_preserves step (I := fun s => Wf s ∧ PoolsHold s) ?_
      ⟨start_wf systemId, nofun⟩ hrun
    rintro s a s' ⟨hwf, h⟩ hs
    exact ⟨hwf.step hs, h.step hwf hs⟩
  exact hinv.2

/-- **No news are lost**: in a run of careful steps, whenever the reader has finished a round with
the entity watch in service and everything delivered, every entity event after the last full read
has been recorded once and in order, or a full read is scheduled. -/
theorem news_recorded (systemId : Option String) (as : List Act) (s : Session)
    (hcare : Meets step Careful (start systemId) as) (hrun : run step (start systemId) as = some s)
    (hs : Settled s) : RecordedOrReread s := by
  have hinv : Wf s ∧ (Exact s ∨ Rereads s) := by
    refine run_invariant step (I := fun s => Wf s ∧ (Exact s ∨ Rereads s)) ?_ hcare
      ⟨start_wf systemId, Or.inr (Or.inr (Or.inr ⟨rfl, rfl⟩))⟩ hrun
    rintro s a s' hok ⟨hwf, h⟩ hs
    exact ⟨hwf.step hs, inv_step hwf hok h hs⟩
  obtain ⟨hpc, _, ⟨id, _⟩, hid, rfl, w, hw, hq⟩ := hs
  obtain ⟨hwf, he | hr⟩ := hinv
  · right
    intro key
    rw [← he.serving id w hid hw, hq, List.filter_nil, List.append_nil]
  · left
    rcases hr with ⟨hnone, _⟩ | (hr | hr | hr) | ⟨_, hf⟩
    · have := (hwf.serving id hid).2.1
      rw [hnone] at this
      cases this
    · rw [hpc] at hr; cases hr
    · rw [hpc] at hr; cases hr
    · rw [hpc] at hr; cases hr
    · exact hf

/-- The first round of the reader: a switch is read and both watches are added. -/
def firstRound : List Act :=
  [.commit [⟨.entityView, .put 2 "tuplenet/entity_view/LS/sw" "id=1"⟩],
    .readEntire (.items [⟨"tuplenet/entity_view/LS/sw", "id=1", 2⟩]),
    .entityWatch true, .commWatch true, .scheduleRead]

/-- A later round of the reader. -/
def laterRound : List Act := [.readIncremental, .entityWatch true, .commWatch true, .scheduleRead]

/-- A switch is delivered, the connection fails, the reader goes on and another switch comes. -/
def resumedRun : List Act :=
  firstRound ++ [.commit [⟨.entityView, .put 3 "tuplenet/entity_view/LS/sw2" "id=2"⟩],
    .deliver 0, .rpcError 0] ++ laterRound ++
    [.commit [⟨.entityView, .put 4 "tuplenet/entity_view/LS/sw3" "id=3"⟩], .deliver 2]

/-- A command for the node is delivered before a switch that is older; then the connection fails and
the reader goes on. -/
def overtakenRun : List Act :=
  firstRound ++ [.commit [⟨.entityView, .put 3 "tuplenet/entity_view/LS/sw2" "id=2"⟩],
    .commit [⟨.commuPush, .put 4 "tuplenet/communicate/push/node/cmd/1" "cmd=pkt_trace"⟩],
    .deliver 1, .rpcError 1] ++ laterRound

theorem news_recorded_resumedRun :
    ∃ s, run step (start (some "node")) resumedRun = some s ∧ RecordedOrReread s := by
  obtain ⟨s, hs⟩ : ∃ s, run step (start (some "node")) resumedRun = some s :=
    Option.isSome_iff_exists.mp (by decide)
  have hsettled : ∀ t ∈ run step (start (some "node")) resumedRun, Settled t := by decide
  exact ⟨s, hs, news_recorded (some "node") resumedRun s (by decide) hs (hsettled s hs)⟩

/-- The new watch begins behind the command, so the switch is never delivered. -/
theorem news_lost_overtakenRun :
    ∃ s, run step (start (some "node")) overtakenRun = some s ∧ Settled s ∧
      ¬ RecordedOrReread s := by
  obtain ⟨s, hs⟩ : ∃ s, run step (start (some "node")) overtakenRun = some s :=
    Option.isSome_iff_exists.mp (by decide)
  have hlost : ∀ t ∈ run step (start (some "node")) overtakenRun, Settled t ∧
      t.wm.readRemoteFunc ≠ .entire ∧
      (recordedNews t).filter (fun e => e.event.key = "tuplenet/entity_view/LS/sw2") ≠
        (news t).filter (fun e => e.event.key = "tuplenet/entity_view/LS/sw2") := by decide
  obtain ⟨hsettled, hf, hkey⟩ := hlost s hs
  exact ⟨s, hs, hsettled, fun h => h.elim hf (fun h => hkey (h _))⟩

end Session

end TupleNet
