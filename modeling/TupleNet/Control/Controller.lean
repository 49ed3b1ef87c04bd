import TupleNet.Lib.Dict
import TupleNet.Lib.Txn
import TupleNet.Control.Device
import Mathlib.Data.Finset.Card

/-! # The controller

`Controller.Save` and `Controller.Delete` of `controller.go` as clients of the store: they read the
bitmaps that they need, once each and in the order in which the devices ask for them, and end with
one transaction.  The loop over the Go map of the bitmaps runs in some order, a parameter.

What a key holds is its text, with the device that was written as this text where it is one. -/

namespace TupleNet.Control

open TxnStore

/-- What is stored under a key. -/
structure Stored where
  raw : String
  device : Option Device
deriving DecidableEq, Repr

/-- A device as it is saved. -/
def Stored.ofDevice (dev : Device) : Stored := ⟨marshalTuplenet dev, some dev⟩

/-- A text that is no device. -/
def Stored.ofText (text : String) : Stored := ⟨text, none⟩

/-- How `Save` or `Delete` ends; `panic` is an index out of range in `IPv4ToU32`. -/
inductive Outcome where
  | ok
  | error
  | panic
deriving DecidableEq, Repr

/-- A bitmap in the making and the text that was read. -/
structure MapEntry where
  m : IDMap
  oldVal : String
deriving DecidableEq

/-- The local variables: `idMaps`, `cmps` and `ops`. -/
structure TxnState where
  idMaps : Dict String MapEntry
  cmps : List Cmp
  ops : List (Op Stored)

/-- Nothing read and nothing to do. -/
def TxnState.empty : TxnState := ⟨∅, [], []⟩

/-- The bitmap of a key has been changed. -/
def TxnState.setMap (st : TxnState) (key : String) (e : MapEntry) : TxnState :=
  { st with idMaps := st.idMaps.insert key e }

/-- The client of an etcd that stores `Stored`. -/
abbrev Client := Prog Stored Outcome

section programs
variable (codec : BitmapCodec)

/-- The bitmap of a key: the local copy, or what `getIDMap` reads; a missing key counts as empty. -/
def idMapFor (key : String) (st : TxnState) (next : MapEntry → Client) : Client :=
  match st.idMaps.lookup key with
  | some e => next e
  | none => .get key (fun answer => match answer with
      | none => .ret .error
      | some value => next ⟨codec.fromBase64 (value.getD ""), value.getD ""⟩)

/-! ### Save -/

/-- `allocateID`. -/
def allocateID (st : TxnState) (next : ℕ → TxnState → Client) : Client :=
  idMapFor codec deviceIDsPath st (fun e => match nextID e.m with
    | none => .ret .error
    | some (id, m) => next id (st.setMap deviceIDsPath ⟨m, e.oldVal⟩))

/-- `markIPUsed`. -/
def markIPUsed (key ip : String) (st : TxnState) (next : TxnState → Client) : Client :=
  idMapFor codec key st (fun e => match iPv4ToU32 ip with
    | none => .ret .panic
    | some x => match occupyMasked e.m x with
        | none => .ret .error
        | some m => next (st.setMap key ⟨m, e.oldVal⟩))

/-- The comparison and the put of a device. -/
def TxnState.create (st : TxnState) (dev : Device) : TxnState :=
  { st with
    cmps := st.cmps ++ [.keyMissing dev.path]
    ops := st.ops ++ [.put dev.path (.ofDevice dev)] }

/-- The comparison of `Save` for a bitmap. -/
def saveCmp (x : String × MapEntry) : Cmp :=
  if x.2.oldVal = "" then .keyMissing x.1 else .valueIs x.1 x.2.oldVal

/-- The put of `Save` for a bitmap, if there is one. -/
def saveOps (x : String × MapEntry) : List (Op Stored) :=
  let newVal := codec.toBase64 x.2.m
  if x.2.oldVal = "" ∨ newVal ≠ x.2.oldVal then [.put x.1 (.ofText newVal)] else []

variable (order : List (String × MapEntry) → List (String × MapEntry))

/-- The transaction of `Save`. -/
def saveTxn (st : TxnState) : Txn Stored where
  cmps := st.cmps ++ (order st.idMaps.items).map saveCmp
  ops := st.ops ++ (order st.idMaps.items).flatMap (saveOps codec)

/-- The end of `Save` and `Delete`. -/
def commit (t : Txn Stored) : Client :=
  .txn t (fun answer => match answer with
    | .succeeded => .ret .ok
    | _ => .ret .error)

/-- The loop of `Save` over the devices. -/
def saveLoop : List Device → TxnState → Client
  | [], st => commit (saveTxn codec order st)
  | .switch s :: devs, st =>
      if s.id = 0 then
        allocateID codec st (fun id st => saveLoop devs (st.create (.switch { s with id := id })))
      else saveLoop devs (st.create (.switch s))
  | .router r :: devs, st =>
      if r.id = 0 then
        allocateID codec st (fun id st => saveLoop devs (st.create (.router { r with id := id })))
      else saveLoop devs (st.create (.router r))
  | .switchPort p :: devs, st =>
      markIPUsed codec (switchIPBookPath p.owner) p.ip st
        (fun st => saveLoop devs (st.create (.switchPort p)))
  | .routerPort p :: devs, st =>
      markIPUsed codec (routerIPBookPath p.owner) p.ip st
        (fun st => saveLoop devs (st.create (.routerPort p)))
  | .chassis c :: devs, st => saveLoop devs (st.create (.chassis c))
  | .staticRoute r :: devs, st => saveLoop devs (st.create (.staticRoute r))
  | .nat n :: devs, st => saveLoop devs (st.create (.nat n))

/-- `Controller.Save`. -/
def save (devs : List Device) : Client := saveLoop codec order devs .empty

/-! ### Delete -/

/-- `returnID`. -/
def returnID (id : ℕ) (st : TxnState) (next : TxnState → Client) : Client :=
  idMapFor codec deviceIDsPath st (fun e =>
    next (st.setMap deviceIDsPath ⟨e.m.erase id, e.oldVal⟩))

/-- `returnIP`. -/
def returnIP (key ip : String) (st : TxnState) (next : TxnState → Client) : Client :=
  idMapFor codec key st (fun e => match iPv4ToU32 ip with
    | none => .ret .panic
    | some x => next (st.setMap key ⟨returnMasked e.m x, e.oldVal⟩))

/-- The comparison and the deletes of a key. -/
def TxnState.remove (st : TxnState) (recursive : Bool) (key : String) : TxnState :=
  { st with
    cmps := st.cmps ++ [.keyExists key]
    ops := st.ops ++ (if recursive then [.deletePrefix (key ++ "/")] else []) ++ [.delete key] }

/-- The operations of `Delete` for a bitmap. -/
def deleteOps (x : String × MapEntry) : List (Op Stored) :=
  if x.2.m.card = 0 then [.delete x.1]
  else if codec.toBase64 x.2.m ≠ x.2.oldVal then [.put x.1 (.ofText (codec.toBase64 x.2.m))]
  else []

/-- The transaction of `Delete`. -/
def deleteTxn (st : TxnState) : Txn Stored where
  cmps := st.cmps ++ (order st.idMaps.items).map (fun x => .valueIs x.1 x.2.oldVal)
  ops := st.ops ++ (order st.idMaps.items).flatMap (deleteOps codec)

/-- The keys of a switch or a router: its own and, recursively, its ip book. -/
def ownKeys (recursive : Bool) (path bookPath : String) : List String :=
  path :: if recursive then [bookPath] else []

/-- The loop of `Delete` over the devices. -/
def deleteLoop (recursive : Bool) : List Device → TxnState → Client
  | [], st => commit (deleteTxn codec order st)
  | dev :: devs, st =>
      let goOn (keys : List String) (st : TxnState) : Client :=
        deleteLoop recursive devs (keys.foldl (fun st key => st.remove recursive key) st)
      match dev with
      | .switch s =>
          returnID codec s.id st
            (goOn (ownKeys recursive (switchPath s.name) (switchIPBookPath s.name)))
      | .router r =>
          returnID codec r.id st
            (goOn (ownKeys recursive (routerPath r.name) (routerIPBookPath r.name)))
      | .switchPort p => returnIP codec (switchIPBookPath p.owner) p.ip st (goOn [dev.path])
      | .routerPort p => returnIP codec (routerIPBookPath p.owner) p.ip st (goOn [dev.path])
      | .chassis _ => goOn [dev.path] st
      | .staticRoute _ => goOn [dev.path] st
      | .nat _ => goOn [dev.path] st

/-- `Controller.Delete`. -/
def delete (recursive : Bool) (devs : List Device) : Client :=
  deleteLoop codec order recursive devs .empty

end programs

/-! ### Both commit once and report an error only when nothing was committed -/

section oneCommit
variable {codec : BitmapCodec} {order : List (String × MapEntry) → List (String × MapEntry)}

theorem idMapFor_oneCommit {key : String} {st : TxnState} {next : MapEntry → Client}
    (h : ∀ e, (next e).OneCommit (· = .ok)) : (idMapFor codec key st next).OneCommit (· = .ok) := by
  unfold idMapFor
  split
  · exact h _
  · intro answer
    cases answer with
    | none => trivial
    | some value => exact h _

theorem commit_oneCommit (t : Txn Stored) : (commit t).OneCommit (· = .ok) :=
  ⟨⟨.ok, rfl, rfl⟩, trivial, trivial⟩

theorem allocateID_oneCommit {st : TxnState} {next : ℕ → TxnState → Client}
    (h : ∀ id st, (next id st).OneCommit (· = .ok)) :
    (allocateID codec st next).OneCommit (· = .ok) := by
  refine idMapFor_oneCommit fun e => ?_
  split
  · trivial
  · exact h _ _

theorem markIPUsed_oneCommit {key ip : String} {st : TxnState} {next : TxnState → Client}
    (h : ∀ st, (next st).OneCommit (· = .ok)) :
    (markIPUsed codec key ip st next).OneCommit (· = .ok) := by
  refine idMapFor_oneCommit fun e => ?_
  split
  · trivial
  · split
    · trivial
    · exact h _

theorem save_oneCommit (devs : List Device) : (save codec order devs).OneCommit (· = .ok) := by
  unfold save
  generalize TxnState.empty = st
  induction devs generalizing st with
  | nil => exact commit_oneCommit _
  | cons dev devs ih =>
      cases dev with
      | switch s =>
          rw [saveLoop]
          split_ifs
          · exact allocateID_oneCommit fun id st => ih _
          · exact ih _
      | router r =>
          rw [saveLoop]
          split_ifs
          · exact allocateID_oneCommit fun id st => ih _
          · exact ih _
      | switchPort p => exact markIPUsed_oneCommit fun st => ih _
      | routerPort p => exact markIPUsed_oneCommit fun st => ih _
      | chassis c => exact ih _
      | staticRoute r => exact ih _
      | nat n => exact ih _

end oneCommit

end TupleNet.Control
