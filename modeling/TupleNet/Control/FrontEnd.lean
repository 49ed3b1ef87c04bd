import TupleNet.Lib.Range
import TupleNet.Control.AddRequest
import TupleNet.Control.Controller

/-! # The front ends

The commands of tpctl and the handlers of the HTTP API as clients of etcd: they read the owner or
the device by its key, list what lies below it where they delete, and call `Save` or `Delete`.  A
command of tpctl connects first, which writes a missing bitmap of ids and the version (`connect`);
the API is connected once.  Nothing that they have read is compared by the transaction in the end
but the keys and the bitmaps that `Save` and `Delete` themselves compare. -/

namespace TupleNet.Control

open TxnStore

/-- A command or a handler. -/
abbrev FrontEnd := RangeProg Stored Outcome

/-- `getKV` where a missing key ends the command. -/
def getKV (key : String) (next : String → FrontEnd) : FrontEnd :=
  .get key (fun answer => match answer with
    | some (some text) => next text
    | _ => .ret .error)

/-- `getKVs`: the names and texts of a listing. -/
def getKVs (l : Listing) (next : List (String × String) → FrontEnd) : FrontEnd :=
  .range l.path (fun answer => match answer with
    | some kvs => next (kvs.filterMap (fun kv =>
        (nameIn l.path kv.1).map (fun name => (name, kv.2))))
    | none => .ret .error)

/-- Read keys one after another, all of which have to be there. -/
def getAll : List String → FrontEnd → FrontEnd
  | [], next => next
  | key :: keys, next => getKV key (fun _ => getAll keys next)

/-- Go on unless a key is there already; `found` is what happens then. -/
def unlessFound (found : FrontEnd) : List String → FrontEnd → FrontEnd
  | [], next => next
  | key :: keys, next => .get key (fun answer => match answer with
      | some none => unlessFound found keys next
      | some (some _) => found
      | none => .ret .error)

/-- Read keys one after another, whether they are there or not. -/
def readEach : List String → FrontEnd → FrontEnd
  | [], next => next
  | key :: keys, next => .get key (fun answer => match answer with
      | some _ => readEach keys next
      | none => .ret .error)

/-! ### Connecting -/

/-- The struct with a name that a listing fills. -/
def Listing.struct : Listing → String → Device
  | getSwitches, name => .switch ⟨name, 0⟩
  | getSwitchPorts s, name => .switchPort ⟨s, name, "", "", "", ""⟩
  | getRouters, name => .router ⟨name, 0, ""⟩
  | getRouterPorts r, name => .routerPort ⟨r, name, "", 0, "", ""⟩
  | getRouterStaticRoutes r, name => .staticRoute ⟨r, name, "", 0, "", ""⟩
  | getRouterNATs r, name => .nat ⟨r, name, "", 0, "", ""⟩
  | getChassises, name => .chassis ⟨name, "", 0⟩

/-- The id of a switch or a router. -/
def Device.id : Device → ℕ
  | switch s => s.id
  | router r => r.id
  | _ => 0

/-- `Occupy` for each device after `Clear`. -/
def occupyIDs (devs : List Device) : IDMap := devs.foldl (fun m dev => insert dev.id m) ∅

/-- Put a text if the comparison holds, and go on if it has been put. -/
def putThen (c : Cmp) (key text : String) (next : FrontEnd) : FrontEnd :=
  .txn ⟨[c], [.put key (.ofText text)]⟩ (fun answer => match answer with
    | .succeeded => next
    | _ => .ret .error)

/-- The devices that a listing gives. -/
def Listing.devices (l : Listing) (kvs : List (String × String)) : List Device :=
  kvs.map (fun kv => unmarshalTuplenet kv.2 (l.struct kv.1))

/-- `SyncDeviceID(false)`: a bitmap of ids that is missing or empty is made of the ids of the
routers and the switches. -/
def syncDeviceID (codec : BitmapCodec) (next : FrontEnd) : FrontEnd :=
  .get deviceIDsPath (fun answer => match answer with
    | none => .ret .error
    | some value =>
        if value.getD "" ≠ "" then next
        else getKVs .getRouters (fun routers => getKVs .getSwitches (fun switches =>
          putThen (.keyMissing deviceIDsPath) deviceIDsPath (codec.toBase64 (occupyIDs
            (Listing.getRouters.devices routers ++ Listing.getSwitches.devices switches))) next)))

/-- `versionPath` and `currentVersion`. -/
def versionPath : String := "/globals/version"
def currentVersion : String := "1"

/-- The version check of `NewController`: a missing or lower version is overwritten, a higher one is
an error. -/
def checkVersion (next : FrontEnd) : FrontEnd :=
  .get versionPath (fun answer => match answer with
    | none => .ret .error
    | some none => putThen (.keyMissing versionPath) versionPath currentVersion next
    | some (some v) =>
        if currentVersion < v then .ret .error
        else if v < currentVersion then
          putThen (.valueIs versionPath v) versionPath currentVersion next
        else next)

/-- `checkArgsThenConnect`, with which the commands of tpctl begin: `NewController` on a database
that can be reached. -/
def connect (codec : BitmapCodec) (next : FrontEnd) : FrontEnd :=
  syncDeviceID codec (checkVersion next)

section programs
variable (codec : BitmapCodec) (order : List (String × MapEntry) → List (String × MapEntry))

/-! ### Adding -/

/-- The keys that a command reads because they own what it adds. -/
def Tpctl.AddCommand.ownerKeys : AddCommand → List String
  | switch _ => []
  | router _ _ => []
  | switchPort switchName _ _ _ _ => [switchPath switchName]
  | patchPort switchName _ _ _ => [switchPath switchName]
  | routerPort routerName _ _ _ _ => [routerPath routerName]
  | staticRoute routerName _ _ _ _ => [routerPath routerName]
  | nat routerName _ _ _ _ => [routerPath routerName]
  | link routerName switchName _ => [routerPath routerName, switchPath switchName]

/-- An add command of tpctl; it fails when a port, a route or a NAT rule exists already. -/
def Tpctl.AddCommand.prog (cmd : AddCommand) : FrontEnd :=
  connect codec (match cmd.devices with
    | none => .ret .error
    | some devs =>
        getAll cmd.ownerKeys
          (unlessFound (.ret .error) ((devs.filter (fun dev => dev.owner?.isSome)).map Device.path)
            (.ofProg (save codec order devs))))

/-- The key of the owner. -/
def Api.AddRequest.ownerKeys : AddRequest → List String
  | switch _ => []
  | route _ _ => []
  | switchPort switchName _ _ _ _ => [switchPath switchName]
  | patchPort switchName _ _ _ => [switchPath switchName]
  | routerPort routeName _ _ _ _ => [routerPath routeName]
  | staticRoute routerName _ _ _ _ => [routerPath routerName]
  | nat routeName _ _ _ _ => [routerPath routeName]

/-- What a handler does when the record exists already: `AddPatchPort` and `AddNAT` report success,
the others go on and leave it to `Save`. -/
def Api.AddRequest.whenFound (req : AddRequest) (next : FrontEnd) : FrontEnd :=
  match req with
  | patchPort .. => .ret .ok
  | nat .. => .ret .ok
  | _ => next

/-- An add handler of the API. -/
def Api.AddRequest.prog (req : AddRequest) : FrontEnd :=
  match req.device with
  | none => .ret .error
  | some dev =>
      let next : FrontEnd := .ofProg (save codec order [dev])
      getAll req.ownerKeys
        (unlessFound (req.whenFound next) (if dev.owner?.isSome then [dev.path] else []) next)

/-- `LinkSwitch` of the API; it reads the ports and leaves those that exist to `Save`. -/
def Api.linkSwitchProg (route switchName cidr : String) : FrontEnd :=
  match Api.linkSwitch route switchName cidr with
  | none => .ret .error
  | some devs =>
      getAll [routerPath route, switchPath switchName]
        (readEach (devs.map Device.path) (.ofProg (save codec order devs)))

/-! ### Deleting -/

/-- The branches of a delete command: a device in use is deleted recursively or not at all. -/
def deleteDevice (used recursive : Bool) (dev : Device) : FrontEnd :=
  if used then
    if recursive then .ofProg (delete codec order true [dev]) else .ret .error
  else .ofProg (delete codec order false [dev])

/-- What the deletes of a switch have in common. -/
def deleteSwitch (name : String) (recursive : Bool) : FrontEnd :=
  getKV (switchPath name) (fun text =>
    getKVs (.getSwitchPorts name) (fun ports =>
      deleteDevice codec order (ports ≠ []) recursive (unmarshalTuplenet text (.switch ⟨name, 0⟩))))

/-- What the deletes of a router have in common. -/
def deleteRouter (name : String) (recursive : Bool) : FrontEnd :=
  getKV (routerPath name) (fun text =>
    getKVs (.getRouterPorts name) (fun ports =>
      getKVs (.getRouterStaticRoutes name) (fun srs =>
        deleteDevice codec order (ports ≠ [] ∨ srs ≠ []) recursive
          (unmarshalTuplenet text (.router ⟨name, 0, ""⟩)))))

/-- `delSwitch` of tpctl. -/
def delSwitch (name : String) (recursive : Bool) : FrontEnd :=
  connect codec (deleteSwitch codec order name recursive)

/-- `delRouter` of tpctl. -/
def delRouter (name : String) (recursive : Bool) : FrontEnd :=
  connect codec (deleteRouter codec order name recursive)

/-- `DelSwitch` of the API, which has been connected since it was started. -/
def Api.delSwitch (name : String) (recursive : Bool) : FrontEnd :=
  if checkNilParam [name] then .ret .error else deleteSwitch codec order name recursive

/-- `DelRouter` of the API. -/
def Api.delRouter (name : String) (recursive : Bool) : FrontEnd :=
  if checkNilParam [name] then .ret .error else deleteRouter codec order name recursive

/-- A delete command. -/
inductive DelCommand where
  | tpctlSwitch (name : String)
  | tpctlRouter (name : String)
  | apiSwitch (name : String)
  | apiRouter (name : String)
deriving DecidableEq, Repr

namespace DelCommand

def prog (recursive : Bool) : DelCommand → FrontEnd
  | tpctlSwitch name => delSwitch codec order name recursive
  | tpctlRouter name => delRouter codec order name recursive
  | apiSwitch name => Api.delSwitch codec order name recursive
  | apiRouter name => Api.delRouter codec order name recursive

/-- The key of the device. -/
def path : DelCommand → String
  | tpctlSwitch name => switchPath name
  | tpctlRouter name => routerPath name
  | apiSwitch name => switchPath name
  | apiRouter name => routerPath name

/-- The listings that decide whether the device is in use. -/
def listings : DelCommand → List Listing
  | tpctlSwitch name => [.getSwitchPorts name]
  | tpctlRouter name => [.getRouterPorts name, .getRouterStaticRoutes name]
  | apiSwitch name => [.getSwitchPorts name]
  | apiRouter name => [.getRouterPorts name, .getRouterStaticRoutes name]

/-- The delete without its preliminaries. -/
def body (recursive : Bool) : DelCommand → FrontEnd
  | tpctlSwitch name => deleteSwitch codec order name recursive
  | tpctlRouter name => deleteRouter codec order name recursive
  | apiSwitch name => deleteSwitch codec order name recursive
  | apiRouter name => deleteRouter codec order name recursive

/-- The API refuses an empty name. -/
def Refused : DelCommand → Prop
  | apiSwitch name => name = ""
  | apiRouter name => name = ""
  | _ => False

instance : DecidablePred Refused := fun cmd => by
  cases cmd <;> unfold Refused <;> infer_instance

/-- The device with the fields of a text. -/
def device (text : String) : DelCommand → Device
  | tpctlSwitch name => unmarshalTuplenet text (.switch ⟨name, 0⟩)
  | tpctlRouter name => unmarshalTuplenet text (.router ⟨name, 0, ""⟩)
  | apiSwitch name => unmarshalTuplenet text (.switch ⟨name, 0⟩)
  | apiRouter name => unmarshalTuplenet text (.router ⟨name, 0, ""⟩)

end DelCommand

end programs

end TupleNet.Control
