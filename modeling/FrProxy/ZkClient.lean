import FrProxy.Library.Program
import FrProxy.RegistryCache
import FrProxy.ClientPool

/-!
# The ZooKeeper client

The operations of `ZkClient` and what they do to the cache, the pool and the bag
of watch states, one caller at a time.  ZooKeeper, the clock, the recovery file
and the JSON parser are parameters.  Everything that happens is recorded in a
trace, and an answer may depend on everything that happened before.  A C++
string is a string with one character for each byte.
-/

namespace FrProxy

/-!
## ZooKeeper
-/

abbrev zok : Int := 0
abbrev zconnectionloss : Int := -4
abbrev zinvalidstate : Int := -9
abbrev znonode : Int := -101
abbrev znodeexists : Int := -110

structure NodeData where
  data : String := ""
  ctime : Nat := 0
deriving DecidableEq, Repr

/-- The outside world.  The number says how many events happened before. -/
structure Env where
  parse : String -> Option Json
  /-- Whether a session is connected in time. -/
  zookeeperInit : Nat -> Bool
  zooWgetChildren : Nat -> String -> Int × List String
  zooWget : Nat -> String -> Int × NodeData
  zooCreate : Nat -> String -> Int
  zooGet : Nat -> String -> Int
  /-- The millisecond clock at its readings one after the other, without the time slept. -/
  clock : Nat -> Nat
  /-- The recovery file; `none` when it cannot be opened. -/
  cacheFile : Option String

inductive Event where
  /-- An attempt of `zookeeper_init`. -/
  | init (ready : Bool)
  /-- A state was taken over. -/
  | takeOver (key : String)
  /-- `zoo_wget_children`, with the watcher for that type of state. -/
  | children (type : ZkStateType) (path : String) (rc : Int) (nodes : List String)
  /-- `zoo_wget` on the znode of an instance; `mtime`: the clock after it. -/
  | instance_ (service node : String) (rc : Int) (data : NodeData) (mtime : Nat)
  /-- `zoo_create` of an ephemeral znode. -/
  | create (path data : String) (rc : Int)
  /-- `zoo_create` of a permanent znode. -/
  | createPnode (path : String) (rc : Int)
  /-- `zoo_wget` on a znode that was just created. -/
  | watch (path : String)
  | get (path : String) (rc : Int)
  /-- An operation gave up for want of a connection. -/
  | refused
  | sleep
  /-- `remove_overdue`. -/
  | purge (timestamp : Nat)
  /-- `from_file`, with the entries it added. -/
  | load (v : RVector)
deriving DecidableEq

structure World where
  pool : ClientPool
  cache : RegistryCache
  trace : List Event
  /-- How often the clock was read. -/
  ticks : Nat
  /-- Milliseconds spent in `usleep`. -/
  slept : Nat

abbrev ZkM (α : Type) : Type :=
  Program World Stop α

def log (e : Event) : ZkM PUnit :=
  modify fun w => { w with trace := w.trace ++ [e] }

def mapPool (f : ClientPool -> ClientPool) : ZkM PUnit :=
  modify fun w => { w with pool := f w.pool }

def mapBag (f : StateBag -> StateBag) : ZkM PUnit :=
  mapPool fun p => { p with stateBag_ := f p.stateBag_ }

def mapCache (f : RegistryCache -> RegistryCache) : ZkM PUnit :=
  modify fun w => { w with cache := f w.cache }

def nowInMs (env : Env) : ZkM Nat := do
  let w <- get
  modify fun w => { w with ticks := w.ticks + 1 }
  return env.clock w.ticks + w.slept

/-- `usleep` for so many milliseconds. -/
def sleepMs (ms : Nat) : ZkM PUnit := do
  modify fun w => { w with slept := w.slept + ms }
  log .sleep

/-!
## Instance data
-/

/-- The string in a zero-filled buffer of 256 bytes after `zoo_wget` copied the data into it. -/
def cString (data : String) : Except Stop String :=
  let buffer := data.toList.take 256
  if buffer.length = 256 ∧ '\x00' ∉ buffer then .error .overread
  else .ok (String.ofList (buffer.takeWhile fun b => b != '\x00'))

/-- The host and the port in the JSON text of an instance. -/
def serviceEndpoint (root : Option Json) : Except Stop (String × Int) :=
  match root with
  | none => .ok ("", 0)
  | some d => do
      if <- d.hasMember "serviceEndpoint" then
        let v <- d.member "serviceEndpoint"
        if v.isObject then
          if (<- v.hasMember "host") && (<- v.hasMember "port") then
            let host <- (<- v.member "host").getString
            match <- v.member "port" with
            | .int n => return (host, n)
            | .string s => return (host, toInt (atol s))
            | _ => return (host, 0)
          else return ("", 0)
        else return ("", 0)
      else return ("", 0)

def Env.readEndpoint (env : Env) (data : String) : Except Stop (String × Int) := do
  let str <- cString data
  serviceEndpoint (env.parse str)

namespace ZkClient

/-!
## Single calls
-/

def getConnected (c : ClientId) : ZkM Bool := do
  return (<- get).pool.getConnected c

def hasHandle (c : ClientId) : ZkM Bool := do
  return ((<- get).pool.clients c).zhandle_

def saveState (c : ClientId) (type : ZkStateType) (path data : String) : ZkM PUnit :=
  mapBag (·.add { clientId := c, type, path, data })

def removeState (path : String) (type : ZkStateType) : ZkM PUnit :=
  mapBag (·.remove (createKey path type))

def onSessionTimeout (c : ClientId) : ZkM PUnit :=
  mapPool (·.setConnected c false)

section Calls

variable (env : Env) (c : ClientId)

def zooWgetChildren (type : ZkStateType) (path : String) : ZkM (Int × List String) := do
  let w <- get
  let answer :=
    if (w.pool.clients c).zhandle_ then env.zooWgetChildren w.trace.length path
    else (zinvalidstate, [])
  log (.children type path answer.1 answer.2)
  return answer

/-- The read of an instance, with the reading of the clock that its entry gets. -/
def zooWget (service node : String) : ZkM (Int × NodeData × Nat) := do
  let w <- get
  let answer :=
    if (w.pool.clients c).zhandle_ then
      env.zooWget w.trace.length (service ++ "/" ++ node)
    else (zinvalidstate, {})
  let mtime <- nowInMs env
  log (.instance_ service node answer.1 answer.2 mtime)
  return (answer.1, answer.2, mtime)

/-- `zoo_create`, recorded as the event that `record` makes of its return code. -/
def zooCreate (path : String) (record : Int -> Event) : ZkM Int := do
  let w <- get
  let rc :=
    if (w.pool.clients c).zhandle_ then env.zooCreate w.trace.length path else zinvalidstate
  log (record rc)
  return rc

def zooGet (path : String) : ZkM Int := do
  let w <- get
  let rc :=
    if (w.pool.clients c).zhandle_ then env.zooGet w.trace.length path else zinvalidstate
  log (.get path rc)
  return rc

/-- The body of `get_service_instance`, on a client that is connected. -/
def readInstance (service node : String) : ZkM Bool := do
  let (rc, data, mtime) <- zooWget env c service node
  saveState c .getServiceInstance (service ++ "/" ++ node) ""
  if rc = zok then
    match env.readEndpoint data.data with
    | .error stop => throw stop
    | .ok (host, port) =>
        mapCache (·.add {
          name := service, host, port, ctime := data.ctime / 1000, mtime, ephemeral := node })
        return true
  else if rc = znonode then
    removeState service .getServiceInstance
    return false
  else if rc = zinvalidstate then
    onSessionTimeout c
    return false
  else return true

/-- The body of `get_service` up to its loop: the result, and the instances to read. -/
def listService (service : String) : ZkM (Bool × List String) := do
  let (rc, nodes) <- zooWgetChildren env c .getService service
  saveState c .getService service ""
  if rc = zok then
    if nodes.length > 0 then mapCache (·.removeName service)
    return (true, nodes)
  else if rc = znonode then
    removeState service .getService
    return (false, [])
  else if rc = zinvalidstate then
    onSessionTimeout c
    return (false, [])
  else return (false, [])

/-- The body of `get_all_services` up to its loop: the result, and the services to read. -/
def listServices (servicesRoot : String) : ZkM (Bool × List String) := do
  let (rc, nodes) <- zooWgetChildren env c .getRoot servicesRoot
  saveState c .getRoot servicesRoot ""
  if rc = zok then return (true, nodes.map fun node => servicesRoot ++ "/" ++ node)
  else if rc = zinvalidstate then
    onSessionTimeout c
    return (false, [])
  else return (false, [])

def makeEnode (absPath data : String) : ZkM Int := do
  let rc <- zooCreate env c absPath (.create absPath data)
  saveState c .createEphereral absPath data
  if rc = zinvalidstate then onSessionTimeout c
  else if rc = znodeexists then
    mapBag (·.replaceClientIdOf (createKey absPath .createEphereral) 0)
  log (.watch absPath)
  return rc

def makePnode (absPath : String) : ZkM Int := do
  let rc <- zooCreate env c absPath (.createPnode absPath)
  if rc = zinvalidstate then onSessionTimeout c
  return rc

/-- The start of a round in `take_over_states`: the client becomes the owner of the state. -/
def takeOver (ptr : StatePtr) : ZkM ZkState := do
  let w <- get
  match w.pool.stateBag_.deref ptr with
  | none => throw .dangling
  | some state =>
      log (.takeOver ptr.key)
      mapBag (·.replaceClientIdOf ptr.key c)
      return state

/-- The attempts of `connect_zk`, at most so many. -/
def connectLoop : Nat -> ZkM Bool
  | 0 => return false
  | attempts + 1 => do
      let w <- get
      let ready := env.zookeeperInit w.trace.length
      log (.init ready)
      if ready then return true else connectLoop attempts

end Calls

/-!
## Operations

`reconnect` is `connect_zk`, which the operations call when they find the client
disconnected.
-/

/-- `path.substr(0, last)` and `path.substr(last)` for the last slash. -/
def splitPath (path : String) : Option (String × String) :=
  let tail := path.toList.reverse.takeWhile fun ch => ch != '/'
  let init := path.toList.reverse.dropWhile fun ch => ch != '/'
  match init with
  | [] => none
  | slash :: rest =>
      some (String.ofList rest.reverse, String.ofList (slash :: tail.reverse))

section Operations

variable (env : Env) (reconnect : ClientId -> ZkM Bool) (c : ClientId)

/-- The test that each operation starts with. -/
def ready : ZkM Bool := do
  if <- getConnected c then return true
  else
    let _ <- reconnect c
    if (<- getConnected c) && (<- hasHandle c) then return true
    else
      log .refused
      return false

def getServiceInstance (service node : String) : ZkM Bool := do
  if <- ready reconnect c then readInstance env c service node
  else return false

/-- `get_service_instance(path)`. -/
def getServiceInstanceAt (path : String) : ZkM Bool :=
  match splitPath path with
  | none => return true
  | some (service, node) => getServiceInstance env reconnect c service node

def getService (service : String) : ZkM Bool := do
  if <- ready reconnect c then
    let (ret, nodes) <- listService env c service
    nodes.forM fun node => do
      let _ <- getServiceInstance env reconnect c service node
    return ret
  else return false

def getAllServices (servicesRoot : String) : ZkM Bool := do
  if <- ready reconnect c then
    let (ret, list) <- listServices env c servicesRoot
    list.foldlM (fun ret zkpath => do
      if ret then getService env reconnect c zkpath else return false) ret
  else return false

def createPnode (absPath : String) : ZkM Int := do
  if <- ready reconnect c then makePnode env c absPath
  else return zconnectionloss

def createEnode (absPath data : String) : ZkM Int := do
  if <- ready reconnect c then makeEnode env c absPath data
  else return zconnectionloss

/-- The operation that a state stands for. -/
def restore (state : ZkState) : ZkM PUnit := do
  match state.type with
  | .createEphereral =>
      let _ <- createEnode env reconnect c state.path state.data
  | .getService =>
      let _ <- getService env reconnect c state.path
  | .getServiceInstance =>
      let _ <- getServiceInstanceAt env reconnect c state.path
  | .getRoot =>
      let _ <- getAllServices env reconnect c state.path

def takeOverStates (states : List StatePtr) : ZkM PUnit :=
  states.forM fun ptr => do
    let state <- takeOver c ptr
    restore env reconnect c state

def restoreStates : ZkM PUnit := do
  takeOverStates env reconnect c ((<- get).pool.stateBag_.getList c)
  takeOverStates env reconnect c ((<- get).pool.stateBag_.getList 0)

def check (topZkPath : String) : ZkM Bool := do
  if <- ready reconnect c then
    takeOverStates env reconnect c ((<- get).pool.stateBag_.getList 0)
    let rc <- zooGet env c topZkPath
    return decide (rc = zok)
  else return false

end Operations

/-- `connect_zk`, with so many reconnections nested in it at most. -/
def connectZk (env : Env) : Nat -> ClientId -> ZkM Bool
  | 0, _ => throw .depth
  | depth + 1, c => do
      if <- getConnected c then return true
      else
        mapPool (·.setHandle c false)
        if <- connectLoop env 11 then
          mapPool (·.setHandle c true)
          mapPool (·.setConnected c true)
          restoreStates env (connectZk env depth) c
          return true
        else
          mapPool (·.setConnected c false)
          return false

/-!
## Opening and closing
-/

section Pool

variable (env : Env) (depth : Nat)

/-- `ZkClient::open`. -/
def open_ (c : ClientId) : ZkM Bool := do
  if <- getConnected c then return true
  else connectZk env depth c

def close (c : ClientId) : ZkM PUnit := do
  mapPool (·.setInUsing c false)
  mapPool (·.onClientClosing c)

/-- `ClientPool::open`. -/
def poolOpen : ZkM (Option ClientId) := do
  mapPool (·.destroyClients false)
  let now <- nowInMs env
  let w <- get
  mapPool fun p => (p.openSection now).1
  match (w.pool.openSection now).2 with
  | none => return none
  | some c =>
      let now <- nowInMs env
      mapPool (·.stamp c now)
      let _ <- open_ env depth c
      return some c

end Pool

end ZkClient

end FrProxy
