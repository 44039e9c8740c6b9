import FrProxy.Library.Transition
import FrProxy.RegistryCache.Interrupted
import FrProxy.RegistryProxy
import FrProxy.SkipBuffer
import FrProxy.ServerHandler
import FrProxy.Watcher

/-!
# The server as a whole

The state of the handler, its remote calls, the tasks of its thread manager and
the callbacks of ZooKeeper, one after the other.  The thread manager is the list
of the tasks that no worker has taken yet; the task of the scheduler, which
occupies a worker for good, is not in it.
-/

namespace FrProxy

open RegistryProxy (Answer)

/-- `KeepAwakeTask`, `CheckTask`, `SaveTask`, `WarmTask`, `RegisterTask` and `GetServiceTask`. -/
inductive Task where
  | wake
  | check
  | autosave
  | warm
  | registerSelf
  | getService (zkpath : String)
deriving DecidableEq, Repr

structure Host where
  hostname : String
  port : Int
  /-- `threadManager->workerCount()`. -/
  workerCount : Nat
  /-- Whether the recovery file can be opened for writing, by the number of earlier events. -/
  openWrite : Nat -> Bool

structure Server where
  world : World
  skipBuf : SkipBuffer
  /-- The tasks that wait for a worker, the oldest first. -/
  pending : List Task
  /-- The recovery file; `none` when it does not exist. -/
  cacheFile : Option String
  resetting : Bool

abbrev ServerM (α : Type) : Type :=
  Program Server Stop α

namespace ClientPool

def watcherSize (p : ClientPool) : Nat :=
  p.stateBag_.size

end ClientPool

namespace ServerHandler

section World

variable (env : Env) (depth : Nat)

/-!
## The pool
-/

def destroyWaitTimeoutMs : Nat :=
  1000

/-- The loop of `ClientPool::reset`; it stops with `depth` if it takes more rounds. -/
def destroyLoop (start : Nat) : Nat -> ZkM PUnit
  | 0 => throw .depth
  | rounds + 1 => do
      let now <- nowInMs env
      let w <- get
      if ((now : Int) - start) % 2 ^ 64 < destroyWaitTimeoutMs ∧ w.pool.toDestrory_.length > 0 then
        mapPool (·.destroyClients false)
        sleepMs 1
        destroyLoop start rounds
      else return ()

/-- `ClientPool::reset`, which `ClientPool::clear` calls. -/
def resetPool (rounds : Nat) : ZkM PUnit := do
  mapPool (·.resetSection)
  let start <- nowInMs env
  destroyLoop env start rounds
  mapPool (·.destroyClients true)

/-!
## Tasks that work on the world alone
-/

def keepAwake : ZkM PUnit := do
  if (<- get).pool.using_.length = 0 then
    match <- ZkClient.poolOpen env depth with
    | some c => ZkClient.close c
    | none => return ()
  else return ()

/-- `warm`: the file first, then ZooKeeper. -/
def warm : ZkM PUnit := do
  fromFile env
  check env depth

/-- The first bit of `status`: 1 without a client that is connected. -/
def connStatus : ZkM Nat := do
  if (<- get).pool.size = 0 then return 1
  else
    match <- ZkClient.poolOpen env depth with
    | some c =>
        let up <- ZkClient.getConnected c
        ZkClient.close c
        return if up then 0 else 1
    | none => return 1

def threadCount : Nat :=
  3

def status (host : Host) : ZkM Nat := do
  let ret <- connStatus env depth
  let w <- get
  let ret := ret ||| if w.cache.size = 0 then 2 else 0
  let ret := ret ||| if w.pool.watcherSize < 2 then 4 else 0
  return ret ||| if host.workerCount < threadCount then 8 else 0

def statusText (res : Nat) : String :=
  (if res &&& 1 ≠ 0 then "fail to create zk conn; \n" else "")
    ++ (if res &&& 2 ≠ 0 then "none watcher created; \n" else "")
    ++ (if res &&& 4 ≠ 0 then "no service configured; \n" else "")
    ++ (if res &&& 8 ≠ 0 then "unable to create enough thread; \n" else "")

/-- The part of `get_service_from_zk` before its path leaves the buffer. -/
def fetchService (zkpath : String) : ZkM PUnit := do
  match <- ZkClient.poolOpen env depth with
  | some c =>
      let _ <- ZkClient.getService env (ZkClient.connectZk env depth) c zkpath
      ZkClient.close c
  | none => return ()

end World

section Server

variable (host : Host) (env : Env) (depth : Nat)

/-- The outside world with the recovery file as it is now. -/
def envOf (s : Server) : Env :=
  { env with cacheFile := s.cacheFile }

def onWorld {α : Type} (x : Env -> ZkM α) : ServerM α := fun s =>
  match x (envOf env s) s.world with
  | .ok (a, w) => .ok (a, { s with world := w })
  | .error stop => .error stop

/-!
## The thread manager
-/

def pendingTaskCountMax : Nat :=
  100

/-- A task is refused when too many wait. -/
def addTask (task : Task) : ServerM PUnit :=
  modify fun s =>
    if s.pending.length < pendingTaskCountMax then { s with pending := s.pending ++ [task] }
    else s

def asyncGetServiceFromZk (zkpath : String) : ServerM PUnit :=
  addTask (.getService zkpath)

def commitTask (task : Task) : ServerM PUnit :=
  addTask task

/-!
## Remote calls
-/

def servicePath (serviceName : String) : String :=
  root ++ "/" ++ serviceName

/-- `skip_buf->insert(path)`: whether the path is now in the buffer for this call. -/
def skipInsert (path : String) : ServerM Bool := do
  let now <- onWorld env nowInMs
  let s <- get
  modify fun s => { s with skipBuf := (s.skipBuf.insert path (UInt32.ofNat now)).1 }
  return (s.skipBuf.insert path (UInt32.ofNat now)).2

def get_ (serviceName : String) : ServerM String := do
  let path := servicePath serviceName
  let pvector := ((<- get).world.cache.get path).getD []
  if pvector.length = 0 then
    if <- skipInsert env path then
      asyncGetServiceFromZk path
      return ""
    else return ""
  else
    let now <- onWorld env nowInMs
    return Registry.serializeAll (now / 1000) pvector

def remove (_serviceName _host : String) (_port : Int32) : ServerM String :=
  return "not supported now."

/-- `reset`; a call during another one does nothing. -/
def reset (rounds : Nat) : ServerM String := do
  if (<- get).resetting then return ""
  else
    modify fun s => { s with resetting := true }
    onWorld env fun env => resetPool env rounds
    onWorld env fun _ => mapCache (·.clear)
    onWorld env fun env => warm env depth
    let res <- onWorld env fun env => status env depth host
    modify fun s => { s with resetting := false }
    return statusText res

/-!
## Tasks
-/

def getServiceFromZk (zkpath : String) : ServerM PUnit := do
  onWorld env fun env => fetchService env depth zkpath
  modify fun s => { s with skipBuf := s.skipBuf.erase zkpath }

/-- `RegistryCache::save` to the recovery file, with what becomes of the file. -/
def save (write : String -> Option String -> Option String) : ServerM PUnit := do
  let now <- onWorld env nowInMs
  modify fun s =>
    if host.openWrite s.world.trace.length then
      { s with cacheFile := write (s.world.cache.cache.save (now / 1000)) s.cacheFile }
    else s

/-- `SaveTask::dorun`. -/
def autosave (write : String -> Option String -> Option String) : ServerM PUnit := do
  let status <- onWorld env fun env => status env depth host
  if status = 0 then save host env write else return ()

def writeWhole (text : String) (_ : Option String) : Option String :=
  some text

def writeCut (written : Nat) (text : String) (content : Option String) : Option String :=
  FileCache.writePart written text (FileCache.openWrite content)

def runTask : Task -> ServerM PUnit
  | .wake => onWorld env fun env => keepAwake env depth
  | .check => onWorld env fun env => check env depth
  | .autosave => autosave host env depth writeWhole
  | .warm => onWorld env fun env => warm env depth
  | .registerSelf => onWorld env fun env => registerSelf env depth host.hostname host.port
  | .getService zkpath => getServiceFromZk env depth zkpath

def work : ServerM PUnit := do
  match (<- get).pending with
  | [] => return ()
  | task :: rest =>
      modify fun s => { s with pending := rest }
      runTask host env depth task

/-- A worker that takes the autosave, and does not come to the end of the write. -/
def workCut (written : Nat) : ServerM PUnit := do
  match (<- get).pending with
  | .autosave :: rest =>
      modify fun s => { s with pending := rest }
      autosave host env depth (writeCut written)
  | _ => return ()

end Server

/-!
## Runs
-/

/-- The server after it was started, with the world as it finds it. -/
def boot (w : World) (cacheFile : Option String) : Server where
  world := { w with pool := ClientPool.start w.pool.addr, cache := RegistryCache.empty }
  skipBuf := SkipBuffer.ofTimeout 1000
  pending := [.registerSelf, .warm]
  cacheFile := cacheFile
  resetting := false

def start (addr : ClientId -> Nat) (cacheFile : Option String) : Server :=
  boot {
    pool := ClientPool.start addr, cache := RegistryCache.empty, trace := [], ticks := 0,
    slept := 0 } cacheFile

end ServerHandler

inductive ServerAction where
  | get (serviceName : String)
  | remove (serviceName host : String) (port : Int32)
  | reset (rounds : Nat)
  | status
  /-- The scheduler commits a task. -/
  | commit (task : Task)
  /-- A worker runs the oldest task. -/
  | work
  /-- The thread manager drops a fetch that waited for too long. -/
  | expire (zkpath : String)
  /-- ZooKeeper calls a watcher. -/
  | watch (callback : WatchCallback) (type : ZkEventType) (state : Int) (path : Option String)
  /-- The process is killed and started again. -/
  | restart
  /-- The same while a worker saves, with so many characters in the recovery file. -/
  | crash (written : Nat)

namespace ServerHandler

variable (host : Host) (env : Env) (depth : Nat)

/-- What an action does, with the answer to a remote call. -/
def act : ServerAction -> ServerM (Option Answer)
  | .get serviceName => do return some (.text (<- get_ env serviceName))
  | .remove serviceName host port => do return some (.text (<- remove serviceName host port))
  | .reset rounds => do return some (.text (<- reset host env depth rounds))
  | .status => do
      return some (.number (Int32.ofNat (<- onWorld env fun env => status env depth host)))
  | .commit task => do
      commitTask task
      return none
  | .work => do
      work host env depth
      return none
  | .expire zkpath => do
      modify fun s => { s with pending := s.pending.erase (.getService zkpath) }
      return none
  | .watch callback type state path => do
      onWorld env fun env => callback.call env depth type state path
      return none
  | .restart => do
      modify fun s => boot s.world s.cacheFile
      return none
  | .crash written => do
      workCut host env depth written
      modify fun s => boot s.world s.cacheFile
      return none

/-- One action; `none` when the process stops in it. -/
def step (s : Server) (a : ServerAction) : Option Server :=
  match act host env depth a s with
  | .ok (_, s') => some s'
  | .error _ => none

def finalFrom (addr : ClientId -> Nat) (cacheFile : Option String)
    (actions : List ServerAction) : Server :=
  Transition.final (step host env depth) (start addr cacheFile) actions

def runFrom (addr : ClientId -> Nat) (cacheFile : Option String)
    (actions : List ServerAction) : List (Server × ServerAction × Server) :=
  Transition.transitions (step host env depth) (start addr cacheFile) actions

end ServerHandler

end FrProxy
