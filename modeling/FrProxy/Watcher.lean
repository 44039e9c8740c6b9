import FrProxy.ZkClient

/-!
# The watchers

ZooKeeper calls a watcher once for each watch that it was given.  Every watcher
borrows a client of the pool, reads the path again, which sets the next watch,
and closes the client.
-/

namespace FrProxy

/-- The `type` argument of a watcher. -/
inductive ZkEventType where
  | created
  | deleted
  | changed
  | child
  | session
  | notWatching
deriving DecidableEq, Repr

/-- The watchers that read their path again. -/
inductive Watcher where
  | serviceInstance
  | root
  | service
deriving DecidableEq, Repr

namespace Watcher

def stateType : Watcher -> ZkStateType
  | serviceInstance => .getServiceInstance
  | root => .getRoot
  | service => .getService

/-- `path.substr(0, index)` and `path.substr(index + 1)` for the last slash; `npos` wraps around. -/
def splitNode (path : String) : String × String :=
  let tail := path.toList.reverse.takeWhile fun ch => ch != '/'
  match path.toList.reverse.dropWhile fun ch => ch != '/' with
  | [] => (path, path)
  | _ :: rest => (String.ofList rest.reverse, String.ofList tail.reverse)

/-- What a watcher removes from the cache when the znode was deleted. -/
def drop (path : String) : Watcher -> RegistryCache -> RegistryCache
  | serviceInstance, cache => cache.removeEphemeral (splitNode path).1 (splitNode path).2
  | root, cache => cache.removeName path
  | service, cache => cache.removeName path

section Callback

variable (env : Env) (depth : Nat)

def reread (path : String) (c : ClientId) : Watcher -> ZkM Bool
  | serviceInstance =>
      ZkClient.getServiceInstance env (ZkClient.connectZk env depth) c (splitNode path).1
        (splitNode path).2
  | root => ZkClient.getAllServices env (ZkClient.connectZk env depth) c path
  | service => ZkClient.getService env (ZkClient.connectZk env depth) c path

/-- The switch over the type of the event. -/
def onEvent (watcher : Watcher) (type : ZkEventType) (path : String) (c : ClientId) :
    ZkM PUnit := do
  match type with
  | .created | .changed | .child =>
      let _ <- reread env depth path c watcher
  | .deleted =>
      mapCache (drop path watcher)
      ZkClient.removeState path watcher.stateType
  | .session | .notWatching => return ()

/-- The common body of the watchers. -/
def callback (watcher : Watcher) (type : ZkEventType) (path : String) : ZkM PUnit := do
  match <- ZkClient.poolOpen env depth with
  | some c =>
      onEvent env depth watcher type path c
      ZkClient.close c
  | none => mapBag (·.replaceClientIdOf (createKey path watcher.stateType) 0)

def serviceInstanceWatcher : ZkEventType -> String -> ZkM PUnit :=
  callback env depth serviceInstance

def rootWatcher : ZkEventType -> String -> ZkM PUnit :=
  callback env depth root

def serviceWatcher : ZkEventType -> String -> ZkM PUnit :=
  callback env depth service

end Callback

end Watcher

/-!
## All watch callbacks

A callback gets the state of the session too, and a path that may be NULL.
-/

abbrev expiredSessionState : Int := -112

/-- The functions that are registered as watchers. -/
inductive WatchCallback where
  | createEnode
  | reading (watcher : Watcher)
  | global
deriving DecidableEq, Repr

namespace WatchCallback

/-- The watcher that is registered with a state of that type. -/
def ofType : ZkStateType -> WatchCallback
  | .createEphereral => createEnode
  | .getServiceInstance => reading .serviceInstance
  | .getRoot => reading .root
  | .getService => reading .service

section Call

variable (env : Env) (depth : Nat)

/-- `create_enode_watcher` on a path. -/
def recreate (path : String) : ZkM PUnit := do
  match <- ZkClient.poolOpen env depth with
  | some c =>
      let _ <- ZkClient.createEnode env (ZkClient.connectZk env depth) c path ""
      ZkClient.close c
  | none => mapBag (·.replaceClientIdOf (createKey path .createEphereral) 0)

def createEnodeWatcher (type : ZkEventType) (state : Int) (path : Option String) : ZkM PUnit :=
  match path with
  | none => return ()
  | some path =>
      if state = expiredSessionState ∨ type = .deleted then recreate env depth path
      else return ()

def globalWatcher (_type : ZkEventType) (_state : Int) (_path : Option String) : ZkM PUnit :=
  return ()

/-- ZooKeeper calls a watcher. -/
def call (type : ZkEventType) (state : Int) (path : Option String) : WatchCallback -> ZkM PUnit
  | createEnode => createEnodeWatcher env depth type state path
  | reading watcher =>
      match path with
      | none => return ()
      | some path => watcher.callback env depth type path
  | global => globalWatcher type state path

/-- A session expires: its watchers are called one after the other. -/
def expire (path : Option String) (callbacks : List WatchCallback) : ZkM PUnit :=
  callbacks.forM (call env depth .session expiredSessionState path)

end Call

end WatchCallback

end FrProxy
