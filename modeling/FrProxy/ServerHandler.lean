import FrProxy.ZkClient

/-!
# The periodic check

`ServerHandler::check` scans ZooKeeper through one client of the pool, registers
everything it reads, and then drops from the cache what has an older time stamp
than the scan.
-/

namespace FrProxy

namespace ServerHandler

def root : String :=
  "/soa/services"

variable (env : Env) (depth : Nat)

/-- `RegistryCache::from_file` with the recovery file; each entry gets its own reading of the clock. -/
def fromFile : ZkM PUnit := do
  match env.cacheFile with
  | none => return ()
  | some text =>
      let w <- get
      let now := fun i => env.clock (w.ticks + i) + w.slept
      match Registry.unserialize env.parse (now 0) text with
      | .error stop => throw stop
      | .ok v =>
          modify fun w => {
            w with
            ticks := w.ticks + v.length
            trace := w.trace ++ [.load (RMap.fileEntries now v)]
            cache := w.cache.load (RMap.fileEntries now v) }

def removeOverdue (timestamp : Nat) : ZkM PUnit :=
  modify fun w => {
    w with
    trace := w.trace ++ [.purge timestamp]
    cache := w.cache.removeOverdue timestamp }

/-- The branch of `check` for a client whose own check succeeded. -/
def scan (c : ClientId) : ZkM PUnit := do
  sleepMs 1
  let now <- nowInMs env
  let _ <- ZkClient.getAllServices env (ZkClient.connectZk env depth) c root
  removeOverdue now

/-- The other branch of `check`. -/
def loadIfEmpty : ZkM PUnit := do
  let w <- get
  if w.cache.size = 0 then fromFile env else return ()

def checkWith (c : ClientId) : ZkM PUnit := do
  if <- ZkClient.check env (ZkClient.connectZk env depth) c root then scan env depth c
  else loadIfEmpty env

def check : ZkM PUnit := do
  match <- ZkClient.poolOpen env depth with
  | none => loadIfEmpty env
  | some c =>
      checkWith env depth c
      ZkClient.close c

/-!
## The registration of the proxy
-/

/-- The path of the znode that announces the proxy. -/
def proxyPath (hostname : String) (port : Int) : String :=
  "/soa" ++ "/proxies" ++ "/" ++ (hostname ++ ":" ++ toString port)

def registerWith (hostname : String) (port : Int) (c : ClientId) : ZkM PUnit := do
  if <- ZkClient.getConnected c then
    let _ <- ZkClient.createPnode env (ZkClient.connectZk env depth) c "/soa"
    let _ <- ZkClient.createPnode env (ZkClient.connectZk env depth) c ("/soa" ++ "/proxies")
    let _ <- ZkClient.createEnode env (ZkClient.connectZk env depth) c (proxyPath hostname port) ""
  else log .refused

def registerSelf (hostname : String) (port : Int) : ZkM PUnit := do
  match <- ZkClient.poolOpen env depth with
  | none => log .refused
  | some c =>
      registerWith env depth hostname port c
      ZkClient.close c

end ServerHandler

end FrProxy
