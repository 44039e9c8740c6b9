import FrProxy.ZkClient

/-!
# What an operation does, event by event

Each event has one effect on the cache and one on the pool.  An operation of a
client is a sequence of such events, and of changes to the session of the
client.
-/

namespace FrProxy

namespace Event

def onCache (env : Env) : Event -> RegistryCache -> RegistryCache
  | .children .getService path rc nodes, cache =>
      if rc = zok ∧ nodes.length > 0 then cache.removeName path else cache
  | .instance_ service node rc data mtime, cache =>
      if rc = zok then
        match env.readEndpoint data.data with
        | .error _ => cache
        | .ok (host, port) =>
            cache.add {
              name := service, host, port, ctime := data.ctime / 1000, mtime, ephemeral := node }
      else cache
  | .purge timestamp, cache => cache.removeOverdue timestamp
  | .load v, cache => cache.load v
  | _, cache => cache

def onBag (c : ClientId) : Event -> StateBag -> StateBag
  | .takeOver key, bag => bag.replaceClientIdOf key c
  | .children type path rc _, bag =>
      let bag := bag.add { clientId := c, type, path, data := "" }
      if type = .getService ∧ rc = znonode then bag.remove (createKey path .getService)
      else bag
  | .instance_ service node rc _ _, bag =>
      let bag := bag.add {
        clientId := c, type := .getServiceInstance, path := service ++ "/" ++ node, data := "" }
      if rc = znonode then bag.remove (createKey service .getServiceInstance) else bag
  | .create path data rc, bag =>
      let bag := bag.add { clientId := c, type := .createEphereral, path, data }
      if rc = znodeexists then bag.replaceClientIdOf (createKey path .createEphereral) 0
      else bag
  | _, bag => bag

/-- The return code of a call after which the client knows that its session is gone. -/
def rc : Event -> Int
  | .children _ _ rc _ => rc
  | .instance_ _ _ rc _ _ => rc
  | .create _ _ rc => rc
  | .createPnode _ rc => rc
  | _ => zok

def onPool (c : ClientId) (e : Event) (p : ClientPool) : ClientPool :=
  let p := { p with stateBag_ := e.onBag c p.stateBag_ }
  if e.rc = zinvalidstate then p.setConnected c false else p

end Event

/-- What happened between two worlds. -/
def happened (w w' : World) : List Event :=
  w'.trace.drop w.trace.length

theorem happened_of_append {w w' : World} {events : List Event}
    (h : w'.trace = w.trace ++ events) : happened w w' = events := by
  unfold happened
  rw [h, List.drop_left]

/-- One event of client `c` leads from one world to the other. -/
structure Records (env : Env) (c : ClientId) (e : Event) (w w' : World) : Prop where
  trace : w'.trace = w.trace ++ [e]
  cache : w'.cache = e.onCache env w.cache
  pool : w'.pool = e.onPool c w.pool

theorem Event.onPool_stateBag_ (c : ClientId) (e : Event) (p : ClientPool) :
    (e.onPool c p).stateBag_ = e.onBag c p.stateBag_ := by
  unfold onPool
  dsimp only
  split
  · rfl
  · rfl

theorem Event.getConnected_onPool (c : ClientId) (e : Event) (p : ClientPool) :
    (e.onPool c p).getConnected c = (decide (e.rc ≠ zinvalidstate) && p.getConnected c) := by
  unfold onPool
  by_cases hstate : e.rc = zinvalidstate
  · simp [hstate, ClientPool.getConnected, ClientPool.setConnected, ClientPool.updateClient]
  · simp [hstate, ClientPool.getConnected]

theorem Records.bag {env : Env} {c : ClientId} {e : Event} {w w' : World}
    (h : Records env c e w w') : w'.pool.stateBag_ = e.onBag c w.pool.stateBag_ := by
  rw [h.pool, e.onPool_stateBag_ c]

/-- A client takes over only states that are in the bag. -/
def Event.Enabled (bag : StateBag) : Event -> Prop
  | .takeOver key => exists s, bag.get key = some s
  | _ => True

/-- The moves that the operations of client `c` are made of. -/
inductive ClientMove (env : Env) (c : ClientId) : World -> World -> Prop where
  | event {w w' : World} (e : Event) (h : Records env c e w w')
      (henabled : e.Enabled w.pool.stateBag_) : ClientMove env c w w'
  /-- A disconnected client drops its session handle. -/
  | hangUp (w : World) (h : w.pool.getConnected c = false) :
      ClientMove env c w { w with pool := w.pool.setHandle c false }
  | attach (w : World) : ClientMove env c w { w with pool := w.pool.setHandle c true }
  /-- Only a client with a session handle counts as connected. -/
  | connect (w : World) (h : (w.pool.clients c).zhandle_ = true) :
      ClientMove env c w { w with pool := w.pool.setConnected c true }
  | disconnect (w : World) :
      ClientMove env c w { w with pool := w.pool.setConnected c false }

namespace ZkClient

open Program

/-!
## Single calls
-/

section Calls

variable {env : Env} {c : ClientId}

theorem records_of_log {e : Event} {w : World}
    (hcache : e.onCache env w.cache = w.cache) (hpool : e.onPool c w.pool = w.pool) :
    Records env c e w { w with trace := w.trace ++ [e] } where
  trace := rfl
  cache := hcache.symm
  pool := hpool.symm

theorem log_steps {e : Event} (henabled : forall bag, e.Enabled bag)
    (hcache : forall cache, e.onCache env cache = cache)
    (hpool : forall p, e.onPool c p = p) : Steps (ClientMove env c) (log e) := by
  intro w a w' hrun
  rw [modify_ok.mp hrun]
  exact Relation.ReflTransGen.single
    (ClientMove.event e (records_of_log (hcache w.cache) (hpool w.pool)) (henabled _))

theorem readInstance_records {service node : String} {w w' : World} {b : Bool}
    (hrun : readInstance env c service node w = Except.ok (b, w')) :
    exists rc data mtime, Records env c (.instance_ service node rc data mtime) w w' := by
  simp only [readInstance, zooWget, nowInMs, log, saveState, mapBag, mapPool, mapCache,
    removeState, onSessionTimeout, bind_assoc, get_bind_run, modify_bind_run, pure_bind,
    ite_run, pure_run] at hrun
  generalize (if (w.pool.clients c).zhandle_ = true then
    env.zooWget w.trace.length (service ++ "/" ++ node) else (zinvalidstate, {})) = answer at hrun
  refine ⟨answer.1, answer.2, env.clock w.ticks + w.slept, ?_⟩
  by_cases hok : answer.1 = zok
  · rw [if_pos hok] at hrun
    cases hread : env.readEndpoint answer.2.data with
    | error stop =>
        rw [hread] at hrun
        cases hrun
    | ok endpoint =>
        rw [hread] at hrun
        cases hrun
        constructor
        · rfl
        · simp [Event.onCache, hok, hread]
        · simp [Event.onPool, Event.onBag, Event.rc, hok, zok, znonode, zinvalidstate]
  · rw [if_neg hok] at hrun
    by_cases hnone : answer.1 = znonode
    · rw [if_pos hnone] at hrun
      cases hrun
      constructor
      · rfl
      · simp [Event.onCache, hok]
      · simp [Event.onPool, Event.onBag, Event.rc, hnone, znonode, zinvalidstate]
    · rw [if_neg hnone] at hrun
      by_cases hstate : answer.1 = zinvalidstate
      · rw [if_pos hstate] at hrun
        cases hrun
        constructor
        · rfl
        · simp [Event.onCache, hok]
        · simp [Event.onPool, Event.onBag, Event.rc, hstate, znonode, zinvalidstate]
      · rw [if_neg hstate] at hrun
        cases hrun
        constructor
        · rfl
        · simp [Event.onCache, hok]
        · simp [Event.onPool, Event.onBag, Event.rc, hnone, hstate]

theorem listService_records {service : String} {w w' : World} {a : Bool × List String}
    (hrun : listService env c service w = Except.ok (a, w')) :
    exists rc nodes, Records env c (.children .getService service rc nodes) w w' ∧
      (rc ≠ zok -> a.2 = []) := by
  simp only [listService, zooWgetChildren, log, saveState, mapBag, mapPool, mapCache,
    removeState, onSessionTimeout, bind_assoc, get_bind_run, modify_bind_run, pure_bind,
    ite_run, pure_run] at hrun
  generalize (if (w.pool.clients c).zhandle_ = true then
    env.zooWgetChildren w.trace.length service else (zinvalidstate, [])) = answer at hrun
  refine ⟨answer.1, answer.2, ?_⟩
  by_cases hok : answer.1 = zok
  · rw [if_pos hok] at hrun
    by_cases hnodes : answer.2.length > 0
    · rw [if_pos hnodes] at hrun
      cases hrun
      constructor
      · constructor
        · rfl
        · simp [Event.onCache, hok, hnodes]
        · simp [Event.onPool, Event.onBag, Event.rc, hok, zok, znonode, zinvalidstate]
      · exact fun hne => absurd hok hne
    · rw [if_neg hnodes] at hrun
      cases hrun
      constructor
      · constructor
        · rfl
        · simp [Event.onCache, hnodes]
        · simp [Event.onPool, Event.onBag, Event.rc, hok, zok, znonode, zinvalidstate]
      · exact fun hne => absurd hok hne
  · rw [if_neg hok] at hrun
    by_cases hnone : answer.1 = znonode
    · rw [if_pos hnone] at hrun
      cases hrun
      constructor
      · constructor
        · rfl
        · simp [Event.onCache, hok]
        · simp [Event.onPool, Event.onBag, Event.rc, hnone, znonode, zinvalidstate]
      · exact fun _ => rfl
    · rw [if_neg hnone] at hrun
      by_cases hstate : answer.1 = zinvalidstate
      · rw [if_pos hstate] at hrun
        cases hrun
        constructor
        · constructor
          · rfl
          · simp [Event.onCache, hok]
          · simp [Event.onPool, Event.onBag, Event.rc, hstate, znonode, zinvalidstate]
        · exact fun _ => rfl
      · rw [if_neg hstate] at hrun
        cases hrun
        constructor
        · constructor
          · rfl
          · simp [Event.onCache, hok]
          · simp [Event.onPool, Event.onBag, Event.rc, hnone, hstate]
        · exact fun _ => rfl

theorem listServices_records {servicesRoot : String} {w w' : World}
    {a : Bool × List String}
    (hrun : listServices env c servicesRoot w = Except.ok (a, w')) :
    exists rc nodes, Records env c (.children .getRoot servicesRoot rc nodes) w w' ∧
      (rc ≠ zok -> a.2 = []) := by
  simp only [listServices, zooWgetChildren, log, saveState, mapBag, mapPool,
    onSessionTimeout, bind_assoc, get_bind_run, modify_bind_run, pure_bind, ite_run,
    pure_run] at hrun
  generalize (if (w.pool.clients c).zhandle_ = true then
    env.zooWgetChildren w.trace.length servicesRoot else (zinvalidstate, [])) = answer at hrun
  refine ⟨answer.1, answer.2, ?_⟩
  by_cases hok : answer.1 = zok
  · rw [if_pos hok] at hrun
    cases hrun
    constructor
    · constructor
      · rfl
      · simp [Event.onCache]
      · simp [Event.onPool, Event.onBag, Event.rc, hok, zok, zinvalidstate]
    · exact fun hne => absurd hok hne
  · rw [if_neg hok] at hrun
    by_cases hstate : answer.1 = zinvalidstate
    · rw [if_pos hstate] at hrun
      cases hrun
      constructor
      · constructor
        · rfl
        · simp [Event.onCache]
        · simp [Event.onPool, Event.onBag, Event.rc, hstate]
      · exact fun _ => rfl
    · rw [if_neg hstate] at hrun
      cases hrun
      constructor
      · constructor
        · rfl
        · simp [Event.onCache]
        · simp [Event.onPool, Event.onBag, Event.rc, hstate]
      · exact fun _ => rfl

theorem takeOver_records {ptr : StatePtr} {w w' : World} {state : ZkState}
    (hrun : takeOver c ptr w = Except.ok (state, w')) :
    Records env c (.takeOver ptr.key) w w' ∧
      w.pool.stateBag_.deref ptr = some state := by
  simp only [takeOver, get_bind_run] at hrun
  cases hderef : w.pool.stateBag_.deref ptr with
  | none =>
      rw [hderef] at hrun
      cases hrun
  | some s =>
      rw [hderef] at hrun
      cases hrun
      exact ⟨⟨rfl, rfl, rfl⟩, rfl⟩

/-!
## The calls as sequences of moves
-/

theorem steps_of_records {α : Type} {x : ZkM α}
    (h : forall w a w', x w = Except.ok (a, w') ->
      exists e, Records env c e w w' ∧ e.Enabled w.pool.stateBag_) :
    Steps (ClientMove env c) x := by
  intro w a w' hrun
  rcases h w a w' hrun with ⟨e, he, henabled⟩
  exact Relation.ReflTransGen.single (ClientMove.event e he henabled)

theorem readInstance_steps (service node : String) :
    Steps (ClientMove env c) (readInstance env c service node) := by
  apply steps_of_records
  intro w a w' hrun
  rcases readInstance_records hrun with ⟨rc, data, mtime, h⟩
  exact ⟨_, h, trivial⟩

theorem listService_steps (service : String) :
    Steps (ClientMove env c) (listService env c service) := by
  apply steps_of_records
  intro w a w' hrun
  rcases listService_records hrun with ⟨rc, nodes, h, _⟩
  exact ⟨_, h, trivial⟩

theorem listServices_steps (servicesRoot : String) :
    Steps (ClientMove env c) (listServices env c servicesRoot) := by
  apply steps_of_records
  intro w a w' hrun
  rcases listServices_records hrun with ⟨rc, nodes, h, _⟩
  exact ⟨_, h, trivial⟩

theorem takeOver_steps (ptr : StatePtr) : Steps (ClientMove env c) (takeOver c ptr) := by
  apply steps_of_records
  intro w a w' hrun
  rcases takeOver_records hrun with ⟨h, hderef⟩
  exact ⟨_, h, ⟨a, StateBag.get_of_deref hderef⟩⟩

theorem zooGet_records {path : String} {w w' : World} {rc : Int}
    (hrun : zooGet env c path w = Except.ok (rc, w')) :
    Records env c (.get path rc) w w' := by
  cases hrun
  exact records_of_log rfl rfl

theorem zooGet_steps (path : String) : Steps (ClientMove env c) (zooGet env c path) := by
  apply steps_of_records
  intro w rc w' hrun
  exact ⟨_, zooGet_records hrun, trivial⟩

theorem makePnode_records {absPath : String} {w w' : World} {rc : Int}
    (hrun : makePnode env c absPath w = Except.ok (rc, w')) :
    Records env c (.createPnode absPath rc) w w' := by
  simp only [makePnode, zooCreate, log, onSessionTimeout, mapPool, bind_assoc, get_bind_run,
    modify_bind_run, pure_bind, ite_run, pure_run] at hrun
  generalize (if (w.pool.clients c).zhandle_ = true then
    env.zooCreate w.trace.length absPath else zinvalidstate) = answer at hrun
  by_cases hstate : answer = zinvalidstate
  · rw [if_pos hstate] at hrun
    cases hrun
    exact ⟨rfl, rfl, by simp [Event.onPool, Event.onBag, Event.rc, hstate]⟩
  · rw [if_neg hstate] at hrun
    cases hrun
    exact ⟨rfl, rfl, by simp [Event.onPool, Event.onBag, Event.rc, hstate]⟩

theorem makePnode_steps (absPath : String) :
    Steps (ClientMove env c) (makePnode env c absPath) := by
  apply steps_of_records
  intro w rc w' hrun
  exact ⟨_, makePnode_records hrun, trivial⟩

theorem makeEnode_records {absPath data : String} {w w' : World} {rc : Int}
    (hrun : makeEnode env c absPath data w = Except.ok (rc, w')) :
    exists v, Records env c (.create absPath data rc) w v ∧
      Records env c (.watch absPath) v w' := by
  simp only [makeEnode, zooCreate, log, saveState, onSessionTimeout, mapBag, mapPool,
    bind_assoc, get_bind_run, modify_bind_run, pure_bind, ite_run, pure_run] at hrun
  generalize (if (w.pool.clients c).zhandle_ = true then
    env.zooCreate w.trace.length absPath else zinvalidstate) = answer at hrun
  let v : World := {
    w with
    trace := w.trace ++ [.create absPath data answer]
    pool := Event.onPool c (.create absPath data answer) w.pool }
  have hcreate : Records env c (.create absPath data answer) w v := ⟨rfl, rfl, rfl⟩
  by_cases hstate : answer = zinvalidstate
  · rw [if_pos hstate] at hrun
    cases hrun
    exact ⟨v, hcreate, rfl, rfl, by
      simp [v, Event.onPool, Event.onBag, Event.rc, hstate, zok, zinvalidstate, znodeexists]⟩
  · rw [if_neg hstate] at hrun
    by_cases hexists : answer = znodeexists
    · rw [if_pos hexists] at hrun
      cases hrun
      exact ⟨v, hcreate, rfl, rfl, by
        simp [v, Event.onPool, Event.onBag, Event.rc, hexists, zok, zinvalidstate, znodeexists]⟩
    · rw [if_neg hexists] at hrun
      cases hrun
      exact ⟨v, hcreate, rfl, rfl, by
        simp [v, Event.onPool, Event.onBag, Event.rc, hstate, hexists, zok, zinvalidstate]⟩

theorem makeEnode_steps (absPath data : String) :
    Steps (ClientMove env c) (makeEnode env c absPath data) := by
  intro w rc w' hrun
  rcases makeEnode_records hrun with ⟨v, hcreate, hwatch⟩
  exact (Relation.ReflTransGen.single (ClientMove.event _ hcreate trivial)).tail
    (ClientMove.event _ hwatch trivial)

theorem hangUp_steps {α : Type} {x y : ZkM α} (hx : Steps (ClientMove env c) x)
    (hy : Steps (ClientMove env c) y) :
    Steps (ClientMove env c) (do
      if <- getConnected c then x
      else
        mapPool (·.setHandle c false)
        y) := by
  intro w a w' hrun
  simp only [getConnected, mapPool, bind_assoc, get_bind_run, pure_bind, ite_run,
    modify_bind_run] at hrun
  cases hconn : w.pool.getConnected c with
  | true =>
      rw [hconn] at hrun
      exact hx w a w' hrun
  | false =>
      rw [hconn] at hrun
      exact Relation.ReflTransGen.head (ClientMove.hangUp w hconn) (hy _ a w' hrun)

theorem clients_setHandle (p : ClientPool) (b : Bool) :
    ((p.setHandle c b).clients c).zhandle_ = b := by
  simp [ClientPool.setHandle, ClientPool.updateClient]

theorem connect_steps {α : Type} {x : ZkM α} (hx : Steps (ClientMove env c) x) :
    Steps (ClientMove env c) (do
      mapPool (·.setHandle c true)
      mapPool (·.setConnected c true)
      x) := by
  intro w a w' hrun
  simp only [mapPool, modify_bind_run] at hrun
  apply Relation.ReflTransGen.head (ClientMove.attach w)
  refine Relation.ReflTransGen.head (ClientMove.connect _ ?_) (hx _ a w' hrun)
  exact clients_setHandle w.pool true

theorem disconnect_steps :
    Steps (ClientMove env c) (mapPool (·.setConnected c false)) :=
  Steps.modify fun w => ClientMove.disconnect w

theorem connectLoop_steps (attempts : Nat) :
    Steps (ClientMove env c) (connectLoop env attempts) := by
  induction attempts with
  | zero => exact Steps.pure false
  | succ attempts ih =>
      apply Steps.bind Steps.get
      intro w
      refine Steps.bind (log_steps (fun _ => trivial) (fun _ => rfl) fun _ => rfl) fun _ => ?_
      exact Steps.ite (Steps.pure true) ih

end Calls

/-!
## The operations as sequences of moves
-/

/-- Moves that the single calls of a client, and its connecting, are made of. -/
class CallMoves (env : Env) (c : ClientId) (M : World -> World -> Prop) : Prop where
  readInstance : forall service node, Steps M (readInstance env c service node)
  listService : forall service, Steps M (listService env c service)
  listServices : forall servicesRoot, Steps M (listServices env c servicesRoot)
  takeOver : forall ptr, Steps M (takeOver c ptr)
  makePnode : forall absPath, Steps M (makePnode env c absPath)
  makeEnode : forall absPath data, Steps M (makeEnode env c absPath data)
  refused : Steps M (log .refused)
  connect : forall x : ZkM Bool, Steps M x -> Steps M (do
    if <- getConnected c then return true
    else
      mapPool (·.setHandle c false)
      if <- connectLoop env 11 then
        mapPool (·.setHandle c true)
        mapPool (·.setConnected c true)
        x
      else
        mapPool (·.setConnected c false)
        return false)

instance {env : Env} {c : ClientId} : CallMoves env c (ClientMove env c) where
  readInstance := readInstance_steps
  listService := listService_steps
  listServices := listServices_steps
  takeOver := takeOver_steps
  makePnode := makePnode_steps
  makeEnode := makeEnode_steps
  refused := log_steps (fun _ => trivial) (fun _ => rfl) fun _ => rfl
  connect := fun _ hx => hangUp_steps (Steps.pure true)
    (Steps.bind (connectLoop_steps 11) fun _ =>
      Steps.ite (connect_steps hx) (Steps.bind disconnect_steps fun _ => Steps.pure false))

section Operations

variable {env : Env} {c : ClientId} {reconnect : ClientId -> ZkM Bool}
variable {M : World -> World -> Prop}

theorem getConnected_steps : Steps M (getConnected c) :=
  Steps.bind Steps.get fun _ => Steps.pure _

theorem hasHandle_steps : Steps M (hasHandle c) :=
  Steps.bind Steps.get fun _ => Steps.pure _

theorem ready_steps (hrefused : Steps M (log .refused)) (hreconnect : Steps M (reconnect c)) :
    Steps M (ready reconnect c) := by
  refine Steps.bind getConnected_steps fun connected => Steps.ite (Steps.pure true) ?_
  apply Steps.bind hreconnect
  intro _
  refine Steps.bind getConnected_steps fun _ => Steps.bind hasHandle_steps fun _ => ?_
  apply Steps.ite (Steps.pure true)
  exact Steps.bind hrefused fun _ => Steps.pure false

theorem guarded_steps (hrefused : Steps M (log .refused)) (hreconnect : Steps M (reconnect c))
    {α : Type} {x y : ZkM α} (hx : Steps M x) (hy : Steps M y) :
    Steps M (do if <- ready reconnect c then x else y) :=
  Steps.bind (ready_steps hrefused hreconnect) fun _ => Steps.ite hx hy

variable [calls : CallMoves env c M] (hreconnect : Steps M (reconnect c))

include hreconnect

theorem getServiceInstance_steps (service node : String) :
    Steps M (getServiceInstance env reconnect c service node) :=
  guarded_steps calls.refused hreconnect (calls.readInstance service node) (Steps.pure false)

theorem getServiceInstanceAt_steps (path : String) :
    Steps M (getServiceInstanceAt env reconnect c path) := by
  unfold getServiceInstanceAt
  cases splitPath path with
  | none => exact Steps.pure true
  | some parts => exact getServiceInstance_steps hreconnect parts.1 parts.2

theorem readInstances_steps (service : String) (nodes : List String) (answered : Bool) :
    Steps M (do
      nodes.forM fun node => do
        let _ <- getServiceInstance env reconnect c service node
      return answered : ZkM Bool) := by
  refine Steps.bind (Steps.forM nodes fun node _ => ?_) fun _ => Steps.pure answered
  exact Steps.bind (getServiceInstance_steps hreconnect service node) fun _ => Steps.pure _

theorem getService_steps (service : String) :
    Steps M (getService env reconnect c service) := by
  refine guarded_steps calls.refused hreconnect ?_ (Steps.pure false)
  apply Steps.bind (calls.listService service)
  exact fun a => readInstances_steps hreconnect service a.2 a.1

theorem getAllServices_steps (servicesRoot : String) :
    Steps M (getAllServices env reconnect c servicesRoot) := by
  refine guarded_steps calls.refused hreconnect ?_ (Steps.pure false)
  apply Steps.bind (calls.listServices servicesRoot)
  intro a
  refine Steps.foldlM a.2 (fun ret zkpath _ => ?_) a.1
  exact Steps.ite (getService_steps hreconnect zkpath) (Steps.pure false)

theorem createPnode_steps (absPath : String) :
    Steps M (createPnode env reconnect c absPath) :=
  guarded_steps calls.refused hreconnect (calls.makePnode absPath) (Steps.pure zconnectionloss)

theorem createEnode_steps (absPath data : String) :
    Steps M (createEnode env reconnect c absPath data) :=
  guarded_steps calls.refused hreconnect (calls.makeEnode absPath data) (Steps.pure zconnectionloss)

theorem restore_steps (state : ZkState) :
    Steps M (restore env reconnect c state) := by
  unfold restore
  cases state.type with
  | createEphereral =>
      exact Steps.bind (createEnode_steps hreconnect _ _) fun _ => Steps.pure _
  | getService => exact Steps.bind (getService_steps hreconnect _) fun _ => Steps.pure _
  | getServiceInstance =>
      exact Steps.bind (getServiceInstanceAt_steps hreconnect _) fun _ => Steps.pure _
  | getRoot => exact Steps.bind (getAllServices_steps hreconnect _) fun _ => Steps.pure _

theorem takeOverStates_steps (states : List StatePtr) :
    Steps M (takeOverStates env reconnect c states) :=
  Steps.forM states fun ptr _ =>
    Steps.bind (calls.takeOver ptr) fun state => restore_steps hreconnect state

theorem restoreStates_steps :
    Steps M (restoreStates env reconnect c) := by
  apply Steps.bind Steps.get
  intro w
  apply Steps.bind (takeOverStates_steps hreconnect _)
  intro _
  exact Steps.bind Steps.get fun v => takeOverStates_steps hreconnect _

theorem check_steps {topZkPath : String} (hget : Steps M (zooGet env c topZkPath)) :
    Steps M (check env reconnect c topZkPath) := by
  refine guarded_steps calls.refused hreconnect ?_ (Steps.pure false)
  apply Steps.bind Steps.get
  intro w
  apply Steps.bind (takeOverStates_steps hreconnect _)
  intro _
  exact Steps.bind hget fun _ => Steps.pure _

omit hreconnect

/-- Connecting a client, with the restoration of its states, is a sequence of moves. -/
theorem connectZk_steps (depth : Nat) : Steps M (connectZk env depth c) := by
  induction depth with
  | zero => exact Steps.throw _
  | succ depth ih =>
      unfold connectZk
      exact calls.connect _ (Steps.bind (restoreStates_steps ih) fun _ => Steps.pure true)

theorem open_steps (depth : Nat) : Steps M (open_ env depth c) :=
  Steps.bind getConnected_steps fun _ =>
    Steps.ite (Steps.pure true) (connectZk_steps depth)

end Operations

/-!
## Opening a client of the pool
-/

/-- The section of `open` that a caller runs: the pool after it, and the client. -/
def opened (env : Env) (w : World) : ClientPool × Option ClientId :=
  (w.pool.destroyClients false).openSection (env.clock w.ticks + w.slept)

theorem poolOpen_opens {env : Env} {depth : Nat} {w w' : World} {result : Option ClientId}
    (hrun : poolOpen env depth w = Except.ok (result, w')) :
    result = (opened env w).2 ∧
    (result = none -> w'.trace = w.trace ∧ w'.pool = (opened env w).1) ∧
    forall c, result = some c -> exists v now b, v.trace = w.trace ∧
      v.pool = (opened env w).1.stamp c now ∧ open_ env depth c v = Except.ok (b, w') := by
  simp only [poolOpen, mapPool, nowInMs, bind_assoc, get_bind_run, modify_bind_run,
    pure_bind] at hrun
  unfold opened
  cases hopen : ((w.pool.destroyClients false).openSection (env.clock w.ticks + w.slept)).2 with
  | none =>
      rw [hopen] at hrun
      cases hrun
      refine ⟨rfl, fun _ => ⟨rfl, rfl⟩, ?_⟩
      intro c hc
      cases hc
  | some c =>
      rw [hopen] at hrun
      simp only [get_bind_run, modify_bind_run] at hrun
      rcases bind_ok.mp hrun with ⟨b, v, hconnect, hrest⟩
      cases hrest
      refine ⟨rfl, ?_, ?_⟩
      · intro hnone
        cases hnone
      · intro d hd
        cases hd
        exact ⟨_, env.clock (w.ticks + 1) + w.slept, b, by rfl, by rfl, hconnect⟩

theorem poolOpen_run {env : Env} {depth : Nat} {w w' : World} {result : Option ClientId}
    (hrun : poolOpen env depth w = Except.ok (result, w')) :
    result = (opened env w).2 ∧
    (result = none -> w'.trace = w.trace ∧ w'.pool = (opened env w).1) ∧
    forall c, result = some c -> exists v now, v.trace = w.trace ∧
      v.pool = (opened env w).1.stamp c now ∧
      Relation.ReflTransGen (ClientMove env c) v w' := by
  rcases poolOpen_opens hrun with ⟨hresult, hnone, hsome⟩
  refine ⟨hresult, hnone, ?_⟩
  intro c hc
  rcases hsome c hc with ⟨v, now, b, htrace, hpool, hopen⟩
  exact ⟨v, now, htrace, hpool, open_steps depth v b w' hopen⟩

end ZkClient

/-!
## The test that each operation starts with
-/

theorem ClientMove.attached {env : Env} {c : ClientId} {w w' : World}
    (hmove : ClientMove env c w w') (h : w.pool.Attached c) : w'.pool.Attached c := by
  cases hmove with
  | event e he _ =>
      rw [he.pool]
      unfold Event.onPool
      dsimp only
      split
      · intro hconn
        simp [ClientPool.getConnected, ClientPool.setConnected, ClientPool.updateClient] at hconn
      · exact h
  | hangUp hdown =>
      intro hconn
      have hsame : (w.pool.setHandle c false).getConnected c = w.pool.getConnected c := by
        simp [ClientPool.getConnected, ClientPool.setHandle, ClientPool.updateClient]
      rw [hsame, hdown] at hconn
      cases hconn
  | attach =>
      intro _
      exact ZkClient.clients_setHandle w.pool true
  | connect hhandle =>
      intro _
      simpa [ClientPool.setConnected, ClientPool.updateClient] using hhandle
  | disconnect =>
      intro hconn
      simp [ClientPool.getConnected, ClientPool.setConnected, ClientPool.updateClient] at hconn

namespace ZkClient

open Program

theorem ready_run {env : Env} {c : ClientId} {reconnect : ClientId -> ZkM Bool}
    (hreconnect : Steps (ClientMove env c) (reconnect c)) {w w' : World} {b : Bool}
    (hrun : ready reconnect c w = Except.ok (b, w')) :
    (b = true ∧ Relation.ReflTransGen (ClientMove env c) w w' ∧
      w'.pool.getConnected c = true) ∨
    (b = false ∧ exists v, Relation.ReflTransGen (ClientMove env c) w v ∧
      v.pool.getConnected c = false ∧ w' = { v with trace := v.trace ++ [.refused] }) := by
  simp only [ready, getConnected, bind_assoc, get_bind_run, pure_bind, ite_run] at hrun
  cases hconn : w.pool.getConnected c with
  | true =>
      rw [hconn] at hrun
      cases hrun
      exact Or.inl ⟨rfl, Relation.ReflTransGen.refl, hconn⟩
  | false =>
      rw [hconn] at hrun
      rcases bind_ok.mp hrun with ⟨a, v, hreconn, hrest⟩
      have hmoves : Relation.ReflTransGen (ClientMove env c) w v := hreconnect w a v hreconn
      have hattached : v.pool.Attached c :=
        hreconnect.keeps (fun _ _ => ClientMove.attached) hreconn
          (fun h => absurd h (by simp [hconn]))
      simp only [hasHandle, log, bind_assoc, get_bind_run, pure_bind, ite_run,
        modify_bind_run] at hrest
      cases hup : v.pool.getConnected c with
      | true =>
          rw [hup, hattached hup] at hrest
          cases hrest
          exact Or.inl ⟨rfl, hmoves, hup⟩
      | false =>
          rw [hup] at hrest
          cases hrest
          exact Or.inr ⟨rfl, v, hmoves, hup, rfl⟩

end ZkClient

end FrProxy
