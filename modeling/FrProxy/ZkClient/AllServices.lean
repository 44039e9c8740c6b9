import FrProxy.ServerHandler.Losses
import FrProxy.ZkClient.Vanished

/-!
# Reading all services

`get_all_services` is meant to read every service of the listing, whatever the
reads before it gave.  Its loop is compared with one that does.
-/

namespace FrProxy

open KeyedList

/-!
## The list of one service
-/

namespace Event

def concerns (service : String) : Event -> Bool
  | .children .getService path _ _ => decide (path = service)
  | .instance_ name _ _ _ _ => decide (name = service)
  | .purge _ => true
  | .load _ => true
  | _ => false

def loaded (service : String) (v l : RVector) : RVector :=
  v.foldl (fun l reg =>
    if RMap.accepts reg = true ∧ reg.name = service then touch Registry.endpoint l reg else l) l

def onList (env : Env) (service : String) : Event -> RVector -> RVector
  | .children .getService path rc nodes, l =>
      if (rc = zok ∧ nodes.length > 0) ∧ path = service then [] else l
  | .instance_ name node rc data mtime, l =>
      if rc = zok then
        match env.readEndpoint data.data with
        | .error _ => l
        | .ok (host, port) =>
            loaded service [{
              name, host, port, ctime := data.ctime / 1000, mtime, ephemeral := node }] l
      else l
  | .purge timestamp, l => l.filter fun r => decide (timestamp ≤ r.mtime)
  | .load v, l => loaded service v l
  | _, l => l

end Event

theorem list_load_eq (c : RegistryCache) (v : RVector) (service : String) :
    (c.load v).list service = Event.loaded service v (c.list service) := by
  unfold RegistryCache.load Event.loaded
  induction v generalizing c with
  | nil => rfl
  | cons reg rest ih => rw [List.foldl_cons, List.foldl_cons, ih, RegistryCache.list_add]

theorem list_onCache (env : Env) (service : String) (e : Event) (c : RegistryCache) :
    (e.onCache env c).list service = e.onList env service (c.list service) := by
  cases e with
  | children type path rc nodes =>
      cases type with
      | getService =>
          unfold Event.onCache Event.onList
          dsimp only
          by_cases hlisted : rc = zok ∧ nodes.length > 0
          · rw [if_pos hlisted, RegistryCache.list_removeName]
            simp only [hlisted, and_self, true_and]
          · rw [if_neg hlisted, if_neg fun h => hlisted h.left]
      | createEphereral => rfl
      | getServiceInstance => rfl
      | getRoot => rfl
  | instance_ name node rc data mtime =>
      unfold Event.onCache Event.onList
      dsimp only
      split
      · cases env.readEndpoint data.data with
        | error stop => rfl
        | ok endpoint => exact list_load_eq c [_] service
      · rfl
  | purge timestamp => exact RegistryCache.list_removeOverdue c timestamp service
  | load v => exact list_load_eq c v service
  | _ => rfl

theorem onList_of_not_concerns {env : Env} {service : String} {e : Event}
    (h : e.concerns service = false) (l : RVector) : e.onList env service l = l := by
  cases e with
  | children type path rc nodes =>
      cases type with
      | getService => exact if_neg fun heq => of_decide_eq_false h heq.right
      | createEphereral => rfl
      | getServiceInstance => rfl
      | getRoot => rfl
  | instance_ name node rc data mtime =>
      have hname : name ≠ service := of_decide_eq_false h
      unfold Event.onList
      dsimp only
      split
      · cases env.readEndpoint data.data with
        | error stop => rfl
        | ok endpoint => exact if_neg fun heq => hname heq.right
      · rfl
  | purge timestamp => cases h
  | load v => cases h
  | _ => rfl

theorem onList_congr {env env' : Env} (hparse : env.parse = env'.parse) (service : String)
    (e : Event) : e.onList env service = e.onList env' service := by
  have hread : forall data, env.readEndpoint data = env'.readEndpoint data := by
    intro data
    unfold Env.readEndpoint
    rw [hparse]
  funext l
  cases e with
  | children type path rc nodes => cases type <;> rfl
  | instance_ name node rc data mtime => simp only [Event.onList, hread]
  | _ => rfl

/-- The events that can change the list of the service. -/
def ownEvents (service : String) (events : List Event) : List Event :=
  events.filter (Event.concerns service)

theorem list_replay_own (env : Env) (service : String) (events : List Event)
    (c : RegistryCache) :
    (Event.replay env events c).list service =
      (ownEvents service events).foldl (fun l e => e.onList env service l) (c.list service) := by
  unfold Event.replay ownEvents
  induction events generalizing c with
  | nil => rfl
  | cons e rest ih =>
      rw [List.foldl_cons, ih, list_onCache]
      cases he : e.concerns service with
      | true => rw [List.filter_cons_of_pos he, List.foldl_cons]
      | false =>
          rw [List.filter_cons_of_neg (Bool.eq_false_iff.mp he), onList_of_not_concerns he]

namespace ZkClient

open Program

/-!
## The loop over the services
-/

section Loop

variable (env : Env) (reconnect : ClientId -> ZkM Bool) (c : ClientId)

/-- The loop of `get_all_services`. -/
def scanServices (services : List String) : ZkM Bool :=
  services.foldlM (fun ret zkpath => do
    if ret then getService env reconnect c zkpath else return false) true

/-- What the loop is for: every service is read, and all reads must succeed. -/
def readServices (services : List String) : ZkM Bool := do
  let results <- services.mapM (getService env reconnect c)
  return results.all id

def getAllServicesAnyway (servicesRoot : String) : ZkM Bool := do
  if <- ready reconnect c then
    let (ret, list) <- listServices env c servicesRoot
    let results <- readServices env reconnect c list
    return ret && results
  else return false

/-- The client gets ready, and the children of the service are listed. -/
def Answered (service : String) (w : World) : Prop :=
  exists v, ready reconnect c w = Except.ok (true, v) ∧ (v.pool.clients c).zhandle_ = true ∧
    (env.zooWgetChildren v.trace.length service).1 = zok

/-- As far as the reads return, the listing of every service but the last one is answered `ZOK`. -/
def AllButLastAnswered : List String -> World -> Prop
  | [], _ => True
  | [_], _ => True
  | service :: next :: rest, w => forall b w', getService env reconnect c service w =
      Except.ok (b, w') ->
      Answered env reconnect c service w ∧ AllButLastAnswered (next :: rest) w'

end Loop

section Loop

variable {env : Env} {reconnect : ClientId -> ZkM Bool} {c : ClientId} {w v : World}

theorem listService_listed {service : String} {a : Bool × List String} {w' : World}
    (hrun : listService env c service v = Except.ok (a, w')) :
    a.1 = true <-> (v.pool.clients c).zhandle_ = true ∧
      (env.zooWgetChildren v.trace.length service).1 = zok := by
  simp only [listService, zooWgetChildren, log, saveState, mapBag, mapPool, mapCache,
    removeState, onSessionTimeout, bind_assoc, get_bind_run, modify_bind_run, pure_bind,
    ite_run, pure_run] at hrun
  cases hhandle : (v.pool.clients c).zhandle_ with
  | false =>
      rw [hhandle] at hrun
      cases hrun
      simp
  | true =>
      simp only [hhandle, if_true, true_and] at hrun ⊢
      by_cases hok : (env.zooWgetChildren v.trace.length service).1 = zok
      · rw [if_pos hok] at hrun
        split at hrun
        · cases hrun
          exact iff_of_true rfl hok
        · cases hrun
          exact iff_of_true rfl hok
      · rw [if_neg hok] at hrun
        split at hrun
        · cases hrun
          exact iff_of_false Bool.false_ne_true hok
        · split at hrun
          · cases hrun
            exact iff_of_false Bool.false_ne_true hok
          · cases hrun
            exact iff_of_false Bool.false_ne_true hok

theorem getService_listed {service : String} {b : Bool} {w' : World}
    (hready : ready reconnect c w = Except.ok (true, v))
    (hrun : getService env reconnect c service w = Except.ok (b, w')) :
    b = true <-> (v.pool.clients c).zhandle_ = true ∧
      (env.zooWgetChildren v.trace.length service).1 = zok := by
  unfold getService at hrun
  rw [bind_run hready, if_pos rfl] at hrun
  rcases bind_ok.mp hrun with ⟨a, u, hlist, hrest⟩
  rcases bind_ok.mp hrest with ⟨_, u', _, hpure⟩
  rw [(pure_ok.mp hpure).left]
  exact listService_listed hlist

theorem getService_true_iff {service : String} {b : Bool} {w' : World}
    (hrun : getService env reconnect c service w = Except.ok (b, w')) :
    b = true <-> Answered env reconnect c service w := by
  rcases bind_ok.mp hrun with ⟨connected, v, hready, hrest⟩
  cases connected with
  | true =>
      rw [getService_listed hready hrun]
      constructor
      · intro h
        exact ⟨v, hready, h⟩
      · intro h
        rcases h with ⟨v', hready', h⟩
        cases hready.symm.trans hready'
        exact h
  | false =>
      rw [(pure_ok.mp hrest).left]
      apply iff_of_false Bool.false_ne_true
      intro h
      rcases h with ⟨v', hready', _⟩
      cases hready.symm.trans hready'

theorem scan_after_failure (services : List String) :
    (services.foldlM (fun ret zkpath => do
      if ret then getService env reconnect c zkpath else return false) false : ZkM Bool) w =
      Except.ok (false, w) := by
  induction services with
  | nil => rfl
  | cons service rest ih => exact ih

theorem scanServices_cons {service : String} {rest : List String} {b : Bool} {w' : World}
    (hrun : getService env reconnect c service w = Except.ok (b, w')) :
    scanServices env reconnect c (service :: rest) w =
      if b then scanServices env reconnect c rest w' else Except.ok (false, w') := by
  unfold scanServices
  rw [List.foldlM_cons, if_pos rfl, bind_run hrun]
  cases b with
  | true => rfl
  | false => exact scan_after_failure rest

theorem scanServices_stops {service : String} {rest : List String} {stop : Stop}
    (hrun : getService env reconnect c service w = Except.error stop) :
    scanServices env reconnect c (service :: rest) w = Except.error stop :=
  stops_bind hrun

theorem readServices_stops {service : String} {rest : List String} {stop : Stop}
    (hrun : getService env reconnect c service w = Except.error stop) :
    readServices env reconnect c (service :: rest) w = Except.error stop := by
  unfold readServices
  rw [List.mapM_cons, bind_assoc]
  exact stops_bind hrun

theorem readServices_cons {service : String} {rest : List String} {b : Bool} {w' : World}
    (hrun : getService env reconnect c service w = Except.ok (b, w')) :
    readServices env reconnect c (service :: rest) w =
      (do let results <- readServices env reconnect c rest; return b && results : ZkM Bool) w' := by
  unfold readServices
  rw [List.mapM_cons, bind_assoc, bind_run hrun, bind_assoc, bind_assoc]
  rfl

end Loop

section Growth

variable {env : Env} {depth : Nat} {c : ClientId} {w w' : World}

theorem moves_length_le (h : Relation.ReflTransGen (ClientMove env c) w w') :
    w.trace.length ≤ w'.trace.length := by
  induction h with
  | refl => exact Nat.le_refl _
  | tail _ hmove ih =>
      rcases (CacheMove.of_clientMove hmove).explained with ⟨events, htrace, _⟩
      rw [htrace, List.length_append]
      exact Nat.le_add_right_of_le ih

theorem getService_length {service : String} {b : Bool}
    (hrun : getService env (connectZk env depth) c service w = Except.ok (b, w')) :
    w.trace.length < w'.trace.length := by
  have hreconnect : Steps (ClientMove env c) (connectZk env depth c) := connectZk_steps depth
  rcases bind_ok.mp hrun with ⟨connected, v, hready, hrest⟩
  cases connected with
  | true =>
      have hstart := moves_length_le
        (ready_steps (CallMoves.refused env c) hreconnect w true v hready)
      rw [if_pos rfl] at hrest
      rcases bind_ok.mp hrest with ⟨a, u, hlist, hloop⟩
      rcases listService_records hlist with ⟨rc, nodes, hrecords, _⟩
      have hend := moves_length_le
        (readInstances_steps hreconnect service a.2 a.1 u b w' hloop)
      rw [hrecords.trace, List.length_append, List.length_singleton] at hend
      omega
  | false =>
      rcases ready_run hreconnect hready with ⟨htrue, _⟩ | ⟨_, u, hmoves, _, rfl⟩
      · cases htrue
      · cases hrest
        have hend := moves_length_le hmoves
        rw [List.length_append, List.length_singleton]
        omega

theorem readServices_length {services : List String} {b : Bool}
    (hrun : readServices env (connectZk env depth) c services w = Except.ok (b, w')) :
    w.trace.length + services.length ≤ w'.trace.length := by
  induction services generalizing w w' b with
  | nil =>
      cases hrun
      exact Nat.le_refl _
  | cons service rest ih =>
      cases hfirst : getService env (connectZk env depth) c service w with
      | error stop =>
          rw [readServices_stops hfirst] at hrun
          cases hrun
      | ok r =>
          rcases r with ⟨a, v⟩
          have hlonger := getService_length hfirst
          rw [readServices_cons hfirst] at hrun
          rcases bind_ok.mp hrun with ⟨results, x, hrest, hpure⟩
          have htail := ih hrest
          rw [(pure_ok.mp hpure).right, List.length_cons]
          omega

theorem readServices_after_failure (next : String) (rest : List String) :
    (do let results <- readServices env (connectZk env depth) c (next :: rest)
        return false && results : ZkM Bool) w ≠ Except.ok (false, w) := by
  intro heq
  rcases bind_ok.mp heq with ⟨results, x, hread, hpure⟩
  have hlonger := readServices_length hread
  rw [<- (pure_ok.mp hpure).right, List.length_cons] at hlonger
  omega

theorem allButLastAnswered_cons {service next : String} {rest : List String} {b : Bool}
    (hrun : getService env (connectZk env depth) c service w = Except.ok (b, w')) :
    AllButLastAnswered env (connectZk env depth) c (service :: next :: rest) w <->
      b = true ∧ AllButLastAnswered env (connectZk env depth) c (next :: rest) w' := by
  rw [getService_true_iff hrun]
  constructor
  · intro h
    exact h b w' hrun
  · intro h b' v' hrun'
    cases hrun.symm.trans hrun'
    exact h

/-- The loop reads every service if and only if no service but the last one fails. -/
theorem scanServices_eq_iff (services : List String) (w : World) :
    scanServices env (connectZk env depth) c services w =
        readServices env (connectZk env depth) c services w <->
      AllButLastAnswered env (connectZk env depth) c services w := by
  induction services generalizing w with
  | nil => exact iff_of_true rfl trivial
  | cons service rest ih =>
      cases hrun : getService env (connectZk env depth) c service w with
      | error stop =>
          rw [scanServices_stops hrun, readServices_stops hrun]
          apply iff_of_true rfl
          cases rest with
          | nil => trivial
          | cons next rest =>
              intro b w' hok
              rw [hrun] at hok
              cases hok
      | ok r =>
          rcases r with ⟨b, w'⟩
          rw [scanServices_cons hrun, readServices_cons hrun]
          cases rest with
          | nil =>
              apply iff_of_true _ trivial
              cases b with
              | true => rfl
              | false => rfl
          | cons next rest =>
              rw [allButLastAnswered_cons hrun, <- ih w']
              cases b with
              | true => simp only [if_true, Bool.true_and, bind_pure, true_and]
              | false =>
                  apply iff_of_false _ fun h => Bool.false_ne_true h.left
                  exact (readServices_after_failure next rest).symm

/-!
## The whole call
-/

variable {servicesRoot : String} {v u : World} {services : List String}

theorem getAllServices_eq_scan (hready : ready (connectZk env depth) c w = Except.ok (true, v))
    (hlisted : listServices env c servicesRoot v = Except.ok ((true, services), u)) :
    getAllServices env (connectZk env depth) c servicesRoot w =
      scanServices env (connectZk env depth) c services u := by
  unfold getAllServices
  rw [bind_run hready, if_pos rfl, bind_run hlisted]
  rfl

theorem getAllServicesAnyway_eq_read
    (hready : ready (connectZk env depth) c w = Except.ok (true, v))
    (hlisted : listServices env c servicesRoot v = Except.ok ((true, services), u)) :
    getAllServicesAnyway env (connectZk env depth) c servicesRoot w =
      readServices env (connectZk env depth) c services u := by
  unfold getAllServicesAnyway
  rw [bind_run hready, if_pos rfl, bind_run hlisted]
  simp only [Bool.true_and, bind_pure]

theorem getAllServices_explained {b : Bool}
    (hrun : getAllServices env (connectZk env depth) c servicesRoot w = Except.ok (b, w')) :
    Explained env w w' :=
  Explained.of_steps (c := c) (getAllServices_steps (connectZk_steps depth) servicesRoot) hrun

theorem list_of_ownEvents {env' : Env} (hparse : env'.parse = env.parse) {x x' : World}
    (h : Explained env w x) (h' : Explained env' w' x') (service : String)
    (hlist : w'.cache.list service = w.cache.list service)
    (hown : ownEvents service (happened w' x') = ownEvents service (happened w x)) :
    x'.cache.list service = x.cache.list service := by
  rcases h with ⟨events, htrace, hcache⟩
  rcases h' with ⟨events', htrace', hcache'⟩
  rw [happened_of_append htrace, happened_of_append htrace'] at hown
  rw [hcache, hcache', list_replay_own, list_replay_own, hown, hlist]
  simp only [onList_congr hparse]

/--
After a listing answered `ZOK`, the call reads every listed service, and tells
whether all these reads succeeded, if and only if no service but the last one
fails.  What a run leaves of a service depends on the events about it alone.
-/
theorem getAllServices_reads_all_iff
    (hready : ready (connectZk env depth) c w = Except.ok (true, v))
    (hlisted : listServices env c servicesRoot v = Except.ok ((true, services), u)) :
    (getAllServices env (connectZk env depth) c servicesRoot w =
        getAllServicesAnyway env (connectZk env depth) c servicesRoot w <->
      AllButLastAnswered env (connectZk env depth) c services u) ∧
    forall (env' : Env) (depth' : Nat) (c' : ClientId) (servicesRoot' : String)
      (w' x x' : World) (b b' : Bool), env'.parse = env.parse ->
      getAllServices env (connectZk env depth) c servicesRoot w = Except.ok (b, x) ->
      getAllServices env' (connectZk env' depth') c' servicesRoot' w' = Except.ok (b', x') ->
      forall service, w'.cache.list service = w.cache.list service ->
        ownEvents service (happened w' x') = ownEvents service (happened w x) ->
        x'.cache.list service = x.cache.list service := by
  constructor
  · rw [getAllServices_eq_scan hready hlisted, getAllServicesAnyway_eq_read hready hlisted]
    exact scanServices_eq_iff services u
  · intro env' depth' c' servicesRoot' w' x x' b b' hparse hrun hrun' service hlist hown
    exact list_of_ownEvents hparse (getAllServices_explained hrun)
      (getAllServices_explained hrun') service hlist hown

section Example

/-- Two services; of the first one the listing is answered so. -/
private def twoServices (first : Int) : Env where
  parse := fun _ => none
  zookeeperInit := fun _ => false
  zooWgetChildren := fun _ path =>
    if path = "/soa/services" then (zok, ["a", "b"])
    else if path = "/soa/services/a" then (first, [])
    else (zok, [])
  zooWget := fun _ _ => (znonode, {})
  zooCreate := fun _ _ => zok
  zooGet := fun _ _ => zok
  clock := fun n => n
  cacheFile := none

private def scanWorld : World where
  pool := { ClientPool.start id with
    clients := fun _ => { connected_ := true, zhandle_ := true } }
  cache := RegistryCache.empty
  trace := []
  ticks := 0
  slept := 0

private theorem live_scanWorld : Live 1 scanWorld :=
  ⟨rfl, rfl⟩

private theorem twoServices_listed (first : Int) :
    exists u, listServices (twoServices first) 1 "/soa/services" scanWorld =
        Except.ok ((true, ["/soa/services/a", "/soa/services/b"]), u) ∧ Live 1 u := by
  have hanswer : (twoServices first).zooWgetChildren scanWorld.trace.length "/soa/services" =
      (zok, ["a", "b"]) := rfl
  rcases listServices_run live_scanWorld hanswer (by decide) with ⟨u, hrun, hgoes⟩
  exact ⟨u, hrun, hgoes.live⟩

theorem two_services_read :
    getAllServices (twoServices zok) (connectZk (twoServices zok) 0) 1 "/soa/services" scanWorld =
      getAllServicesAnyway (twoServices zok) (connectZk (twoServices zok) 0) 1 "/soa/services"
        scanWorld := by
  rcases twoServices_listed zok with ⟨u, hlisted, hlive⟩
  apply (getAllServices_reads_all_iff (ready_live live_scanWorld) hlisted).left.mpr
  intro b w' _
  refine ⟨⟨u, ready_live hlive, hlive.right, ?_⟩, trivial⟩
  rfl

/-- The first service vanished after the listing, and the second one is not read. -/
theorem vanished_service_stops_scan :
    ¬ forall (env : Env) (depth : Nat) (c : ClientId) (servicesRoot : String)
        (services : List String) (w v u : World),
      ready (connectZk env depth) c w = Except.ok (true, v) ->
      listServices env c servicesRoot v = Except.ok ((true, services), u) ->
      getAllServices env (connectZk env depth) c servicesRoot w =
        getAllServicesAnyway env (connectZk env depth) c servicesRoot w := by
  intro h
  rcases twoServices_listed znonode with ⟨u, hlisted, hlive⟩
  have hready : ready (connectZk (twoServices znonode) 0) 1 scanWorld =
      Except.ok (true, scanWorld) := ready_live live_scanWorld
  have heq := h _ _ _ _ _ _ _ _ hready hlisted
  rw [getAllServices_eq_scan hready hlisted, getAllServicesAnyway_eq_read hready hlisted] at heq
  have hgone : (Lookup.getService "/soa/services/a").Vanished (twoServices znonode)
      u.trace.length := rfl
  have hreadyAgain : ready (connectZk (twoServices znonode) 0) 1 u = Except.ok (true, u) :=
    ready_live hlive
  rcases lookup_vanished hreadyAgain hlive hgone with ⟨w', hrun, _⟩
  rcases (scanServices_eq_iff _ u).mp heq false w' hrun with ⟨⟨v, hready', _, hok⟩, _⟩
  cases hreadyAgain.symm.trans hready'
  exact absurd (hgone.symm.trans hok) (by decide)

end Example

end Growth

end ZkClient

end FrProxy
