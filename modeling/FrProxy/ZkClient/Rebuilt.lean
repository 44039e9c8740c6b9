import FrProxy.ZkClient.AllServices
import FrProxy.ZkClient.InstanceData

/-!
# The list of a service after a refresh

`get_service` drops the list of a service before it reads the instances, but only
if there are any, and it does not look at what the reads return.
-/

namespace FrProxy

open KeyedList

/-- What ZooKeeper lists has names: the znode a path, and its children too. -/
structure Env.Names (env : Env) : Prop where
  path : forall n path nodes, env.zooWgetChildren n path = (zok, nodes) -> path ≠ ""
  children : forall n path nodes, env.zooWgetChildren n path = (zok, nodes) -> "" ∉ nodes

/--
The reads of the nodes, one after the other when `n` events have happened, are
answered `ZOK`, with these endpoints in data that fit into the buffer.
-/
inductive Env.Gives (env : Env) (service : String) : Nat -> List String -> List Endpoint -> Prop where
  | nil (n : Nat) : Gives env service n [] []
  | cons {n : Nat} {node : String} {nodes : List String} {data : NodeData} {host : String}
      {port : Int} {ps : List Endpoint}
      (hanswer : env.zooWget n (service ++ "/" ++ node) = (zok, data))
      (hshort : data.data.toList.length < 256)
      (hdata : endpointIn (jsonValue env.parse data.data) = some (host, port))
      (hrest : Gives env service (n + 1) nodes ps) :
      Gives env service n (node :: nodes) ({ name := service, host, port } :: ps)

/-- The list of the service has exactly these endpoints, each once; the other lists are the same. -/
structure Rebuilt (cache cache' : RegistryCache) (service : String) (ps : List Endpoint) :
    Prop where
  endpoints : forall p, p ∈ (cache'.list service).map Registry.endpoint <-> p ∈ ps
  once : ((cache'.list service).map Registry.endpoint).Nodup
  others : forall name, name ≠ service -> cache'.list name = cache.list name

/-!
## The data of the instances
-/

theorem gettable_of_endpointIn {parse : String -> Option Json} {data : String}
    {endpoint : String × Int} (hshort : data.toList.length < 256)
    (h : endpointIn (jsonValue parse data) = some endpoint) : Gettable parse data := by
  rcases endpoint with ⟨s, n⟩
  rcases endpointIn_eq_some.mp h with ⟨host, port, hoffered, hs, _, _⟩
  have hnul : '\x00' ∉ data.toList := by
    intro hmem
    rw [jsonValue, if_pos hmem] at hoffered
    cases hoffered
  have hterminated : data.toList.length < 256 ∨ '\x00' ∈ data.toList.take 256 := Or.inl hshort
  have htext : parse (cText data) = jsonValue parse data := by
    rw [cText_eq hnul hterminated, jsonValue, if_neg hnul]
  refine ⟨hterminated, ?_, ?_⟩
  · intro root hroot
    rw [<- htext, hroot] at hoffered
    simp only [offered, Option.bind_eq_bind, Option.bind_some] at hoffered
    rcases Option.bind_eq_some_iff.mp hoffered with ⟨v, hlookup, _⟩
    exact Json.isObject_of_lookup hlookup
  · intro host' port' hoffered'
    rw [htext, hoffered] at hoffered'
    cases hoffered'
    rw [hs]
    rfl

theorem readEndpoint_of_endpointIn {env : Env} {data : String} {endpoint : String × Int}
    (hshort : data.toList.length < 256)
    (h : endpointIn (jsonValue env.parse data) = some endpoint) :
    env.readEndpoint data = .ok endpoint ∧ endpoint.1 ≠ "" := by
  have hgettable := gettable_of_endpointIn hshort h
  rcases gotten_of_endpointIn hgettable h with ⟨hgotten, hhost⟩
  exact ⟨readEndpoint_ok_iff.mpr ⟨hgettable, hgotten.symm⟩, hhost⟩

/-!
## The lists of the cache
-/

theorem list_load_other {c : RegistryCache} {service name : String} {regs : RVector}
    (hregs : forall reg, reg ∈ regs -> RMap.accepts reg = true ∧ reg.name = service)
    (hname : name ≠ service) : (c.load regs).list name = c.list name := by
  rw [list_load_eq]
  unfold Event.loaded
  induction regs generalizing c with
  | nil => rfl
  | cons reg rest ih =>
      rcases List.forall_mem_cons.mp hregs with ⟨hreg, hrest⟩
      rw [List.foldl_cons, if_neg fun h => hname (h.right.symm.trans hreg.right)]
      exact ih hrest

theorem rebuilt_load (cache : RegistryCache) {service : String} {regs : RVector}
    (hregs : forall reg, reg ∈ regs -> RMap.accepts reg = true ∧ reg.name = service) :
    Rebuilt cache ((cache.removeName service).load regs) service
      (regs.map Registry.endpoint) where
  endpoints := by
    have hload := Refresh.Lists.load (l := []) (Refresh.lists_removeName cache service)
      fun reg hreg => (hregs reg hreg).right
    rw [List.nil_append, List.filter_eq_self.mpr fun reg hreg => (hregs reg hreg).left] at hload
    exact hload
  once := (((cache.removeName service).load regs).filed service).distinct
  others := by
    intro name hname
    rw [list_load_other hregs hname, RegistryCache.list_removeName, if_neg fun h => hname h.symm]

theorem rebuilt_nil_iff (cache : RegistryCache) (service : String) :
    Rebuilt cache cache service [] <-> cache.list service = [] := by
  constructor
  · intro h
    apply List.map_eq_nil_iff.mp
    exact List.eq_nil_iff_forall_not_mem.mpr fun p hp =>
      List.not_mem_nil ((h.endpoints p).mp hp)
  · intro hnil
    refine ⟨?_, (cache.filed service).distinct, fun _ _ => rfl⟩
    intro p
    rw [hnil]
    rfl

namespace ZkClient

open Program

section Refresh

variable {env : Env} {reconnect : ClientId -> ZkM Bool} {c : ClientId} {w v : World}
variable {service : String} {nodes : List String} {ps : List Endpoint}

theorem readInstance_gives (hlive : Live c v) {node : String} {data : NodeData}
    {endpoint : String × Int}
    (hanswer : env.zooWget v.trace.length (service ++ "/" ++ node) = (zok, data))
    (hread : env.readEndpoint data.data = .ok endpoint) :
    exists w', readInstance env c service node v = Except.ok (true, w') ∧ Live c w' ∧
      w'.trace.length = v.trace.length + 1 ∧
      w'.cache = v.cache.add (readEntry service node data (v.reading env) endpoint) := by
  have hzok := readInstance_zok hlive.right hanswer
  rw [hread] at hzok
  rcases hzok with ⟨w', hrun, hcache⟩
  rcases readInstance_run hlive hanswer (by decide) with ⟨_, hstop, _⟩ | ⟨_, _, _, hrun', hgoes⟩
  · cases hrun.symm.trans hstop
  · cases hrun.symm.trans hrun'
    refine ⟨w', hrun, hgoes.live, ?_, hcache⟩
    rw [hgoes.trace, List.length_append, List.length_singleton]

theorem readInstances_gives (reconnect : ClientId -> ZkM Bool) (hlive : Live c v) (hservice : service ≠ "") (hnodes : "" ∉ nodes)
    (hgives : env.Gives service v.trace.length nodes ps) :
    exists u w' regs, (nodes.forM fun node => do
        let _ <- getServiceInstance env reconnect c service node : ZkM PUnit) v =
          Except.ok (u, w') ∧
      w'.cache = v.cache.load regs ∧ regs.map Registry.endpoint = ps ∧
      forall reg, reg ∈ regs -> RMap.accepts reg = true ∧ reg.name = service := by
  induction nodes generalizing v ps with
  | nil =>
      cases hgives
      exact ⟨_, v, [], rfl, rfl, rfl, fun reg hreg => absurd hreg List.not_mem_nil⟩
  | cons node rest ih =>
      cases hgives with
      | @cons _ _ _ data host port ps hanswer hshort hdata hrest =>
          rcases readEndpoint_of_endpointIn hshort hdata with ⟨hread, hhost⟩
          rcases readInstance_gives hlive hanswer hread with ⟨v', hrun, hlive', hlen, hcache⟩
          have hnode : node ≠ "" := fun heq => hnodes (heq ▸ List.mem_cons_self)
          rcases ih hlive' (fun hmem => hnodes (List.mem_cons_of_mem _ hmem)) (hlen ▸ hrest) with
            ⟨u, w', regs, hloop, hloaded, hendpoints, hregs⟩
          have hfirst : (do let _ <- getServiceInstance env reconnect c service node : ZkM PUnit)
              v = Except.ok (⟨⟩, v') := bind_run ((bind_run (ready_live hlive)).trans hrun)
          refine ⟨u, w', readEntry service node data (v.reading env) (host, port) :: regs,
            (bind_run hfirst).trans hloop, ?_, ?_, ?_⟩
          · rw [hloaded, hcache]
            rfl
          · rw [List.map_cons, hendpoints]
            rfl
          · intro reg hreg
            rcases List.mem_cons.mp hreg with rfl | hrestReg
            · exact ⟨accepts_readEntry.mpr ⟨hservice, hhost, hnode⟩, rfl⟩
            · exact hregs reg hrestReg

/-- A listing that is answered `ZOK` drops the list, unless no node is listed. -/
theorem listService_drops (hlive : Live c v)
    (hlisted : env.zooWgetChildren v.trace.length service = (zok, nodes)) :
    exists u, listService env c service v = Except.ok ((true, nodes), u) ∧ Live c u ∧
      u.trace.length = v.trace.length + 1 ∧
      u.cache = if nodes = [] then v.cache else v.cache.removeName service := by
  rcases listService_run hlive hlisted (by decide) with ⟨u, hrun, hgoes⟩
  rcases listService_records hrun with ⟨rc, nodes', hrecords, _⟩
  have hevent := List.append_cancel_left (hgoes.trace.symm.trans hrecords.trace)
  cases hevent
  refine ⟨u, hrun, hgoes.live, ?_, ?_⟩
  · rw [hgoes.trace, List.length_append, List.length_singleton]
  · rw [hrecords.cache]
    unfold Event.onCache
    dsimp only
    by_cases hnil : nodes = []
    · rw [if_pos hnil, hnil]
      rfl
    · rw [if_neg hnil, if_pos ⟨rfl, List.length_pos_iff.mpr hnil⟩]

theorem getService_gives (hnames : env.Names)
    (hready : ready reconnect c w = Except.ok (true, v)) (hlive : Live c v)
    (hlisted : env.zooWgetChildren v.trace.length service = (zok, nodes))
    (hgives : env.Gives service (v.trace.length + 1) nodes ps) :
    exists w' regs, getService env reconnect c service w = Except.ok (true, w') ∧
      (w'.cache = if nodes = [] then v.cache else (v.cache.removeName service).load regs) ∧
      regs.map Registry.endpoint = ps ∧
      forall reg, reg ∈ regs -> RMap.accepts reg = true ∧ reg.name = service := by
  rcases listService_drops hlive hlisted with ⟨u, hlist, hlive', hlen, hcache⟩
  rcases readInstances_gives reconnect hlive' (hnames.path _ _ _ hlisted)
    (hnames.children _ _ _ hlisted) (hlen.symm ▸ hgives) with
    ⟨_, w', regs, hloop, hloaded, hendpoints, hregs⟩
  refine ⟨w', regs, ?_, ?_, hendpoints, hregs⟩
  · unfold getService
    rw [bind_run hready, if_pos rfl, bind_run hlist]
    exact bind_run hloop
  · rw [hloaded, hcache]
    by_cases hnil : nodes = []
    · rw [if_pos hnil, if_pos hnil]
      rw [hnil] at hgives
      cases hgives
      rw [List.map_eq_nil_iff.mp hendpoints]
      rfl
    · rw [if_neg hnil, if_neg hnil]

section Example

/-- A service with these nodes; the reads of their data are answered so. -/
private def oneService (nodes : List String) (answer : String -> Int × NodeData) : Env where
  parse := Rapidjson.parse
  zookeeperInit := fun _ => false
  zooWgetChildren := fun _ path => if path = "" then (znonode, []) else (zok, nodes)
  zooWget := fun _ path => answer path
  zooCreate := fun _ _ => zok
  zooGet := fun _ _ => zok
  clock := fun n => n
  cacheFile := none

private theorem oneService_names {nodes : List String} (hnodes : "" ∉ nodes)
    (answer : String -> Int × NodeData) : (oneService nodes answer).Names where
  path := by
    intro n path listed hlisted hpath
    rw [hpath] at hlisted
    have hrc : znonode = zok := congrArg Prod.fst hlisted
    exact absurd hrc (by decide)
  children := by
    intro n path listed hlisted
    unfold oneService at hlisted
    dsimp only at hlisted
    split at hlisted
    · have hrc : znonode = zok := congrArg Prod.fst hlisted
      exact absurd hrc (by decide)
    · cases hlisted
      exact hnodes

private def cachedEntry : Registry where
  name := "/soa/services/a"
  host := "h"
  port := 1
  mtime := 5
  ephemeral := "m1"

private def otherEntry : Registry where
  name := "/soa/services/b"
  host := "k"
  port := 2
  mtime := 5
  ephemeral := "m1"

/-- A connected client, and a cache with an instance of the service and one of another. -/
private def cachedWorld : World where
  pool := { ClientPool.start id with
    clients := fun _ => { connected_ := true, zhandle_ := true } }
  cache := (RegistryCache.empty.add cachedEntry).add otherEntry
  trace := []
  ticks := 0
  slept := 0

private theorem live_cachedWorld : Live 1 cachedWorld :=
  ⟨rfl, rfl⟩

private theorem list_cachedWorld : cachedWorld.cache.list "/soa/services/a" = [cachedEntry] := by
  show ((RegistryCache.empty.add cachedEntry).add otherEntry).list "/soa/services/a" = [cachedEntry]
  rw [RegistryCache.list_add, if_neg fun h => absurd h.right (by decide), RegistryCache.list_add,
    if_pos ⟨by decide, rfl⟩, RegistryCache.list_empty]
  rfl

/-- The first and the last of three instances have the same endpoint. -/
private def sharedAnswer (path : String) : Int × NodeData :=
  if path = "/soa/services/a" ++ "/" ++ "m2" then (zok, { data := endpointText "k" "2" })
  else (zok, { data := endpointText "h" "1" })

private theorem sharedAnswer_first {path : String}
    (hpath : path ≠ "/soa/services/a" ++ "/" ++ "m2") :
    sharedAnswer path = (zok, { data := endpointText "h" "1" }) :=
  if_neg hpath

private theorem sharedAnswer_gives (n : Nat) :
    (oneService ["m1", "m2", "m3"] sharedAnswer).Gives "/soa/services/a" n ["m1", "m2", "m3"]
      [{ name := "/soa/services/a", host := "h", port := 1 },
        { name := "/soa/services/a", host := "k", port := 2 },
        { name := "/soa/services/a", host := "h", port := 1 }] := by
  have hfirst : endpointIn (jsonValue Rapidjson.parse (endpointText "h" "1")) = some ("h", 1) :=
    endpointIn_of_text (by decide +kernel) (by decide +kernel) (by decide)
  have hsecond : endpointIn (jsonValue Rapidjson.parse (endpointText "k" "2")) = some ("k", 2) :=
    endpointIn_of_text (by decide +kernel) (by decide +kernel) (by decide)
  have hshort : (endpointText "h" "1").toList.length < 256 := by decide +kernel
  have hshort' : (endpointText "k" "2").toList.length < 256 := by decide +kernel
  have hm1 : sharedAnswer ("/soa/services/a" ++ "/" ++ "m1") =
      (zok, { data := endpointText "h" "1" }) := sharedAnswer_first (by decide)
  have hm2 : sharedAnswer ("/soa/services/a" ++ "/" ++ "m2") =
      (zok, { data := endpointText "k" "2" }) := if_pos rfl
  have hm3 : sharedAnswer ("/soa/services/a" ++ "/" ++ "m3") =
      (zok, { data := endpointText "h" "1" }) := sharedAnswer_first (by decide)
  exact .cons hm1 hshort hfirst (.cons hm2 hshort' hsecond (.cons hm3 hshort hfirst (.nil _)))

end Example

/-!
## Refreshes that fail half way
-/

/-- No endpoint is lost that was cached from a node in the list. -/
def KeepsListed (cache cache' : RegistryCache) (service : String) (nodes : List String) : Prop :=
  forall r, r ∈ cache.list service -> r.ephemeral ∈ nodes -> cache'.Caches r.endpoint

variable {depth : Nat}

theorem caches_of_dropped {u w' : World} (hempty : u.cache.list service = [])
    (hexplained : Explained env u w') {p : Endpoint} (hp : p.name = service)
    (hcached : w'.cache.Caches p) :
    exists e, e ∈ happened u w' ∧ (e.registration env p).isSome = true := by
  rcases (ServerHandler.caches_iff_renewed hexplained p).mp hcached with ⟨mtime, hholds⟩
  rcases hholds with ⟨first, e, rest, hsplit, hwrites, _⟩ | ⟨hstamp, _⟩
  · refine ⟨e, ?_, Option.isSome_iff_exists.mpr ⟨mtime, hwrites⟩⟩
    rw [hsplit]
    exact List.mem_append_right _ List.mem_cons_self
  · rcases RegistryCache.stampOf_eq_some.mp hstamp with ⟨r, hr, _⟩
    rw [hp, hempty] at hr
    cases hr

/--
A refresh never tells that a read of an instance failed, and after it only those
endpoints are cached that it has read.
-/
theorem getService_hides_failures
    (hready : ready (connectZk env depth) c w = Except.ok (true, v)) (hlive : Live c v)
    (hlisted : env.zooWgetChildren v.trace.length service = (zok, nodes)) :
    (¬ exists w', getService env (connectZk env depth) c service w = Except.ok (false, w') ∧
      KeepsListed v.cache w'.cache service nodes) ∧
    forall b w', getService env (connectZk env depth) c service w = Except.ok (b, w') ->
      nodes ≠ [] -> forall p, p.name = service -> w'.cache.Caches p ->
        exists e, e ∈ happened v w' ∧ (e.registration env p).isSome = true := by
  constructor
  · intro h
    rcases h with ⟨w', hrun, _⟩
    have htrue := (getService_listed hready hrun).mpr ⟨hlive.right, congrArg Prod.fst hlisted⟩
    cases htrue
  · intro b w' hrun hnodes p hp hcached
    rcases listService_drops hlive hlisted with ⟨u, hlist, _, _, hcache⟩
    rcases listService_records hlist with ⟨rc, nodes', hrecords, _⟩
    have hempty : u.cache.list service = [] := by
      rw [hcache, if_neg hnodes, RegistryCache.list_removeName, if_pos rfl]
    unfold getService at hrun
    rw [bind_run hready, if_pos rfl, bind_run hlist] at hrun
    have hexplained : Explained env u w' :=
      Explained.of_steps (c := c) (readInstances_steps (connectZk_steps depth) service nodes true)
        hrun
    rcases caches_of_dropped hempty hexplained hp hcached with ⟨e, he, hregistered⟩
    refine ⟨e, ?_, hregistered⟩
    rcases hexplained with ⟨events, htrace, _⟩
    rw [happened_of_append htrace] at he
    rw [hrecords.trace, List.append_assoc] at htrace
    rw [happened_of_append htrace]
    exact List.mem_append_right _ he

section Example

/-- The read of the only instance is answered `ZINVALIDSTATE`. -/
theorem failed_read_is_hidden :
    ¬ exists w', getService (oneService ["m1"] fun _ => (zinvalidstate, {}))
        (connectZk (oneService ["m1"] fun _ => (zinvalidstate, {})) 1) 1 "/soa/services/a" cachedWorld =
          Except.ok (false, w') ∧
      KeepsListed cachedWorld.cache w'.cache "/soa/services/a" ["m1"] := by
  have hlisted : (oneService ["m1"] fun _ => (zinvalidstate, {})).zooWgetChildren
      cachedWorld.trace.length "/soa/services/a" = (zok, ["m1"]) := rfl
  exact (getService_hides_failures (ready_live live_cachedWorld) live_cachedWorld hlisted).left

/-- A refresh that loses its session at the first instance. -/
theorem lost_session_is_hidden :
    ¬ forall (env : Env) (depth : Nat) (c : ClientId) (w : World) (service node : String)
        (nodes : List String), Live c w ->
      env.zooWgetChildren w.trace.length service = (zok, nodes) -> node ∈ nodes ->
      (forall n, (env.zooWget n (service ++ "/" ++ node)).1 = zinvalidstate ∨
        (env.zooWget n (service ++ "/" ++ node)).1 = zconnectionloss) ->
      (forall n, env.zookeeperInit n = false) ->
      exists w', getService env (connectZk env (depth + 1)) c service w =
          Except.ok (false, w') ∧
        KeepsListed w.cache w'.cache service nodes := by
  intro h
  have hlisted : (oneService ["m1"] fun _ => (zinvalidstate, {})).zooWgetChildren
      cachedWorld.trace.length "/soa/services/a" = (zok, ["m1"]) := rfl
  rcases h (oneService ["m1"] fun _ => (zinvalidstate, {})) 0 1 cachedWorld "/soa/services/a" "m1" ["m1"]
    live_cachedWorld hlisted (List.mem_singleton_self _) (fun _ => Or.inl rfl) (fun _ => rfl) with
    ⟨w', hrun, _⟩
  have htrue := (getService_listed (ready_live live_cachedWorld) hrun).mpr
    ⟨live_cachedWorld.right, congrArg Prod.fst hlisted⟩
  cases htrue

end Example

end Refresh

end ZkClient

end FrProxy
