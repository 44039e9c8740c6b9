import FrProxy.ServerHandler.Stabilization
import FrProxy.ZkClient.Rereading

/-!
# Tasks on a tree that changes between them

The pool keeps one connected client, which owns all states.  Each task and each
callback returns; what it reads it reads from the tree of the moment, and it
leaves a watch behind for everything that it read.
-/

namespace FrProxy

open Program

theorem StateBag.OwnedBy.getList_zero {bag : StateBag} {c : ClientId} (h : bag.OwnedBy c)
    (hc : c ≠ 0) {ptr : StatePtr} (hptr : ptr ∈ bag.getList 0) :
    (bag.deref ptr).isSome = true ∧ exists path, ptr.key = createKey path .createEphereral := by
  rcases StateBag.deref_of_mem_getList hptr with ⟨state, hstate, hzero⟩
  have hget := StateBag.get_of_deref hstate
  have htype : state.type = .createEphereral :=
    (h ptr.key state hget).resolve_left fun hown => hc (hown.symm.trans hzero)
  refine ⟨Option.isSome_iff_exists.mpr ⟨state, hstate⟩, state.path, ?_⟩
  rw [<- StateBag.key_of_get hget, ZkState.key, htype]

theorem stampOf_of_subset {cache cache' : RegistryCache}
    (h : forall name, cache'.list name ⊆ cache.list name) (p : Endpoint) :
    cache'.stampOf p = cache.stampOf p ∨ cache'.stampOf p = none := by
  cases hstamp : cache'.stampOf p with
  | none => exact Or.inr rfl
  | some mtime =>
      rcases RegistryCache.stampOf_eq_some.mp hstamp with ⟨r, hr, hendpoint, hmtime⟩
      exact Or.inl (RegistryCache.stampOf_eq_some.mpr ⟨r, h _ hr, hendpoint, hmtime⟩).symm

theorem list_drop_subset (watcher : Watcher) (path : String) (cache : RegistryCache)
    (name : String) : (Watcher.drop path watcher cache).list name ⊆ cache.list name := by
  have hname : (cache.removeName path).list name ⊆ cache.list name := by
    rw [RegistryCache.list_removeName]
    split
    · exact List.nil_subset _
    · exact List.Subset.refl _
  cases watcher with
  | serviceInstance =>
      show (cache.removeEphemeral _ _).list name ⊆ cache.list name
      rw [RegistryCache.list_removeEphemeral]
      split
      · exact List.eraseP_subset
      · exact List.Subset.refl _
  | root => exact hname
  | service => exact hname

namespace ServerHandler

theorem servicePath_inj {name other : String} (h : servicePath name = servicePath other) :
    name = other := by
  have hlist : (root ++ "/").toList ++ name.toList = (root ++ "/").toList ++ other.toList := by
    simpa only [servicePath, String.toList_append] using congrArg String.toList h
  exact String.toList_inj.mp (List.append_cancel_left hlist)

theorem servicePath_ne_root (name : String) : servicePath name ≠ root := by
  intro heq
  have hlength := congrArg String.length heq
  have hslash : "/".length = 1 := by decide
  rw [servicePath, String.length_append, String.length_append] at hlength
  omega

theorem servicePath_ne_empty (name : String) : servicePath name ≠ "" := by
  intro heq
  have hlength := congrArg String.length heq
  simp [servicePath, root, String.length_append] at hlength

def NodeName (name : String) : Prop :=
  name ≠ "" ∧ '/' ∉ name.toList

def servicesOf {parse : String -> Option Json} (t : ZkTree parse) : List String :=
  (t.children root).map servicePath

/-- ZooKeeper is up, and answers from the tree; a creation has any answer that keeps the session. -/
structure Answers (env : Env) (t : ZkTree env.parse) : Prop where
  create : forall n path, env.zooCreate n path ≠ zinvalidstate
  get : forall n, env.zooGet n root = zok
  root : forall n, env.zooWgetChildren n root = (zok, t.children root)
  offered : forall service, service ∈ servicesOf t -> Offered env t service
  absent : forall name n, NodeName name -> servicePath name ∉ servicesOf t ->
    env.zooWgetChildren n (servicePath name) = (znonode, [])
  clock : Monotone env.clock

structure Kept (env : Env) (c : ClientId) (w : World) : Prop where
  resting : Resting w
  idle : w.pool.idle_ = [c]
  live : Live c w
  dated : Dated (w.reading env) w.cache
  owned : Owned c w

theorem Kept.ne_zero {env : Env} {c : ClientId} {w : World} (h : Kept env c w) : c ≠ 0 := by
  intro heq
  subst heq
  apply h.resting.positive
  rw [h.idle]
  exact List.mem_singleton_self 0

/-- During a task that began in `w`, before it read anything. -/
structure Begun (env : Env) (c : ClientId) (w v : World) : Prop where
  borrowed : Borrowed env c v
  owned : Owned c v
  nonzero : c ≠ 0
  cache : v.cache = w.cache
  watches : v.watches = w.watches

/-- A task went from one world to another, and left these watches behind. -/
structure Served (env : Env) (c : ClientId) (watches : List Watch) (w w' : World) : Prop where
  kept : Kept env c w'
  watches : w'.watches = w.watches ++ watches

section World

variable {env : Env} {t : ZkTree env.parse} {depth : Nat} {c : ClientId} {w w' : World}
variable {watches : List Watch}

theorem open_begins (hclock : Monotone env.clock) (h : Kept env c w) :
    Returns (ZkClient.poolOpen env depth) w fun r v => r = some c ∧ Begun env c w v := by
  have hopened : ZkClient.opened env w = (lentKept (w.pool.destroyClients false) c, some c) :=
    opened_kept h.resting h.idle h.live.left
  have hclients : (ZkClient.stamped env w c).pool.clients c = {
      w.pool.clients c with
      usingCounter := (w.pool.clients c).usingCounter + 1
      useTimes_ := (w.pool.clients c).useTimes_ + 1
      lastUse_ := env.clock (w.ticks + 1) + w.slept } := by
    simp [ZkClient.stamped, hopened, lentKept, ClientPool.stamp, ClientPool.setInUsing,
      ClientPool.updateClient, ClientPool.destroyClients]
  have hbag : (ZkClient.stamped env w c).pool.stateBag_ = w.pool.stateBag_ := by
    simp [ZkClient.stamped, hopened, lentKept, ClientPool.stamp, ClientPool.setInUsing,
      ClientPool.updateClient, ClientPool.destroyClients]
  have hlive : Live c (ZkClient.stamped env w c) := by
    constructor
    · exact (congrArg ZkClient.connected_ hclients).trans h.live.left
    · exact (congrArg ZkClient.zhandle_ hclients).trans h.live.right
  have hrun : ZkClient.poolOpen env depth w = Except.ok (some c, ZkClient.stamped env w c) :=
    poolOpen_live (by rw [hopened]) hlive.left
  have hlater : Later env w (ZkClient.stamped env w c) :=
    ⟨Nat.le_add_right _ 2, Nat.le_refl _, fun _ => Or.inl rfl⟩
  have hlending : exists d, some c = some d ∧ Lending d (ZkClient.stamped env w c) :=
    open_lends.ok h.resting hrun
  rcases hlending with ⟨d, hd, hlending⟩
  cases hd
  refine ⟨_, _, hrun, rfl, ⟨hlending, hlive, h.dated.later hclock hlater⟩, ?_, h.ne_zero, rfl, rfl⟩
  intro key s hs
  rw [hbag] at hs
  exact h.owned key s hs

theorem close_serves (hborrowed : Borrowed env c w) (howned : Owned c w) :
    Returns (ZkClient.close c) w fun _ w' => Served env c [] w w' ∧ w'.cache = w.cache := by
  have hconn : (w.pool.setInUsing c false).getConnected c = true := by
    rw [ClientPool.getConnected_setInUsing]
    exact hborrowed.live.left
  have hclose : (w.pool.setInUsing c false).onClientClosing c = {
      w.pool.setInUsing c false with
      using_ := (w.pool.setInUsing c false).using_.erase c
      idle_ := ClientPool.insertClient (w.pool.setInUsing c false).addr c
        (w.pool.setInUsing c false).idle_ } := by
    rcases (w.pool.setInUsing c false).onClientClosing_cases c with ⟨_, hclose⟩ | ⟨hdown, _⟩
    · exact hclose
    · rw [hconn] at hdown
      cases hdown
  have hclients : ((w.pool.setInUsing c false).onClientClosing c).clients c = {
      w.pool.clients c with usingCounter := (w.pool.clients c).usingCounter - 1 } := by
    simp [ClientPool.setInUsing, ClientPool.updateClient]
  refine ⟨⟨⟩, { w with pool := (w.pool.setInUsing c false).onClientClosing c }, rfl, ?_, rfl⟩
  refine ⟨⟨hborrowed.lending.close, ?_, ⟨?_, ?_⟩, hborrowed.dated, ?_⟩, (List.append_nil _).symm⟩
  · show ((w.pool.setInUsing c false).onClientClosing c).idle_ = [c]
    rw [hclose]
    have hnone : w.pool.idle_ = [] := hborrowed.lending.none
    simp [hnone, ClientPool.insertClient]
  · exact (congrArg ZkClient.connected_ hclients).trans hborrowed.live.left
  · exact (congrArg ZkClient.zhandle_ hclients).trans hborrowed.live.right
  · intro key s hs
    have hbag : ((w.pool.setInUsing c false).onClientClosing c).stateBag_ = w.pool.stateBag_ := by
      rw [hclose]
      rfl
    exact howned key s (hbag ▸ hs)

theorem borrow_serves {α : Type} {Q : α -> World -> Prop} (hclock : Monotone env.clock)
    (h : Kept env c w) {task : Option ClientId -> ZkM α}
    (htask : forall v, Begun env c w v -> Returns (task (some c)) v Q) :
    Returns (ZkClient.poolOpen env depth >>= task) w Q := by
  apply Returns.bind (open_begins hclock h)
  intro r v hpost
  rcases hpost with ⟨rfl, hbegun⟩
  exact htask v hbegun

theorem Begun.close_serves {v : World} (h : Begun env c w v) :
    Returns (ZkClient.close c) v fun _ w' => Served env c [] w w' ∧ w'.cache = w.cache := by
  apply (ServerHandler.close_serves h.borrowed h.owned).mono
  intro _ w' hpost
  rcases hpost with ⟨hserved, hcache⟩
  exact ⟨⟨hserved.kept, by rw [hserved.watches, h.watches]⟩, hcache.trans h.cache⟩

theorem use_serves {α : Type} {v : World} {R : List Watch -> RegistryCache -> Prop}
    (hclock : Monotone env.clock) (h : Begun env c w v) {x : ZkM α} (hlends : Lends c x)
    (hx : Returns x v fun _ v' => exists watches, Reads env c watches v v' ∧ R watches v'.cache) :
    Returns (x >>= fun _ => ZkClient.close c) v fun _ w' =>
      exists watches, Served env c watches w w' ∧ R watches w'.cache := by
  apply Returns.bind (hx.avoids hlends h.borrowed.lending)
  intro _ u hpost
  rcases hpost with ⟨⟨watches, hreads, hcache⟩, hlending⟩
  have hborrowed : Borrowed env c u :=
    ⟨hlending, hreads.live, h.borrowed.dated.later hclock hreads.later⟩
  apply (close_serves hborrowed (hreads.owned h.owned)).mono
  intro _ w' hpost
  rcases hpost with ⟨hserved, hsame⟩
  refine ⟨watches, ⟨hserved.kept, ?_⟩, hsame ▸ hcache⟩
  rw [hserved.watches, hreads.watches, h.watches, List.append_nil]

/-!
## Tasks that read nothing
-/

theorem keepAwake_serves (hclock : Monotone env.clock) (h : Kept env c w) :
    Returns (keepAwake env depth) w fun _ w' => Served env c [] w w' ∧ w'.cache = w.cache := by
  apply Returns.getBind
  rw [if_pos (show w.pool.using_.length = 0 by rw [h.resting.unused]; rfl)]
  exact borrow_serves hclock h fun v hbegun => hbegun.close_serves

theorem status_serves (hclock : Monotone env.clock) (h : Kept env c w) (host : Host) :
    Returns (status env depth host) w fun _ w' => Served env c [] w w' ∧ w'.cache = w.cache := by
  have hconn : Returns (connStatus env depth) w fun _ w' =>
      Served env c [] w w' ∧ w'.cache = w.cache := by
    apply Returns.getBind
    split
    · exact Returns.pure ⟨⟨h, (List.append_nil _).symm⟩, rfl⟩
    · apply borrow_serves hclock h
      intro v hbegun
      refine Returns.bindOk (a := v.pool.getConnected c) (t := v) rfl ?_
      exact Returns.bind hbegun.close_serves fun _ w' hserved => Returns.pure hserved
  apply Returns.bind hconn
  intro ret v hserved
  exact Returns.getBind (Returns.pure hserved)

theorem nowInMs_serves (hclock : Monotone env.clock) (h : Kept env c w) :
    Returns (nowInMs env) w fun _ w' => Served env c [] w w' ∧ w'.cache = w.cache := by
  have hlater : Later env w { w with ticks := w.ticks + 1 } :=
    ⟨Nat.le_succ _, Nat.le_refl _, fun _ => Or.inl rfl⟩
  exact ⟨_, _, rfl, ⟨⟨h.resting, h.idle, h.live, h.dated.later hclock hlater, h.owned⟩,
    (List.append_nil _).symm⟩, rfl⟩

theorem createPnode_reads (hanswers : Answers env t) (hlive : Live c w)
    {reconnect : ClientId -> ZkM Bool} (absPath : String) :
    Returns (ZkClient.createPnode env reconnect c absPath) w fun _ w' =>
      Reads env c [] w w' ∧ w'.cache = w.cache := by
  have hkept := hanswers.create w.trace.length absPath
  apply Returns.bindOk (ZkClient.ready_live hlive)
  simp only [if_true, ZkClient.makePnode, ZkClient.zooCreate, log, bind_assoc, pure_bind,
    get_bind_run, modify_bind_run, hlive.right, if_neg hkept, Returns]
  exact ⟨_, _, rfl, ⟨hlive, Later.same rfl (Nat.le_refl _) (Nat.le_refl _), fun h => h,
    by simp [World.watches, Event.watch?]⟩, rfl⟩

theorem createEnode_reads (hanswers : Answers env t) (hlive : Live c w)
    {reconnect : ClientId -> ZkM Bool} (absPath data : String) :
    Returns (ZkClient.createEnode env reconnect c absPath data) w fun _ w' =>
      (Reads env c [] w w' ∧ w'.cache = w.cache) ∧
      forall ptr, (w.pool.stateBag_.deref ptr).isSome = true ->
        (w'.pool.stateBag_.deref ptr).isSome = true := by
  have hkept := hanswers.create w.trace.length absPath
  apply Returns.bindOk (ZkClient.ready_live hlive)
  simp only [if_true, ZkClient.makeEnode, ZkClient.zooCreate, log, ZkClient.saveState, mapBag,
    mapPool, bind_assoc, pure_bind, get_bind_run, modify_bind_run, hlive.right, if_neg hkept,
    Returns]
  by_cases hexists : env.zooCreate w.trace.length absPath = znodeexists
  · rw [if_pos hexists]
    refine ⟨_, _, rfl, ⟨⟨hlive, Later.same rfl (Nat.le_refl _) (Nat.le_refl _),
      fun h => (h.add rfl).free absPath 0, ?_⟩, rfl⟩, fun ptr hptr => ?_⟩
    · simp [World.watches, Event.watch?]
    · exact (StateBag.isSome_deref_replaceClientIdOf _ _).mpr (StateBag.isSome_deref_add _ hptr)
  · rw [if_neg hexists]
    refine ⟨_, _, rfl, ⟨⟨hlive, Later.same rfl (Nat.le_refl _) (Nat.le_refl _),
      fun h => h.add rfl, ?_⟩, rfl⟩, fun ptr hptr => StateBag.isSome_deref_add _ hptr⟩
    simp [World.watches, Event.watch?]

theorem registerWith_reads (hanswers : Answers env t) (hlive : Live c w) (hostname : String)
    (port : Int) : Returns (registerWith env depth hostname port c) w fun _ w' =>
      Reads env c [] w w' ∧ w'.cache = w.cache := by
  refine Returns.bindOk (a := true) (t := w) ?_ ?_
  · simp only [ZkClient.getConnected, get_bind_run, hlive.left]
    rfl
  rw [if_pos rfl]
  apply Returns.bind (createPnode_reads hanswers hlive _)
  intro _ u hpost
  rcases hpost with ⟨hu, hucache⟩
  apply Returns.bind (createPnode_reads hanswers hu.live _)
  intro _ v hpost
  rcases hpost with ⟨hv, hvcache⟩
  apply Returns.discard
  apply (createEnode_reads hanswers hv.live _ _).mono
  intro _ w' hpost
  rcases hpost with ⟨⟨hw, hwcache⟩, _⟩
  exact ⟨(hu.trans hanswers.clock hv).trans hanswers.clock hw,
    hwcache.trans (hvcache.trans hucache)⟩

theorem register_serves (hanswers : Answers env t) {v : World} (h : Begun env c w v)
    (hostname : String) (port : Int) :
    Returns (registerWith env depth hostname port c >>= fun _ => ZkClient.close c) v fun _ w' =>
      Served env c [] w w' ∧ w'.cache = w.cache := by
  have hread : Returns (registerWith env depth hostname port c) v fun _ v' =>
      exists watches, Reads env c watches v v' ∧ watches = [] ∧ v'.cache = w.cache :=
    (registerWith_reads hanswers h.borrowed.live hostname port).mono
      fun _ _ hreads => ⟨[], hreads.left, rfl, hreads.right.trans h.cache⟩
  apply (use_serves (R := fun watches cache => watches = [] ∧ cache = w.cache) hanswers.clock h
    registerWith_lends hread).mono
  intro _ w' hpost
  rcases hpost with ⟨watches, hserved, rfl, hcache⟩
  exact ⟨hserved, hcache⟩

theorem registerSelf_serves (hanswers : Answers env t) (h : Kept env c w) (hostname : String)
    (port : Int) : Returns (registerSelf env depth hostname port) w fun _ w' =>
      Served env c [] w w' ∧ w'.cache = w.cache :=
  borrow_serves hanswers.clock h fun _ hbegun => register_serves hanswers hbegun hostname port

/-!
## Fetch and check
-/

/-- The services are read from the tree into the cache; other lists of the tree stay. -/
structure Fetched {parse : String -> Option Json} (t : ZkTree parse) (services : List String)
    (watches : List Watch) (cache cache' : RegistryCache) : Prop where
  listed : forall service, service ∈ services -> service ∈ servicesOf t
  watched : forall service, service ∈ services -> t.watchesOf service ⊆ watches
  filled : forall service, service ∈ services -> t.children service ≠ [] ->
    t.Filled 0 service (cache'.list service)
  kept : forall service, service ∈ servicesOf t -> service ∉ services ->
    cache'.list service = cache.list service
  shrunk : forall name, name ∉ services ∨ t.children name = [] ->
    cache'.list name ⊆ cache.list name

theorem fetched_none (t : ZkTree env.parse) (watches : List Watch) (cache : RegistryCache) :
    Fetched t [] watches cache cache where
  listed := fun _ h => absurd h List.not_mem_nil
  watched := fun _ h => absurd h List.not_mem_nil
  filled := fun _ h => absurd h List.not_mem_nil
  kept := fun _ _ _ => rfl
  shrunk := fun _ _ _ h => h

theorem fetched_of_reread {low : Nat} {services : List String} {cache cache' : RegistryCache}
    (h : t.Reread low services cache cache')
    (hlisted : forall service, service ∈ services -> service ∈ servicesOf t)
    (hwatched : forall service, service ∈ services -> t.watchesOf service ⊆ watches) :
    Fetched t services watches cache cache' where
  listed := hlisted
  watched := hwatched
  filled := fun service hservice hchildren =>
    (h.filled service hservice hchildren).earlier (Nat.zero_le low)
  kept := fun service _ hother => h.kept service (Or.inl hother)
  shrunk := fun name hname _ hr => h.kept name hname ▸ hr

theorem getService_fetches (hanswers : Answers env t) {reconnect : ClientId -> ZkM Bool}
    (hlive : Live c w) {name : String} (hname : NodeName name) :
    Returns (ZkClient.getService env reconnect c (servicePath name)) w fun _ w' =>
      exists watches services, Reads env c watches w w' ∧
        Fetched t services watches w.cache w'.cache ∧
        (servicePath name ∈ servicesOf t -> servicePath name ∈ services) := by
  by_cases hin : servicePath name ∈ servicesOf t
  · apply (ZkClient.getService_reads hanswers.clock hlive (hanswers.offered _ hin)).mono
    intro _ w' hpost
    rcases hpost with ⟨_, hreads, hreread⟩
    refine ⟨_, [servicePath name], hreads, fetched_of_reread hreread ?_ ?_,
      fun _ => List.mem_singleton_self _⟩
    · intro service hservice
      rw [List.mem_singleton.mp hservice]
      exact hin
    · intro service hservice
      rw [List.mem_singleton.mp hservice]
      exact List.Subset.refl _
  · have habsent : Returns (ZkClient.getService env reconnect c (servicePath name)) w
        fun _ w' => Reads env c [] w w' ∧ w'.cache = w.cache :=
      ZkClient.getService_missing hlive fun n => hanswers.absent name n hname hin
    apply habsent.mono
    intro _ w' hpost
    rcases hpost with ⟨hreads, hcache⟩
    rw [hcache]
    exact ⟨[], [], hreads, fetched_none t [] w.cache, fun h => absurd h hin⟩

theorem getAllServices_fetches (hanswers : Answers env t) {reconnect : ClientId -> ZkM Bool}
    (hlive : Live c w) :
    Returns (ZkClient.getAllServices env reconnect c root) w fun _ w' =>
      exists watches, Reads env c watches w w' ∧ (Watcher.root, root) ∈ watches ∧
        (forall service, service ∈ servicesOf t -> t.watchesOf service ⊆ watches) ∧
        t.Reread (w.reading env) (servicesOf t) w.cache w'.cache := by
  apply (ZkClient.getAllServices_reads hanswers.clock hlive hanswers.root fun node hnode =>
    hanswers.offered _ (List.mem_map_of_mem hnode)).mono
  intro _ w' hpost
  rcases hpost with ⟨hreads, hreread⟩
  refine ⟨_, hreads, List.mem_cons_self, ?_, hreread⟩
  intro service hservice x hx
  exact List.mem_cons_of_mem _ (List.mem_flatMap.mpr ⟨service, hservice, hx⟩)

def FetchedOne {parse : String -> Option Json} (t : ZkTree parse) (name : String)
    (watches : List Watch) (cache cache' : RegistryCache) : Prop :=
  exists services, Fetched t services watches cache cache' ∧
    (servicePath name ∈ servicesOf t -> servicePath name ∈ services)

theorem fetchService_serves (hanswers : Answers env t) (h : Kept env c w) {name : String}
    (hname : NodeName name) :
    Returns (fetchService env depth (servicePath name)) w fun _ w' => exists watches,
      Served env c watches w w' ∧ FetchedOne t name watches w.cache w'.cache := by
  apply borrow_serves hanswers.clock h
  intro v hbegun
  have hlends : Lends c (ZkClient.getService env (ZkClient.connectZk env depth) c
      (servicePath name)) := lends_of_steps env (Watcher.service.reread_steps (servicePath name) c)
  apply use_serves (R := fun watches cache => FetchedOne t name watches w.cache cache)
    hanswers.clock hbegun hlends
  apply (getService_fetches hanswers hbegun.borrowed.live hname).mono
  intro _ v' hpost
  rcases hpost with ⟨watches, services, hreads, hfetched, hin⟩
  rw [hbegun.cache] at hfetched
  exact ⟨watches, hreads, services, hfetched, hin⟩

structure FetchedAll {parse : String -> Option Json} (t : ZkTree parse) (watches : List Watch)
    (cache cache' : RegistryCache) : Prop where
  fetched : Fetched t (servicesOf t) watches cache cache'
  root : (Watcher.root, root) ∈ watches

theorem fetchedAll_of_reread {low : Nat} {cache cache' : RegistryCache}
    (h : t.Reread low (servicesOf t) cache cache') (hroot : (Watcher.root, root) ∈ watches)
    (hwatched : forall service, service ∈ servicesOf t -> t.watchesOf service ⊆ watches) :
    FetchedAll t watches cache cache' :=
  ⟨fetched_of_reread h (fun _ h => h) hwatched, hroot⟩

def OnlyRead {parse : String -> Option Json} (t : ZkTree parse) (cache : RegistryCache) : Prop :=
  forall name, name ∉ servicesOf t ∨ t.children name = [] -> cache.list name = []

theorem reread_purge {low now : Nat} {cache cache' : RegistryCache}
    (h : t.Reread low (servicesOf t) cache cache') (hnow : now ≤ low)
    (hroot : (Watcher.root, root) ∈ watches)
    (hwatched : forall service, service ∈ servicesOf t -> t.watchesOf service ⊆ watches)
    (hdated : forall name r, r ∈ cache.list name -> r.mtime < now) :
    FetchedAll t watches cache (cache'.removeOverdue now) ∧
      OnlyRead t (cache'.removeOverdue now) := by
  have hclean : OnlyRead t (cache'.removeOverdue now) := by
    intro name hname
    rw [RegistryCache.list_removeOverdue, h.kept name hname]
    apply List.filter_eq_nil_iff.mpr
    intro r hr hfresh
    exact absurd (of_decide_eq_true hfresh) (Nat.not_le_of_lt (hdated name r hr))
  refine ⟨⟨⟨fun _ h => h, hwatched, ?_, fun _ hin hout => absurd hin hout, ?_⟩, hroot⟩, hclean⟩
  · intro service hservice hchildren
    have hfilled := h.filled service hservice hchildren
    have hsame : (cache'.removeOverdue now).list service = cache'.list service := by
      rw [RegistryCache.list_removeOverdue]
      apply List.filter_eq_self.mpr
      intro r hr
      exact decide_eq_true (Nat.le_trans hnow (hfilled.read r hr).right.right)
    rw [hsame]
    exact hfilled.earlier (Nat.zero_le low)
  · intro name hname
    rw [hclean name hname]
    exact List.nil_subset _

/-- The states of own znodes that belong to nobody are restored: they read nothing. -/
theorem takeOverStates_reads (hanswers : Answers env t) (hlive : Live c w)
    {reconnect : ClientId -> ZkM Bool} {states : List StatePtr}
    (hstates : forall ptr, ptr ∈ states -> (w.pool.stateBag_.deref ptr).isSome = true ∧
      exists path, ptr.key = createKey path .createEphereral) :
    Returns (ZkClient.takeOverStates env reconnect c states) w fun _ w' =>
      Reads env c [] w w' ∧ w'.cache = w.cache := by
  let I : World -> Prop := fun u => (Reads env c [] w u ∧ u.cache = w.cache) ∧
    forall ptr, (w.pool.stateBag_.deref ptr).isSome = true ->
      (u.pool.stateBag_.deref ptr).isSome = true
  have hall : Returns (ZkClient.takeOverStates env reconnect c states) w fun _ w' => I w' := by
    refine Returns.forM states (fun ptr u hptr hu => ?_)
      ⟨⟨Reads.refl hlive, rfl⟩, fun _ h => h⟩
    rcases hu with ⟨⟨hreads, hcache⟩, hthere⟩
    rcases hstates ptr hptr with ⟨hsome, path, hkey⟩
    rcases Option.isSome_iff_exists.mp (hthere ptr hsome) with ⟨state, hstate⟩
    have htype : state.type = .createEphereral :=
      (createKey_inj ((StateBag.key_of_get (StateBag.get_of_deref hstate)).trans hkey)).right
    let v : World := { u with
      pool := { u.pool with stateBag_ := u.pool.stateBag_.replaceClientIdOf ptr.key c }
      trace := u.trace ++ [.takeOver ptr.key] }
    have hv : Reads env c [] u v := ⟨hreads.live, Later.same rfl (Nat.le_refl _) (Nat.le_refl _),
      fun h => h.take ptr.key, by simp [v, World.watches, Event.watch?]⟩
    have htaken : ZkClient.takeOver c ptr u = .ok (state, v) := by
      unfold ZkClient.takeOver
      rw [get_bind_run, hstate]
      rfl
    apply Returns.bindOk htaken
    unfold ZkClient.restore
    rw [htype]
    refine Returns.discard ((createEnode_reads hanswers hv.live state.path state.data).mono ?_)
    intro _ w' hpost
    rcases hpost with ⟨⟨hw, hwcache⟩, hleft⟩
    refine ⟨⟨(hreads.trans hanswers.clock hv).trans hanswers.clock hw, hwcache.trans hcache⟩, ?_⟩
    intro other hother
    exact hleft other ((StateBag.isSome_deref_replaceClientIdOf _ _).mpr (hthere other hother))
  exact hall.mono fun _ _ h => h.left

theorem check_reads (hanswers : Answers env t) (hlive : Live c w) (howned : Owned c w)
    (hc : c ≠ 0) {reconnect : ClientId -> ZkM Bool} :
    Returns (ZkClient.check env reconnect c root) w fun a w' =>
      a = true ∧ Reads env c [] w w' ∧ w'.cache = w.cache := by
  apply Returns.bindOk (ZkClient.ready_live hlive)
  rw [if_pos rfl]
  apply Returns.getBind
  apply Returns.bind (takeOverStates_reads hanswers hlive fun _ hptr => howned.getList_zero hc hptr)
  intro _ u hpost
  rcases hpost with ⟨hu, hcache⟩
  simp only [ZkClient.zooGet, log, bind_assoc, pure_bind, get_bind_run, modify_bind_run,
    hu.live.right, if_true, hanswers.get, Returns]
  refine ⟨_, _, rfl, rfl, hu.trans hanswers.clock ⟨hu.live, ?_, fun h => h, ?_⟩, hcache⟩
  · exact Later.same rfl (Nat.le_refl _) (Nat.le_refl _)
  · simp [World.watches, Event.watch?]

theorem scan_reads (hanswers : Answers env t) (hlive : Live c w)
    (hdated : Dated (w.reading env) w.cache) :
    Returns (scan env depth c) w fun _ w' => exists watches, Reads env c watches w w' ∧
      FetchedAll t watches w.cache w'.cache ∧ OnlyRead t w'.cache := by
  let now := env.clock w.ticks + (w.slept + 1)
  let v : World := {
    w with trace := w.trace ++ [.sleep], ticks := w.ticks + 1, slept := w.slept + 1 }
  have hv : Reads env c [] w v := ⟨hlive, ⟨Nat.le_succ _, Nat.le_succ _, fun _ => Or.inl rfl⟩,
    fun h => h, by simp [v, World.watches, Event.watch?]⟩
  have hnow : now ≤ v.reading env := Nat.add_le_add_right (hanswers.clock (Nat.le_succ _)) _
  have hscan : Returns (ZkClient.getAllServices env (ZkClient.connectZk env depth) c root) v _ :=
    getAllServices_fetches hanswers hv.live
  rcases hscan with ⟨b, u, hrun, watches, hreads, hroot, hwatched, hreread⟩
  have hpurged := reread_purge hreread hnow hroot hwatched
    fun name r hr => Nat.lt_succ_of_le (hdated name r hr)
  refine ⟨⟨⟩, { u with trace := u.trace ++ [.purge now], cache := u.cache.removeOverdue now },
    ?_, watches, ?_, hpurged⟩
  · exact bind_ok.mpr ⟨⟨⟩, _, rfl, bind_ok.mpr ⟨now, v, rfl, bind_ok.mpr ⟨b, u, hrun, rfl⟩⟩⟩
  · have hlast : Reads env c [] u
        { u with trace := u.trace ++ [.purge now], cache := u.cache.removeOverdue now } := by
      refine ⟨hreads.live, ⟨Nat.le_refl _, Nat.le_refl _, fun p => ?_⟩, fun h => h, ?_⟩
      · rw [<- or_assoc]
        refine Or.inl (stampOf_of_subset (fun name r hr => ?_) p)
        rw [RegistryCache.list_removeOverdue] at hr
        exact List.mem_of_mem_filter hr
      · simp [World.watches, Event.watch?]
    have hall := (hv.trans hanswers.clock hreads).trans hanswers.clock hlast
    rwa [List.nil_append, List.append_nil] at hall

theorem checkWith_reads (hanswers : Answers env t) (hborrowed : Borrowed env c w)
    (howned : Owned c w) (hc : c ≠ 0) :
    Returns (checkWith env depth c) w fun _ w' => exists watches, Reads env c watches w w' ∧
      FetchedAll t watches w.cache w'.cache ∧ OnlyRead t w'.cache := by
  apply Returns.bind (check_reads hanswers hborrowed.live howned hc)
  intro _ v hpost
  rcases hpost with ⟨rfl, hreads, hcache⟩
  rw [if_pos rfl]
  apply (scan_reads hanswers hreads.live
    (hborrowed.dated.later hanswers.clock hreads.later)).mono
  intro _ w' hpost
  rcases hpost with ⟨watches, hreads', hfetched⟩
  rw [hcache] at hfetched
  exact ⟨watches, hreads.trans hanswers.clock hreads', hfetched⟩

theorem checkWith_lends : Lends c (checkWith env depth c) :=
  checkWith_steps.avoids fun _ _ => TaskMove.lending

theorem check_serves (hanswers : Answers env t) (h : Kept env c w) :
    Returns (check env depth) w fun _ w' => exists watches, Served env c watches w w' ∧
      FetchedAll t watches w.cache w'.cache ∧ OnlyRead t w'.cache := by
  apply borrow_serves hanswers.clock h
  intro v hbegun
  apply use_serves (R := fun watches cache =>
    FetchedAll t watches w.cache cache ∧ OnlyRead t cache) hanswers.clock hbegun checkWith_lends
  apply (checkWith_reads hanswers hbegun.borrowed hbegun.owned hbegun.nonzero).mono
  intro _ v' hpost
  rcases hpost with ⟨watches, hreads, hfetched⟩
  rw [hbegun.cache] at hfetched
  exact ⟨watches, hreads, hfetched⟩

/-!
## Notices
-/

theorem deleted_serves (hanswers : Answers env t) (h : Kept env c w) (watcher : Watcher)
    (path : String) :
    Returns (watcher.callback env depth .deleted path) w fun _ w' =>
      Served env c [] w w' ∧ w'.cache = Watcher.drop path watcher w.cache := by
  apply borrow_serves hanswers.clock h
  intro v hbegun
  have hread : Returns (Watcher.onEvent env depth watcher .deleted path c) v fun _ v' =>
      exists watches, Reads env c watches v v' ∧ watches = [] ∧
        v'.cache = Watcher.drop path watcher w.cache := by
    rw [<- hbegun.cache]
    refine ⟨⟨⟩, _, rfl, [], ?_, rfl, rfl⟩
    refine ⟨hbegun.borrowed.live, ⟨Nat.le_refl _, Nat.le_refl _, fun p => ?_⟩, ?_,
      (List.append_nil _).symm⟩
    · rw [<- or_assoc]
      exact Or.inl (stampOf_of_subset (list_drop_subset watcher path v.cache) p)
    · exact fun howned => howned.remove _
  apply (use_serves (R := fun watches cache =>
    watches = [] ∧ cache = Watcher.drop path watcher w.cache) hanswers.clock hbegun
    (Watcher.onEvent_lends watcher .deleted path c) hread).mono
  intro _ w' hpost
  rcases hpost with ⟨watches, hserved, rfl, hcache⟩
  exact ⟨hserved, hcache⟩

theorem serviceChild_serves (hanswers : Answers env t) (h : Kept env c w) {name : String}
    (hname : NodeName name) :
    Returns (Watcher.callback env depth .service .child (servicePath name)) w fun _ w' =>
      exists watches, Served env c watches w w' ∧ FetchedOne t name watches w.cache w'.cache := by
  apply borrow_serves hanswers.clock h
  intro v hbegun
  apply use_serves (R := fun watches cache => FetchedOne t name watches w.cache cache)
    hanswers.clock hbegun (Watcher.onEvent_lends .service .child (servicePath name) c)
  apply Returns.discard
  apply (getService_fetches hanswers hbegun.borrowed.live hname).mono
  intro _ v' hpost
  rcases hpost with ⟨watches, services, hreads, hfetched, hin⟩
  rw [hbegun.cache] at hfetched
  exact ⟨watches, hreads, services, hfetched, hin⟩

theorem rootChild_serves (hanswers : Answers env t) (h : Kept env c w) :
    Returns (Watcher.callback env depth .root .child root) w fun _ w' =>
      exists watches, Served env c watches w w' ∧ FetchedAll t watches w.cache w'.cache := by
  apply borrow_serves hanswers.clock h
  intro v hbegun
  apply use_serves (R := fun watches cache => FetchedAll t watches w.cache cache)
    hanswers.clock hbegun (Watcher.onEvent_lends .root .child root c)
  apply Returns.discard
  apply (getAllServices_fetches hanswers hbegun.borrowed.live).mono
  intro _ v' hpost
  rcases hpost with ⟨watches, hreads, hroot, hwatched, hreread⟩
  rw [hbegun.cache] at hreread
  exact ⟨watches, hreads, fetchedAll_of_reread hreread hroot hwatched⟩

end World

end ServerHandler

end FrProxy
