import FrProxy.ServerHandler.Notices

/-!
# The routine of the server

What the server does between two changes of the tree: it answers calls, runs its
tasks, and keeps its client and its watches.
-/

namespace FrProxy

open Program

namespace ServerHandler

def instancesOf {parse : String -> Option Json} (t : ZkTree parse) : List String :=
  (servicesOf t).flatMap fun service => (t.children service).map fun node => service ++ "/" ++ node

/-- The clock does not go back, and no creation ends the session. -/
structure Lasting (env : Env) : Prop where
  clock : Monotone env.clock
  create : forall n path, env.zooCreate n path ≠ zinvalidstate

/-- ZooKeeper is up and reads from a tree. -/
def treeEnv (env : Env) (t : ZkTree env.parse) : Env :=
  { env with
    zookeeperInit := fun _ => true
    zooWgetChildren := fun _ path =>
      if path = root ∨ path ∈ servicesOf t then (zok, t.children path) else (znonode, [])
    zooWget := fun _ path =>
      if path ∈ instancesOf t then (zok, (t.data path).node) else (znonode, { data := "" })
    zooGet := fun _ path => if path = root then zok else znonode }

section World

variable {env : Env} {t : ZkTree env.parse} {depth : Nat} {c : ClientId} {w w' : World}
variable {s : Server}

theorem answers_treeEnv (hlasting : Lasting env) (s : Server) :
    Answers (envOf (treeEnv env t) s) t where
  create := hlasting.create
  get := fun _ => show (if root = root then zok else znonode) = zok from if_pos rfl
  root := fun _ =>
    show (if root = root ∨ root ∈ servicesOf t then (zok, t.children root) else (znonode, [])) =
      (zok, t.children root) from if_pos (Or.inl rfl)
  offered := by
    intro service hservice
    rcases Ensemble.exists_name hservice with ⟨name, rfl⟩
    refine ⟨servicePath_ne_empty name, fun _ => if_pos (Or.inr hservice), ?_⟩
    intro _ node hnode
    apply if_pos
    exact List.mem_flatMap.mpr ⟨_, hservice, List.mem_map_of_mem hnode⟩
  absent := by
    intro name _ _ hout
    apply if_neg
    intro hpost
    rcases hpost with hroot | hin
    · exact servicePath_ne_root name hroot
    · exact hout hin
  clock := hlasting.clock

theorem Kept.ofClock {env' : Env} (h : Kept env c w) (hclock : env'.clock = env.clock) :
    Kept env' c w := by
  refine ⟨h.resting, h.idle, h.live, ?_, h.owned⟩
  have hdated := h.dated
  unfold World.reading at hdated ⊢
  rw [hclock]
  exact hdated

theorem Served.ofClock {env' : Env} {watches : List Watch} (h : Served env c watches w w')
    (hclock : env'.clock = env.clock) : Served env' c watches w w' :=
  ⟨h.kept.ofClock hclock, h.watches⟩

theorem first_open {addr : ClientId -> Nat} (hpool : w.pool = ClientPool.start addr)
    (hclock : Monotone env.clock) (hdated : Dated (w.reading env) w.cache) :
    Returns (ZkClient.poolOpen (envOf (treeEnv env t) s) (depth + 1)) w fun r v =>
      r = some 1 ∧ Begun (envOf (treeEnv env t) s) 1 w v := by
  rcases w with ⟨pool, cache, trace, ticks, slept⟩
  cases hpool
  have hrest : Resting {
      pool := ClientPool.start addr, cache := cache, trace := trace, ticks := ticks,
      slept := slept } := ClientPool.atRest_start addr
  have hrun : exists v, ZkClient.poolOpen (envOf (treeEnv env t) s) (depth + 1) {
      pool := ClientPool.start addr, cache := cache, trace := trace, ticks := ticks,
      slept := slept } = .ok (some 1, v) ∧ Live 1 v ∧ v.pool.stateBag_ = StateBag.empty ∧
        v.cache = cache ∧ v.trace = trace ++ [.init true] ∧ v.ticks = ticks + 2 ∧
        v.slept = slept := ⟨_, rfl, ⟨rfl, rfl⟩, rfl, rfl, rfl, rfl, rfl⟩
  rcases hrun with ⟨v, hrun, hlive, hbag, hcache, htrace, hticks, hslept⟩
  rcases open_lends.ok hrest hrun with ⟨d, hd, hlending⟩
  cases hd
  refine ⟨some 1, v, hrun, rfl, ⟨hlending, hlive, ?_⟩, ?_, Nat.one_ne_zero, hcache, ?_⟩
  · apply hdated.later hclock
    refine ⟨?_, ?_, fun p => Or.inl (by rw [hcache])⟩
    · rw [hticks]
      exact Nat.le_add_right ticks 2
    · rw [hslept]
  · intro key state hstate
    rw [hbag] at hstate
    simp at hstate
  · simp [World.watches, htrace, Event.watch?]

theorem noNews_serves (hclock : Monotone env.clock) (h : Kept env c w) (callback : WatchCallback)
    {type : ZkEventType} {state : Int} (hnews : NoNews type state) (path : Option String) :
    Returns (callback.call env depth type state path) w fun _ w' =>
      Served env c [] w w' ∧ w'.cache = w.cache := by
  rcases hnews.call_cases env depth callback path with hnothing | ⟨watcher, p, hcall, hnothing⟩
  · rw [hnothing]
    exact Returns.pure ⟨⟨h, (List.append_nil _).symm⟩, rfl⟩
  · rw [hcall]
    apply borrow_serves hclock h
    intro v hbegun
    dsimp only
    rw [hnothing]
    exact Returns.bindOk (a := ⟨⟩) (t := v) rfl hbegun.close_serves

end World

/-!
## Tasks and calls
-/

/-- What waits for a worker after the start: no task that reads the recovery file. -/
def Usual : Task -> Prop
  | .getService zkpath => exists name, NodeName name ∧ zkpath = servicePath name
  | .warm => False
  | _ => True

/-- What happens between two changes: calls for services, and what the scheduler commits. -/
def Routine : ServerAction -> Prop
  | .get serviceName => NodeName serviceName
  | .commit task => Usual task
  | .watch _ type state _ => NoNews type state
  | .reset _ => False
  | .restart => False
  | .crash _ => False
  | _ => True

def AllUsual (s : Server) : Prop :=
  forall task, task ∈ s.pending -> Usual task

structure Idled (env : Env) (c : ClientId) (s s' : Server) : Prop where
  served : Served env c [] s.world s'.world
  cache : s'.world.cache = s.world.cache
  usual : AllUsual s -> AllUsual s'

/-- The server did something; what it read, it read from the tree. -/
structure Progressed (env : Env) (t : ZkTree env.parse) (c : ClientId) (s s' : Server) : Prop where
  world : exists watches services, Served env c watches s.world s'.world ∧
    Fetched t services watches s.world.cache s'.world.cache
  usual : AllUsual s -> AllUsual s'

section Server

variable {host : Host} {env : Env} {t : ZkTree env.parse} {depth : Nat} {c : ClientId}
variable {s s' s'' : Server}

theorem Idled.trans (h : Idled env c s s') (h' : Idled env c s' s'') : Idled env c s s'' where
  served := ⟨h'.served.kept, by rw [h'.served.watches, h.served.watches, List.append_nil]⟩
  cache := h'.cache.trans h.cache
  usual := fun hs => h'.usual (h.usual hs)

theorem Idled.beside (h : Idled env c s s') (hworld : s''.world = s'.world)
    (husual : AllUsual s' -> AllUsual s'') : Idled env c s s'' where
  served := hworld ▸ h.served
  cache := (congrArg World.cache hworld).trans h.cache
  usual := fun hs => husual (h.usual hs)

theorem Idled.progressed (h : Idled env c s s') : Progressed env t c s s' where
  world := ⟨[], [], h.served, h.cache.symm ▸ fetched_none t [] s.world.cache⟩
  usual := h.usual

theorem idled_refl (h : Kept env c s.world) : Idled env c s s where
  served := ⟨h, (List.append_nil _).symm⟩
  cache := rfl
  usual := fun hs => hs

variable {E : Env}

theorem onWorld_serves {α : Type} {x : Env -> ZkM α} {R : List Watch -> RegistryCache -> Prop}
    (hclock : E.clock = env.clock) (h : Kept env c s.world)
    (hx : Kept (envOf E s) c s.world -> Returns (x (envOf E s)) s.world fun _ w =>
      exists watches, Served (envOf E s) c watches s.world w ∧ R watches w.cache) :
    Returns (onWorld E x) s fun _ s' => (exists watches,
      Served env c watches s.world s'.world ∧ R watches s'.world.cache) ∧
        s'.pending = s.pending := by
  apply (onWorld_returns (hx (h.ofClock hclock))).mono
  intro _ _ hpost
  rcases hpost with ⟨w, ⟨watches, hserved, hcache⟩, rfl⟩
  exact ⟨⟨watches, hserved.ofClock hclock.symm, hcache⟩, rfl⟩

theorem onWorld_idles {α : Type} {x : Env -> ZkM α} (hclock : E.clock = env.clock)
    (h : Kept env c s.world)
    (hx : Kept (envOf E s) c s.world -> Returns (x (envOf E s)) s.world fun _ w =>
      Served (envOf E s) c [] s.world w ∧ w.cache = s.world.cache) :
    Returns (onWorld E x) s fun _ s' => Idled env c s s' := by
  have hserves := onWorld_serves (R := fun watches cache => watches = [] ∧ cache = s.world.cache)
    hclock h fun hs => (hx hs).mono fun _ w hw => ⟨[], hw.left, rfl, hw.right⟩
  apply hserves.mono
  intro _ s' hpost
  rcases hpost with ⟨⟨watches, hserved, rfl, hcache⟩, hpending⟩
  exact ⟨hserved, hcache, fun hs task htask => hs task (hpending ▸ htask)⟩

theorem onWorld_progresses {α : Type} {x : Env -> ZkM α} (hclock : E.clock = env.clock)
    (h : Kept env c s.world)
    (hx : Kept (envOf E s) c s.world -> Returns (x (envOf E s)) s.world fun _ w =>
      exists watches, Served (envOf E s) c watches s.world w ∧
        exists services, Fetched t services watches s.world.cache w.cache) :
    Returns (onWorld E x) s fun _ s' => Progressed env t c s s' := by
  apply (onWorld_serves (R := fun watches cache =>
    exists services, Fetched t services watches s.world.cache cache) hclock h hx).mono
  intro _ s' hpost
  rcases hpost with ⟨⟨watches, hserved, services, hfetched⟩, hpending⟩
  exact ⟨⟨watches, services, hserved, hfetched⟩, fun hs task htask => hs task (hpending ▸ htask)⟩

theorem addTask_idles (h : Kept env c s.world) {task : Task} (htask : Usual task) :
    Returns (addTask task) s fun _ s' => Idled env c s s' := by
  refine ⟨⟨⟩, _, rfl, ?_⟩
  dsimp only
  split
  · refine (idled_refl h).beside rfl fun hs other hother => ?_
    rcases List.mem_append.mp hother with hold | hnew
    · exact hs other hold
    · rw [List.mem_singleton.mp hnew]
      exact htask
  · exact idled_refl h

theorem nowInMs_idles (hmono : Monotone env.clock) (hclock : E.clock = env.clock)
    (h : Kept env c s.world) : Returns (onWorld E nowInMs) s fun _ s' => Idled env c s s' :=
  onWorld_idles hclock h fun hs => nowInMs_serves (hclock.symm ▸ hmono) hs

theorem skipInsert_idles (hmono : Monotone env.clock) (hclock : E.clock = env.clock)
    (h : Kept env c s.world) (path : String) :
    Returns (skipInsert E path) s fun _ s' => Idled env c s s' := by
  apply Returns.bind (nowInMs_idles hmono hclock h)
  intro now u hu
  apply Returns.getBind
  exact Returns.bindOk (modify_run _ _) (Returns.pure (hu.beside rfl fun hs => hs))

theorem get_idles (hmono : Monotone env.clock) (hclock : E.clock = env.clock)
    (h : Kept env c s.world) {serviceName : String} (hname : NodeName serviceName) :
    Returns (get_ E serviceName) s fun _ s' => Idled env c s s' := by
  apply Returns.getBind
  dsimp only
  split
  · apply Returns.bind (skipInsert_idles hmono hclock h _)
    intro inserted u hu
    split
    · have husual : Usual (.getService (servicePath serviceName)) := ⟨serviceName, hname, rfl⟩
      apply Returns.bind (addTask_idles hu.served.kept husual)
      exact fun _ _ hs => Returns.pure (hu.trans hs)
    · exact Returns.pure hu
  · exact Returns.bind (nowInMs_idles hmono hclock h) fun _ _ hs => Returns.pure hs

theorem autosave_idles (hmono : Monotone env.clock) (hclock : E.clock = env.clock)
    (h : Kept env c s.world) : Returns (autosave host E depth writeWhole) s fun _ s' => Idled env c s s' := by
  have hstatus : Returns (onWorld E fun env => status env depth host) s
      fun _ s' => Idled env c s s' :=
    onWorld_idles hclock h fun hs => status_serves (hclock.symm ▸ hmono) hs host
  apply Returns.bind hstatus
  intro ret u hu
  split
  · apply Returns.bind (nowInMs_idles hmono hclock hu.served.kept)
    intro now v hv
    refine ⟨⟨⟩, _, rfl, ?_⟩
    dsimp only
    split
    · exact (hu.trans hv).beside rfl fun hs => hs
    · exact hu.trans hv
  · exact Returns.pure hu

theorem runTask_progresses (hlasting : Lasting env) (h : Kept env c s.world) {task : Task}
    (htask : Usual task) :
    Returns (runTask host (treeEnv env t) depth task) s fun _ s' => Progressed env t c s s' := by
  have hanswers : Answers (envOf (treeEnv env t) s) t := answers_treeEnv hlasting s
  cases task with
  | wake =>
      have hwake : Returns (onWorld (treeEnv env t) fun env => keepAwake env depth) s
          fun _ s' => Idled env c s s' :=
        onWorld_idles rfl h fun hs => keepAwake_serves hanswers.clock hs
      exact hwake.mono fun _ _ hs => hs.progressed
  | check =>
      have hcheck : Returns (onWorld (treeEnv env t) fun env => check env depth) s
          fun _ s' => Progressed env t c s s' := by
        refine onWorld_progresses (E := treeEnv env t) rfl h fun hs => ?_
        apply (check_serves hanswers hs).mono
        intro _ w hpost
        rcases hpost with ⟨watches, hserved, hfetched, _⟩
        exact ⟨watches, hserved, _, hfetched.fetched⟩
      exact hcheck
  | autosave =>
      exact (autosave_idles (E := treeEnv env t) hlasting.clock rfl h).mono fun _ _ hs => hs.progressed
  | warm => exact htask.elim
  | registerSelf =>
      have hregister : Returns (onWorld (treeEnv env t) fun env =>
          registerSelf env depth host.hostname host.port) s fun _ s' => Idled env c s s' :=
        onWorld_idles rfl h fun hs => registerSelf_serves hanswers hs host.hostname host.port
      exact hregister.mono fun _ _ hs => hs.progressed
  | getService zkpath =>
      rcases htask with ⟨name, hname, rfl⟩
      have hfetch : Returns (onWorld (treeEnv env t) fun env =>
          fetchService env depth (servicePath name)) s fun _ s' => Progressed env t c s s' := by
        refine onWorld_progresses (E := treeEnv env t) rfl h fun hs => ?_
        apply (fetchService_serves hanswers hs hname).mono
        intro _ w hpost
        rcases hpost with ⟨watches, hserved, services, hfetched, _⟩
        exact ⟨watches, hserved, services, hfetched⟩
      apply Returns.bind hfetch
      intro _ u hu
      exact ⟨⟨⟩, _, rfl, hu.world, hu.usual⟩

theorem work_progresses (hlasting : Lasting env) (h : Kept env c s.world)
    (husual : AllUsual s) :
    Returns (work host (treeEnv env t) depth) s fun _ s' => Progressed env t c s s' := by
  apply Returns.getBind
  split
  · exact Returns.pure (idled_refl h).progressed
  · next task rest hpending =>
    refine Returns.bindOk (modify_run _ _) ?_
    have htask : Usual task := husual task (hpending ▸ List.mem_cons_self)
    let u : Server := { s with pending := rest }
    have hkept : Kept env c u.world := h
    have hrun : Returns (runTask host (treeEnv env t) depth task) u
        fun _ s' => Progressed env t c u s' := runTask_progresses hlasting hkept htask
    apply hrun.mono
    intro _ s' hpost
    rcases hpost with ⟨hworld, hrest⟩
    refine ⟨hworld, fun _ => hrest fun other hother => ?_⟩
    exact husual other (hpending ▸ List.mem_cons_of_mem _ hother)

theorem act_progresses (hlasting : Lasting env) (h : Kept env c s.world)
    (husual : AllUsual s) {a : ServerAction} (ha : Routine a) :
    Returns (act host (treeEnv env t) depth a) s fun _ s' => Progressed env t c s s' := by
  have hclock : Monotone (envOf (treeEnv env t) s).clock := hlasting.clock
  cases a with
  | get serviceName =>
      exact Returns.bind (get_idles (E := treeEnv env t) hlasting.clock rfl h ha)
        fun _ _ hs => Returns.pure hs.progressed
  | remove serviceName host port =>
      exact Returns.bindOk rfl (Returns.pure (idled_refl h).progressed)
  | reset rounds => exact ha.elim
  | status =>
      have hstatus : Returns (onWorld (treeEnv env t) fun env => status env depth host) s
          fun _ s' => Idled env c s s' :=
        onWorld_idles rfl h fun hs => status_serves hclock hs host
      exact Returns.bind hstatus fun _ _ hs => Returns.pure hs.progressed
  | commit task =>
      exact Returns.bind (addTask_idles h ha) fun _ _ hs => Returns.pure hs.progressed
  | work => exact Returns.bind (work_progresses hlasting h husual) fun _ _ hs => Returns.pure hs
  | expire zkpath =>
      refine Returns.bindOk (modify_run _ _) (Returns.pure (Idled.progressed ?_))
      refine (idled_refl h).beside rfl fun hs task htask => ?_
      exact hs task (List.mem_of_mem_erase htask)
  | watch callback type state path =>
      have hcall : Returns (onWorld (treeEnv env t) fun env =>
          callback.call env depth type state path) s fun _ s' => Idled env c s s' :=
        onWorld_idles rfl h fun hs => noNews_serves hclock hs callback ha path
      exact Returns.bind hcall fun _ _ hs => Returns.pure hs.progressed
  | restart => exact ha.elim
  | crash written => exact ha.elim

/-!
## The start
-/

theorem fromFile_keeps {w : World} (hmono : Monotone env.clock)
    (hfile : Readable env.parse env.cacheFile) (h : Kept env c w) :
    Returns (fromFile env) w fun _ w' => Kept env c w' := by
  rcases fromFile_dates hmono hfile h.dated with ⟨a, w', hrun, hdated⟩
  have hpool : w'.pool = w.pool := by
    unfold fromFile at hrun
    cases htext : env.cacheFile with
    | none =>
        rw [htext] at hrun
        cases hrun
        rfl
    | some text =>
        rcases hfile text htext (env.clock (w.ticks + 0) + w.slept) with ⟨v, hread⟩
        rw [htext] at hrun
        simp only [get_bind_run, hread] at hrun
        cases hrun
        rfl
  refine ⟨a, w', hrun, ?_⟩
  constructor
  · exact (congrArg ClientPool.AtRest hpool).mpr h.resting
  · rw [hpool]
    exact h.idle
  · unfold Live
    rw [hpool]
    exact h.live
  · exact hdated
  · intro key state hstate
    rw [hpool] at hstate
    exact h.owned key state hstate

theorem start_registers (host : Host) (hlasting : Lasting env) (addr : ClientId -> Nat)
    (file : Option String) :
    Returns (work host (treeEnv env t) (depth + 1)) (start addr file) fun _ s =>
      Kept env 1 s.world ∧ s.pending = [.warm] ∧ s.cacheFile = file := by
  let u : Server := { start addr file with pending := [.warm] }
  have hdated : Dated (u.world.reading env) u.world.cache := by
    intro name r hr
    rw [show u.world.cache.list name = [] from RegistryCache.list_empty name] at hr
    cases hr
  have hregister : Returns (registerSelf (envOf (treeEnv env t) u) (depth + 1) host.hostname
      host.port) u.world fun _ w => Kept env 1 w := by
    apply Returns.bind (first_open (t := t) (s := u) rfl hlasting.clock hdated)
    intro _ v hpost
    rcases hpost with ⟨rfl, hbegun⟩
    apply (register_serves (answers_treeEnv hlasting u) hbegun host.hostname host.port).mono
    exact fun _ w hw => hw.left.kept.ofClock rfl
  apply Returns.getBind
  refine Returns.bindOk (a := ⟨⟩) (t := u) rfl ?_
  apply (onWorld_returns (s := u) (x := fun env => registerSelf env (depth + 1) host.hostname
    host.port) hregister).mono
  intro _ _ hpost
  rcases hpost with ⟨w, hw, rfl⟩
  exact ⟨hw, rfl, rfl⟩

theorem start_warms (host : Host) (hlasting : Lasting env) (hkept : Kept env c s.world)
    (hpending : s.pending = [.warm]) (hfile : Readable env.parse s.cacheFile) :
    Returns (work host (treeEnv env t) depth) s fun _ s' => Kept env c s'.world ∧
      s'.pending = [] ∧ exists watches cache, FetchedAll t watches cache s'.world.cache ∧
        OnlyRead t s'.world.cache ∧ watches ⊆ s'.world.watches := by
  let u : Server := { s with pending := [] }
  have hwarm : Returns (warm (envOf (treeEnv env t) u) depth) u.world fun _ w =>
      Kept env c w ∧ exists watches cache, FetchedAll t watches cache w.cache ∧
        OnlyRead t w.cache ∧ watches ⊆ w.watches := by
    have hload : Returns (fromFile (envOf (treeEnv env t) u)) u.world fun _ w =>
        Kept (envOf (treeEnv env t) u) c w := fromFile_keeps hlasting.clock hfile (hkept.ofClock rfl)
    apply Returns.bind hload
    intro _ v hv
    apply (check_serves (answers_treeEnv hlasting u) hv).mono
    intro _ w hpost
    rcases hpost with ⟨watches, hserved, hfetched, hclean⟩
    refine ⟨hserved.kept.ofClock rfl, watches, v.cache, hfetched, hclean, ?_⟩
    rw [hserved.watches]
    exact List.subset_append_right _ _
  apply Returns.getBind
  rw [hpending]
  refine Returns.bindOk (a := ⟨⟩) (t := u) rfl ?_
  apply (onWorld_returns (s := u) (x := fun env => warm env depth) hwarm).mono
  intro _ _ hpost
  rcases hpost with ⟨w, ⟨hw, hread⟩, rfl⟩
  exact ⟨hw, rfl, hread⟩

end Server

end ServerHandler

end FrProxy
