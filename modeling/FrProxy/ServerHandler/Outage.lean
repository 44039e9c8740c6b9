import FrProxy.ServerHandler.Stabilization

/-!
# Answers during an outage

A server that was started again while ZooKeeper is down goes on answering with
the endpoints of its recovery file, whatever it is asked to do.
-/

namespace FrProxy

open Program

namespace ServerHandler

def Offline (w : World) : Prop :=
  forall c, w.pool.getConnected c = false

/-- No attempt of `zookeeper_init` succeeds. -/
def Unreachable (env : Env) : Prop :=
  forall n, env.zookeeperInit n = false

/-- Nobody is connected afterwards, and the cache is as it was. -/
structure Cut (w w' : World) : Prop where
  offline : Offline w'
  cache : w'.cache = w.cache

theorem Cut.trans {u v w : World} (huv : Cut u v) (hvw : Cut v w) : Cut u w where
  offline := hvw.offline
  cache := hvw.cache.trans huv.cache

section World

variable {env : Env} {depth : Nat} {c : ClientId} {w w' : World}

theorem Cut.refl (h : Offline w) : Cut w w where
  offline := h
  cache := rfl

/-!
## Clients without a session
-/

theorem connectLoop_fails (hdown : Unreachable env) (attempts : Nat) (w : World) :
    Returns (ZkClient.connectLoop env attempts) w fun up w' =>
      up = false ∧ w'.pool = w.pool ∧ w'.cache = w.cache := by
  induction attempts generalizing w with
  | zero => exact Returns.pure ⟨rfl, rfl, rfl⟩
  | succ attempts ih =>
      unfold ZkClient.connectLoop
      apply Returns.getBind
      dsimp only
      rw [hdown, if_neg Bool.false_ne_true]
      exact Returns.bindOk (modify_run _ _) (ih { w with trace := w.trace ++ [.init false] })

theorem offline_setHandle (h : Offline w) (handle : Bool) (d : ClientId) :
    (w.pool.setHandle c handle).getConnected d = false := by
  have hd := h d
  unfold ClientPool.getConnected at hd ⊢
  unfold ClientPool.setHandle ClientPool.updateClient
  dsimp only
  split
  · exact hd
  · exact hd

theorem offline_setConnected (h : Offline w) (d : ClientId) :
    (w.pool.setConnected c false).getConnected d = false := by
  have hd := h d
  unfold ClientPool.getConnected at hd ⊢
  unfold ClientPool.setConnected ClientPool.updateClient
  dsimp only
  split
  · rfl
  · exact hd

theorem connectZk_fails (hdown : Unreachable env) (h : Offline w) :
    Returns (ZkClient.connectZk env (depth + 1) c) w fun up w' => up = false ∧ Cut w w' := by
  unfold ZkClient.connectZk
  refine Returns.bindOk (a := false) (t := w) ?_ ?_
  · simp only [ZkClient.getConnected, get_bind_run, h c]
    rfl
  rw [if_neg Bool.false_ne_true]
  refine Returns.bindOk (modify_run _ _) ?_
  let v : World := { w with pool := w.pool.setHandle c false }
  apply Returns.bind (connectLoop_fails hdown 11 v)
  rintro up u ⟨rfl, hpool, hcache⟩
  rw [if_neg Bool.false_ne_true]
  have hv : Offline v := offline_setHandle h false
  have hu : Offline u := by
    unfold Offline
    rw [hpool]
    exact hv
  exact Returns.bindOk (modify_run _ _) (Returns.pure ⟨rfl, offline_setConnected hu, hcache⟩)

theorem open_fails (hdown : Unreachable env) (h : Offline w) :
    Returns (ZkClient.open_ env (depth + 1) c) w fun _ w' => Cut w w' := by
  unfold ZkClient.open_
  refine Returns.bindOk (a := false) (t := w) ?_ ?_
  · simp only [ZkClient.getConnected, get_bind_run, h c]
    rfl
  rw [if_neg Bool.false_ne_true]
  exact (connectZk_fails hdown h).mono fun _ _ hcut => hcut.right

theorem operation_fails {α : Type} (hdown : Unreachable env) (h : Offline w) (x : ZkM α) (a : α) :
    Returns (do
      if <- ZkClient.ready (ZkClient.connectZk env (depth + 1)) c then x
      else return a) w fun b w' => b = a ∧ Cut w w' := by
  have hready : Returns (ZkClient.ready (ZkClient.connectZk env (depth + 1)) c) w
      fun up w' => up = false ∧ Cut w w' := by
    unfold ZkClient.ready
    refine Returns.bindOk (a := false) (t := w) ?_ ?_
    · simp only [ZkClient.getConnected, get_bind_run, h c]
      rfl
    rw [if_neg Bool.false_ne_true]
    apply Returns.bind (connectZk_fails hdown h)
    rintro _ u ⟨_, hu⟩
    refine Returns.bindOk (a := false) (t := u) ?_ ?_
    · simp only [ZkClient.getConnected, get_bind_run, hu.offline c]
      rfl
    refine Returns.bindOk (a := (u.pool.clients c).zhandle_) (t := u) rfl ?_
    rw [Bool.false_and, if_neg Bool.false_ne_true]
    exact Returns.bindOk (modify_run _ _) (Returns.pure ⟨rfl, hu.offline, hu.cache⟩)
  apply Returns.bind hready
  rintro _ u ⟨rfl, hu⟩
  exact Returns.pure ⟨rfl, hu⟩

theorem offline_openMove {s t : PoolSystem} (hmove : PoolSystem.OpenMove s t)
    (h : forall d, s.pool.getConnected d = false) (d : ClientId) :
    t.pool.getConnected d = false := by
  cases hmove with
  | giveUp => exact h d
  | @reuse c => exact (ClientPool.getConnected_setInUsing s.pool c d true).trans (h d)
  | create =>
      have hd := h d
      unfold ClientPool.getConnected at hd
      unfold ClientPool.create ClientPool.getConnected ClientPool.setInUsing ClientPool.updateClient
      dsimp only
      by_cases hnew : d = s.pool.lastId_ + 1
      · simp [hnew]
      · simp [hnew, hd]
  | @evict c => exact (ClientPool.getConnected_setInUsing _ c d false).trans (h d)

theorem poolOpen_offline (hdown : Unreachable env) (hrest : Resting w) (h : Offline w) :
    Returns (ZkClient.poolOpen env (depth + 1)) w fun r w' => (exists c, r = some c) ∧ Cut w w' := by
  have hroom : ((w.pool.destroyClients false).using_.length : Int) <
      (w.pool.destroyClients false).maxClient_ := by
    have hroom := hrest.room
    rw [show (w.pool.destroyClients false).using_ = [] from hrest.unused, List.length_nil]
    exact Int.lt_trans (by decide) hroom
  let now := env.clock w.ticks + w.slept
  rcases ClientPool.openSection_hands now hroom with ⟨c, hc⟩
  have hp : forall d, (ZkClient.opened env w).1.getConnected d = false :=
    PoolSystem.openSection_pool (fun q => forall d, q.getConnected d = false)
      (fun _ _ hmove hs => offline_openMove hmove hs) now h
  have hstamped : Offline (ZkClient.stamped env w c) := by
    intro d
    have hd := hp d
    unfold ClientPool.getConnected at hd ⊢
    simp only [ZkClient.stamped, ClientPool.stamp, ClientPool.updateClient]
    split
    · exact hd
    · exact hd
  have hopen : Returns (ZkClient.open_ env (depth + 1) c) (ZkClient.stamped env w c)
      fun _ w' => Cut (ZkClient.stamped env w c) w' := open_fails hdown hstamped
  rcases hopen with ⟨b, w', hrun, hcut⟩
  refine ⟨some c, w', ?_, ⟨c, rfl⟩, hcut.offline, hcut.cache⟩
  rw [poolOpen_run hc]
  exact bind_ok.mpr ⟨b, w', hrun, rfl⟩

theorem close_offline (h : Offline w) : Returns (ZkClient.close c) w fun _ w' => Cut w w' := by
  refine ⟨⟨⟩, { w with pool := (w.pool.setInUsing c false).onClientClosing c }, rfl, ?_, rfl⟩
  intro d
  show ((w.pool.setInUsing c false).onClientClosing c |>.clients d).connected_ = false
  rw [ClientPool.onClientClosing_clients]
  exact (ClientPool.getConnected_setInUsing w.pool c d false).trans (h d)

/-!
## What the recovery file adds
-/

/-- Whenever the recovery file is read, it gives these endpoints. -/
def Restorable (parse : String -> Option Json) (file : Option String) (saved : Endpoint -> Prop) :
    Prop :=
  exists text, file = some text ∧ forall now, exists v, Registry.unserialize parse now text = .ok v ∧
    (forall r, r ∈ v -> r.name ≠ "" ∧ r.host ≠ "") ∧
    forall p, p ∈ v.map Registry.endpoint <-> saved p

structure Fills (saved : Endpoint -> Prop) (w w' : World) : Prop where
  offline : Offline w'
  kept : forall p, w.cache.Caches p -> w'.cache.Caches p
  added : forall p, w'.cache.Caches p -> w.cache.Caches p ∨ saved p

variable {saved : Endpoint -> Prop}

theorem Cut.fills (h : Cut w w') : Fills saved w w' where
  offline := h.offline
  kept := fun _ hp => h.cache.symm ▸ hp
  added := fun _ hp => Or.inl (h.cache ▸ hp)

theorem Fills.trans {u v w : World} (huv : Fills saved u v) (hvw : Fills saved v w) :
    Fills saved u w where
  offline := hvw.offline
  kept := fun p hp => hvw.kept p (huv.kept p hp)
  added := fun p hp => (hvw.added p hp).elim (huv.added p) Or.inr

theorem caches_load {c : RegistryCache} {v : RVector}
    (haccepted : forall r, r ∈ v -> RMap.accepts r = true) (p : Endpoint) :
    (c.load v).Caches p <-> c.Caches p ∨ p ∈ v.map Registry.endpoint := by
  rw [RegistryCache.caches_iff_stampOf, RegistryCache.stampOf_load]
  cases hfind : v.reverse.find? fun r => RMap.accepts r && decide (r.endpoint = p) with
  | none =>
      rw [<- RegistryCache.caches_iff_stampOf]
      refine ⟨Or.inl, fun h => h.resolve_right fun hmem => ?_⟩
      rcases List.mem_map.mp hmem with ⟨r, hr, hp⟩
      have hnot := List.find?_eq_none.mp hfind r (List.mem_reverse.mpr hr)
      exact hnot (by simp [haccepted r hr, hp])
  | some r =>
      have hr : r ∈ v := List.mem_reverse.mp (List.mem_of_find?_eq_some hfind)
      have hp := List.find?_some hfind
      simp only [Bool.and_eq_true, decide_eq_true_eq] at hp
      exact iff_of_true rfl (Or.inr (List.mem_map.mpr ⟨r, hr, hp.right⟩))

theorem fromFile_fills (hfile : Restorable env.parse env.cacheFile saved) (h : Offline w) :
    Returns (fromFile env) w fun _ w' => Fills saved w w' ∧ forall p, saved p -> w'.cache.Caches p := by
  rcases hfile with ⟨text, htext, hread⟩
  unfold fromFile
  rw [htext]
  let now := fun i => env.clock (w.ticks + i) + w.slept
  rcases hread (now 0) with ⟨v, hv, hnames, hsaved⟩
  apply Returns.getBind
  dsimp only
  rw [hv]
  have hloaded : forall p, (w.cache.load (RMap.fileEntries now v)).Caches p <->
      w.cache.Caches p ∨ saved p := by
    intro p
    rw [caches_load (RegistryCache.accepts_fileEntries hnames),
      RegistryCache.endpoint_fileEntries, hsaved]
  exact ⟨⟨⟩, _, rfl, ⟨h, fun p hp => (hloaded p).mpr (Or.inl hp), fun p => (hloaded p).mp⟩,
    fun p hp => (hloaded p).mpr (Or.inr hp)⟩

/-!
## The tasks
-/

theorem borrow_fills {α : Type} (hdown : Unreachable env) (hrest : Resting w) (h : Offline w)
    {task : Option ClientId -> ZkM α}
    (htask : forall c v, Offline v -> Returns (task (some c)) v fun _ w' => Fills saved v w') :
    Returns (ZkClient.poolOpen env (depth + 1) >>= task) w fun _ w' => Fills saved w w' := by
  apply Returns.bind (poolOpen_offline hdown hrest h)
  rintro _ v ⟨⟨c, rfl⟩, hv⟩
  apply (htask c v hv.offline).mono
  intro _ w' hw'
  exact hv.fills.trans hw'

theorem use_fills {α : Type} {x : ZkM α} (hx : Returns x w fun _ w' => Fills saved w w') :
    Returns (x >>= fun _ => ZkClient.close c) w fun _ w' => Fills saved w w' := by
  apply Returns.bind hx
  intro _ v hv
  exact (close_offline hv.offline).mono fun _ _ hclose => hv.trans hclose.fills

theorem keepAwake_fills (hdown : Unreachable env) (hrest : Resting w) (h : Offline w) :
    Returns (keepAwake env (depth + 1)) w fun _ w' => Fills saved w w' := by
  apply Returns.getBind
  split
  · apply borrow_fills hdown hrest h
    exact fun c v hv => (close_offline hv).mono fun _ _ hclose => hclose.fills
  · exact Returns.pure (Cut.refl h).fills

theorem connStatus_offline (hdown : Unreachable env) (hrest : Resting w) (h : Offline w) :
    Returns (connStatus env (depth + 1)) w fun ret w' => ret = 1 ∧ Cut w w' := by
  apply Returns.getBind
  split
  · exact Returns.pure ⟨rfl, Cut.refl h⟩
  · apply Returns.bind (poolOpen_offline hdown hrest h)
    rintro _ v ⟨⟨c, rfl⟩, hv⟩
    refine Returns.bindOk (a := false) (t := v) ?_ ?_
    · simp only [ZkClient.getConnected, get_bind_run, hv.offline c]
      rfl
    apply Returns.bind (close_offline hv.offline)
    intro _ w' hclose
    exact Returns.pure ⟨rfl, hv.trans hclose⟩

theorem status_offline (hdown : Unreachable env) (hrest : Resting w) (h : Offline w) (host : Host) :
    Returns (status env (depth + 1) host) w fun ret w' => ret ≠ 0 ∧ Cut w w' := by
  apply Returns.bind (connStatus_offline hdown hrest h)
  rintro _ v ⟨rfl, hv⟩
  refine Returns.getBind (Returns.pure ⟨?_, hv⟩)
  intro hzero
  simp only [Nat.or_eq_zero_iff] at hzero
  exact absurd hzero.left.left.left Nat.one_ne_zero

theorem registerSelf_fills (hdown : Unreachable env) (hrest : Resting w) (h : Offline w)
    (hostname : String) (port : Int) :
    Returns (registerSelf env (depth + 1) hostname port) w fun _ w' => Fills saved w w' := by
  apply borrow_fills hdown hrest h
  intro c v hv
  apply use_fills
  unfold registerWith
  refine Returns.bindOk (a := false) (t := v) ?_ ?_
  · simp only [ZkClient.getConnected, get_bind_run, hv c]
    rfl
  rw [if_neg Bool.false_ne_true]
  exact ⟨⟨⟩, _, rfl, Cut.fills ⟨hv, rfl⟩⟩

theorem fetchService_fills (hdown : Unreachable env) (hrest : Resting w) (h : Offline w)
    (zkpath : String) :
    Returns (fetchService env (depth + 1) zkpath) w fun _ w' => Fills saved w w' := by
  apply borrow_fills hdown hrest h
  intro c v hv
  apply use_fills
  exact (operation_fails hdown hv _ false).mono fun _ _ hcut => hcut.right.fills

theorem check_fills (hdown : Unreachable env) (hfile : Restorable env.parse env.cacheFile saved)
    (hrest : Resting w) (h : Offline w) :
    Returns (check env (depth + 1)) w fun _ w' => Fills saved w w' := by
  apply borrow_fills hdown hrest h
  intro c v hv
  apply use_fills
  have hfails : Returns (ZkClient.check env (ZkClient.connectZk env (depth + 1)) c root) v
      fun up w' => up = false ∧ Cut v w' := operation_fails hdown hv _ false
  apply Returns.bind hfails
  rintro _ u ⟨rfl, hu⟩
  rw [if_neg Bool.false_ne_true]
  apply Returns.getBind
  split
  · apply (fromFile_fills hfile hu.offline).mono
    intro _ w' hw'
    exact hu.fills.trans hw'.left
  · exact Returns.pure hu.fills

theorem warm_fills (hdown : Unreachable env) (hfile : Restorable env.parse env.cacheFile saved)
    (hrest : Resting w) (h : Offline w) :
    Returns (warm env (depth + 1)) w fun _ w' =>
      Fills saved w w' ∧ forall p, saved p -> w'.cache.Caches p := by
  apply Returns.bind ((fromFile_fills hfile h).avoids (rests_of_own fromFile_steps) hrest)
  rintro _ v ⟨⟨hv, hall⟩, hrest'⟩
  apply (check_fills hdown hfile hrest' hv.offline).mono
  intro _ w' hw'
  exact ⟨hv.trans hw', fun p hp => hw'.kept p (hall p hp)⟩

/-!
## Callbacks and the reset
-/

theorem onEvent_fills (hdown : Unreachable env) (h : Offline w) (watcher : Watcher)
    {type : ZkEventType} (htype : type ≠ .deleted) (path : String) :
    Returns (Watcher.onEvent env (depth + 1) watcher type path c) w fun _ w' =>
      Fills saved w w' := by
  have hread : Returns (Watcher.reread env (depth + 1) path c watcher) w fun _ w' => Cut w w' := by
    cases watcher with
    | serviceInstance => exact (operation_fails hdown h _ false).mono fun _ _ hcut => hcut.right
    | root => exact (operation_fails hdown h _ false).mono fun _ _ hcut => hcut.right
    | service => exact (operation_fails hdown h _ false).mono fun _ _ hcut => hcut.right
  have hreread : Returns (Watcher.reread env (depth + 1) path c watcher >>= fun _ => pure PUnit.unit)
      w fun _ w' => Fills saved w w' :=
    (Returns.discard hread).mono fun _ _ hcut => hcut.fills
  cases type with
  | created => exact hreread
  | changed => exact hreread
  | child => exact hreread
  | deleted => exact absurd rfl htype
  | session => exact Returns.pure (Cut.refl h).fills
  | notWatching => exact Returns.pure (Cut.refl h).fills

theorem call_fills (hdown : Unreachable env) (hrest : Resting w) (h : Offline w)
    (callback : WatchCallback) {type : ZkEventType} (htype : type ≠ .deleted) (state : Int)
    (path : Option String) :
    Returns (callback.call env (depth + 1) type state path) w fun _ w' => Fills saved w w' := by
  have hnothing : Returns (pure ⟨⟩ : ZkM PUnit) w fun _ w' => Fills saved w w' :=
    Returns.pure (Cut.refl h).fills
  cases callback with
  | createEnode =>
      cases path with
      | none => exact hnothing
      | some path =>
          show Returns (if state = expiredSessionState ∨ type = .deleted then
            WatchCallback.recreate env (depth + 1) path else pure ⟨⟩) w _
          split
          · apply borrow_fills hdown hrest h
            intro c v hv
            apply use_fills
            exact (operation_fails hdown hv _ zconnectionloss).mono fun _ _ hcut => hcut.right.fills
          · exact hnothing
  | reading watcher =>
      cases path with
      | none => exact hnothing
      | some path =>
          apply borrow_fills hdown hrest h
          intro c v hv
          exact use_fills (onEvent_fills hdown hv watcher htype path)
  | global => exact hnothing

theorem Emptied.offline (h : Emptied w w') (hw : Offline w) : Offline w' := by
  intro c
  unfold ClientPool.getConnected
  rw [h.clients]
  exact hw c

end World

/-!
## The server
-/

/-- The server has what was saved, nobody is connected, and this is its recovery file. -/
structure Surviving (env : Env) (text : Option String) (saved : Endpoint -> Prop) (s : Server) :
    Prop where
  resting : Resting s.world
  offline : Offline s.world
  cached : forall p, s.world.cache.Caches p <-> saved p
  file : Restorable env.parse s.cacheFile saved
  untouched : s.cacheFile = text
  free : s.resetting = false

/--
The action does not kill the process, leaves enough rounds to the loop of the pool,
and is no news of a znode that is gone, for ZooKeeper is down.
-/
def Harmless : ServerAction -> Prop
  | .reset rounds => 2 ≤ rounds
  | .watch _ type _ _ => type ≠ .deleted
  | .restart => False
  | .crash _ => False
  | _ => True

section Server

variable {host : Host} {env : Env} {text : Option String} {saved : Endpoint -> Prop} {depth : Nat}
  {s : Server}

theorem Unreachable.onFile (hdown : Unreachable env) (s : Server) : Unreachable (envOf env s) :=
  hdown

theorem Surviving.onWorld_keeps {α : Type} (h : Surviving env text saved s) {x : Env -> ZkM α}
    (hrests : Rests (x (envOf env s)))
    (hx : Returns (x (envOf env s)) s.world fun _ w => Fills saved s.world w) :
    Returns (onWorld env x) s fun _ s' => Surviving env text saved s' := by
  have hboth := hx.avoids hrests h.resting
  apply (onWorld_returns hboth).mono
  rintro _ _ ⟨w, ⟨hfills, hrest⟩, rfl⟩
  refine ⟨hrest, hfills.offline, fun p => ⟨fun hp => ?_, fun hp => ?_⟩, h.file, h.untouched, h.free⟩
  · exact (hfills.added p hp).elim (h.cached p).mp id
  · exact hfills.kept p ((h.cached p).mpr hp)

theorem nowInMs_fills {w : World} (h : Offline w) :
    Returns (nowInMs env) w fun _ w' => Fills saved w w' :=
  ⟨_, _, rfl, Cut.fills ⟨h, rfl⟩⟩

theorem Surviving.nowInMs_keeps (h : Surviving env text saved s) :
    Returns (onWorld env nowInMs) s fun _ s' => Surviving env text saved s' :=
  h.onWorld_keeps (rests_of_own nowInMs_steps) (nowInMs_fills h.offline)

theorem Surviving.addTask_keeps (h : Surviving env text saved s) (task : Task) :
    Returns (addTask task) s fun _ s' => Surviving env text saved s' := by
  refine ⟨⟨⟩, _, rfl, ?_⟩
  dsimp only
  split
  · exact ⟨h.resting, h.offline, h.cached, h.file, h.untouched, h.free⟩
  · exact h

theorem Surviving.get_keeps (h : Surviving env text saved s) (serviceName : String) :
    Returns (get_ env serviceName) s fun _ s' => Surviving env text saved s' := by
  have hinsert : Returns (skipInsert env (servicePath serviceName)) s fun _ s' =>
      Surviving env text saved s' := by
    apply Returns.bind h.nowInMs_keeps
    intro now u hu
    apply Returns.getBind
    refine Returns.bindOk (modify_run _ _) (Returns.pure ?_)
    exact ⟨hu.resting, hu.offline, hu.cached, hu.file, hu.untouched, hu.free⟩
  apply Returns.getBind
  dsimp only
  split
  · apply Returns.bind hinsert
    intro inserted u hu
    split
    · exact Returns.bind (hu.addTask_keeps _) fun _ _ hs => Returns.pure hs
    · exact Returns.pure hu
  · exact Returns.bind h.nowInMs_keeps fun _ _ hs => Returns.pure hs

theorem Surviving.autosave_keeps (hdown : Unreachable env) (h : Surviving env text saved s) :
    Returns (autosave host env (depth + 1) writeWhole) s fun _ s' => Surviving env text saved s' := by
  have hstatus : Returns (status (envOf env s) (depth + 1) host) s.world fun ret w =>
      (ret ≠ 0 ∧ Cut s.world w) ∧ Resting w :=
    (status_offline (hdown.onFile s) h.resting h.offline host).avoids (status_rests host) h.resting
  apply Returns.bind (onWorld_returns (x := fun env => status env (depth + 1) host) hstatus)
  rintro ret _ ⟨w, ⟨⟨hret, hcut⟩, hrest⟩, rfl⟩
  rw [if_neg hret]
  refine Returns.pure ⟨hrest, hcut.offline, fun p => ?_, h.file, h.untouched, h.free⟩
  show w.cache.Caches p <-> saved p
  rw [hcut.cache]
  exact h.cached p

theorem Surviving.runTask_keeps (hdown : Unreachable env) (h : Surviving env text saved s) (task : Task) :
    Returns (runTask host env (depth + 1) task) s fun _ s' => Surviving env text saved s' := by
  have hs := hdown.onFile s
  unfold runTask
  cases task with
  | wake => exact h.onWorld_keeps keepAwake_rests (keepAwake_fills hs h.resting h.offline)
  | check => exact h.onWorld_keeps check_rests (check_fills hs h.file h.resting h.offline)
  | autosave => exact h.autosave_keeps hdown
  | warm =>
      exact h.onWorld_keeps warm_rests ((warm_fills hs h.file h.resting h.offline).mono
        fun _ _ hw => hw.left)
  | registerSelf =>
      exact h.onWorld_keeps (registerSelf_rests _ _) (registerSelf_fills hs h.resting h.offline _ _)
  | getService zkpath =>
      apply Returns.bind (h.onWorld_keeps (x := fun env => fetchService env (depth + 1) zkpath)
        (fetchService_rests zkpath) (fetchService_fills hs h.resting h.offline zkpath))
      intro _ u hu
      exact ⟨⟨⟩, _, rfl, hu.resting, hu.offline, hu.cached, hu.file, hu.untouched, hu.free⟩

theorem Surviving.work_keeps (hdown : Unreachable env) (h : Surviving env text saved s) :
    Returns (work host env (depth + 1)) s fun _ s' => Surviving env text saved s' := by
  apply Returns.getBind
  cases s.pending with
  | nil => exact Returns.pure h
  | cons task rest =>
      refine Returns.bindOk (modify_run _ _) ?_
      have htaken : Surviving env text saved { s with pending := rest } :=
        ⟨h.resting, h.offline, h.cached, h.file, h.untouched, h.free⟩
      exact htaken.runTask_keeps hdown task

theorem warm_survives (hdown : Unreachable env) (hrest : Resting s.world)
    (hoffline : Offline s.world) (hempty : forall p, s.world.cache.Caches p -> saved p)
    (hfile : Restorable env.parse s.cacheFile saved) :
    Returns (onWorld env fun env => warm env (depth + 1)) s fun _ s' => exists w,
      (Resting w ∧ Offline w ∧ forall p, w.cache.Caches p <-> saved p) ∧
        s' = { s with world := w } := by
  have hwarm : Returns (warm (envOf env s) (depth + 1)) s.world
      fun _ w => (Fills saved s.world w ∧ forall p, saved p -> w.cache.Caches p) ∧ Resting w :=
    (warm_fills (hdown.onFile s) hfile hrest hoffline).avoids warm_rests hrest
  apply onWorld_returns (x := fun env => warm env (depth + 1))
  apply hwarm.mono
  rintro _ w ⟨⟨hfills, hall⟩, hrest'⟩
  exact ⟨hrest', hfills.offline,
    fun p => ⟨fun hp => (hfills.added p hp).elim (hempty p) id, hall p⟩⟩

theorem Surviving.reset_keeps (hdown : Unreachable env) (h : Surviving env text saved s) (rounds : Nat) :
    Returns (reset host env (depth + 1) (rounds + 2)) s fun _ s' => Surviving env text saved s' := by
  apply Returns.getBind
  rw [if_neg (by simp [h.free])]
  refine Returns.bindOk (modify_run _ _) ?_
  apply Returns.bind (onWorld_returns (resetPool_returns h.resting rounds))
  rintro _ _ ⟨u, hu, rfl⟩
  refine Returns.bindOk (a := ⟨⟩) (t := {
    s with resetting := true, world := { u with cache := u.cache.clear } }) rfl ?_
  let v : Server := { s with resetting := true, world := { u with cache := u.cache.clear } }
  have hcleared : forall p, v.world.cache.Caches p -> saved p := by
    rintro p ⟨r, hr, _⟩
    rw [RegistryCache.list_clear] at hr
    cases hr
  apply Returns.bind (warm_survives (s := v) hdown hu.rests (hu.offline h.offline) hcleared h.file)
  rintro _ _ ⟨w, ⟨hrest, hoffline, hcached⟩, rfl⟩
  have hstatus : Returns (status (envOf env { v with world := w }) (depth + 1) host) w
      fun ret w' => (ret ≠ 0 ∧ Cut w w') ∧ Resting w' :=
    (status_offline (hdown.onFile { v with world := w }) hrest hoffline host).avoids
      (status_rests host) hrest
  apply Returns.bind (onWorld_returns (s := { v with world := w })
    (x := fun env => status env (depth + 1) host) hstatus)
  rintro ret _ ⟨w', ⟨⟨_, hcut⟩, hrest'⟩, rfl⟩
  refine Returns.bindOk (modify_run _ _) (Returns.pure ?_)
  refine ⟨hrest', hcut.offline, fun p => ?_, h.file, h.untouched, rfl⟩
  show w'.cache.Caches p <-> saved p
  rw [hcut.cache]
  exact hcached p

theorem Surviving.act_keeps (hdown : Unreachable env) (h : Surviving env text saved s) {a : ServerAction}
    (ha : Harmless a) :
    Returns (act host env (depth + 1) a) s fun _ s' => Surviving env text saved s' := by
  cases a with
  | get serviceName =>
      exact Returns.bind (h.get_keeps serviceName) fun _ _ hs => Returns.pure hs
  | remove serviceName host port => exact Returns.bindOk rfl (Returns.pure h)
  | reset rounds =>
      obtain ⟨more, rfl⟩ : exists more, rounds = more + 2 := ⟨rounds - 2, (Nat.sub_add_cancel ha).symm⟩
      exact Returns.bind (h.reset_keeps hdown more) fun _ _ hs => Returns.pure hs
  | status =>
      have hstatus : Returns (status (envOf env s) (depth + 1) host) s.world
          fun _ w => Fills saved s.world w :=
        (status_offline (hdown.onFile s) h.resting h.offline host).mono
          fun _ _ hcut => hcut.right.fills
      exact Returns.bind (h.onWorld_keeps (x := fun env => status env (depth + 1) host)
        (status_rests host) hstatus) fun _ _ hs => Returns.pure hs
  | commit task => exact Returns.bind (h.addTask_keeps task) fun _ _ hs => Returns.pure hs
  | work => exact Returns.bind (h.work_keeps hdown) fun _ _ hs => Returns.pure hs
  | expire zkpath =>
      refine Returns.bindOk (modify_run _ _) (Returns.pure ?_)
      exact ⟨h.resting, h.offline, h.cached, h.file, h.untouched, h.free⟩
  | watch callback type state path =>
      have hcall : Returns (callback.call (envOf env s) (depth + 1) type state path) s.world
          fun _ w => Fills saved s.world w :=
        call_fills (hdown.onFile s) h.resting h.offline callback ha state path
      exact Returns.bind (h.onWorld_keeps (x := fun env => callback.call env (depth + 1) type state path)
        (callback.call_rests type state path) hcall) fun _ _ hs => Returns.pure hs
  | restart => exact ha.elim
  | crash written => exact ha.elim

/-!
## The restart
-/

theorem restart_survives (hdown : Unreachable env) (s : Server)
    (hfile : Restorable env.parse s.cacheFile saved) :
    exists u v s', step host env (depth + 1) s .restart = some u ∧
      step host env (depth + 1) u .work = some v ∧
      step host env (depth + 1) v .work = some s' ∧ Surviving env s.cacheFile saved s' := by
  let u := boot s.world s.cacheFile
  have hregister : Returns (registerSelf (envOf env u) (depth + 1) host.hostname host.port) u.world
      fun _ w => Fills saved u.world w ∧ Resting w := by
    have hrest : Resting u.world := ClientPool.atRest_start s.world.pool.addr
    exact (registerSelf_fills (hdown.onFile u) hrest (fun _ => rfl) _ _).avoids
      (registerSelf_rests _ _) hrest
  have hfirst : Returns (act host env (depth + 1) .work) u fun _ v => v.pending = [.warm] ∧
      Resting v.world ∧ Offline v.world ∧ (forall p, v.world.cache.Caches p -> saved p) ∧
      v.cacheFile = s.cacheFile ∧ v.resetting = false := by
    have hwork : Returns (work host env (depth + 1)) u fun _ v => exists w,
        (Fills saved u.world w ∧ Resting w) ∧ v = { u with pending := [.warm], world := w } :=
      Returns.getBind (Returns.bindOk (modify_run _ _)
        (onWorld_returns (s := { u with pending := [.warm] })
          (x := fun env => registerSelf env (depth + 1) host.hostname host.port) hregister))
    apply Returns.bind hwork
    rintro _ _ ⟨w, ⟨hfills, hrest⟩, rfl⟩
    refine Returns.pure ⟨rfl, hrest, hfills.offline, fun p hp => ?_, rfl, rfl⟩
    exact (hfills.added p hp).resolve_left (not_caches_empty p)
  rcases step_of_returns hfirst with ⟨v, hv, hpending, hrest, hoffline, hempty, hsame, hfree⟩
  have hsecond : Returns (act host env (depth + 1) .work) v fun _ s' => Surviving env s.cacheFile saved s' := by
    have hrun : Returns (work host env (depth + 1)) v fun _ s' => Surviving env s.cacheFile saved s' := by
      apply Returns.getBind
      rw [hpending]
      refine Returns.bindOk (modify_run _ _) ?_
      apply (warm_survives (s := { v with pending := [] }) hdown hrest hoffline hempty
        (hsame.symm ▸ hfile)).mono
      rintro _ _ ⟨w, ⟨hrest, hoffline, hcached⟩, rfl⟩
      exact ⟨hrest, hoffline, hcached, hsame.symm ▸ hfile, hsame, hfree⟩
    exact Returns.bind hrun fun _ _ hs => Returns.pure hs
  rcases step_of_returns hsecond with ⟨s', hs', hsurviving⟩
  exact ⟨u, v, s', rfl, hv, hs', hsurviving⟩

end Server

theorem restorable_save {c : RegistryCache} (hclean : c.Storable) (sec : Nat) :
    Restorable Rapidjson.parse (some (c.cache.save sec)) c.Caches := by
  have hmem : forall r, r ∈ c.cache.entries -> r ∈ c.list r.name :=
    fun r => RegistryCache.mem_list_of_mem_entries
  refine ⟨_, rfl, fun now => ⟨_, hclean.unserialize_save sec now, ?_, ?_⟩⟩
  · intro r hr
    rcases List.mem_map.mp hr with ⟨s, hs, rfl⟩
    have haccepted := (c.filed s.name).accepted s (hmem s hs)
    simp only [RMap.accepts, Bool.not_eq_true', Bool.or_eq_false_iff, beq_eq_false_iff_ne]
      at haccepted
    exact haccepted.left
  · intro p
    rw [List.map_map, List.mem_map]
    constructor
    · rintro ⟨r, hr, rfl⟩
      exact ⟨r, hmem r hr, rfl⟩
    · rintro ⟨r, hr, rfl⟩
      rw [<- RegistryCache.filter_entries] at hr
      exact ⟨r, List.mem_of_mem_filter hr, rfl⟩

section Example

private def lastSeen : Registry where
  name := servicePath "a"
  host := "h"
  port := 1
  mtime := 5
  ephemeral := "m1"

private def savedCache : RegistryCache :=
  RegistryCache.empty.add lastSeen

private def silentEnv : Env where
  parse := Rapidjson.parse
  zookeeperInit := fun _ => false
  zooWgetChildren := fun _ _ => (zconnectionloss, [])
  zooWget := fun _ _ => (zconnectionloss, {})
  zooCreate := fun _ _ => zconnectionloss
  zooGet := fun _ _ => zconnectionloss
  clock := fun n => 9000 + n
  cacheFile := none

private def anyHost : Host where
  hostname := "p"
  port := 1
  workerCount := 3
  openWrite := fun _ => true

private def crashed : Server :=
  start id (some (savedCache.cache.save 7))

private def whileDown : List ServerAction :=
  [.get "b", .commit .autosave, .work, .work, .reset 2, .watch (.reading .root) .child 3 (some root)]

end Example

end ServerHandler

end FrProxy
