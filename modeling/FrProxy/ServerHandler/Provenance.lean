import FrProxy.RegistryCache.Backup
import FrProxy.ServerHandler.Losses
import FrProxy.ServerHandler.Tasks
import FrProxy.ZkClient.Frames

/-!
# Where the endpoints come from

The cache is filled from ZooKeeper and from the recovery file, and the file from
the cache.  Over any number of saves and restarts an endpoint that is answered was
read from ZooKeeper, or was in the file that the first process found.
-/

namespace FrProxy

open Program

/-!
## What the operations of a client add
-/

def Event.isLoad : Event -> Bool
  | .load _ => true
  | _ => false

inductive Reading (env : Env) : World -> World -> Prop where
  | event {w w' : World} (e : Event) (he : e.isLoad = false) (htrace : w'.trace = w.trace ++ [e])
      (hcache : w'.cache = e.onCache env w.cache) : Reading env w w'
  | silent {w w' : World} (htrace : w'.trace = w.trace) (hcache : w'.cache = w.cache) :
      Reading env w w'

theorem Reading.of_records {env : Env} {c : ClientId} {e : Event} {w w' : World}
    (h : Records env c e w w') (he : e.isLoad = false) : Reading env w w' :=
  Reading.event e he h.trace h.cache

namespace ZkClient

section Reading

variable {env : Env} {c : ClientId}

theorem reading_of_records {α : Type} {x : ZkM α}
    (h : forall w a w', x w = Except.ok (a, w') ->
      exists e, Records env c e w w' ∧ e.isLoad = false) : Steps (Reading env) x := by
  intro w a w' hrun
  rcases h w a w' hrun with ⟨e, he, hload⟩
  exact Relation.ReflTransGen.single (Reading.of_records he hload)

theorem log_reading {e : Event} (he : e.isLoad = false)
    (hcache : forall cache, e.onCache env cache = cache) : Steps (Reading env) (log e) :=
  Steps.modify fun w => Reading.event e he rfl (hcache w.cache).symm

theorem mapPool_reading (f : ClientPool -> ClientPool) : Steps (Reading env) (mapPool f) :=
  Steps.modify fun _ => Reading.silent rfl rfl

theorem connectLoop_reading (attempts : Nat) :
    Steps (Reading env) (connectLoop env attempts) := by
  induction attempts with
  | zero => exact Steps.pure false
  | succ attempts ih =>
      apply Steps.bind Steps.get
      intro w
      refine Steps.bind (log_reading rfl fun _ => rfl) fun _ => ?_
      exact Steps.ite (Steps.pure true) ih

theorem readInstance_reading (service node : String) :
    Steps (Reading env) (readInstance env c service node) := by
  apply reading_of_records (c := c)
  intro w a w' hrun
  rcases readInstance_records hrun with ⟨rc, data, mtime, h⟩
  exact ⟨_, h, rfl⟩

theorem Op.body_reading (o : Op) : Steps (Reading env) (o.body env c) := by
  cases o with
  | serviceInstance service node =>
      exact Steps.bind (readInstance_reading service node) fun _ => Steps.pure _
  | service path =>
      refine Steps.bind (reading_of_records (c := c) ?_) fun _ => Steps.pure _
      intro w a w' hrun
      rcases listService_records hrun with ⟨rc, nodes, h, _⟩
      exact ⟨_, h, rfl⟩
  | allServices servicesRoot =>
      refine Steps.bind (reading_of_records (c := c) ?_) fun _ => Steps.pure _
      intro w a w' hrun
      rcases listServices_records hrun with ⟨rc, nodes, h, _⟩
      exact ⟨_, h, rfl⟩
  | enode absPath data =>
      refine Steps.bind ?_ fun _ => Steps.pure _
      intro w rc w' hrun
      rcases makeEnode_records hrun with ⟨v, hcreate, hwatch⟩
      exact (Relation.ReflTransGen.single (Reading.of_records hcreate rfl)).tail
        (Reading.of_records hwatch rfl)
  | check topZkPath => exact Steps.bind Steps.get fun _ => Steps.pure _

theorem asked_reading (f : World -> Bool) :
    Steps (Reading env) (do return f (<- get) : ZkM Bool) :=
  Steps.bind Steps.get fun _ => Steps.pure _

theorem Frame.body_reading (f : Frame) (r : Bool) : Steps (Reading env) (f.body env c r) := by
  cases f with
  | op o =>
      refine Steps.bind (asked_reading _) fun _ => ?_
      exact Steps.ite o.body_reading (Steps.pure _)
  | resume o =>
      refine Steps.bind (asked_reading _) fun _ => Steps.bind (asked_reading _) fun _ => ?_
      apply Steps.ite o.body_reading
      exact Steps.bind (log_reading rfl fun _ => rfl) fun _ => Steps.pure _
  | connect =>
      refine Steps.bind (asked_reading _) fun _ => Steps.ite (Steps.pure _) ?_
      refine Steps.bind (mapPool_reading _) fun _ => ?_
      refine Steps.bind (connectLoop_reading 11) fun _ => Steps.ite ?_ ?_
      · refine Steps.bind (mapPool_reading _) fun _ => ?_
        exact Steps.bind (mapPool_reading _) fun _ => Steps.pure _
      · exact Steps.bind (mapPool_reading _) fun _ => Steps.pure _
  | restoreStates => exact Steps.bind Steps.get fun _ => Steps.pure _
  | free => exact Steps.bind Steps.get fun _ => Steps.pure _
  | states list =>
      cases list with
      | nil => exact Steps.pure _
      | cons ptr rest =>
          refine Steps.bind (reading_of_records (c := c) ?_) fun _ => Steps.pure _
          intro w a w' hrun
          exact ⟨_, (takeOver_records hrun).left, rfl⟩
  | instances service nodes ret =>
      cases nodes with
      | nil => exact Steps.pure _
      | cons node nodes => exact Steps.pure _
  | services list =>
      cases list with
      | nil => exact Steps.pure _
      | cons zkpath rest => exact Steps.ite (Steps.pure _) (Steps.pure _)
  | probe topZkPath =>
      refine Steps.bind (reading_of_records (c := c) ?_) fun _ => Steps.pure _
      intro w a w' hrun
      exact ⟨_, zooGet_records hrun, rfl⟩

theorem reading_of_framed {α : Type} {r : Bool} {frames : List Frame} {x : ZkM α}
    {R : α -> Bool -> Prop} (h : Framed env c r frames x R) : Steps (Reading env) x :=
  h.steps Frame.body_reading

end Reading

end ZkClient

/-!
## What feeds the cache
-/

def ReadIn (env : Env) (events : List Event) (p : Endpoint) : Prop :=
  exists node data mtime, Event.instance_ p.name node zok data mtime ∈ events ∧
    ServerHandler.Carries env data p

def InFile (parse : String -> Option Json) (file : Option String) (p : Endpoint) : Prop :=
  exists text now v, file = some text ∧ Registry.unserialize parse now text = .ok v ∧
    p ∈ v.map Registry.endpoint

theorem ReadIn.mono {env : Env} {events events' : List Event} {p : Endpoint}
    (h : ReadIn env events p) (hsub : forall e, e ∈ events -> e ∈ events') :
    ReadIn env events' p := by
  rcases h with ⟨node, data, mtime, hmem, hcarries⟩
  exact ⟨node, data, mtime, hsub _ hmem, hcarries⟩

/-- What is new in the cache was read or loaded in between. -/
def Fed (env : Env) (w w' : World) : Prop :=
  exists events, w'.trace = w.trace ++ events ∧
    forall p, w'.cache.Caches p ->
      w.cache.Caches p ∨ ReadIn env events p ∨ InFile env.parse env.cacheFile p

section Fed

variable {env : Env} {u v w : World}

theorem Fed.refl (env : Env) (w : World) : Fed env w w :=
  ⟨[], by simp, fun _ => Or.inl⟩

theorem Fed.trans (huv : Fed env u v) (hvw : Fed env v w) : Fed env u w := by
  rcases huv with ⟨first, htrace, hfirst⟩
  rcases hvw with ⟨second, htrace', hsecond⟩
  refine ⟨first ++ second, ?_, ?_⟩
  · rw [htrace', htrace, List.append_assoc]
  · intro p hp
    rcases hsecond p hp with hp | hread | hfile
    · rcases hfirst p hp with hp | hread | hfile
      · exact Or.inl hp
      · exact Or.inr (Or.inl (hread.mono fun _ => List.mem_append_left second))
      · exact Or.inr (Or.inr hfile)
    · exact Or.inr (Or.inl (hread.mono fun _ => List.mem_append_right first))
    · exact Or.inr (Or.inr hfile)

theorem Fed.of_fewer (htrace : v.trace = u.trace)
    (h : forall p, v.cache.Caches p -> u.cache.Caches p) : Fed env u v :=
  ⟨[], by simp [htrace], fun p hp => Or.inl (h p hp)⟩

theorem readIn_of_registration {e : Event} {p : Endpoint} (he : e.isLoad = false)
    (h : (e.registration env p).isSome = true) : ReadIn env [e] p := by
  cases e with
  | instance_ service node rc data mtime =>
      unfold Event.registration at h
      by_cases hok : rc = zok ∧ env.registers p service node data = true
      · rcases hok with ⟨rfl, hregisters⟩
        unfold Env.registers at hregisters
        cases hread : env.readEndpoint data.data with
        | error stop =>
            rw [hread] at hregisters
            cases hregisters
        | ok endpoint =>
            rw [hread] at hregisters
            simp only [Bool.and_eq_true, decide_eq_true_eq] at hregisters
            rcases hregisters with ⟨_, rfl⟩
            exact ⟨node, data, mtime, List.mem_singleton_self _, hread⟩
      · dsimp only at h
        rw [if_neg hok] at h
        cases h
  | load v => cases he
  | _ => cases h

theorem Reading.fed (h : Reading env u v) : Fed env u v := by
  cases h with
  | event e he htrace hcache =>
      refine ⟨[e], htrace, ?_⟩
      intro p hp
      rw [hcache, RegistryCache.caches_iff_stampOf, Event.stampOf_onCache] at hp
      unfold Cell.after at hp
      cases hreg : e.registration env p with
      | some mtime =>
          right
          left
          exact readIn_of_registration he (by rw [hreg]; rfl)
      | none =>
          left
          rw [hreg] at hp
          rcases Option.isSome_iff_exists.mp hp with ⟨mtime, hmtime⟩
          rw [RegistryCache.caches_iff_stampOf, (Option.filter_eq_some_iff.mp hmtime).left]
          rfl
  | silent htrace hcache => exact Fed.of_fewer htrace fun _ hp => hcache ▸ hp

theorem fed_steps_of_reading {α : Type} {x : ZkM α} (hx : Steps (Reading env) x) :
    Steps (Fed env) x :=
  hx.mono fun _ _ => Reading.fed

theorem fed_of_steps {α : Type} {x : ZkM α} (hx : Steps (Fed env) x) {a : α}
    (hrun : x u = Except.ok (a, v)) : Fed env u v :=
  hx.relates (Fed.refl env) (fun _ _ _ => Fed.trans) (fun _ _ h => h) hrun

theorem fed_modify {f : World -> World} (htrace : forall w, (f w).trace = w.trace)
    (hcache : forall w, (f w).cache = w.cache) : Steps (Fed env) (modify f : ZkM PUnit) :=
  Steps.modify fun w => Fed.of_fewer (htrace w) fun _ hp => hcache w ▸ hp

theorem fed_mapCache {f : RegistryCache -> RegistryCache}
    (hf : forall c p, (f c).Caches p -> c.Caches p) : Steps (Fed env) (mapCache f) :=
  Steps.modify fun w => Fed.of_fewer rfl (hf w.cache)

theorem caches_of_load {c : RegistryCache} {v : RVector} {p : Endpoint}
    (h : (c.load v).Caches p) : c.Caches p ∨ p ∈ v.map Registry.endpoint := by
  rw [RegistryCache.caches_iff_stampOf, RegistryCache.stampOf_load] at h
  cases hfind : v.reverse.find? fun r => RMap.accepts r && decide (r.endpoint = p) with
  | some r =>
      right
      have hmem := List.mem_reverse.mp (List.mem_of_find?_eq_some hfind)
      have hfound := List.find?_some hfind
      simp only [Bool.and_eq_true, decide_eq_true_eq] at hfound
      exact List.mem_map.mpr ⟨r, hmem, hfound.right⟩
  | none =>
      left
      rw [hfind] at h
      exact RegistryCache.caches_iff_stampOf.mpr h

end Fed

namespace ServerHandler

section World

variable {env : Env} {depth : Nat}

theorem nowInMs_fed : Steps (Fed env) (nowInMs env) := by
  apply Steps.bind Steps.get
  intro w
  refine Steps.bind (fed_modify ?_ ?_) fun _ => Steps.pure _
  · exact fun _ => rfl
  · exact fun _ => rfl

theorem mapPool_fed (f : ClientPool -> ClientPool) : Steps (Fed env) (mapPool f) :=
  fed_modify (fun _ => rfl) fun _ => rfl

theorem log_fed {e : Event} (he : e.isLoad = false)
    (hcache : forall cache, e.onCache env cache = cache) : Steps (Fed env) (log e) :=
  fed_steps_of_reading (ZkClient.log_reading he hcache)

theorem sleepMs_fed (ms : Nat) : Steps (Fed env) (sleepMs ms) := by
  refine Steps.bind (fed_modify ?_ ?_) fun _ => log_fed rfl fun _ => rfl
  · exact fun _ => rfl
  · exact fun _ => rfl

theorem fromFile_fed : Steps (Fed env) (fromFile env) := by
  unfold fromFile
  cases hfile : env.cacheFile with
  | none => exact Steps.pure _
  | some text =>
      intro w a w' hrun
      simp only [get_bind_run] at hrun
      cases hread : Registry.unserialize env.parse (env.clock (w.ticks + 0) + w.slept) text with
      | error stop =>
          rw [hread] at hrun
          exact absurd hrun throw_ok
      | ok v =>
          rw [hread] at hrun
          rw [modify_ok.mp hrun]
          apply Relation.ReflTransGen.single
          refine ⟨_, rfl, ?_⟩
          intro p hp
          rcases caches_of_load hp with hold | hnew
          · exact Or.inl hold
          · right
            right
            rw [RegistryCache.endpoint_fileEntries] at hnew
            exact ⟨text, _, v, hfile, hread, hnew⟩

theorem loadIfEmpty_fed : Steps (Fed env) (loadIfEmpty env) :=
  Steps.bind Steps.get fun _ => Steps.ite fromFile_fed (Steps.pure _)

theorem fed_of_framed {α : Type} {c : ClientId} {r : Bool} {frames : List ZkClient.Frame}
    {x : ZkM α} {R : α -> Bool -> Prop} (h : ZkClient.Framed env c r frames x R) :
    Steps (Fed env) x :=
  fed_steps_of_reading (ZkClient.reading_of_framed h)

theorem connectZk_fed (c : ClientId) : Steps (Fed env) (ZkClient.connectZk env depth c) :=
  fed_of_framed (r := false) (ZkClient.connectZk_framed depth false)

theorem getService_fed (c : ClientId) (service : String) :
    Steps (Fed env) (ZkClient.getService env (ZkClient.connectZk env depth) c service) :=
  fed_of_framed (r := false)
    (ZkClient.getService_framed (fun r => ZkClient.connectZk_framed depth r) service false)

theorem getAllServices_fed (c : ClientId) (servicesRoot : String) :
    Steps (Fed env)
      (ZkClient.getAllServices env (ZkClient.connectZk env depth) c servicesRoot) :=
  fed_of_framed (r := false) (ZkClient.getAllServices_framed
    (fun r => ZkClient.connectZk_framed depth r) servicesRoot false)

theorem createEnode_fed (c : ClientId) (absPath data : String) :
    Steps (Fed env) (ZkClient.createEnode env (ZkClient.connectZk env depth) c absPath data) :=
  fed_of_framed (r := false) (ZkClient.createEnode_framed
    (fun r => ZkClient.connectZk_framed depth r) absPath data false)

theorem asked_fed (f : World -> Bool) : Steps (Fed env) (do return f (<- get) : ZkM Bool) :=
  Steps.bind Steps.get fun _ => Steps.pure _

theorem createPnode_fed (c : ClientId) (absPath : String) :
    Steps (Fed env) (ZkClient.createPnode env (ZkClient.connectZk env depth) c absPath) := by
  have hready : Steps (Fed env) (ZkClient.ready (ZkClient.connectZk env depth) c) := by
    refine Steps.bind (asked_fed _) fun _ => Steps.ite (Steps.pure _) ?_
    refine Steps.bind (connectZk_fed c) fun _ => ?_
    refine Steps.bind (asked_fed _) fun _ => Steps.bind (asked_fed _) fun _ => ?_
    apply Steps.ite (Steps.pure _)
    exact Steps.bind (log_fed rfl fun _ => rfl) fun _ => Steps.pure _
  refine Steps.bind hready fun _ => Steps.ite ?_ (Steps.pure _)
  apply fed_steps_of_reading
  apply ZkClient.reading_of_records (c := c)
  intro w rc w' hrun
  exact ⟨_, ZkClient.makePnode_records hrun, rfl⟩

theorem close_fed (c : ClientId) : Steps (Fed env) (ZkClient.close c) :=
  Steps.bind (mapPool_fed _) fun _ => mapPool_fed _

theorem poolOpen_fed : Steps (Fed env) (ZkClient.poolOpen env depth) := by
  refine Steps.bind (mapPool_fed _) fun _ => Steps.bind nowInMs_fed fun now => ?_
  apply Steps.bind Steps.get
  intro w
  apply Steps.bind (mapPool_fed _)
  intro _
  cases (w.pool.openSection now).2 with
  | none => exact Steps.pure none
  | some c =>
      refine Steps.bind nowInMs_fed fun now => Steps.bind (mapPool_fed _) fun _ => ?_
      have hopen : Steps (Fed env) (ZkClient.open_ env depth c) :=
        Steps.bind (asked_fed _) fun _ => Steps.ite (Steps.pure true) (connectZk_fed c)
      exact Steps.bind hopen fun _ => Steps.pure _

theorem borrow_fed {α : Type} {task : Option ClientId -> ZkM α}
    (htask : forall r, Steps (Fed env) (task r)) :
    Steps (Fed env) (ZkClient.poolOpen env depth >>= task) :=
  Steps.bind poolOpen_fed htask

theorem removeOverdue_fed (timestamp : Nat) : Steps (Fed env) (removeOverdue timestamp) :=
  fed_steps_of_reading (Steps.modify fun _ => Reading.event (.purge timestamp) rfl rfl rfl)

theorem check_fed : Steps (Fed env) (check env depth) := by
  apply borrow_fed
  intro r
  cases r with
  | none => exact loadIfEmpty_fed
  | some c =>
      have hcheck : Steps (Fed env)
          (ZkClient.check env (ZkClient.connectZk env depth) c root) :=
        fed_of_framed (r := false)
          (ZkClient.check_framed (fun r => ZkClient.connectZk_framed depth r) root false)
      have hscan : Steps (Fed env) (scan env depth c) := by
        refine Steps.bind (sleepMs_fed 1) fun _ => Steps.bind nowInMs_fed fun now => ?_
        exact Steps.bind (getAllServices_fed c root) fun _ => removeOverdue_fed now
      refine Steps.bind (Steps.bind hcheck fun _ => ?_) fun _ => close_fed c
      exact Steps.ite hscan loadIfEmpty_fed

theorem warm_fed : Steps (Fed env) (warm env depth) :=
  Steps.bind fromFile_fed fun _ => check_fed

theorem keepAwake_fed : Steps (Fed env) (keepAwake env depth) := by
  apply Steps.bind Steps.get
  intro w
  apply Steps.ite ?_ (Steps.pure _)
  apply borrow_fed
  intro r
  cases r with
  | none => exact Steps.pure _
  | some c => exact close_fed c

theorem status_fed (host : Host) : Steps (Fed env) (status env depth host) := by
  have hconn : Steps (Fed env) (connStatus env depth) := by
    apply Steps.bind Steps.get
    intro w
    apply Steps.ite (Steps.pure _)
    apply borrow_fed
    intro r
    cases r with
    | none => exact Steps.pure _
    | some c =>
        exact Steps.bind (asked_fed _) fun _ => Steps.bind (close_fed c) fun _ => Steps.pure _
  exact Steps.bind hconn fun _ => Steps.bind Steps.get fun _ => Steps.pure _

theorem registerSelf_fed (hostname : String) (port : Int) :
    Steps (Fed env) (registerSelf env depth hostname port) := by
  apply borrow_fed
  intro r
  cases r with
  | none => exact log_fed rfl fun _ => rfl
  | some c =>
      refine Steps.bind ?_ fun _ => close_fed c
      refine Steps.bind (asked_fed _) fun _ => Steps.ite ?_ (log_fed rfl fun _ => rfl)
      refine Steps.bind (createPnode_fed c _) fun _ => Steps.bind (createPnode_fed c _) fun _ => ?_
      exact Steps.bind (createEnode_fed c _ _) fun _ => Steps.pure _

theorem fetchService_fed (zkpath : String) : Steps (Fed env) (fetchService env depth zkpath) := by
  apply borrow_fed
  intro r
  cases r with
  | none => exact Steps.pure _
  | some c => exact Steps.bind (getService_fed c zkpath) fun _ => close_fed c

theorem resetPool_fed (rounds : Nat) : Steps (Fed env) (resetPool env rounds) := by
  have hloop : forall start rounds, Steps (Fed env) (destroyLoop env start rounds) := by
    intro start rounds
    induction rounds with
    | zero => exact Steps.throw _
    | succ rounds ih =>
        refine Steps.bind nowInMs_fed fun now => Steps.bind Steps.get fun w => ?_
        apply Steps.ite ?_ (Steps.pure _)
        exact Steps.bind (mapPool_fed _) fun _ => Steps.bind (sleepMs_fed 1) fun _ => ih
  refine Steps.bind (mapPool_fed _) fun _ => Steps.bind nowInMs_fed fun start => ?_
  exact Steps.bind (hloop start rounds) fun _ => mapPool_fed _

end World

end ServerHandler

namespace Watcher

variable {env : Env} {depth : Nat}

theorem caches_of_drop {path : String} {watcher : Watcher} {c : RegistryCache} {p : Endpoint}
    (h : (drop path watcher c).Caches p) : c.Caches p := by
  rcases h with ⟨r, hr, hp⟩
  refine ⟨r, ?_, hp⟩
  have hname : forall name, r ∈ (c.removeName name).list p.name -> r ∈ c.list p.name := by
    intro name hmem
    rw [RegistryCache.list_removeName] at hmem
    split at hmem
    · cases hmem
    · exact hmem
  cases watcher with
  | serviceInstance =>
      unfold drop at hr
      rw [RegistryCache.list_removeEphemeral] at hr
      split at hr
      · exact List.mem_of_mem_eraseP hr
      · exact hr
  | root => exact hname path hr
  | service => exact hname path hr

theorem callback_fed (watcher : Watcher) (type : ZkEventType) (path : String) :
    Steps (Fed env) (callback env depth watcher type path) := by
  have hbag : forall f, Steps (Fed env) (mapBag f) := fun f => ServerHandler.mapPool_fed _
  apply ServerHandler.borrow_fed
  intro r
  cases r with
  | none => exact hbag _
  | some c =>
      have hreconnect : forall r, ZkClient.Framed env c r [.connect]
          (ZkClient.connectZk env depth c) fun _ _ => True := fun r => ZkClient.connectZk_framed depth r
      have hread : Steps (Fed env) (reread env depth path c watcher) := by
        cases watcher with
        | serviceInstance =>
            exact ServerHandler.fed_of_framed (r := false)
              (ZkClient.getServiceInstance_framed hreconnect _ _ false)
        | root => exact ServerHandler.getAllServices_fed c path
        | service => exact ServerHandler.getService_fed c path
      have hreread : Steps (Fed env)
          (reread env depth path c watcher >>= fun _ => pure PUnit.unit) :=
        Steps.bind hread fun _ => Steps.pure _
      refine Steps.bind ?_ fun _ => ServerHandler.close_fed c
      cases type with
      | created => exact hreread
      | changed => exact hreread
      | child => exact hreread
      | deleted =>
          exact Steps.bind (fed_mapCache fun c p => caches_of_drop) fun _ => hbag _
      | session => exact Steps.pure _
      | notWatching => exact Steps.pure _

end Watcher

namespace WatchCallback

variable {env : Env} {depth : Nat}

theorem call_fed (callback : WatchCallback) (type : ZkEventType) (state : Int)
    (path : Option String) : Steps (Fed env) (callback.call env depth type state path) := by
  cases callback with
  | createEnode =>
      cases path with
      | none => exact Steps.pure _
      | some path =>
          apply Steps.ite ?_ (Steps.pure _)
          apply ServerHandler.borrow_fed
          intro r
          cases r with
          | none => exact ServerHandler.mapPool_fed _
          | some c =>
              exact Steps.bind (ServerHandler.createEnode_fed c path "") fun _ =>
                ServerHandler.close_fed c
  | reading watcher =>
      cases path with
      | none => exact Steps.pure _
      | some path => exact Watcher.callback_fed watcher type path
  | global => exact Steps.pure _

end WatchCallback

end FrProxy
