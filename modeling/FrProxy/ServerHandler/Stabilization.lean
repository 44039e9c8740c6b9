import FrProxy.ServerHandler.Lifetimes
import FrProxy.ServerHandler.Tracking

/-!
# A server on a fixed tree

Whatever happened before, a reset against a fixed tree makes the cache equal to
the tree, and no call, task or event without news from ZooKeeper changes that.
-/

namespace FrProxy

open Program

namespace ServerHandler

/-- The entries of the tree can be read back from the text that they are saved as. -/
structure Savable (env : Env) (t : ZkTree env.parse) : Prop where
  parse : env.parse = Rapidjson.parse
  clean : forall r : Registry, t.Contains root r.endpoint ->
    r.CleanFields ∧ -2 ^ 31 ≤ r.port ∧ r.port < 2 ^ 31

def Regular (task : Task) : Prop :=
  forall zkpath, task = .getService zkpath -> exists name, zkpath = servicePath name

theorem regular_servicePath (name : String) : Regular (.getService (servicePath name)) := by
  rintro zkpath heq
  cases heq
  exact ⟨name, rfl⟩

/-- No reset is going on, and the fetches that wait are for services. -/
structure Idle (s : Server) : Prop where
  resetting : s.resetting = false
  regular : forall task, task ∈ s.pending -> Regular task

structure Steady (env : Env) (t : ZkTree env.parse) (s : Server) : Prop where
  tracking : Tracking env t s.world
  readable : Readable env.parse s.cacheFile
  idle : Idle s

section Server

variable {host : Host} {env : Env} {t : ZkTree env.parse} {depth : Nat} {s : Server}

theorem onWorld_returns {α : Type} {x : Env -> ZkM α} {Q : α -> World -> Prop}
    (hx : Returns (x (envOf env s)) s.world Q) :
    Returns (onWorld env x) s fun a s' => exists w, Q a w ∧ s' = { s with world := w } := by
  rcases hx with ⟨a, w, hrun, hw⟩
  refine ⟨a, { s with world := w }, ?_, w, hw, rfl⟩
  unfold onWorld
  rw [hrun]

theorem Publishes.onFile (h : Publishes env t) (s : Server) : Publishes (envOf env s) t where
  init := h.init
  session := h.session
  there := h.there
  get := h.get
  root := h.root
  offered := fun node hnode =>
    ⟨(h.offered node hnode).named, (h.offered node hnode).children, (h.offered node hnode).data⟩
  listed := h.listed
  readable := h.readable
  clock := h.clock
  absent := h.absent

theorem tracking_onFile {w : World} (s : Server) :
    Tracking (envOf env s) t w <-> Tracking env t w :=
  ⟨fun h => ⟨h.resting, h.kept, h.synced, h.dated⟩,
    fun h => ⟨h.resting, h.kept, h.synced, h.dated⟩⟩

theorem Steady.onWorld_keeps {α : Type} (h : Steady env t s) {x : Env -> ZkM α}
    (hx : Tracking (envOf env s) t s.world ->
      Returns (x (envOf env s)) s.world fun _ w => Tracking (envOf env s) t w) :
    Returns (onWorld env x) s fun _ s' => Steady env t s' ∧ s'.pending = s.pending := by
  apply (onWorld_returns (hx ((tracking_onFile s).mpr h.tracking))).mono
  rintro _ _ ⟨w, hw, rfl⟩
  exact ⟨⟨(tracking_onFile s).mp hw, h.readable, h.idle.resetting, h.idle.regular⟩, rfl⟩

theorem nowInMs_tracks {w : World} (hclock : Monotone env.clock) (h : Tracking env t w) :
    Returns (nowInMs env) w fun _ w' => Tracking env t w' := by
  have hlater : Later env w { w with ticks := w.ticks + 1 } :=
    ⟨Nat.le_succ _, Nat.le_refl _, fun _ => Or.inl rfl⟩
  exact ⟨_, _, rfl, h.resting, h.kept, h.synced, h.dated.later hclock hlater⟩

theorem addTask_steady (h : Steady env t s) {task : Task} (htask : Regular task) :
    Returns (addTask task) s fun _ s' => Steady env t s' := by
  refine ⟨⟨⟩, _, rfl, ?_⟩
  dsimp only
  split
  · refine ⟨h.tracking, h.readable, h.idle.resetting, ?_⟩
    intro other hother
    rcases List.mem_append.mp hother with hold | hnew
    · exact h.idle.regular other hold
    · rw [List.mem_singleton.mp hnew]
      exact htask
  · exact h

theorem skipInsert_steady (hpublishes : Publishes env t) (h : Steady env t s) (path : String) :
    Returns (skipInsert env path) s fun _ s' => Steady env t s' := by
  have hnow := h.onWorld_keeps (x := nowInMs) fun hs =>
    nowInMs_tracks (Publishes.onFile hpublishes s).clock hs
  apply Returns.bind hnow
  rintro now u ⟨hu, _⟩
  apply Returns.getBind
  refine Returns.bindOk (modify_run _ _) (Returns.pure ?_)
  exact ⟨hu.tracking, hu.readable, hu.idle.resetting, hu.idle.regular⟩

theorem get_steady (hpublishes : Publishes env t) (h : Steady env t s) (serviceName : String) :
    Returns (get_ env serviceName) s fun _ s' => Steady env t s' := by
  apply Returns.getBind
  dsimp only
  split
  · apply Returns.bind (skipInsert_steady hpublishes h _)
    intro inserted u hu
    split
    · exact Returns.bind (addTask_steady hu (regular_servicePath _)) fun _ _ hs => Returns.pure hs
    · exact Returns.pure hu
  · have hnow := h.onWorld_keeps (x := nowInMs) fun hs =>
      nowInMs_tracks (Publishes.onFile hpublishes s).clock hs
    exact Returns.bind hnow fun _ _ hs => Returns.pure hs.left

theorem Steady.readable_save (hsavable : Savable env t) (h : Steady env t s) (sec : Nat) :
    Readable env.parse (some (s.world.cache.cache.save sec)) := by
  intro text htext now
  cases htext
  have hclean : forall r, r ∈ s.world.cache.cache.entries ->
      r.CleanFields ∧ -2 ^ 31 ≤ r.port ∧ r.port < 2 ^ 31 := by
    intro r hr
    have hcaches : s.world.cache.Caches r.endpoint :=
      ⟨r, RegistryCache.mem_list_of_mem_entries hr, rfl⟩
    exact hsavable.clean r ((h.tracking.synced r.endpoint).mp hcaches)
  rw [hsavable.parse]
  exact ⟨_, Registry.unserialize_serializeAll sec now (fun r hr => (hclean r hr).left)
    fun r hr => (hclean r hr).left.typed (hclean r hr).right⟩

theorem autosave_steady (hpublishes : Publishes env t) (hsavable : Savable env t) (h : Steady env t s) :
    Returns (autosave host env depth writeWhole) s fun _ s' => Steady env t s' := by
  have hstatus := h.onWorld_keeps (x := fun env => status env depth host) fun hs =>
    status_tracks (Publishes.onFile hpublishes s).clock hs host
  apply Returns.bind hstatus
  rintro ret u ⟨hu, _⟩
  split
  · have hnow := hu.onWorld_keeps (x := nowInMs) fun hs =>
      nowInMs_tracks (Publishes.onFile hpublishes u).clock hs
    apply Returns.bind hnow
    rintro now v ⟨hv, _⟩
    refine ⟨⟨⟩, _, rfl, ?_⟩
    dsimp only
    split
    · exact ⟨hv.tracking, hv.readable_save hsavable _, hv.idle.resetting, hv.idle.regular⟩
    · exact hv
  · exact Returns.pure hu

theorem runTask_steady (hpublishes : Publishes env t) (hsavable : Savable env t)
    (h : Steady env t s) {task : Task} (htask : Regular task) :
    Returns (runTask host env (depth + 1) task) s fun _ s' => Steady env t s' := by
  have hs := Publishes.onFile hpublishes s
  unfold runTask
  cases task with
  | wake =>
      exact (h.onWorld_keeps (x := fun env => keepAwake env (depth + 1)) fun ht =>
        keepAwake_tracks hs.clock ht).mono fun _ _ h => h.left
  | check =>
      exact (h.onWorld_keeps (x := fun env => check env (depth + 1)) fun ht =>
        check_tracks hs ht.resting ht.dated).mono fun _ _ h => h.left
  | autosave => exact autosave_steady hpublishes hsavable h
  | warm =>
      exact (h.onWorld_keeps (x := fun env => warm env (depth + 1)) fun ht =>
        warm_tracks hs h.readable ht.resting ht.dated).mono fun _ _ h => h.left
  | registerSelf =>
      exact (h.onWorld_keeps (x := fun env => registerSelf env (depth + 1) host.hostname host.port)
        fun ht => registerSelf_tracks hs ht host.hostname host.port).mono fun _ _ h => h.left
  | getService zkpath =>
      rcases htask zkpath rfl with ⟨name, rfl⟩
      have hfetch := h.onWorld_keeps (x := fun env => fetchService env (depth + 1) (servicePath name))
        fun ht => fetchService_tracks hs ht name
      apply Returns.bind hfetch
      rintro _ u ⟨hu, _⟩
      exact ⟨⟨⟩, _, rfl, hu.tracking, hu.readable, hu.idle.resetting, hu.idle.regular⟩

theorem work_steady (hpublishes : Publishes env t) (hsavable : Savable env t)
    (h : Steady env t s) :
    Returns (work host env (depth + 1)) s fun _ s' => Steady env t s' := by
  apply Returns.getBind
  cases hpending : s.pending with
  | nil => exact Returns.pure h
  | cons task rest =>
      have hregular : forall other, other ∈ task :: rest -> Regular other :=
        hpending ▸ h.idle.regular
      have htaken : Steady env t { s with pending := rest } :=
        ⟨h.tracking, h.readable, h.idle.resetting,
          fun other hother => hregular other (List.mem_cons_of_mem _ hother)⟩
      refine Returns.bindOk (modify_run _ _) ?_
      exact runTask_steady hpublishes hsavable htaken (hregular task List.mem_cons_self)

/-- A reset brings any server in step with the tree, whatever its cache and its clients are. -/
theorem reset_steady (hpublishes : Publishes env t) (hrest : Resting s.world)
    (hfile : Readable env.parse s.cacheFile) (hidle : Idle s) (rounds : Nat) :
    Returns (reset host env (depth + 1) (rounds + 2)) s fun _ s' => Steady env t s' := by
  apply Returns.getBind
  rw [if_neg (by simp [hidle.resetting])]
  refine Returns.bindOk (modify_run _ _) ?_
  apply Returns.bind (onWorld_returns (resetPool_returns hrest rounds))
  rintro _ _ ⟨u, hu, rfl⟩
  have hcleared : Dated ({ u with cache := u.cache.clear }.reading env) u.cache.clear := by
    intro name r hr
    rw [RegistryCache.list_clear] at hr
    cases hr
  refine Returns.bindOk (a := ⟨⟩) (t := {
    s with resetting := true, world := { u with cache := u.cache.clear } }) rfl ?_
  let v : Server := { s with resetting := true, world := { u with cache := u.cache.clear } }
  have hwarm : Returns (warm (envOf env v) (depth + 1)) v.world fun _ w =>
      Tracking (envOf env v) t w :=
    warm_tracks (Publishes.onFile hpublishes v) hfile hu.rests hcleared
  apply Returns.bind (onWorld_returns (x := fun env => warm env (depth + 1)) hwarm)
  rintro _ _ ⟨w, hw, rfl⟩
  have hstatus : Returns (status (envOf env { v with world := w }) (depth + 1) host) w
      fun _ w' => Tracking (envOf env { v with world := w }) t w' :=
    status_tracks (Publishes.onFile hpublishes { v with world := w }).clock hw host
  apply Returns.bind (onWorld_returns (s := { v with world := w })
    (x := fun env => status env (depth + 1) host) hstatus)
  rintro res _ ⟨w', hw', rfl⟩
  refine Returns.bindOk (modify_run _ _) (Returns.pure ?_)
  exact ⟨(tracking_onFile { v with world := w }).mp hw', hfile, rfl, hidle.regular⟩

/-!
## Runs
-/

/--
The action brings no news from ZooKeeper, leaves enough rounds to the loop of the
pool, and does not kill the process.
-/
def Quiet : ServerAction -> Prop
  | .reset rounds => 2 ≤ rounds
  | .commit task => Regular task
  | .watch _ type state _ => NoNews type state
  | .restart => False
  | .crash _ => False
  | _ => True

theorem act_steady (hpublishes : Publishes env t) (hsavable : Savable env t)
    (h : Steady env t s) {a : ServerAction} (ha : Quiet a) :
    Returns (act host env (depth + 1) a) s fun _ s' => Steady env t s' := by
  cases a with
  | get serviceName =>
      exact Returns.bind (get_steady hpublishes h serviceName) fun _ _ hs => Returns.pure hs
  | remove serviceName host port => exact Returns.bindOk rfl (Returns.pure h)
  | reset rounds =>
      obtain ⟨more, rfl⟩ : exists more, rounds = more + 2 := ⟨rounds - 2, (Nat.sub_add_cancel ha).symm⟩
      exact Returns.bind (reset_steady hpublishes h.tracking.resting h.readable h.idle more)
        fun _ _ hs => Returns.pure hs
  | status =>
      have hstatus := h.onWorld_keeps (x := fun env => status env (depth + 1) host) fun ht =>
        status_tracks (Publishes.onFile hpublishes s).clock ht host
      exact Returns.bind hstatus fun _ _ hs => Returns.pure hs.left
  | commit task => exact Returns.bind (addTask_steady h ha) fun _ _ hs => Returns.pure hs
  | work =>
      exact Returns.bind (work_steady hpublishes hsavable h) fun _ _ hs => Returns.pure hs
  | expire zkpath =>
      refine Returns.bindOk (modify_run _ _) (Returns.pure ?_)
      refine ⟨h.tracking, h.readable, h.idle.resetting, fun task htask => ?_⟩
      exact h.idle.regular task (List.mem_of_mem_erase htask)
  | watch callback type state path =>
      have hcall := h.onWorld_keeps (x := fun env => callback.call env (depth + 1) type state path)
        fun ht => call_tracks (Publishes.onFile hpublishes s).clock ht callback ha path
      exact Returns.bind hcall fun _ _ hs => Returns.pure hs.left
  | restart => exact ha.elim
  | crash written => exact ha.elim

theorem step_of_returns {a : ServerAction} {P : Server -> Prop}
    (h : Returns (act host env depth a) s fun _ s' => P s') :
    exists s', step host env depth s a = some s' ∧ P s' := by
  rcases h with ⟨answer, s', hrun, hP⟩
  refine ⟨s', ?_, hP⟩
  unfold step
  rw [hrun]

/-!
## Any server before the reset
-/

def RegularPending (s : Server) : Prop :=
  forall task, task ∈ s.pending -> Regular task

theorem onWorld_idle {α : Type} {x : Env -> ZkM α} {P : Server -> Prop}
    (hP : forall s w, P s -> P { s with world := w }) :
    Avoids (fun _ => False) P (onWorld env x) fun _ => P := by
  intro s hs
  unfold onWorld
  cases x (envOf env s) s.world with
  | error stop => exact fun h => h
  | ok v => exact hP s v.2 hs

theorem idle_world (s : Server) (w : World) (h : Idle s) : Idle { s with world := w } :=
  ⟨h.resetting, h.regular⟩

theorem addTask_idle {task : Task} (htask : Regular task) :
    Avoids (fun _ => False) Idle (addTask task) fun _ => Idle := by
  apply Avoids.modify
  intro s hs
  split
  · refine ⟨hs.resetting, fun other hother => ?_⟩
    rcases List.mem_append.mp hother with hold | hnew
    · exact hs.regular other hold
    · rw [List.mem_singleton.mp hnew]
      exact htask
  · exact hs

def KeepsIdle {α : Type} (x : ServerM α) : Prop :=
  Avoids (fun _ => False) Idle x fun _ => Idle

theorem idle_pure {α : Type} (a : α) : KeepsIdle (pure a : ServerM α) :=
  Avoids.pure fun _ hs => hs

theorem idle_get : KeepsIdle (get : ServerM Server) :=
  Avoids.get fun _ hs => hs

theorem idle_modify {f : Server -> Server} (hflag : forall s, (f s).resetting = s.resetting)
    (hpending : forall s task, task ∈ (f s).pending -> task ∈ s.pending) :
    KeepsIdle (modify f : ServerM PUnit) := by
  apply Avoids.modify
  intro s hs
  exact ⟨(hflag s).trans hs.resetting, fun task htask => hs.regular task (hpending s task htask)⟩

theorem get_idle (serviceName : String) : KeepsIdle (get_ env serviceName) := by
  have hnow : KeepsIdle (onWorld env nowInMs) := onWorld_idle idle_world
  apply Avoids.bind idle_get
  intro s
  apply Avoids.ite
  · intro _
    have hinsert : KeepsIdle (skipInsert env (servicePath serviceName)) := by
      apply Avoids.bind hnow
      intro now
      apply Avoids.bind idle_get
      intro s
      refine Avoids.bind (idle_modify ?_ ?_) fun _ => idle_pure _
      · exact fun _ => rfl
      · exact fun _ _ htask => htask
    apply Avoids.bind hinsert
    intro inserted
    apply Avoids.ite
    · intro _
      exact Avoids.bind (addTask_idle (regular_servicePath _)) fun _ => idle_pure _
    · exact fun _ => idle_pure _
  · exact fun _ => Avoids.bind hnow fun _ => idle_pure _

theorem reset_idle (rounds : Nat) : KeepsIdle (reset host env depth rounds) := by
  have hworld : forall (α : Type) (x : Env -> ZkM α), Avoids (fun _ => False) RegularPending
      (onWorld env x) fun _ => RegularPending := fun α x => onWorld_idle fun s w hs => hs
  apply Avoids.bind idle_get
  intro s
  apply Avoids.ite fun _ => idle_pure _
  intro _
  -- the flag is up between here and the last step
  apply Avoids.bind (Q := fun _ => RegularPending)
  · exact Avoids.modify fun s hs => hs.regular
  intro _
  apply Avoids.bind (hworld _ _)
  intro _
  apply Avoids.bind (hworld _ _)
  intro _
  apply Avoids.bind (hworld _ _)
  intro _
  apply Avoids.bind (hworld _ _)
  intro res
  apply Avoids.bind (Q := fun _ => Idle)
  · exact Avoids.modify fun s hs => ⟨rfl, hs⟩
  exact fun _ => idle_pure _

theorem runTask_idle (task : Task) : KeepsIdle (runTask host env depth task) := by
  unfold runTask
  cases task with
  | autosave =>
      apply Avoids.bind (onWorld_idle idle_world)
      intro ret
      apply Avoids.ite
      · intro _
        apply Avoids.bind (onWorld_idle idle_world)
        intro now
        apply Avoids.modify
        intro s hs
        split
        · exact ⟨hs.resetting, hs.regular⟩
        · exact hs
      · exact fun _ => idle_pure _
  | getService zkpath =>
      refine Avoids.bind (onWorld_idle idle_world) fun _ => idle_modify ?_ ?_
      · exact fun _ => rfl
      · exact fun _ _ htask => htask
  | _ => exact onWorld_idle idle_world

theorem work_idle : KeepsIdle (work host env depth) := by
  refine Avoids.bind (Q := fun r s => r = s ∧ Idle s) (Avoids.get fun _ hs => ⟨rfl, hs⟩) fun r => ?_
  rintro s ⟨rfl, hs⟩
  cases hpending : r.pending with
  | nil => exact hs
  | cons task rest =>
      have hrest : Avoids (fun _ => False) (fun s => s = r) (do
          modify fun s => { s with pending := rest }
          runTask host env depth task : ServerM PUnit) fun _ => Idle := by
        refine Avoids.bind (Q := fun _ => Idle) ?_ fun _ => runTask_idle task
        apply Avoids.modify
        rintro _ rfl
        refine ⟨hs.resetting, fun other hother => hs.regular other ?_⟩
        rw [hpending]
        exact List.mem_cons_of_mem _ hother
      exact hrest r rfl

theorem boot_idle (s : Server) : Idle (boot s.world s.cacheFile) := by
  refine ⟨rfl, fun task htask zkpath heq => ?_⟩
  rw [heq] at htask
  simp [boot] at htask

theorem act_idle {a : ServerAction} (ha : forall task, a = .commit task -> Regular task) :
    KeepsIdle (act host env depth a) := by
  cases a with
  | get serviceName => exact Avoids.bind (get_idle serviceName) fun _ => idle_pure _
  | remove serviceName host port => exact idle_pure _
  | reset rounds => exact Avoids.bind (reset_idle rounds) fun _ => idle_pure _
  | status => exact Avoids.bind (onWorld_idle idle_world) fun _ => idle_pure _
  | commit task => exact Avoids.bind (addTask_idle (ha task rfl)) fun _ => idle_pure _
  | work => exact Avoids.bind work_idle fun _ => idle_pure _
  | expire zkpath =>
      refine Avoids.bind (idle_modify ?_ ?_) fun _ => idle_pure _
      · exact fun _ => rfl
      · exact fun _ _ htask => List.mem_of_mem_erase htask
  | watch callback type state path =>
      exact Avoids.bind (onWorld_idle idle_world) fun _ => idle_pure _
  | restart => exact Avoids.bind (Avoids.modify fun s _ => boot_idle s) fun _ => idle_pure _
  | crash written =>
      apply Avoids.bind (Q := fun _ _ => True)
      · intro s _
        cases workCut host env depth written s with
        | error stop => exact fun h => h
        | ok v => trivial
      intro _
      exact Avoids.bind (Avoids.modify fun s _ => boot_idle s) fun _ => idle_pure _

theorem step_idle {s s' : Server} {a : ServerAction}
    (ha : forall task, a = .commit task -> Regular task)
    (hstep : step host env depth s a = some s') (hs : Idle s) : Idle s' := by
  unfold step at hstep
  cases hact : act host env depth a s with
  | error stop =>
      rw [hact] at hstep
      cases hstep
  | ok v =>
      rw [hact] at hstep
      cases hstep
      exact (act_idle ha).ok hs hact

theorem idle_start (addr : ClientId -> Nat) (file : Option String) : Idle (start addr file) := by
  refine ⟨rfl, fun task htask zkpath heq => ?_⟩
  rw [heq] at htask
  simp [start, boot] at htask

theorem get_cached (env : Env) (s : Server) (serviceName : String) :
    exists answer s' l sec, get_ env serviceName s = .ok (answer, s') ∧
      answer = (if l = [] then "" else Registry.serializeAll sec l) ∧
      (l.map Registry.endpoint).Nodup ∧
      forall p, p ∈ l.map Registry.endpoint <->
        p.name = servicePath serviceName ∧ s.world.cache.Caches p := by
  have hl := s.world.cache.filed (servicePath serviceName)
  rcases get_answers env serviceName s with ⟨sec, s', hget⟩
  refine ⟨_, s', s.world.cache.list (servicePath serviceName), sec, hget, rfl, hl.distinct, ?_⟩
  intro p
  rw [List.mem_map]
  constructor
  · rintro ⟨r, hr, rfl⟩
    have hname := hl.named r hr
    refine ⟨hname, r, ?_, rfl⟩
    rw [show r.endpoint.name = r.name from rfl, hname]
    exact hr
  · rintro ⟨hname, r, hr, rfl⟩
    rw [hname] at hr
    exact ⟨r, hr, rfl⟩

theorem steady_after_reset (host : Host) (env' env : Env) (depth' depth : Nat)
    (addr : ClientId -> Nat) (file : Option String) (past actions : List ServerAction)
    (rounds : Nat) (t : ZkTree env.parse) (hpublishes : Publishes env t)
    (hsavable : Savable env t)
    (hpast : forall task, ServerAction.commit task ∈ past -> Regular task)
    (hactions : forall a, a ∈ actions -> Quiet a)
    (hfile : Readable env.parse (finalFrom host env' depth' addr file past).cacheFile) :
    let s := finalFrom host env' depth' addr file past
    let run := .reset (rounds + 2) :: actions
    (Transition.transitions (step host env (depth + 1)) s run).length = run.length ∧
      Steady env t (Transition.final (step host env (depth + 1)) s run) := by
  intro s run
  have hrest : Resting s.world := Transition.final_of_kept (step host env' depth') past
    (ClientPool.atRest_start addr) fun _ _ _ _ hstep hs => step_rests hstep hs
  have hidle : Idle s := by
    apply Transition.final_keeps (step host env' depth')
      (fun _ _ _ hstep hs ha => step_idle ha hstep hs) past (idle_start addr file)
    rintro a ha task rfl
    exact hpast task ha
  have hreset : Returns (act host env (depth + 1) (.reset (rounds + 2))) s
      fun _ s' => Steady env t s' :=
    Returns.bind (reset_steady hpublishes hrest hfile hidle rounds) fun _ _ hs => Returns.pure hs
  rcases step_of_returns hreset with ⟨u, hstep, hu⟩
  have hthen := Transition.runs_through (P := Steady env t) (step host env (depth + 1))
    (fun v a hv ha => step_of_returns (act_steady hpublishes hsavable hv ha)) actions hu hactions
  have hrun : Transition.transitions (step host env (depth + 1)) s run =
      (s, .reset (rounds + 2), u) :: Transition.transitions (step host env (depth + 1)) u actions :=
    Transition.transitions_cons_some _ actions hstep
  constructor
  · rw [hrun, List.length_cons, hthen.right]
    rfl
  · rw [Transition.final_cons_some _ actions hstep]
    exact hthen.left

section Example

def oneService : ZkTree Rapidjson.parse where
  children := fun path =>
    if path = root then ["a"] else if path = servicePath "a" then ["m1"] else []
  data := fun _ => plainInstance
  named := by
    intro path
    split
    · decide
    · split
      · decide
      · decide

abbrev zbadarguments : Int := -8

/-- What ZooKeeper says of a path that it does not have, or that cannot be one. -/
def refusal : List Char -> Int
  | '/' :: '/' :: _ => zbadarguments
  | ['/'] => zbadarguments
  | _ :: rest => refusal rest
  | [] => znonode

/-- ZooKeeper comes up after so many events, and then serves one service. -/
def answeringFrom (first : Nat) : Env where
  parse := Rapidjson.parse
  zookeeperInit := fun n => decide (first ≤ n)
  zooWgetChildren := fun _ path =>
    if path = root ∨ path = servicePath "a" then (zok, oneService.children path)
    else (refusal path.toList, [])
  zooWget := fun _ path =>
    if path = servicePath "a" ++ "/" ++ "m1" then (zok, (oneService.data path).node)
    else if path = root ∨ path = servicePath "a" then (zok, {})
    else (refusal path.toList, {})
  zooCreate := fun _ path => if path = "/soa" then znodeexists else zok
  zooGet := fun _ path => if path = root then zok else refusal path.toList
  clock := fun n => 5000 + n
  cacheFile := none

def threeWorkers : Host where
  hostname := "p"
  port := 1
  workerCount := 3
  openWrite := fun _ => true

theorem refusal_cases (path : List Char) : refusal path = zbadarguments ∨ refusal path = znonode := by
  fun_induction refusal path with
  | case1 => exact Or.inl rfl
  | case2 => exact Or.inl rfl
  | case3 _ _ _ _ ih => exact ih
  | case4 => exact Or.inr rfl

theorem refusal_ne (path : List Char) :
    refusal path ≠ zok ∧ refusal path ≠ zinvalidstate := by
  rcases refusal_cases path with h | h
  · rw [h]
    decide
  · rw [h]
    decide

theorem answeringFrom_children (first n : Nat) (path : String) :
    (answeringFrom first).zooWgetChildren n path =
      if path = root ∨ path = servicePath "a" then (zok, oneService.children path)
      else (refusal path.toList, []) :=
  rfl

theorem answeringFrom_data (first n : Nat) (path : String) :
    (answeringFrom first).zooWget n path =
      if path = servicePath "a" ++ "/" ++ "m1" then (zok, (oneService.data path).node)
      else if path = root ∨ path = servicePath "a" then (zok, {})
      else (refusal path.toList, {}) :=
  rfl

theorem listed_oneService {path node : String} (hpath : path = root ∨ path = servicePath "a")
    (hnode : node ∈ oneService.children path) :
    path ++ "/" ++ node = servicePath "a" ∨ path ++ "/" ++ node = servicePath "a" ++ "/" ++ "m1" := by
  rcases hpath with rfl | rfl
  · rw [List.mem_singleton.mp hnode]
    exact Or.inl rfl
  · rw [List.mem_singleton.mp hnode]
    exact Or.inr rfl

theorem publishes_oneService : Publishes (answeringFrom 0) oneService where
  init := fun n => decide_eq_true (Nat.zero_le n)
  session := by
    intro n path
    have hrefusal := (refusal_ne path.toList).right
    have hok : zok ≠ zinvalidstate := by decide
    refine ⟨?_, ?_, ?_⟩
    · rw [answeringFrom_children]
      split
      · exact hok
      · exact hrefusal
    · rw [answeringFrom_data]
      split
      · exact hok
      · split
        · exact hok
        · exact hrefusal
    · show (if path = "/soa" then znodeexists else zok) ≠ zinvalidstate
      split
      · decide
      · exact hok
  there := fun h => absurd trivial h
  get := fun _ => show (if root = root then zok else refusal root.toList) = zok from if_pos rfl
  root := by
    intro n
    rw [answeringFrom_children, if_pos (Or.inl rfl)]
  offered := by
    intro node hnode
    rw [List.mem_singleton.mp hnode]
    refine ⟨by decide, fun n => ?_, fun n member hmember => ?_⟩
    · rw [answeringFrom_children]
      exact if_pos (Or.inr rfl)
    · rw [List.mem_singleton.mp hmember, answeringFrom_data]
      exact if_pos rfl
  listed := by
    intro n m path node hok hnode
    rw [answeringFrom_children] at hok hnode
    have hpath : path = root ∨ path = servicePath "a" := by
      by_contra hout
      rw [if_neg hout] at hok
      exact (refusal_ne path.toList).left hok
    rw [if_pos hpath] at hnode
    have hthere := listed_oneService hpath hnode
    have hrc : zok ≠ znonode := by decide
    rw [answeringFrom_data]
    rcases hthere with heq | heq
    · rw [heq, if_neg (by decide), if_pos (Or.inr rfl)]
      exact hrc
    · rw [heq, if_pos rfl]
      exact hrc
  readable := by
    intro n path hok
    have hempty : (answeringFrom 0).readEndpoint "" = Except.ok ("", 0) := rfl
    rw [answeringFrom_data] at hok ⊢
    split at hok
    · rename_i hmember
      rw [if_pos hmember]
      exact ⟨_, @ZkInstance.readEndpoint (answeringFrom 0) (oneService.data path)⟩
    · rename_i hmember
      rw [if_neg hmember]
      split at hok
      · rename_i hpath
        rw [if_pos hpath]
        exact ⟨_, hempty⟩
      · exact absurd hok (refusal_ne path.toList).left
  clock := fun _ _ h => Nat.add_le_add_left h 5000
  absent := by
    intro name n hname _
    have hroot : servicePath name ≠ root := by
      intro heq
      have hlength := congrArg String.length heq
      have hslash : "/".length = 1 := by decide
      rw [servicePath, String.length_append, String.length_append] at hlength
      omega
    have hservice : servicePath name ≠ servicePath "a" := by
      intro heq
      have hlist := congrArg String.toList heq
      rw [servicePath, servicePath, String.toList_append, String.toList_append] at hlist
      have hsame : name = "a" := String.toList_inj.mp (List.append_cancel_left hlist)
      exact hname (hsame ▸ List.mem_singleton_self "a")
    rw [answeringFrom_children, if_neg (not_or.mpr ⟨hroot, hservice⟩)]

theorem savable_oneService : Savable (answeringFrom 0) oneService where
  parse := rfl
  clean := by
    intro r hr
    rcases hr.left with ⟨node, hnode, hname⟩
    rcases hr.right with ⟨node', _, hendpoint⟩
    have hnode : node = "a" := by simpa [oneService] using hnode
    have hname : r.name = "/soa/services/a" := by
      rw [show r.name = r.endpoint.name from rfl, hname, hnode]
      decide
    have hhost : r.host = "h" := (congrArg Endpoint.host hendpoint).symm
    have hport : r.port = 1 := (congrArg Endpoint.port hendpoint).symm
    unfold Registry.CleanFields
    rw [hname, hhost, hport]
    decide +kernel

/--
The first warm-up fails, for ZooKeeper is down.  Later a check finds the service, and
a service that is not there is asked for.
-/
def lateStart : List ServerAction :=
  [.work, .work, .commit .check, .work, .get "b", .work]

def afterReset : List ServerAction :=
  [.commit .autosave, .get "b", .work, .work, .commit .check, .work, .status]

theorem lateStart_regular (task : Task) (h : ServerAction.commit task ∈ lateStart) :
    Regular task := by
  simp only [lateStart, List.mem_cons, List.not_mem_nil, or_false, ServerAction.commit.injEq,
    reduceCtorEq, false_or] at h
  rw [h]
  intro zkpath heq
  cases heq

theorem lateStart_readable :
    Readable (answeringFrom 0).parse
      (finalFrom threeWorkers (answeringFrom 11) 1 id none lateStart).cacheFile := by
  have hfile : (finalFrom threeWorkers (answeringFrom 11) 1 id none lateStart).cacheFile = none := by
    decide +kernel
  rw [hfile]
  intro text htext
  cases htext

theorem afterReset_quiet (a : ServerAction) (ha : a ∈ afterReset) : Quiet a := by
  simp only [afterReset, List.mem_cons, List.not_mem_nil, or_false] at ha
  rcases ha with rfl | rfl | rfl | rfl | rfl | rfl | rfl
  · intro zkpath heq
    cases heq
  · trivial
  · trivial
  · trivial
  · intro zkpath heq
    cases heq
  · trivial
  · trivial

end Example

end Server

end ServerHandler

end FrProxy
