import FrProxy.ServerHandler.Routine

/-!
# A server and a tree that changes

Services and instances come and go, notices are delivered late and in any order,
and the server goes on answering and running its tasks in between.
-/

namespace FrProxy

open Program

namespace ServerHandler

/-- The server, and what ZooKeeper holds for it. -/
structure Watched (env : Env) where
  server : Server
  zookeeper : Ensemble env.parse

inductive WatchedAction where
  | appear (name : String)
  | vanish (name : String)
  | join (name node : String)
  | leave (name node : String)
  /-- ZooKeeper calls a watcher. -/
  | deliver (notice : Notice)
  | act (action : ServerAction)

abbrev connectedState : Int := 3

namespace Watched

variable (host : Host) {env : Env} (depth : Nat)

/-- The server did something, which left watches behind. -/
def served (x : Watched env) (s : Server) (notices : List Notice) : Watched env where
  server := s
  zookeeper := x.zookeeper.reread (s.world.watches.drop x.server.world.watches.length) notices

/-- An action of the server, with ZooKeeper as it is; `none` when the process stops in it. -/
def runs (x : Watched env) (a : ServerAction) (notices : List Notice) : Option (Watched env) :=
  (ServerHandler.step host (treeEnv env x.zookeeper.tree) depth x.server a).map fun s =>
    x.served s notices

/-- One action; nothing happens where a change is not possible. -/
def step (x : Watched env) : WatchedAction -> Option (Watched env)
  | .appear name => some { x with zookeeper := x.zookeeper.appear name }
  | .vanish name => some { x with zookeeper := x.zookeeper.vanish name }
  | .join name node => some { x with zookeeper := x.zookeeper.join name node }
  | .leave name node => some { x with zookeeper := x.zookeeper.leave name node }
  | .deliver notice =>
      if notice ∈ x.zookeeper.notices then
        x.runs host depth (.watch (.reading notice.1.1) notice.2 connectedState (some notice.1.2))
          (x.zookeeper.notices.erase notice)
      else some x
  | .act a => x.runs host depth a x.zookeeper.notices

/-- The server after it was started and has run its first two tasks. -/
def start (addr : ClientId -> Nat) (file : Option String) (t : ZkTree env.parse) : Watched env :=
  let s := finalFrom host (treeEnv env t) depth addr file [.work, .work]
  { server := s
    zookeeper := { tree := t, armed := s.world.watches, notices := [], gone := [] } }

variable {host} {depth} {x : Watched env}

structure Attentive (x : Watched env) : Prop where
  kept : exists c, Kept env c x.server.world
  usual : AllUsual x.server
  informed : x.zookeeper.Informed x.server.world.cache

theorem Attentive.runs {a : ServerAction} {notices : List Notice}
    (h : Returns (act host (treeEnv env x.zookeeper.tree) depth a) x.server fun _ s =>
      exists c watches, Served env c watches x.server.world s.world ∧ AllUsual s ∧
        (x.zookeeper.reread watches notices).Informed s.world.cache) :
    exists y, x.runs host depth a notices = some y ∧ Attentive y ∧
      y.zookeeper.tree = x.zookeeper.tree ∧ y.zookeeper.notices = notices := by
  rcases step_of_returns h with ⟨s, hstep, c, watches, hserved, husual, hinformed⟩
  refine ⟨x.served s notices, ?_, ⟨⟨c, hserved.kept⟩, husual, ?_⟩, rfl, rfl⟩
  · unfold Watched.runs
    rw [hstep]
    rfl
  · unfold Watched.served
    rw [hserved.watches, List.drop_left]
    exact hinformed

theorem Attentive.acts (host : Host) (depth : Nat) (hlasting : Lasting env) (h : Attentive x)
    {a : ServerAction} (ha : Routine a) :
    exists y, x.runs host depth a x.zookeeper.notices = some y ∧ Attentive y ∧
      y.zookeeper.tree = x.zookeeper.tree ∧ y.zookeeper.notices = x.zookeeper.notices := by
  rcases h.kept with ⟨c, hkept⟩
  apply Attentive.runs
  apply (act_progresses hlasting hkept h.usual ha).mono
  intro _ s hpost
  rcases hpost with ⟨⟨watches, services, hserved, hfetched⟩, husual⟩
  exact ⟨c, watches, hserved, husual h.usual,
    h.informed.reread hfetched (Ensemble.answered_none _ _ _)⟩

theorem watch_serves {t : ZkTree env.parse} {c : ClientId} {s : Server} {watcher : Watcher}
    {type : ZkEventType} {path : String} {R : List Watch -> RegistryCache -> Prop}
    (h : Kept env c s.world)
    (hx : Kept (envOf (treeEnv env t) s) c s.world ->
      Returns (watcher.callback (envOf (treeEnv env t) s) depth type path) s.world fun _ w =>
        exists watches, Served (envOf (treeEnv env t) s) c watches s.world w ∧ R watches w.cache) :
    Returns (act host (treeEnv env t) depth (.watch (.reading watcher) type connectedState (some path))) s
      fun _ s' => exists watches, Served env c watches s.world s'.world ∧
        (AllUsual s -> AllUsual s') ∧ R watches s'.world.cache := by
  have hclock : (treeEnv env t).clock = env.clock := rfl
  apply Returns.bind (onWorld_serves (x := fun env => watcher.callback env depth type path)
    hclock h hx)
  intro _ s' hpost
  rcases hpost with ⟨⟨watches, hserved, hcache⟩, hpending⟩
  refine Returns.pure ⟨watches, hserved, fun hs task htask => ?_, hcache⟩
  exact hs task (hpending ▸ htask)

theorem Attentive.delivers (host : Host) (depth : Nat) (hlasting : Lasting env)
    (h : Attentive x) {notice : Notice}
    (hnotice : notice ∈ x.zookeeper.notices) :
    exists y, x.runs host depth
        (.watch (.reading notice.1.1) notice.2 connectedState (some notice.1.2))
        (x.zookeeper.notices.erase notice) = some y ∧ Attentive y ∧
      y.zookeeper.tree = x.zookeeper.tree ∧
      y.zookeeper.notices = x.zookeeper.notices.erase notice := by
  rcases h.kept with ⟨c, hkept⟩
  have hanswers := answers_treeEnv (t := x.zookeeper.tree) hlasting x.server
  have hdeleted : notice.2 = .deleted -> Returns (act host (treeEnv env x.zookeeper.tree) depth
      (.watch (.reading notice.1.1) notice.2 connectedState (some notice.1.2))) x.server fun _ s =>
        exists c watches, Served env c watches x.server.world s.world ∧ AllUsual s ∧
          (x.zookeeper.reread watches (x.zookeeper.notices.erase notice)).Informed
            s.world.cache := by
    rcases notice with ⟨⟨watcher, path⟩, type⟩
    intro heq
    subst heq
    apply (watch_serves (t := x.zookeeper.tree) (R := fun watches cache => watches = [] ∧
      cache = watcher.drop path x.server.world.cache) hkept fun hs =>
        (deleted_serves hanswers hs watcher path).mono fun _ w hw => ⟨[], hw.left, rfl, hw.right⟩).mono
    intro _ s hpost
    rcases hpost with ⟨watches, hserved, husual, rfl, hcache⟩
    refine ⟨c, [], hserved, husual h.usual, ?_⟩
    rw [hcache, Ensemble.reread, List.append_nil]
    exact h.informed.dropped hnotice
  apply Attentive.runs
  rcases h.informed.told notice hnotice with rfl | ⟨name, hname, rfl⟩ | ⟨name, rfl, _⟩ |
    ⟨service, node, _, rfl, _⟩
  · apply (watch_serves (t := x.zookeeper.tree) (R := fun watches cache =>
      FetchedAll x.zookeeper.tree watches x.server.world.cache cache) hkept fun hs =>
        rootChild_serves hanswers hs).mono
    intro _ s hpost
    rcases hpost with ⟨watches, hserved, husual, hfetched⟩
    refine ⟨c, watches, hserved, husual h.usual, h.informed.reread hfetched.fetched ?_⟩
    refine ⟨fun _ => List.mem_of_mem_erase, fun _ => Or.inr ⟨hfetched.root, fun _ hs => hs⟩, ?_, ?_⟩
    · exact fun service _ hpending => Or.inl ((List.mem_erase_of_ne (by intro heq; cases heq)).mpr hpending)
    · exact fun service node hpending => (List.mem_erase_of_ne (by intro heq; cases heq)).mpr hpending
  · apply (watch_serves (t := x.zookeeper.tree) (R := fun watches cache =>
      FetchedOne x.zookeeper.tree name watches x.server.world.cache cache) hkept fun hs =>
        serviceChild_serves hanswers hs hname).mono
    intro _ s hpost
    rcases hpost with ⟨watches, hserved, husual, services, hfetched, hin⟩
    refine ⟨c, watches, hserved, husual h.usual, h.informed.reread hfetched ?_⟩
    refine ⟨fun _ => List.mem_of_mem_erase, ?_, ?_, ?_⟩
    · exact fun hpending => Or.inl ((List.mem_erase_of_ne (by intro heq; cases heq)).mpr hpending)
    · intro service hservice hpending
      by_cases hsame : service = servicePath name
      · exact Or.inr (hsame ▸ hin (hsame ▸ hservice))
      · refine Or.inl ((List.mem_erase_of_ne ?_).mpr hpending)
        intro heq
        cases heq
        exact hsame rfl
    · exact fun service node hpending => (List.mem_erase_of_ne (by intro heq; cases heq)).mpr hpending
  · exact hdeleted rfl
  · exact hdeleted rfl

def Ordinary : WatchedAction -> Prop
  | .act a => Routine a
  | _ => True

theorem Attentive.step (hlasting : Lasting env) (h : Attentive x) {a : WatchedAction}
    (ha : Ordinary a) : exists y, x.step host depth a = some y ∧ Attentive y := by
  cases a with
  | appear name => exact ⟨_, rfl, h.kept, h.usual, h.informed.appear name⟩
  | vanish name => exact ⟨_, rfl, h.kept, h.usual, h.informed.vanish name⟩
  | join name node => exact ⟨_, rfl, h.kept, h.usual, h.informed.join name node⟩
  | leave name node => exact ⟨_, rfl, h.kept, h.usual, h.informed.leave name node⟩
  | deliver notice =>
      by_cases hnotice : notice ∈ x.zookeeper.notices
      · rcases h.delivers host depth hlasting hnotice with ⟨y, hrun, hy, _⟩
        exact ⟨y, (if_pos hnotice).trans hrun, hy⟩
      · exact ⟨x, if_neg hnotice, h⟩
  | act a =>
      rcases h.acts host depth hlasting ha with ⟨y, hrun, hy, _⟩
      exact ⟨y, hrun, hy⟩

theorem attentive_start (host : Host) (depth : Nat) (hlasting : Lasting env)
    {t : ZkTree env.parse} (hvalid : Valid t) (addr : ClientId -> Nat) {file : Option String}
    (hfile : Readable env.parse file) : Attentive (start host (depth + 1) addr file t) := by
  let E := treeEnv env t
  have hregister : Returns (act host E (depth + 1) .work) (ServerHandler.start addr file) fun _ s =>
      Kept env 1 s.world ∧ s.pending = [.warm] ∧ s.cacheFile = file :=
    Returns.bind (start_registers host hlasting addr file) fun _ _ hs => Returns.pure hs
  rcases step_of_returns hregister with ⟨u, hfirst, hkept, hpending, hcacheFile⟩
  have hwarm : Returns (act host E (depth + 1) .work) u fun _ s => Kept env 1 s.world ∧
      s.pending = [] ∧ exists watches cache, FetchedAll t watches cache s.world.cache ∧
        OnlyRead t s.world.cache ∧ watches ⊆ s.world.watches :=
    Returns.bind (start_warms host hlasting hkept hpending (hcacheFile.symm ▸ hfile))
      fun _ _ hs => Returns.pure hs
  rcases step_of_returns hwarm with
    ⟨s, hsecond, hkept', hpending', watches, cache, hfetched, hclean, hwatches⟩
  have hrun : finalFrom host E (depth + 1) addr file [.work, .work] = s := by
    unfold finalFrom
    rw [Transition.final_cons_some _ _ hfirst, Transition.final_cons_some _ _ hsecond]
    rfl
  have hstart : start host (depth + 1) addr file t = {
      server := s
      zookeeper := { tree := t, armed := s.world.watches, notices := [], gone := [] } } := by
    unfold start
    rw [show finalFrom host (treeEnv env t) (depth + 1) addr file [.work, .work] = s from hrun]
  rw [hstart]
  refine ⟨⟨1, hkept'⟩, fun task htask => ?_, Ensemble.informed_start hvalid hfetched hclean hwatches⟩
  rw [show s.pending = [] from hpending'] at htask
  cases htask

theorem Attentive.settles (hlasting : Lasting env) {order : List Notice} (h : Attentive x)
    (horder : order.Perm x.zookeeper.notices) :
    Attentive (Transition.final (Watched.step host depth) x (order.map .deliver)) ∧
      (Transition.final (Watched.step host depth) x (order.map .deliver)).zookeeper.tree =
        x.zookeeper.tree ∧
      (Transition.final (Watched.step host depth) x (order.map .deliver)).zookeeper.notices = [] := by
  induction order generalizing x with
  | nil => exact ⟨h, rfl, horder.symm.eq_nil⟩
  | cons notice rest ih =>
      have hnotice : notice ∈ x.zookeeper.notices := horder.mem_iff.mp List.mem_cons_self
      rcases h.delivers host depth hlasting hnotice with
        ⟨y, hrun, hy, htree, hnotices⟩
      have hstep : x.step host depth (.deliver notice) = some y := (if_pos hnotice).trans hrun
      have hrest : rest.Perm y.zookeeper.notices := by
        rw [hnotices]
        exact (List.cons_perm_iff_perm_erase.mp horder).right
      have hsettled := ih hy hrest
      rw [htree] at hsettled
      rw [List.map_cons, Transition.final_cons_some _ _ hstep]
      exact hsettled

section Example

theorem closed_oneService : Closed oneService := by
  intro name hname
  have hroot : servicePath name ≠ root := by
    intro heq
    have hlength := congrArg String.length heq
    have hslash : "/".length = 1 := by decide
    rw [servicePath, String.length_append, String.length_append] at hlength
    omega
  simp only [oneService, hroot, if_false] at hname
  have hpath : servicePath name = servicePath "a" := by
    by_contra hne
    exact hname (if_neg hne)
  have hsame : name = "a" := by
    have hlist := congrArg String.toList hpath
    rw [servicePath, servicePath, String.toList_append, String.toList_append] at hlist
    exact String.toList_inj.mp (List.append_cancel_left hlist)
  rw [hsame]
  decide

theorem valid_oneService : Valid oneService where
  services := by
    intro name hname
    rw [show oneService.children root = ["a"] from rfl, List.mem_singleton] at hname
    rw [hname]
    decide
  instances := by
    intro service hservice node hnode
    rw [show servicesOf oneService = [servicePath "a"] from rfl, List.mem_singleton] at hservice
    rw [hservice, show oneService.children (servicePath "a") = ["m1"] from rfl,
      List.mem_singleton] at hnode
    rw [hnode]
    decide
  closed := closed_oneService

/-- The znode of the server is still there from another session, and no creation succeeds. -/
def registeredBefore : Env :=
  { answeringFrom 0 with zooCreate := fun _ _ => znodeexists }

/-- An instance is replaced, and a service that was asked for too early comes. -/
def comingAndGoing : List WatchedAction :=
  [.leave "a" "m1", .act (.commit .check), .act .work, .act (.get "b"), .join "a" "m2",
    .appear "b", .act .work, .join "b" "m1"]

theorem comingAndGoing_ordinary (a : WatchedAction) (ha : a ∈ comingAndGoing) : Ordinary a := by
  simp only [comingAndGoing, List.mem_cons, List.not_mem_nil, or_false] at ha
  rcases ha with rfl | rfl | rfl | rfl | rfl | rfl | rfl | rfl
  · trivial
  · trivial
  · trivial
  · show NodeName "b"
    decide
  · trivial
  · trivial
  · trivial
  · trivial

end Example

end Watched

end ServerHandler

end FrProxy
