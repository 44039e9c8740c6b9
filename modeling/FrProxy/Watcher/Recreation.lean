import FrProxy.Library.Transition
import FrProxy.ZkClient.Recorded
import Mathlib.Logic.Function.Basic

/-!
# Ephemeral znodes that are created again

A znode that is lost is created again by `create_enode_watcher`, with no data,
and by `take_over_states`, with the data in its state, which are those of the
first `create_enode` of its path.
-/

namespace FrProxy

open Program ZkClient

/-- The calls that create ephemeral znodes, and what may change around them. -/
inductive EnodeCall where
  /-- An explicit `create_enode`. -/
  | create (c : ClientId) (path data : String)
  /-- `create_enode_watcher`. -/
  | callback (type : ZkEventType) (state : Int) (path : Option String)
  | takeOverStates (c : ClientId) (states : List StatePtr)
  | replay (c : ClientId) (entry : Entry)
  /-- The read of a watcher, which may have to connect first. -/
  | read (c : ClientId) (watcher : Watcher) (path : String)
  /-- Clients, sessions, the cache and the clock change. -/
  | meanwhile (world : World)
  /-- States go to another client. -/
  | giveTo (p : ZkState -> Bool) (c : ClientId)

/-- The world, and the data of the last explicit `create_enode` of each path that succeeded. -/
structure EnodeHistory where
  world : World
  last : String -> Option String

def createdEnodes (es : List Event) : List (String × String) :=
  es.filterMap fun e =>
    match e with
    | .create path data rc => if rc = zok then some (path, data) else none
    | _ => none

namespace EnodeHistory

section Calls

variable (env : Env) (depth : Nat)

/-- A call, with the path and the data of an explicit `create_enode` that succeeded. -/
def perform : EnodeCall -> ZkM (Option (String × String))
  | .create c path data => do
      let rc <- createEnode env (connectZk env depth) c path data
      return if rc = zok then some (path, data) else none
  | .callback type state path => do
      WatchCallback.createEnodeWatcher env depth type state path
      return none
  | .takeOverStates c states => do
      ZkClient.takeOverStates env (connectZk env depth) c states
      return none
  | .replay c entry => do
      entry.run env depth c
      return none
  | .read c watcher path => do
      let _ <- watcher.reread env depth path c
      return none
  | .meanwhile world => do
      modify fun w => {
        world with
        trace := w.trace
        pool := { world.pool with stateBag_ := w.pool.stateBag_ } }
      return none
  | .giveTo p c => do
      mapBag (·.giveTo p c)
      return none

def record (last : String -> Option String) : Option (String × String) -> String -> Option String
  | none => last
  | some (path, data) => Function.update last path (some data)

/-- A run ends at a call that does not return. -/
def step (s : EnodeHistory) (a : EnodeCall) : Option EnodeHistory :=
  match perform env depth a s.world with
  | .error _ => none
  | .ok (explicit, w) => some { world := w, last := record s.last explicit }

def runFrom (w : World) (calls : List EnodeCall) :
    List (EnodeHistory × EnodeCall × EnodeHistory) :=
  Transition.transitions (step env depth) { world := w, last := fun _ => none } calls

/-- The znodes that were created in a call by the watcher or from a state. -/
def recreated (w w' : World) : EnodeCall -> List (String × String)
  | .create c _ _ =>
      match ready (connectZk env depth) c w with
      | .error _ => []
      | .ok (_, v) => createdEnodes (happened w v)
  | _ => createdEnodes (happened w w')

/--
A znode is created again with the data of the last successful `create_enode` of
its path, and these are the ones in its state.
-/
def KeepsLast (s : EnodeHistory) (a : EnodeCall) (s' : EnodeHistory) : Prop :=
  (forall path data, (path, data) ∈ recreated env depth s.world s'.world a ->
    forall last, last ∈ s.last path -> data = last) ∧
  forall path last, last ∈ s'.last path -> s'.world.enodeData path = some last

/-- What ZooKeeper answers to the `zoo_create` of a `create_enode`, unless it gives up before. -/
def answer (c : ClientId) (path : String) (w : World) : Option Int :=
  match ready (connectZk env depth) c w with
  | .ok (true, v) =>
      some (if (v.pool.clients c).zhandle_ then env.zooCreate v.trace.length path
        else zinvalidstate)
  | _ => none

def watcherAnswer (path : String) (w : World) : Option Int :=
  match poolOpen env depth w with
  | .ok (some c, v) => answer env depth c path v
  | _ => none

/--
A `create_enode` that is answered `ZOK` has the data in the state of its path, if
there is one, and the watcher creates only a znode that has no data.
-/
def SameData (s : EnodeHistory) (a : EnodeCall) : Prop :=
  match a with
  | .create c path data =>
      answer env depth c path s.world = some zok ->
        forall old, old ∈ s.world.enodeData path -> old = data
  | .callback type state (some path) =>
      state = expiredSessionState ∨ type = .deleted ->
        watcherAnswer env depth path s.world = some zok ->
          forall last, last ∈ s.last path -> last = ""
  | _ => True

end Calls

/-!
## What the calls create
-/

section Runs

variable {env : Env} {depth : Nat}

theorem mem_createdEnodes {es : List Event} {path data : String} :
    (path, data) ∈ createdEnodes es <-> .create path data zok ∈ es := by
  unfold createdEnodes
  rw [List.mem_filterMap]
  constructor
  · intro h
    rcases h with ⟨e, he, hcreated⟩
    cases e with
    | create p d rc =>
        simp only [Option.ite_none_right_eq_some, Option.some.injEq, Prod.mk.injEq] at hcreated
        rcases hcreated with ⟨rfl, rfl, rfl⟩
        exact he
    | _ => cases hcreated
  · intro h
    exact ⟨_, h, if_pos rfl⟩

theorem recorded_of_reproduces {w w' : World} (h : Reproduces w w') {path data : String}
    (hmem : (path, data) ∈ createdEnodes (happened w w')) : w.enodeData path = some data := by
  rcases h.events with ⟨es, htrace, hes⟩
  rw [happened_of_append htrace] at hmem
  exact hes path data zok (mem_createdEnodes.mp hmem)

theorem makeEnode_answer {c : ClientId} {path data : String} {w w' : World} {rc : Int}
    (hrun : makeEnode env c path data w = Except.ok (rc, w')) :
    rc = if (w.pool.clients c).zhandle_ then env.zooCreate w.trace.length path
      else zinvalidstate := by
  simp only [makeEnode, zooCreate, log, saveState, onSessionTimeout, mapBag, mapPool,
    bind_assoc, get_bind_run, modify_bind_run, pure_bind, ite_run, pure_run] at hrun
  generalize (if (w.pool.clients c).zhandle_ = true then
    env.zooCreate w.trace.length path else zinvalidstate) = answer at hrun ⊢
  by_cases hstate : answer = zinvalidstate
  · rw [if_pos hstate] at hrun
    cases hrun
    rfl
  · rw [if_neg hstate] at hrun
    by_cases hexists : answer = znodeexists
    · rw [if_pos hexists] at hrun
      cases hrun
      rfl
    · rw [if_neg hexists] at hrun
      cases hrun
      rfl

/-- A `create_enode` restores states if it has to connect, and then creates the znode or not. -/
theorem createEnode_cases {c : ClientId} {path data : String} {w w' : World} {rc : Int}
    (hrun : createEnode env (connectZk env depth) c path data w = Except.ok (rc, w')) :
    exists b v, ready (connectZk env depth) c w = Except.ok (b, v) ∧ Reproduces w v ∧
      ((answer env depth c path w = some rc ∧ Creates path data rc v w') ∨
        (answer env depth c path w = none ∧ rc ≠ zok ∧ w' = v)) := by
  rcases bind_ok.mp hrun with ⟨b, v, hready, hrest⟩
  refine ⟨b, v, hready, ready_reproduces hready, ?_⟩
  unfold answer
  rw [hready]
  cases b with
  | true =>
      apply Or.inl
      refine ⟨?_, makeEnode_creates hrest⟩
      dsimp only
      rw [makeEnode_answer hrest]
  | false =>
      cases hrest
      exact Or.inr ⟨rfl, by decide, rfl⟩

theorem recreate_cases {path : String} {w w' : World} {x : PUnit}
    (hrun : WatchCallback.recreate env depth path w = Except.ok (x, w')) :
    (watcherAnswer env depth path w ≠ some zok ∧ Reproduces w w') ∨
    exists rc u v, watcherAnswer env depth path w = some rc ∧ Reproduces w u ∧
      Creates path "" rc u v ∧ Reproduces v w' := by
  rcases bind_ok.mp hrun with ⟨result, u, hopen, hrest⟩
  have hopened := poolOpen_reproduces hopen
  unfold watcherAnswer
  rw [hopen]
  cases result with
  | none =>
      refine Or.inl ⟨(Option.some_ne_none _).symm, hopened.trans ?_⟩
      rw [modify_ok.mp hrest]
      refine reproduces_of_trace (w := u) (fun other => ?_) rfl
      exact StateBag.enodeData_replaceClientIdOf _ _ _ other
  | some c =>
      rcases bind_ok.mp hrest with ⟨rc, v, hcreate, hclose⟩
      rcases createEnode_cases hcreate with
        ⟨b, v', _, hready, ⟨hanswer, hcreates⟩ | ⟨hanswer, _, rfl⟩⟩
      · exact Or.inr ⟨rc, v', v, hanswer, hopened.trans hready, hcreates, close_reproduces hclose⟩
      · refine Or.inl ⟨?_, (hopened.trans hready).trans (close_reproduces hclose)⟩
        dsimp only
        rw [hanswer]
        exact (Option.some_ne_none _).symm

inductive Effect (env : Env) (depth : Nat) (s : EnodeHistory) :
    EnodeCall -> EnodeHistory -> Prop where
  | explicit (c : ClientId) (path data : String) (rc : Int) (v w' : World)
      (hanswer : answer env depth c path s.world = some rc)
      (hrestored : Reproduces s.world v) (hcreates : Creates path data rc v w')
      (hrecreated : recreated env depth s.world w' (.create c path data) =
        createdEnodes (happened s.world v)) :
      Effect env depth s (.create c path data) {
        world := w'
        last := record s.last (if rc = zok then some (path, data) else none) }
  | watcher (type : ZkEventType) (state : Int) (path : String) (rc : Int) (u v w' : World)
      (hlost : state = expiredSessionState ∨ type = .deleted)
      (hanswer : watcherAnswer env depth path s.world = some rc)
      (hrestored : Reproduces s.world u) (hcreates : Creates path "" rc u v)
      (hclosed : Reproduces v w') :
      Effect env depth s (.callback type state (some path)) { world := w', last := s.last }
  | restored (a : EnodeCall) (w' : World) (hrestored : Reproduces s.world w')
      (hrecreated : recreated env depth s.world w' a = createdEnodes (happened s.world w'))
      (hsame : SameData env depth s a) :
      Effect env depth s a { world := w', last := s.last }

theorem reread_reproduces {c : ClientId} {watcher : Watcher} {path : String} {w w' : World}
    {b : Bool} (hrun : watcher.reread env depth path c w = Except.ok (b, w')) :
    Reproduces w w' := by
  cases watcher with
  | serviceInstance =>
      exact (getServiceInstance_framed (connectZk_framed depth) _ _ false).reproduces
        (fun _ _ h => h) hrun
  | root =>
      exact (getAllServices_framed (connectZk_framed depth) path false).reproduces
        (fun _ _ h => h) hrun
  | service =>
      exact (getService_framed (connectZk_framed depth) path false).reproduces
        (fun _ _ h => h) hrun

theorem effect_of_step {s s' : EnodeHistory} {a : EnodeCall}
    (hstep : step env depth s a = some s') : Effect env depth s a s' := by
  cases hrun : perform env depth a s.world with
  | error stop => simp [step, hrun] at hstep
  | ok result =>
      rcases result with ⟨explicit, w'⟩
      simp only [step, hrun, Option.some.injEq] at hstep
      subst hstep
      cases a with
      | create c path data =>
          rcases bind_ok.mp hrun with ⟨rc, u, hcreate, hpure⟩
          cases hpure
          rcases createEnode_cases hcreate with
            ⟨b, v, hready, hrestored, ⟨hanswer, hcreates⟩ | ⟨hanswer, hrc, rfl⟩⟩
          · apply Effect.explicit c path data rc v _ hanswer hrestored hcreates
            simp [recreated, hready]
          · rw [if_neg hrc]
            apply Effect.restored _ _ hrestored
            · simp [recreated, hready]
            · intro hzok
              rw [hanswer] at hzok
              cases hzok
      | callback type state path =>
          rcases bind_ok.mp hrun with ⟨_, u, hcall, hpure⟩
          cases hpure
          cases path with
          | none =>
              cases hcall
              exact Effect.restored _ _ (Reproduces.refl _) rfl trivial
          | some path =>
              by_cases hlost : state = expiredSessionState ∨ type = .deleted
              · rw [WatchCallback.createEnodeWatcher, if_pos hlost] at hcall
                rcases recreate_cases hcall with
                  ⟨hanswer, hrestored⟩ | ⟨rc, u, v, hanswer, hrestored, hcreates, hclosed⟩
                · exact Effect.restored _ _ hrestored rfl fun _ hzok => absurd hzok hanswer
                · exact Effect.watcher type state path rc u v _ hlost hanswer hrestored hcreates
                    hclosed
              · rw [WatchCallback.createEnodeWatcher, if_neg hlost] at hcall
                cases hcall
                exact Effect.restored _ _ (Reproduces.refl _) rfl fun h => absurd h hlost
      | takeOverStates c states =>
          rcases bind_ok.mp hrun with ⟨_, u, hcall, hpure⟩
          cases hpure
          have hrestored := (takeOverStates_framed (connectZk_framed depth) states
            false).reproduces (fun _ _ h => h) hcall
          exact Effect.restored _ _ hrestored rfl trivial
      | replay c entry =>
          rcases bind_ok.mp hrun with ⟨_, u, hcall, hpure⟩
          cases hpure
          exact Effect.restored _ _ (Entry.run_reproduces hcall) rfl trivial
      | read c watcher path =>
          rcases bind_ok.mp hrun with ⟨_, u, hcall, hpure⟩
          cases hpure
          exact Effect.restored _ _ (reread_reproduces hcall) rfl trivial
      | meanwhile world =>
          cases hrun
          exact Effect.restored _ _ (reproduces_of_trace (fun _ => rfl) rfl) rfl trivial
      | giveTo p c =>
          cases hrun
          have hsame := StateBag.enodeData_giveTo s.world.pool.stateBag_ p c
          exact Effect.restored _ _ (reproduces_of_trace hsame rfl) rfl trivial

/-!
## The data of the last creation
-/

/-- The last successful creation of each path has the data that are recorded. -/
def Recorded (last : String -> Option String) (w : World) : Prop :=
  forall path data, data ∈ last path -> w.enodeData path = some data

theorem Recorded.reproduces {last : String -> Option String} {w w' : World}
    (h : Recorded last w) (hrestored : Reproduces w w') : Recorded last w' := by
  intro path data hdata
  rw [hrestored.recorded path]
  exact h path data hdata

theorem Recorded.creates {last : String -> Option String} {w w' : World} {path data : String}
    {rc : Int} (h : Recorded last w) (hcreates : Creates path data rc w w') :
    Recorded last w' := by
  intro other old hold
  rw [hcreates.recorded, h other old hold]
  split <;> rfl

theorem Recorded.restored {last : String -> Option String} {w w' : World}
    (h : Recorded last w) (hrestored : Reproduces w w') {path data : String}
    (hmem : (path, data) ∈ createdEnodes (happened w w')) :
    forall old, old ∈ last path -> data = old := by
  intro old hold
  have hdata := recorded_of_reproduces hrestored hmem
  rw [h path old hold] at hdata
  exact (Option.some.inj hdata).symm

theorem mem_created_watcher {path : String} {rc : Int} {w u v w' : World}
    (hrestored : Reproduces w u) (hcreates : Creates path "" rc u v) (hclosed : Reproduces v w')
    (other data : String) :
    (other, data) ∈ createdEnodes (happened w w') <->
      (other, data) ∈ createdEnodes (happened w u) ∨ (rc = zok ∧ other = path ∧ data = "") ∨
        (other, data) ∈ createdEnodes (happened v w') := by
  rcases hrestored.events with ⟨es, htrace, _⟩
  rcases hclosed.events with ⟨es', htrace', _⟩
  have hall : w'.trace = w.trace ++ (es ++ [.create path "" rc, .watch path] ++ es') := by
    rw [htrace', hcreates.trace, htrace]
    simp only [List.append_assoc]
  rw [happened_of_append hall, happened_of_append htrace, happened_of_append htrace']
  simp only [mem_createdEnodes, List.mem_append, List.mem_cons, List.not_mem_nil, or_false,
    reduceCtorEq, Event.create.injEq]
  constructor
  · intro h
    rcases h with (h | ⟨rfl, rfl, rfl⟩) | h
    · exact Or.inl h
    · exact Or.inr (Or.inl ⟨rfl, rfl, rfl⟩)
    · exact Or.inr (Or.inr h)
  · intro h
    rcases h with h | ⟨rfl, rfl, rfl⟩ | h
    · exact Or.inl (Or.inl h)
    · exact Or.inl (Or.inr ⟨rfl, rfl, rfl⟩)
    · exact Or.inr h

theorem keepsLast_iff {s s' : EnodeHistory} {a : EnodeCall}
    (hstep : step env depth s a = some s') (h : Recorded s.last s.world) :
    KeepsLast env depth s a s' <-> SameData env depth s a := by
  cases effect_of_step hstep with
  | explicit c path data rc v w' hanswer hrestored hcreates hrecreated =>
      have hold : forall old, old ∈ s.world.enodeData path -> w'.enodeData path = some old := by
        intro old hold
        rw [hcreates.recorded, if_pos rfl, hrestored.recorded, Option.mem_def.mp hold]
        rfl
      constructor
      · intro hkeeps hzok old hmem
        rw [hanswer] at hzok
        have hrc : rc = zok := Option.some.inj hzok
        have hlast := hkeeps.right path data (by simp [hrc, record])
        rw [hold old hmem] at hlast
        exact Option.some.inj hlast
      · intro hsame
        constructor
        · intro other content hmem
          rw [hrecreated] at hmem
          exact h.restored hrestored hmem
        · have hkept := (h.reproduces hrestored).creates hcreates
          by_cases hrc : rc = zok
          · intro other last hlast
            simp only [hrc, if_true, record] at hlast
            by_cases hother : other = path
            · rw [hother, Function.update_self] at hlast
              cases hlast
              rw [hother]
              cases hbefore : s.world.enodeData path with
              | none =>
                  rw [hcreates.recorded, if_pos rfl, hrestored.recorded, hbefore]
                  rfl
              | some old =>
                  have hzok : answer env depth c path s.world = some zok := by rw [hanswer, hrc]
                  rw [hold old hbefore, hsame hzok old hbefore]
            · rw [Function.update_of_ne hother] at hlast
              exact hkept other last hlast
          · rw [if_neg hrc]
            exact hkept
  | watcher type state path rc u v w' hlost hanswer hrestored hcreates hclosed =>
      have hmem := mem_created_watcher hrestored hcreates hclosed
      have hmiddle := (h.reproduces hrestored).creates hcreates
      constructor
      · intro hkeeps _ hzok last hlast
        rw [hanswer] at hzok
        have hrc : rc = zok := Option.some.inj hzok
        have hcreated := (hmem path "").mpr (Or.inr (Or.inl ⟨hrc, rfl, rfl⟩))
        exact (hkeeps.left path "" hcreated last hlast).symm
      · intro hsame
        refine ⟨?_, hmiddle.reproduces hclosed⟩
        intro other data hcreated last hlast
        rcases (hmem other data).mp hcreated with hbefore | ⟨hrc, rfl, rfl⟩ | hafter
        · exact h.restored hrestored hbefore last hlast
        · have hzok : watcherAnswer env depth other s.world = some zok := by rw [hanswer, hrc]
          exact (hsame hlost hzok last hlast).symm
        · exact hmiddle.restored hclosed hafter last hlast
  | restored _ w' hrestored hrecreated hsame =>
      constructor
      · intro _
        exact hsame
      · intro _
        refine ⟨?_, h.reproduces hrestored⟩
        intro other data hmem
        rw [hrecreated] at hmem
        exact h.restored hrestored hmem

/--
In a run of calls every znode is created again with the data of the last
successful `create_enode` of its path, which are those in its state, exactly when
every `create_enode` that succeeds has the data that are recorded already, if
there are some, and the watcher succeeds with a znode without data only.
-/
theorem recreated_with_last_data_iff (env : Env) (depth : Nat) (w : World) (calls : List EnodeCall) :
    (forall s a s', (s, a, s') ∈ runFrom env depth w calls -> KeepsLast env depth s a s') <->
    forall s a s', (s, a, s') ∈ runFrom env depth w calls -> SameData env depth s a :=
  Transition.good_iff_guarded (step env depth) (fun s => Recorded s.last s.world)
    (SameData env depth) (KeepsLast env depth)
    (fun _ _ _ hstep h hsame =>
      let hkeeps := (keepsLast_iff hstep h).mpr hsame
      ⟨hkeeps.right, hkeeps⟩)
    (fun _ _ _ hstep h hkeeps => (keepsLast_iff hstep h).mp hkeeps)
    calls (fun _ _ hnone => absurd hnone (Option.not_mem_none _))

end Runs

section Example

private def willing : Env where
  parse := fun _ => none
  zookeeperInit := fun _ => true
  zooWgetChildren := fun _ _ => (zok, [])
  zooWget := fun _ _ => (zok, {})
  zooCreate := fun _ _ => zok
  zooGet := fun _ _ => zok
  clock := fun _ => 5
  cacheFile := none

private def borrowed : World where
  pool := ((ClientPool.start id).openSection 5).1
  cache := RegistryCache.empty
  trace := []
  ticks := 0
  slept := 0

/-- The znode is deleted after it was created. -/
private def deletedOnce : List EnodeCall :=
  [.create 1 "/soa/proxies/a" "a:9009", .callback .deleted 3 (some "/soa/proxies/a")]

theorem recreated_without_data :
    ¬ forall (env : Env) (depth : Nat) (w : World) (calls : List EnodeCall) (s : EnodeHistory)
      (a : EnodeCall) (s' : EnodeHistory),
      (s, a, s') ∈ runFrom env depth w calls -> KeepsLast env depth s a s' := by
  intro h
  have hall : forall x, x ∈ runFrom willing 1 borrowed deletedOnce ->
      forall node, node ∈ recreated willing 1 x.1.world x.2.2.world x.2.1 ->
      forall last, last ∈ x.1.last node.1 -> node.2 = last := by
    intro x hx node hnode
    exact (h willing 1 borrowed deletedOnce x.1 x.2.1 x.2.2 hx).left node.1 node.2 hnode
  revert hall
  decide +kernel

end Example

end EnodeHistory

end FrProxy
