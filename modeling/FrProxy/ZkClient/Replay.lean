import FrProxy.ZkClient.Nesting
import FrProxy.ZkClient.Tree

/-!
# Restoring the states from a fixed tree

ZooKeeper answers the reads of a connected client from one tree, in which some
paths exist and others do not.  What an operation does to the bag is then said by
the events it leaves in the trace.
-/

namespace FrProxy

open Program

/-- The znodes of a tree: which paths exist, and the names of their children. -/
structure ZkPaths where
  present : String -> Prop
  children : String -> List String
  closed : forall path node, present path -> node ∈ children path ->
    present (path ++ "/" ++ node)

/-- ZooKeeper answers reads from the tree, and the session goes on. -/
structure ZkPaths.Answers (t : ZkPaths) (env : Env) : Prop where
  children : forall n path, t.present path -> env.zooWgetChildren n path = (zok, t.children path)
  data : forall n path, t.present path -> (env.zooWget n path).1 = zok
  missing : forall n path, ¬ t.present path ->
    (env.zooWgetChildren n path).1 ≠ zok ∧ (env.zooWget n path).1 ≠ zok
  session : env.InvalidOnlyAt ∅

def ZkPaths.Answered (t : ZkPaths) : Event -> Prop
  | .children type path rc nodes => (type = .getService ∨ type = .getRoot) ∧
      (rc = zok <-> t.present path) ∧ (rc = zok -> nodes = t.children path)
  | .instance_ service node rc _ _ => rc = zok <-> t.present (service ++ "/" ++ node)
  | _ => True

/-!
## Events that delete a state
-/

/-- The znode of a call is gone, and a state with it. -/
def Event.Deletes : Event -> Prop
  | .children type _ rc _ => type = .getService ∧ rc = znonode
  | .instance_ _ _ rc _ _ => rc = znonode
  | _ => False

def Event.removed : Event -> Option String
  | .children type path rc _ =>
      if type = .getService ∧ rc = znonode then some (createKey path .getService) else none
  | .instance_ service _ rc _ _ =>
      if rc = znonode then some (createKey service .getServiceInstance) else none
  | _ => none

theorem Event.removed_of_not_deletes {e : Event} (he : ¬ e.Deletes) : e.removed = none := by
  cases e with
  | children type path rc nodes => exact if_neg he
  | instance_ service node rc data mtime => exact if_neg he
  | _ => rfl

theorem isSome_deref_onBag (c : ClientId) {e : Event} {bag : StateBag} {ptr : StatePtr}
    (he : e.removed ≠ some ptr.key) (h : (bag.deref ptr).isSome = true) :
    ((e.onBag c bag).deref ptr).isSome = true := by
  cases e with
  | takeOver key => exact (StateBag.isSome_deref_replaceClientIdOf _ _).mpr h
  | children type path rc nodes =>
      unfold Event.onBag
      dsimp only [Event.removed] at he ⊢
      by_cases hgone : type = .getService ∧ rc = znonode
      · rw [if_pos hgone] at he ⊢
        rw [StateBag.isSome_deref_remove]
        exact ⟨fun hkey => he (congrArg some hkey), StateBag.isSome_deref_add _ h⟩
      · rw [if_neg hgone]
        exact StateBag.isSome_deref_add _ h
  | instance_ service node rc data mtime =>
      unfold Event.onBag
      dsimp only [Event.removed] at he ⊢
      by_cases hgone : rc = znonode
      · rw [if_pos hgone] at he ⊢
        rw [StateBag.isSome_deref_remove]
        exact ⟨fun hkey => he (congrArg some hkey), StateBag.isSome_deref_add _ h⟩
      · rw [if_neg hgone]
        exact StateBag.isSome_deref_add _ h
  | create path data rc =>
      unfold Event.onBag
      dsimp only
      split
      · exact (StateBag.isSome_deref_replaceClientIdOf _ _).mpr (StateBag.isSome_deref_add _ h)
      · exact StateBag.isSome_deref_add _ h
  | _ => exact h

/-!
## Events one after the other
-/

def replay (c : ClientId) (bag : StateBag) (es : List Event) : StateBag :=
  es.foldl (fun bag e => e.onBag c bag) bag

theorem replay_append (c : ClientId) (bag : StateBag) (es es' : List Event) :
    replay c bag (es ++ es') = replay c (replay c bag es) es' :=
  List.foldl_append

theorem replay_keeps {c : ClientId} {I : StateBag -> Prop} {es : List Event}
    (hkeeps : forall e bag, e ∈ es -> I bag -> I (e.onBag c bag)) {bag : StateBag} (hbag : I bag) :
    I (replay c bag es) := by
  induction es generalizing bag with
  | nil => exact hbag
  | cons e rest ih =>
      apply ih (fun e' bag' he' => hkeeps e' bag' (List.mem_cons_of_mem _ he'))
      exact hkeeps e bag List.mem_cons_self hbag

theorem replay_establishes {c : ClientId} {I J : StateBag -> Prop} {es : List Event}
    (hkeeps : forall e bag, e ∈ es -> I bag -> I (e.onBag c bag))
    (hbefore : forall e bag, e ∈ es -> J bag -> J (e.onBag c bag)) {e : Event} (he : e ∈ es)
    (hestablishes : forall bag, J bag -> I (e.onBag c bag)) {bag : StateBag} (hbag : J bag) :
    I (replay c bag es) := by
  rcases List.append_of_mem he with ⟨before, after, rfl⟩
  have hafter : forall e' bag', e' ∈ after -> I bag' -> I (e'.onBag c bag') := by
    intro e' bag' he'
    exact hkeeps e' bag' (List.mem_append_right _ (List.mem_cons_of_mem _ he'))
  rw [replay_append]
  apply replay_keeps hafter
  apply hestablishes
  exact replay_keeps (fun e' bag' he' => hbefore e' bag' (List.mem_append_left _ he')) hbag

structure Goes (c : ClientId) (es : List Event) (w w' : World) : Prop where
  live : Live c w'
  trace : w'.trace = w.trace ++ es
  bag : w'.pool.stateBag_ = replay c w.pool.stateBag_ es

theorem Goes.refl {c : ClientId} {w : World} (h : Live c w) : Goes c [] w w where
  live := h
  trace := (List.append_nil _).symm
  bag := rfl

theorem Goes.trans {c : ClientId} {es es' : List Event} {u v w : World} (huv : Goes c es u v)
    (hvw : Goes c es' v w) : Goes c (es ++ es') u w where
  live := hvw.live
  trace := by
    rw [hvw.trace, huv.trace, List.append_assoc]
  bag := by
    rw [hvw.bag, huv.bag, replay_append]

/--
From `w` the program does not stop for `stop`; when it returns, the client goes on,
only events of `E` happened, and `R` holds of its value and the events.
-/
def Emits (stop : Stop) (c : ClientId) (E : Event -> Prop) {α : Type} (x : ZkM α) (w : World)
    (R : α -> List Event -> Prop) : Prop :=
  Avoids (fun other => other = stop) (fun v => v = w) x fun a w' =>
    exists es, Goes c es w w' ∧ (forall e, e ∈ es -> E e) ∧ R a es

section Rules

variable {stop : Stop} {c : ClientId} {E : Event -> Prop} {α β : Type} {w : World}

theorem Emits.of_run {x : ZkM α} {a : α} {w' : World} {es : List Event}
    {R : α -> List Event -> Prop} (hrun : x w = Except.ok (a, w')) (hgoes : Goes c es w w')
    (hE : forall e, e ∈ es -> E e) (hR : R a es) : Emits stop c E x w R :=
  Avoids.of_ok hrun ⟨es, hgoes, hE, hR⟩

theorem Emits.pure {a : α} {R : α -> List Event -> Prop} (hlive : Live c w) (hR : R a []) :
    Emits stop c E (pure a : ZkM α) w R :=
  Emits.of_run rfl (Goes.refl hlive) (fun _ he => absurd he List.not_mem_nil) hR

theorem Emits.bind {x : ZkM α} {f : α -> ZkM β} {R : α -> List Event -> Prop}
    {Q : β -> List Event -> Prop} (hx : Emits stop c E x w R)
    (hf : forall a es v, R a es -> Goes c es w v ->
      Emits stop c E (f a) v fun b es' => Q b (es ++ es')) :
    Emits stop c E (x >>= f) w Q := by
  apply Avoids.bind hx
  intro a v h
  rcases h with ⟨es, hgoes, hE, hR⟩
  refine (hf a es v hR hgoes).mono (fun _ h => h) ?_ v rfl
  intro b w' h
  rcases h with ⟨es', hgoes', hE', hQ⟩
  refine ⟨es ++ es', hgoes.trans hgoes', ?_, hQ⟩
  intro e he
  rcases List.mem_append.mp he with he | he
  · exact hE e he
  · exact hE' e he

theorem Emits.bindOk {x : ZkM α} {f : α -> ZkM β} {a : α} {R : β -> List Event -> Prop}
    (hx : x w = Except.ok (a, w)) (hf : Emits stop c E (f a) w R) :
    Emits stop c E (x >>= f) w R :=
  Avoids.bind (Avoids.of_ok (Q := fun b v => b = a ∧ v = w) hx ⟨rfl, rfl⟩) fun b => by
    intro v h
    rcases h with ⟨rfl, rfl⟩
    exact hf v rfl

theorem Emits.mono {x : ZkM α} {R Q : α -> List Event -> Prop} (hx : Emits stop c E x w R)
    (h : forall a es, R a es -> Q a es) : Emits stop c E x w Q := by
  apply Avoids.mono hx fun _ hv => hv
  intro a w' hrun
  rcases hrun with ⟨es, hgoes, hE, hR⟩
  exact ⟨es, hgoes, hE, h a es hR⟩

theorem Emits.admitted {x : ZkM α} {R : α -> List Event -> Prop} (hx : Emits stop c E x w R) :
    Emits stop c E x w fun a es => R a es ∧ forall e, e ∈ es -> E e := by
  apply Avoids.mono hx fun _ hv => hv
  intro a w' hrun
  rcases hrun with ⟨es, hgoes, hE, hR⟩
  exact ⟨es, hgoes, hE, hR, hE⟩

theorem Emits.discard {x : ZkM α} {b : β} {R : List Event -> Prop}
    (hx : Emits stop c E x w fun _ es => R es) :
    Emits stop c E (x >>= fun _ => Pure.pure b) w fun _ es => R es := by
  apply hx.bind
  intro a es v hR hgoes
  apply Emits.pure hgoes.live
  rw [List.append_nil]
  exact hR

theorem Emits.returns {x : ZkM α} {R : α -> List Event -> Prop}
    (hx : forall stop, Emits stop c E x w R) :
    Returns x w fun a w' => exists es, Goes c es w w' ∧ (forall e, e ∈ es -> E e) ∧ R a es := by
  cases hxw : x w with
  | error stop => exact absurd hxw ((hx stop).run rfl rfl)
  | ok v => exact ⟨v.1, v.2, hxw, (hx Stop.depth).ok rfl hxw⟩

end Rules

/-!
## What the events answer for
-/

def InstanceRead (service node : String) (es : List Event) : Prop :=
  exists rc data mtime, Event.instance_ service node rc data mtime ∈ es

def Listed (type : ZkStateType) (path : String) (es : List Event) : Prop :=
  exists rc nodes, Event.children type path rc nodes ∈ es

def Created (path : String) (es : List Event) : Prop :=
  exists data rc, Event.create path data rc ∈ es

theorem InstanceRead.mono {service node : String} {es es' : List Event}
    (h : InstanceRead service node es) (hsub : es ⊆ es') : InstanceRead service node es' := by
  rcases h with ⟨rc, data, mtime, he⟩
  exact ⟨rc, data, mtime, hsub he⟩

theorem Listed.mono {type : ZkStateType} {path : String} {es es' : List Event}
    (h : Listed type path es) (hsub : es ⊆ es') : Listed type path es' := by
  rcases h with ⟨rc, nodes, he⟩
  exact ⟨rc, nodes, hsub he⟩

theorem Created.mono {path : String} {es es' : List Event}
    (h : Created path es) (hsub : es ⊆ es') : Created path es' := by
  rcases h with ⟨data, rc, he⟩
  exact ⟨data, rc, hsub he⟩

namespace ZkState

def Replayed (state : ZkState) (es : List Event) : Prop :=
  match state.type with
  | .createEphereral => Created state.path es
  | .getService => Listed .getService state.path es
  | .getServiceInstance => forall service node,
      ZkClient.splitPath state.path = some (service, node) -> InstanceRead service node es
  | .getRoot => Listed .getRoot state.path es

/-- The call of the state's type on its own path is among the events. -/
def Issued (state : ZkState) (es : List Event) : Prop :=
  match state.type with
  | .createEphereral => Created state.path es
  | .getService => Listed .getService state.path es
  | .getServiceInstance => exists service node,
      service ++ "/" ++ node = state.path ∧ InstanceRead service node es
  | .getRoot => Listed .getRoot state.path es

theorem Replayed.congr {state state' : ZkState} {es : List Event} (h : state.Replayed es)
    (hkey : state'.key = state.key) : state'.Replayed es := by
  rcases createKey_inj hkey with ⟨hpath, htype⟩
  unfold Replayed at h ⊢
  rw [hpath, htype]
  exact h

theorem Replayed.mono {state : ZkState} {es es' : List Event} (h : state.Replayed es)
    (hsub : es ⊆ es') : state.Replayed es' := by
  unfold Replayed at h ⊢
  cases htype : state.type with
  | createEphereral =>
      rw [htype] at h
      exact Created.mono h hsub
  | getService =>
      rw [htype] at h
      exact Listed.mono h hsub
  | getServiceInstance =>
      rw [htype] at h
      exact fun service node hsplit => InstanceRead.mono (h service node hsplit) hsub
  | getRoot =>
      rw [htype] at h
      exact Listed.mono h hsub

end ZkState

/--
Every state that is taken over is replayed, every instance of a listed service is
read, and every service under a listed root is listed.
-/
structure Complete (es : List Event) : Prop where
  taken : forall state : ZkState, Event.takeOver state.key ∈ es -> state.Replayed es
  instances : forall service nodes node, Event.children .getService service zok nodes ∈ es ->
    node ∈ nodes -> InstanceRead service node es
  services : forall root nodes node, Event.children .getRoot root zok nodes ∈ es ->
    node ∈ nodes -> Listed .getService (root ++ "/" ++ node) es

namespace Complete

theorem nil : Complete [] where
  taken := fun _ h => absurd h List.not_mem_nil
  instances := fun _ _ _ h => absurd h List.not_mem_nil
  services := fun _ _ _ h => absurd h List.not_mem_nil

theorem append {es es' : List Event} (h : Complete es) (h' : Complete es') :
    Complete (es ++ es') where
  taken := by
    intro state hmem
    rcases List.mem_append.mp hmem with hmem | hmem
    · exact (h.taken state hmem).mono (List.subset_append_left _ _)
    · exact (h'.taken state hmem).mono (List.subset_append_right _ _)
  instances := by
    intro service nodes node hmem hnode
    rcases List.mem_append.mp hmem with hmem | hmem
    · exact (h.instances service nodes node hmem hnode).mono (List.subset_append_left _ _)
    · exact (h'.instances service nodes node hmem hnode).mono (List.subset_append_right _ _)
  services := by
    intro root nodes node hmem hnode
    rcases List.mem_append.mp hmem with hmem | hmem
    · exact (h.services root nodes node hmem hnode).mono (List.subset_append_left _ _)
    · exact (h'.services root nodes node hmem hnode).mono (List.subset_append_right _ _)

theorem cons {e : Event} {es : List Event} (h : Complete es)
    (htaken : forall state : ZkState, e = .takeOver state.key -> state.Replayed es)
    (hinstances : forall service nodes node, e = .children .getService service zok nodes ->
      node ∈ nodes -> InstanceRead service node es)
    (hservices : forall root nodes node, e = .children .getRoot root zok nodes ->
      node ∈ nodes -> Listed .getService (root ++ "/" ++ node) es) : Complete (e :: es) where
  taken := by
    intro state hmem
    rcases List.mem_cons.mp hmem with heq | hmem
    · exact (htaken state heq.symm).mono (List.subset_cons_self _ _)
    · exact (h.taken state hmem).mono (List.subset_cons_self _ _)
  instances := by
    intro service nodes node hmem hnode
    rcases List.mem_cons.mp hmem with heq | hmem
    · exact (hinstances service nodes node heq.symm hnode).mono (List.subset_cons_self _ _)
    · exact (h.instances service nodes node hmem hnode).mono (List.subset_cons_self _ _)
  services := by
    intro root nodes node hmem hnode
    rcases List.mem_cons.mp hmem with heq | hmem
    · exact (hservices root nodes node heq.symm hnode).mono (List.subset_cons_self _ _)
    · exact (h.services root nodes node hmem hnode).mono (List.subset_cons_self _ _)

theorem plain {e : Event} {es : List Event} (h : Complete es)
    (htaken : forall key, e ≠ .takeOver key) (hchildren : forall type path rc nodes,
      e ≠ .children type path rc nodes) : Complete (e :: es) :=
  h.cons (fun _ heq => absurd heq (htaken _)) (fun _ _ _ heq => absurd heq (hchildren _ _ _ _))
    fun _ _ _ heq => absurd heq (hchildren _ _ _ _)

theorem service {service : String} {rc : Int} {nodes : List String} {es : List Event}
    (h : Complete es) (hread : rc = zok -> forall node, node ∈ nodes ->
      InstanceRead service node es) :
    Complete (.children .getService service rc nodes :: es) := by
  apply h.cons
  · intro _ heq
    cases heq
  · intro _ _ node heq hnode
    cases heq
    exact hread rfl node hnode
  · intro _ _ _ heq
    cases heq

theorem root {root : String} {rc : Int} {nodes : List String} {es : List Event}
    (h : Complete es) (hlisted : rc = zok -> forall node, node ∈ nodes ->
      Listed .getService (root ++ "/" ++ node) es) :
    Complete (.children .getRoot root rc nodes :: es) := by
  apply h.cons
  · intro _ heq
    cases heq
  · intro _ _ _ heq
    cases heq
  · intro _ _ node heq hnode
    cases heq
    exact hlisted rfl node hnode

theorem takeOver {key : String} {es : List Event} (h : Complete es)
    (hreplayed : forall state : ZkState, state.key = key -> state.Replayed es) :
    Complete (.takeOver key :: es) := by
  apply h.cons
  · intro state heq
    cases heq
    exact hreplayed state rfl
  · intro _ _ _ heq
    cases heq
  · intro _ _ _ heq
    cases heq

end Complete

namespace ZkClient

/-!
## The calls of a connected client
-/

section Calls

variable {env : Env} {c : ClientId} {w : World}

theorem readInstance_run (hlive : Live c w) {service node : String} {rc : Int} {data : NodeData}
    (hanswer : env.zooWget w.trace.length (service ++ "/" ++ node) = (rc, data))
    (hrc : rc ≠ zinvalidstate) :
    (exists other, readInstance env c service node w = Except.error other ∧ other ≠ Stop.depth) ∨
      exists b w' mtime, readInstance env c service node w = Except.ok (b, w') ∧
        Goes c [.instance_ service node rc data mtime] w w' := by
  simp only [readInstance, zooWget, nowInMs, log, saveState, mapBag, mapPool, mapCache,
    removeState, bind_assoc, get_bind_run, modify_bind_run, pure_bind, ite_run, pure_run,
    hlive.right, if_true, hanswer]
  by_cases hok : rc = zok
  · rw [if_pos hok]
    cases hread : env.readEndpoint data.data with
    | error other =>
        refine Or.inl ⟨other, rfl, ?_⟩
        exact fun heq => env.readEndpoint_ne_error (by decide) (by decide) _ (heq ▸ hread)
    | ok endpoint =>
        refine Or.inr ⟨_, _, _, rfl, hlive, rfl, ?_⟩
        simp [replay, Event.onBag, hok, zok, znonode]
  · rw [if_neg hok]
    by_cases hnone : rc = znonode
    · rw [if_pos hnone]
      refine Or.inr ⟨_, _, _, rfl, hlive, rfl, ?_⟩
      simp [replay, Event.onBag, hnone]
    · rw [if_neg hnone, if_neg hrc]
      refine Or.inr ⟨_, _, _, rfl, hlive, rfl, ?_⟩
      simp [replay, Event.onBag, hnone]

theorem listService_run (hlive : Live c w) {service : String} {rc : Int} {nodes : List String}
    (hanswer : env.zooWgetChildren w.trace.length service = (rc, nodes))
    (hrc : rc ≠ zinvalidstate) :
    exists w', listService env c service w =
        Except.ok (if rc = zok then (true, nodes) else (false, []), w') ∧
      Goes c [.children .getService service rc nodes] w w' := by
  simp only [listService, zooWgetChildren, log, saveState, mapBag, mapPool, mapCache,
    removeState, bind_assoc, get_bind_run, modify_bind_run, pure_bind, ite_run, pure_run,
    hlive.right, if_true, hanswer]
  by_cases hok : rc = zok
  · rw [if_pos hok, if_pos hok]
    split
    · refine ⟨_, rfl, hlive, rfl, ?_⟩
      simp [replay, Event.onBag, hok, zok, znonode]
    · refine ⟨_, rfl, hlive, rfl, ?_⟩
      simp [replay, Event.onBag, hok, zok, znonode]
  · rw [if_neg hok, if_neg hok]
    by_cases hnone : rc = znonode
    · rw [if_pos hnone]
      refine ⟨_, rfl, hlive, rfl, ?_⟩
      simp [replay, Event.onBag, hnone]
    · rw [if_neg hnone, if_neg hrc]
      refine ⟨_, rfl, hlive, rfl, ?_⟩
      simp [replay, Event.onBag, hnone]

theorem listServices_run (hlive : Live c w) {root : String} {rc : Int} {nodes : List String}
    (hanswer : env.zooWgetChildren w.trace.length root = (rc, nodes))
    (hrc : rc ≠ zinvalidstate) :
    exists w', listServices env c root w =
        Except.ok (if rc = zok then (true, nodes.map fun node => root ++ "/" ++ node)
          else (false, []), w') ∧
      Goes c [.children .getRoot root rc nodes] w w' := by
  simp only [listServices, zooWgetChildren, log, saveState, mapBag, mapPool, bind_assoc,
    get_bind_run, modify_bind_run, pure_bind, ite_run, pure_run, hlive.right, if_true, hanswer]
  by_cases hok : rc = zok
  · rw [if_pos hok, if_pos hok]
    exact ⟨_, rfl, hlive, rfl, by simp [replay, Event.onBag]⟩
  · rw [if_neg hok, if_neg hok, if_neg hrc]
    exact ⟨_, rfl, hlive, rfl, by simp [replay, Event.onBag]⟩

theorem makeEnode_run (hlive : Live c w) {absPath : String} (data : String) {rc : Int}
    (hanswer : env.zooCreate w.trace.length absPath = rc) (hrc : rc ≠ zinvalidstate) :
    exists w', makeEnode env c absPath data w = Except.ok (rc, w') ∧
      Goes c [.create absPath data rc, .watch absPath] w w' := by
  simp only [makeEnode, zooCreate, log, saveState, mapBag, mapPool, bind_assoc, get_bind_run,
    modify_bind_run, pure_bind, ite_run, pure_run, hlive.right, if_true, hanswer]
  rw [if_neg hrc]
  by_cases hexists : rc = znodeexists
  · rw [if_pos hexists]
    exact ⟨_, rfl, hlive, by simp, by simp [replay, Event.onBag, hexists]⟩
  · rw [if_neg hexists]
    exact ⟨_, rfl, hlive, by simp, by simp [replay, Event.onBag, hexists]⟩

theorem takeOver_run (hlive : Live c w) {ptr : StatePtr} {state : ZkState}
    (hderef : w.pool.stateBag_.deref ptr = some state) :
    exists w', takeOver c ptr w = Except.ok (state, w') ∧ Goes c [.takeOver ptr.key] w w' := by
  simp only [takeOver, get_bind_run, hderef]
  exact ⟨_, rfl, hlive, rfl, rfl⟩

end Calls

/-!
## The operations
-/

/--
Events that restoring may leave: their answers come from the tree, and with a list
its children are admitted.  Reads of instances may fail for want of good data.
-/
structure Admits (t : ZkPaths) (stop : Stop) (E : Event -> Prop) : Prop where
  answered : forall e, E e -> t.Answered e
  watch : forall path, E (.watch path)
  instances : forall service nodes node rc data mtime,
    E (.children .getService service zok nodes) -> node ∈ nodes ->
    t.Answered (.instance_ service node rc data mtime) ->
    E (.instance_ service node rc data mtime)
  services : forall root nodes node rc nodes', E (.children .getRoot root zok nodes) ->
    node ∈ nodes -> t.Answered (.children .getService (root ++ "/" ++ node) rc nodes') ->
    E (.children .getService (root ++ "/" ++ node) rc nodes')
  reads : forall service node rc data mtime, E (.instance_ service node rc data mtime) ->
    stop = Stop.depth

/-- The call that restores the state is admitted, whatever the tree answers. -/
def Starts (t : ZkPaths) (E : Event -> Prop) (state : ZkState) : Prop :=
  match state.type with
  | .createEphereral => forall data rc, E (.create state.path data rc)
  | .getService => forall rc nodes, t.Answered (.children .getService state.path rc nodes) ->
      E (.children .getService state.path rc nodes)
  | .getServiceInstance => forall service node, splitPath state.path = some (service, node) ->
      forall rc data mtime, t.Answered (.instance_ service node rc data mtime) ->
        E (.instance_ service node rc data mtime)
  | .getRoot => forall rc nodes, t.Answered (.children .getRoot state.path rc nodes) ->
      E (.children .getRoot state.path rc nodes)

section Operations

variable {env : Env} {t : ZkPaths} {stop : Stop} {E : Event -> Prop} {c : ClientId} {w : World}
variable {reconnect : ClientId -> ZkM Bool}

theorem only_one {e : Event} (he : E e) : forall e', e' ∈ [e] -> E e' := by
  intro e' he'
  rw [List.mem_singleton.mp he']
  exact he

theorem answered_instance (ht : t.Answers env) (n : Nat) (service node : String) (mtime : Nat) :
    t.Answered (.instance_ service node (env.zooWget n (service ++ "/" ++ node)).1
      (env.zooWget n (service ++ "/" ++ node)).2 mtime) := by
  by_cases hpresent : t.present (service ++ "/" ++ node)
  · exact iff_of_true (ht.data n _ hpresent) hpresent
  · exact iff_of_false (ht.missing n _ hpresent).right hpresent

theorem answered_children (ht : t.Answers env) (n : Nat) {type : ZkStateType} (path : String)
    (htype : type = .getService ∨ type = .getRoot) :
    t.Answered (.children type path (env.zooWgetChildren n path).1
      (env.zooWgetChildren n path).2) := by
  by_cases hpresent : t.present path
  · have hanswer := ht.children n path hpresent
    exact ⟨htype, iff_of_true (congrArg Prod.fst hanswer) hpresent,
      fun _ => congrArg Prod.snd hanswer⟩
  · have hmissing := (ht.missing n path hpresent).left
    exact ⟨htype, iff_of_false hmissing hpresent, fun hok => absurd hok hmissing⟩

variable (ht : t.Answers env) (hE : Admits t stop E)

include ht hE

theorem readInstance_emits (hlive : Live c w) {service node : String}
    (hfirst : forall rc data mtime, t.Answered (.instance_ service node rc data mtime) ->
      E (.instance_ service node rc data mtime)) :
    Emits stop c E (readInstance env c service node) w fun _ es =>
      Complete es ∧ InstanceRead service node es := by
  have hrc : (env.zooWget w.trace.length (service ++ "/" ++ node)).1 ≠ zinvalidstate :=
    fun h => (ht.session _ _ (Or.inr (Or.inl h))).elim
  have hanswered := answered_instance ht w.trace.length service node
  rcases readInstance_run hlive rfl hrc with hstop | hrun
  · rcases hstop with ⟨other, hrun, hne⟩
    intro v hv
    rw [hv, hrun, hE.reads _ _ _ _ _ (hfirst _ _ 0 (hanswered 0))]
    exact hne
  · rcases hrun with ⟨b, w', mtime, hrun, hgoes⟩
    apply Emits.of_run hrun hgoes (only_one (hfirst _ _ _ (hanswered mtime)))
    constructor
    · exact Complete.nil.plain (fun _ h => nomatch h) fun _ _ _ _ h => nomatch h
    · exact ⟨_, _, _, List.mem_cons_self⟩

theorem getServiceInstance_emits (hlive : Live c w) {service node : String}
    (hfirst : forall rc data mtime, t.Answered (.instance_ service node rc data mtime) ->
      E (.instance_ service node rc data mtime)) :
    Emits stop c E (getServiceInstance env reconnect c service node) w fun _ es =>
      Complete es ∧ InstanceRead service node es :=
  Emits.bindOk (ready_live hlive) (readInstance_emits ht hE hlive hfirst)

theorem readInstances_emits (hlive : Live c w) {service : String} {nodes : List String}
    (hfirst : forall node rc data mtime, node ∈ nodes ->
      t.Answered (.instance_ service node rc data mtime) ->
      E (.instance_ service node rc data mtime)) :
    Emits stop c E (nodes.forM fun node => do
      let _ <- getServiceInstance env reconnect c service node) w fun _ es =>
        Complete es ∧ forall node, node ∈ nodes -> InstanceRead service node es := by
  induction nodes generalizing w with
  | nil => exact Emits.pure hlive ⟨Complete.nil, fun _ h => absurd h List.not_mem_nil⟩
  | cons node rest ih =>
      apply Emits.bind (Emits.discard (getServiceInstance_emits ht hE hlive
        fun rc data mtime => hfirst node rc data mtime List.mem_cons_self))
      intro _ es v hread hgoes
      apply (ih hgoes.live fun other rc data mtime hother =>
        hfirst other rc data mtime (List.mem_cons_of_mem _ hother)).mono
      intro _ es' hrest
      refine ⟨hread.left.append hrest.left, ?_⟩
      intro other hother
      rcases List.mem_cons.mp hother with rfl | hother
      · exact hread.right.mono (List.subset_append_left _ _)
      · exact (hrest.right other hother).mono (List.subset_append_right _ _)

theorem getService_emits (hlive : Live c w) {service : String}
    (hfirst : forall rc nodes, t.Answered (.children .getService service rc nodes) ->
      E (.children .getService service rc nodes)) :
    Emits stop c E (getService env reconnect c service) w fun a es =>
      Complete es ∧ Listed .getService service es ∧ (t.present service -> a = true) := by
  have hrc : (env.zooWgetChildren w.trace.length service).1 ≠ zinvalidstate :=
    fun h => (ht.session _ _ (Or.inl h)).elim
  have hanswered := answered_children ht w.trace.length service (Or.inl rfl)
  cases hanswer : env.zooWgetChildren w.trace.length service with
  | mk rc nodes =>
      rw [hanswer] at hrc hanswered
      have hadmitted := hfirst rc nodes hanswered
      rcases listService_run hlive hanswer hrc with ⟨w', hrun, hgoes⟩
      apply Emits.bindOk (ready_live hlive)
      rw [if_pos rfl]
      apply Emits.bind (Emits.of_run (R := fun a es =>
        a = (if rc = zok then (true, nodes) else (false, [])) ∧
          es = [.children .getService service rc nodes]) hrun hgoes
        (only_one hadmitted) ⟨rfl, rfl⟩)
      intro a es v h hgoes'
      rcases h with ⟨rfl, rfl⟩
      by_cases hok : rc = zok
      · rw [if_pos hok]
        rw [hok] at hadmitted
        apply Emits.bind (readInstances_emits ht hE hgoes'.live fun node rc data mtime hnode =>
          hE.instances service nodes node rc data mtime hadmitted hnode)
        intro _ es' v' hrest hgoes''
        apply Emits.pure hgoes''.live
        refine ⟨?_, ⟨rc, nodes, List.mem_append_left _ List.mem_cons_self⟩, fun _ => rfl⟩
        rw [List.append_nil]
        exact hrest.left.service fun _ => hrest.right
      · rw [if_neg hok]
        apply Emits.pure hgoes'.live
        refine ⟨Complete.nil.service fun h => absurd h hok,
          ⟨rc, nodes, List.mem_append_left _ List.mem_cons_self⟩, ?_⟩
        exact fun hpresent => absurd (hanswered.right.left.mpr hpresent) hok

theorem scanServices_emits (hlive : Live c w) {services : List String}
    (hpresent : forall service, service ∈ services -> t.present service)
    (hfirst : forall service rc nodes, service ∈ services ->
      t.Answered (.children .getService service rc nodes) ->
      E (.children .getService service rc nodes)) :
    Emits stop c E (services.foldlM (fun ret zkpath => do
      if ret then getService env reconnect c zkpath else return false) true) w fun _ es =>
        Complete es ∧ forall service, service ∈ services -> Listed .getService service es := by
  induction services generalizing w with
  | nil => exact Emits.pure hlive ⟨Complete.nil, fun _ h => absurd h List.not_mem_nil⟩
  | cons service rest ih =>
      apply Emits.bind (getService_emits ht hE hlive
        fun rc nodes => hfirst service rc nodes List.mem_cons_self)
      intro a es v h hgoes
      rw [h.right.right (hpresent service List.mem_cons_self)]
      apply (ih hgoes.live (fun other hother => hpresent other (List.mem_cons_of_mem _ hother))
        fun other rc nodes hother =>
          hfirst other rc nodes (List.mem_cons_of_mem _ hother)).mono
      intro _ es' hrest
      refine ⟨h.left.append hrest.left, ?_⟩
      intro other hother
      rcases List.mem_cons.mp hother with rfl | hother
      · exact h.right.left.mono (List.subset_append_left _ _)
      · exact (hrest.right other hother).mono (List.subset_append_right _ _)

theorem getAllServices_emits (hlive : Live c w) {root : String}
    (hfirst : forall rc nodes, t.Answered (.children .getRoot root rc nodes) ->
      E (.children .getRoot root rc nodes)) :
    Emits stop c E (getAllServices env reconnect c root) w fun _ es =>
      Complete es ∧ Listed .getRoot root es := by
  have hrc : (env.zooWgetChildren w.trace.length root).1 ≠ zinvalidstate :=
    fun h => (ht.session _ _ (Or.inl h)).elim
  have hanswered := answered_children ht w.trace.length root (Or.inr rfl)
  cases hanswer : env.zooWgetChildren w.trace.length root with
  | mk rc nodes =>
      rw [hanswer] at hrc hanswered
      have hadmitted := hfirst rc nodes hanswered
      rcases listServices_run hlive hanswer hrc with ⟨w', hrun, hgoes⟩
      apply Emits.bindOk (ready_live hlive)
      rw [if_pos rfl]
      apply Emits.bind (Emits.of_run (R := fun a es =>
        a = (if rc = zok then (true, nodes.map fun node => root ++ "/" ++ node)
          else (false, [])) ∧ es = [.children .getRoot root rc nodes]) hrun hgoes
        (only_one hadmitted) ⟨rfl, rfl⟩)
      intro a es v h hgoes'
      rcases h with ⟨rfl, rfl⟩
      by_cases hok : rc = zok
      · rw [if_pos hok]
        have hchildren : nodes = t.children root := hanswered.right.right hok
        have hroot : t.present root := hanswered.right.left.mp hok
        rw [hok] at hadmitted
        have hpresent : forall service, service ∈ nodes.map (fun node => root ++ "/" ++ node) ->
            t.present service := by
          intro service hservice
          rcases List.mem_map.mp hservice with ⟨node, hnode, rfl⟩
          exact t.closed root node hroot (hchildren ▸ hnode)
        apply (scanServices_emits ht hE hgoes'.live hpresent ?_).mono
        · intro _ es' hrest
          refine ⟨hrest.left.root fun _ node hnode => ?_,
            ⟨rc, nodes, List.mem_append_left _ List.mem_cons_self⟩⟩
          exact hrest.right _ (List.mem_map.mpr ⟨node, hnode, rfl⟩)
        · intro service rc' nodes' hservice
          rcases List.mem_map.mp hservice with ⟨node, hnode, rfl⟩
          exact hE.services root nodes node rc' nodes' hadmitted hnode
      · rw [if_neg hok]
        apply Emits.pure hgoes'.live
        exact ⟨Complete.nil.root fun h => absurd h hok,
          ⟨rc, nodes, List.mem_append_left _ List.mem_cons_self⟩⟩

theorem createEnode_emits (hlive : Live c w) {absPath data : String}
    (hfirst : forall rc, E (.create absPath data rc)) :
    Emits stop c E (createEnode env reconnect c absPath data) w fun _ es =>
      Complete es ∧ Created absPath es := by
  have hrc : env.zooCreate w.trace.length absPath ≠ zinvalidstate :=
    fun h => (ht.session _ _ (Or.inr (Or.inr h))).elim
  rcases makeEnode_run hlive data rfl hrc with ⟨w', hrun, hgoes⟩
  apply Emits.bindOk (ready_live hlive)
  rw [if_pos rfl]
  apply Emits.of_run hrun hgoes
  · intro e he
    rcases List.mem_cons.mp he with rfl | he
    · exact hfirst _
    · exact only_one (hE.watch absPath) e he
  · constructor
    · apply Complete.plain
      · exact Complete.nil.plain (fun _ h => nomatch h) fun _ _ _ _ h => nomatch h
      · exact fun _ h => nomatch h
      · exact fun _ _ _ _ h => nomatch h
    · exact ⟨_, _, List.mem_cons_self⟩

theorem restore_emits (hlive : Live c w) {state : ZkState} (hstarts : Starts t E state) :
    Emits stop c E (restore env reconnect c state) w fun _ es =>
      Complete es ∧ state.Replayed es := by
  unfold restore ZkState.Replayed
  unfold Starts at hstarts
  cases htype : state.type with
  | createEphereral =>
      rw [htype] at hstarts
      exact Emits.discard (createEnode_emits ht hE hlive (hstarts state.data))
  | getService =>
      rw [htype] at hstarts
      apply Emits.discard
      exact (getService_emits ht hE hlive hstarts).mono fun _ _ h => ⟨h.left, h.right.left⟩
  | getServiceInstance =>
      rw [htype] at hstarts
      apply Emits.discard
      unfold getServiceInstanceAt
      cases hsplit : splitPath state.path with
      | none => exact Emits.pure hlive ⟨Complete.nil, fun _ _ h => nomatch h⟩
      | some parts =>
          apply (getServiceInstance_emits ht hE hlive (hstarts parts.1 parts.2 hsplit)).mono
          intro _ es h
          refine ⟨h.left, ?_⟩
          intro service node heq
          cases heq
          exact h.right
  | getRoot =>
      rw [htype] at hstarts
      exact Emits.discard (getAllServices_emits ht hE hlive hstarts)

omit ht hE in
theorem Starts.congr {state state' : ZkState} (h : Starts t E state)
    (hkey : state'.key = state.key) : Starts t E state' := by
  rcases createKey_inj hkey with ⟨hpath, htype⟩
  unfold Starts at h ⊢
  rw [hpath, htype]
  exact h

theorem takeOver_emits (hlive : Live c w) {ptr : StatePtr} (htakes : E (.takeOver ptr.key))
    (hstarts : forall state : ZkState, state.key = ptr.key -> Starts t E state)
    (hthere : stop = Stop.dangling -> (w.pool.stateBag_.deref ptr).isSome = true) :
    Emits stop c E (do
      let state <- takeOver c ptr
      restore env reconnect c state) w fun _ es =>
        Complete es ∧ Event.takeOver ptr.key ∈ es := by
  cases hderef : w.pool.stateBag_.deref ptr with
  | none =>
      have hne : Stop.dangling ≠ stop := by
        intro heq
        have h := hthere heq.symm
        rw [hderef] at h
        cases h
      intro v hv
      have hrun : takeOver c ptr v = Except.error Stop.dangling := by
        rw [hv, takeOver, get_bind_run, hderef]
        rfl
      rw [stops_bind hrun]
      exact hne
  | some state =>
      rcases takeOver_run hlive hderef with ⟨w', hrun, hgoes⟩
      have hkey : state.key = ptr.key := StateBag.key_of_get (StateBag.get_of_deref hderef)
      apply Emits.bind (Emits.of_run (R := fun a es => a = state ∧ es = [.takeOver ptr.key]) hrun
        hgoes (only_one htakes) ⟨rfl, rfl⟩)
      intro a es v h hgoes'
      rcases h with ⟨rfl, rfl⟩
      apply (restore_emits ht hE hgoes'.live (hstarts a hkey)).mono
      intro _ es h
      constructor
      · apply h.left.takeOver
        intro state' hkey'
        exact h.right.congr (hkey'.trans hkey.symm)
      · exact List.mem_append_left _ List.mem_cons_self

theorem takeOverStates_emits (hlive : Live c w) {list : List StatePtr}
    (hadmits : forall ptr, ptr ∈ list -> E (.takeOver ptr.key) ∧
      forall state : ZkState, state.key = ptr.key -> Starts t E state)
    (hdeletes : stop = Stop.dangling -> forall e, E e -> ¬ e.Deletes)
    (hthere : stop = Stop.dangling -> forall ptr, ptr ∈ list ->
      (w.pool.stateBag_.deref ptr).isSome = true) :
    Emits stop c E (takeOverStates env reconnect c list) w fun _ es =>
      Complete es ∧ forall ptr, ptr ∈ list -> Event.takeOver ptr.key ∈ es := by
  induction list generalizing w with
  | nil => exact Emits.pure hlive ⟨Complete.nil, fun _ h => absurd h List.not_mem_nil⟩
  | cons ptr rest ih =>
      have hfirst := hadmits ptr List.mem_cons_self
      apply Emits.bind (takeOver_emits ht hE hlive hfirst.left hfirst.right
        fun hstop => hthere hstop ptr List.mem_cons_self).admitted
      intro _ es v h hgoes
      rcases h with ⟨⟨hcomplete, htaken⟩, hes⟩
      apply (ih hgoes.live (fun other hother => hadmits other (List.mem_cons_of_mem _ hother))
        ?_).mono
      · intro _ es' hrest
        refine ⟨hcomplete.append hrest.left, ?_⟩
        intro other hother
        rcases List.mem_cons.mp hother with rfl | hother
        · exact List.mem_append_left _ htaken
        · exact List.mem_append_right _ (hrest.right other hother)
      · intro hstop other hother
        rw [hgoes.bag]
        apply replay_keeps (I := fun bag => (bag.deref other).isSome = true)
        · intro e bag he
          have hkept := Event.removed_of_not_deletes (hdeletes hstop e (hes e he))
          exact isSome_deref_onBag c (by simp [hkept])
        · exact hthere hstop other (List.mem_cons_of_mem _ hother)

omit ht hE in
theorem getList_admitted {bag : StateBag} {clientId : ClientId}
    (hadmits : forall key state, bag.get key = some state -> state.clientId = clientId ->
      E (.takeOver key) ∧ Starts t E state) {ptr : StatePtr} (hptr : ptr ∈ bag.getList clientId) :
    E (.takeOver ptr.key) ∧ forall state : ZkState, state.key = ptr.key -> Starts t E state := by
  rcases StateBag.deref_of_mem_getList hptr with ⟨state, hderef, hclient⟩
  have hget := StateBag.get_of_deref hderef
  have hstate := hadmits ptr.key state hget hclient
  refine ⟨hstate.left, ?_⟩
  intro state' hkey
  exact hstate.right.congr (hkey.trans (StateBag.key_of_get hget).symm)

omit ht hE in
theorem getList_there {bag : StateBag} {clientId : ClientId} {ptr : StatePtr}
    (hptr : ptr ∈ bag.getList clientId) : (bag.deref ptr).isSome = true := by
  rcases StateBag.deref_of_mem_getList hptr with ⟨state, hderef, _⟩
  rw [hderef]
  rfl

/--
The states of the client are restored first, then those that have no client by
then.  `I` is what the events keep true of the bag.
-/
theorem restoreStates_emits (hlive : Live c w) {I : StateBag -> Prop}
    (hkeeps : forall e bag, E e -> I bag -> I (e.onBag c bag))
    (hown : forall key state, w.pool.stateBag_.get key = some state -> state.clientId = c ->
      E (.takeOver key) ∧ Starts t E state)
    (hfree : forall bag key state, I bag -> bag.get key = some state -> state.clientId = 0 ->
      E (.takeOver key) ∧ Starts t E state)
    (hdeletes : stop = Stop.dangling -> forall e, E e -> ¬ e.Deletes)
    (hbag : I w.pool.stateBag_) :
    Emits stop c E (restoreStates env reconnect c) w fun _ es => exists es₁ es₂,
      es = es₁ ++ es₂ ∧ Complete es ∧
      (forall ptr, ptr ∈ w.pool.stateBag_.getList c -> Event.takeOver ptr.key ∈ es₁) ∧
      forall ptr, ptr ∈ (replay c w.pool.stateBag_ es₁).getList 0 ->
        Event.takeOver ptr.key ∈ es₂ := by
  unfold restoreStates
  apply Emits.bindOk (a := w) rfl
  apply Emits.bind (takeOverStates_emits ht hE hlive (fun _ => getList_admitted hown) hdeletes
    fun _ _ => getList_there).admitted
  intro _ es₁ v h hgoes
  rcases h with ⟨⟨hcomplete, htaken⟩, hes⟩
  have hbag' : I v.pool.stateBag_ := by
    rw [hgoes.bag]
    exact replay_keeps (fun e bag he => hkeeps e bag (hes e he)) hbag
  apply Emits.bindOk (a := v) rfl
  apply (takeOverStates_emits ht hE hgoes.live
    (fun _ => getList_admitted fun key state => hfree _ key state hbag') hdeletes
    fun _ _ => getList_there).mono
  intro _ es₂ hrest
  rw [hgoes.bag] at hrest
  exact ⟨es₁, es₂, rfl, hcomplete.append hrest.left, htaken, hrest.right⟩

end Operations

end ZkClient

end FrProxy
