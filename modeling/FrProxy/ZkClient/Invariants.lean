import FrProxy.ZkClient.Trace

/-!
# What a client keeps

The properties of the pool, the bag and the trace that the operations of a
client keep, whatever ZooKeeper answers.
-/

namespace FrProxy

open Program

/-!
## The data of an instance
-/

theorem bind_ne_error {α β : Type} {stop : Stop} {x : Except Stop α} {f : α -> Except Stop β}
    (hx : x ≠ Except.error stop) (hf : forall a, f a ≠ Except.error stop) :
    (x >>= f) ≠ Except.error stop := by
  cases x with
  | error other =>
      intro h
      exact hx (congrArg Except.error (Except.error.inj h))
  | ok a => exact hf a

theorem pure_ne_error {α : Type} {stop : Stop} (a : α) :
    (pure a : Except Stop α) ≠ Except.error stop := by
  intro h
  cases h

section Assertions

variable {stop : Stop} (hstop : stop ≠ Stop.assertion)

include hstop

theorem findMember_ne_error (v : Json) (name : String) :
    v.findMember name ≠ Except.error stop := by
  cases v <;> simp [Json.findMember, Ne.symm hstop]

theorem hasMember_ne_error (v : Json) (name : String) :
    v.hasMember name ≠ Except.error stop :=
  bind_ne_error (findMember_ne_error hstop v name) fun _ => pure_ne_error _

theorem member_ne_error (v : Json) (name : String) :
    v.member name ≠ Except.error stop :=
  bind_ne_error (findMember_ne_error hstop v name) fun _ => pure_ne_error _

theorem getString_ne_error (v : Json) : v.getString ≠ Except.error stop := by
  cases v <;> simp [Json.getString, Ne.symm hstop]

theorem serviceEndpoint_ne_error (root : Option Json) :
    serviceEndpoint root ≠ Except.error stop := by
  cases root with
  | none => exact pure_ne_error _
  | some d =>
      refine bind_ne_error (hasMember_ne_error hstop d _) fun found => ?_
      split
      · refine bind_ne_error (member_ne_error hstop d _) fun v => ?_
        split
        · refine bind_ne_error (hasMember_ne_error hstop v _) fun hostFound => ?_
          refine bind_ne_error (hasMember_ne_error hstop v _) fun portFound => ?_
          split
          · refine bind_ne_error (member_ne_error hstop v _) fun hostValue => ?_
            refine bind_ne_error (getString_ne_error hstop hostValue) fun host => ?_
            refine bind_ne_error (member_ne_error hstop v _) fun port => ?_
            split <;> exact pure_ne_error _
          · exact pure_ne_error _
        · exact pure_ne_error _
      · exact pure_ne_error _

theorem Env.readEndpoint_ne_error (env : Env) (hoverread : stop ≠ Stop.overread) (data : String) :
    env.readEndpoint data ≠ Except.error stop := by
  refine bind_ne_error ?_ fun str => serviceEndpoint_ne_error hstop _
  unfold cString
  dsimp only
  split
  · intro h
    exact hoverread (Except.error.inj h).symm
  · exact pure_ne_error _

end Assertions

/-- A request that is sent after so many events may be answered `ZINVALIDSTATE`. -/
def Env.Loses (env : Env) (n : Nat) : Prop :=
  exists path, (env.zooWgetChildren n path).1 = zinvalidstate ∨
    (env.zooWget n path).1 = zinvalidstate ∨ env.zooCreate n path = zinvalidstate

/-- Reads and creations are answered `ZINVALIDSTATE` after so many events of `Z` only. -/
def Env.InvalidOnlyAt (env : Env) (Z : Set Nat) : Prop :=
  forall n path,
    (env.zooWgetChildren n path).1 = zinvalidstate ∨ (env.zooWget n path).1 = zinvalidstate ∨
      env.zooCreate n path = zinvalidstate -> n ∈ Z

namespace ZkClient

/-!
## Invariants of the operations
-/

/-- The client kept its session, and events and states were recorded at most. -/
structure Quiet (c : ClientId) (saves : ZkStateType -> String -> Prop) (w w' : World) : Prop where
  trace : w.trace.length ≤ w'.trace.length
  pool : w'.pool = { w.pool with stateBag_ := w'.pool.stateBag_ }
  states : w.pool.stateBag_.Changed c saves w'.pool.stateBag_

theorem Quiet.getConnected {c : ClientId} {saves : ZkStateType -> String -> Prop} {w w' : World}
    (h : Quiet c saves w w') (d : ClientId) : w'.pool.getConnected d = w.pool.getConnected d :=
  congrArg (fun p => p.getConnected d) h.pool

theorem Quiet.zhandle_ {c : ClientId} {saves : ZkStateType -> String -> Prop} {w w' : World}
    (h : Quiet c saves w w') (d : ClientId) :
    (w'.pool.clients d).zhandle_ = (w.pool.clients d).zhandle_ :=
  congrArg (fun p => (p.clients d).zhandle_) h.pool

theorem Quiet.event {c : ClientId} {saves : ZkStateType -> String -> Prop} {w w' : World}
    (h : Quiet c saves w w') (e : Event) :
    Quiet c saves w { w' with trace := w'.trace ++ [e] } where
  trace := by
    dsimp only
    rw [List.length_append]
    exact Nat.le_add_right_of_le h.trace
  pool := h.pool
  states := h.states

theorem Quiet.refl (c : ClientId) (saves : ZkStateType -> String -> Prop) (w : World) :
    Quiet c saves w w where
  trace := Nat.le_refl _
  pool := rfl
  states := .same

/--
An invariant that a client keeps while it has its session, and in the worlds of
`lossy` when it loses it too; an answer that takes the session away leads there.
Of the reasons to stop only the depth of the nesting may be `bad`.  The client
saves states under the paths `saves` only, which are those of the states it finds,
and those of their children.
-/
structure Kept (env : Env) (c : ClientId) (bad : Stop -> Prop) (lossy : World -> Prop)
    (saves : ZkStateType -> String -> Prop) (I : World -> Prop) : Prop where
  stops : forall stop, bad stop -> stop = Stop.depth
  instances : forall service node, saves .getServiceInstance (service ++ "/" ++ node)
  services : forall root node, saves .getService (root ++ "/" ++ node)
  found : forall w key state, I w -> w.pool.stateBag_.get key = some state ->
    saves state.type state.path
  quiet : forall w w', Quiet c saves w w' -> I w -> I w'
  stays : forall w w', Quiet c saves w w' -> lossy w -> lossy w'
  lost : forall w : World, I w -> lossy w -> I { w with pool := w.pool.setConnected c false }
  answers : forall w w', I w ->
    ((w.pool.clients c).zhandle_ = true -> env.Loses w.trace.length) ->
    Quiet c saves w w' -> w.trace.length < w'.trace.length -> lossy w'

section Calls

variable {env : Env} {c : ClientId} {bad : Stop -> Prop} {lossy : World -> Prop}
variable {saves : ZkStateType -> String -> Prop} {I : World -> Prop}

theorem Kept.modify (h : Kept env c bad lossy saves I) {f : World -> World}
    (hf : forall w, Quiet c saves w (f w)) :
    Avoids bad I (modify f : ZkM PUnit) fun _ => I :=
  Avoids.modify fun w hw => h.quiet w (f w) (hf w) hw

theorem Kept.log (h : Kept env c bad lossy saves I) (e : Event) :
    Avoids bad I (FrProxy.log e) fun _ => I :=
  h.modify fun w => (Quiet.refl c saves w).event e

theorem Kept.mapBag (h : Kept env c bad lossy saves I) {f : StateBag -> StateBag}
    (hf : forall bag : StateBag, bag.Changed c saves (f bag)) :
    Avoids bad I (FrProxy.mapBag f) fun _ => I :=
  h.modify fun _ => ⟨Nat.le_refl _, rfl, hf _⟩

theorem Kept.saveState (h : Kept env c bad lossy saves I) {type : ZkStateType} {path : String}
    (data : String) (hsaves : saves type path) (K : Prop) :
    Avoids bad (fun w => I w ∧ (K -> lossy w)) (ZkClient.saveState c type path data)
      fun _ w => I w ∧ (K -> lossy w) := by
  refine Avoids.modify fun w hw => ?_
  have hquiet : Quiet c saves w { w with pool := { w.pool with
      stateBag_ := w.pool.stateBag_.add { clientId := c, type, path, data } } } :=
    ⟨Nat.le_refl _, rfl, .save _ rfl hsaves⟩
  exact ⟨h.quiet w _ hquiet hw.left, fun hK => h.stays w _ hquiet (hw.right hK)⟩

theorem Kept.removeState (h : Kept env c bad lossy saves I) (path : String) (type : ZkStateType) :
    Avoids bad I (ZkClient.removeState path type) fun _ => I :=
  h.mapBag fun _ => .remove _

theorem Kept.giveState (h : Kept env c bad lossy saves I) (key : String) {d : ClientId}
    (hd : d = c ∨ d = 0) :
    Avoids bad I (FrProxy.mapBag (·.replaceClientIdOf key d)) fun _ => I :=
  h.mapBag fun _ => .give _ d hd

theorem Kept.mapCache (h : Kept env c bad lossy saves I) (f : RegistryCache -> RegistryCache) :
    Avoids bad I (FrProxy.mapCache f) fun _ => I :=
  h.modify fun _ => ⟨Nat.le_refl _, rfl, .same⟩

theorem Kept.recorded (h : Kept env c bad lossy saves I) {w : World} {K : Prop}
    (hK : K -> (w.pool.clients c).zhandle_ = true -> env.Loses w.trace.length) (e : Event) :
    Avoids bad (fun t => I t ∧ I w ∧ Quiet c saves w t) (FrProxy.log e)
      fun _ t => I t ∧ (K -> lossy t) := by
  refine Avoids.modify fun t ht => ?_
  rcases ht with ⟨ht, hw, hquiet⟩
  refine ⟨h.quiet t _ ((Quiet.refl c saves t).event e) ht, fun hlost => ?_⟩
  apply h.answers w _ hw (hK hlost) (hquiet.event e)
  dsimp only
  rw [List.length_append]
  exact Nat.lt_succ_of_le hquiet.trace

theorem get_quiet (c : ClientId) (saves : ZkStateType -> String -> Prop) :
    Avoids bad I (get : ZkM World) fun w t => I t ∧ I w ∧ Quiet c saves w t :=
  Avoids.get fun w hw => ⟨hw, hw, .refl c saves w⟩

theorem Kept.zooWgetChildren (h : Kept env c bad lossy saves I) (type : ZkStateType) (path : String) :
    Avoids bad I (ZkClient.zooWgetChildren env c type path)
      fun answer w => I w ∧ (answer.1 = zinvalidstate -> lossy w) := by
  refine Avoids.bind (get_quiet c saves) ?_
  intro w
  generalize hanswer : (if (w.pool.clients c).zhandle_ then
    env.zooWgetChildren w.trace.length path else (zinvalidstate, [])) = answer
  have hloses : answer.1 = zinvalidstate -> (w.pool.clients c).zhandle_ = true ->
      env.Loses w.trace.length := by
    intro hinvalid hhandle
    rw [if_pos hhandle] at hanswer
    exact ⟨path, Or.inl (hanswer ▸ hinvalid)⟩
  exact Avoids.bind (h.recorded hloses _) fun _ => Avoids.pure fun _ ht => ht

theorem Kept.zooWget (h : Kept env c bad lossy saves I) (service node : String) :
    Avoids bad I (ZkClient.zooWget env c service node)
      fun answer w => I w ∧ (answer.1 = zinvalidstate -> lossy w) := by
  refine Avoids.bind (get_quiet c saves) ?_
  intro w
  generalize hanswer : (if (w.pool.clients c).zhandle_ then
    env.zooWget w.trace.length (service ++ "/" ++ node) else (zinvalidstate, {})) = answer
  have hloses : answer.1 = zinvalidstate -> (w.pool.clients c).zhandle_ = true ->
      env.Loses w.trace.length := by
    intro hinvalid hhandle
    rw [if_pos hhandle] at hanswer
    exact ⟨service ++ "/" ++ node, Or.inr (Or.inl (hanswer ▸ hinvalid))⟩
  have hclock : Avoids bad (fun t => I t ∧ I w ∧ Quiet c saves w t) (FrProxy.nowInMs env)
      fun _ t => I t ∧ I w ∧ Quiet c saves w t := by
    intro t ht
    have hquiet : Quiet c saves t { t with ticks := t.ticks + 1 } := ⟨Nat.le_refl _, rfl, .same⟩
    exact ⟨h.quiet t _ hquiet ht.left, ht.right.left, ht.right.right.trace,
      ht.right.right.pool, ht.right.right.states⟩
  refine Avoids.bind hclock fun mtime => ?_
  exact Avoids.bind (h.recorded hloses _) fun _ => Avoids.pure fun _ ht => ht

theorem Kept.zooCreate (h : Kept env c bad lossy saves I) (path : String) (record : Int -> Event) :
    Avoids bad I (ZkClient.zooCreate env c path record)
      fun rc w => I w ∧ (rc = zinvalidstate -> lossy w) := by
  refine Avoids.bind (get_quiet c saves) ?_
  intro w
  generalize hrc : (if (w.pool.clients c).zhandle_ then env.zooCreate w.trace.length path
    else zinvalidstate) = rc
  have hloses : rc = zinvalidstate -> (w.pool.clients c).zhandle_ = true ->
      env.Loses w.trace.length := by
    intro hinvalid hhandle
    rw [if_pos hhandle] at hrc
    exact ⟨path, Or.inr (Or.inr (hrc ▸ hinvalid))⟩
  exact Avoids.bind (h.recorded hloses _) fun _ => Avoids.pure fun _ ht => ht

theorem then_return {α : Type} {K : World -> Prop} {x : ZkM PUnit} {a : α}
    (hx : Avoids bad I x fun _ => I) :
    Avoids bad (fun w => I w ∧ K w) (do x; return a) fun _ => I := by
  refine Avoids.bind (hx.mono (fun _ hw => hw.left) fun _ _ hw => hw) ?_
  exact fun _ => Avoids.pure fun _ hw => hw

theorem Kept.onSessionTimeout (h : Kept env c bad lossy saves I) {rc : Int}
    (hinvalid : rc = zinvalidstate) :
    Avoids bad (fun w => I w ∧ (rc = zinvalidstate -> lossy w)) (ZkClient.onSessionTimeout c)
      fun _ => I :=
  Avoids.modify fun w hw => h.lost w hw.left (hw.right hinvalid)

theorem Kept.drop (h : Kept env c bad lossy saves I) {α : Type} {rc : Int} {a : α}
    (hinvalid : rc = zinvalidstate) :
    Avoids bad (fun w => I w ∧ (rc = zinvalidstate -> lossy w))
      (do ZkClient.onSessionTimeout c; return a) fun _ => I :=
  Avoids.bind (h.onSessionTimeout hinvalid) fun _ => Avoids.pure fun _ hw => hw

theorem Kept.readInstance (h : Kept env c bad lossy saves I) (service node : String) :
    Avoids bad I (ZkClient.readInstance env c service node) fun _ => I := by
  refine Avoids.bind (h.zooWget service node) ?_
  intro answer
  refine Avoids.bind (h.saveState "" (h.instances service node) _) ?_
  intro _
  apply Avoids.ite
  · intro _
    cases hread : env.readEndpoint answer.2.1.data with
    | error stop =>
        apply Avoids.throw
        intro hbad
        exact env.readEndpoint_ne_error (by decide) (by decide) _ (h.stops stop hbad ▸ hread)
    | ok endpoint => exact then_return (h.mapCache _)
  intro _
  apply Avoids.ite fun _ => then_return (h.removeState _ _)
  intro _
  apply Avoids.ite h.drop
  exact fun _ => Avoids.pure fun _ hw => hw.left

theorem Kept.listService (h : Kept env c bad lossy saves I) {service : String}
    (hsaves : saves .getService service) :
    Avoids bad I (ZkClient.listService env c service) fun _ => I := by
  refine Avoids.bind (h.zooWgetChildren .getService service) ?_
  intro answer
  refine Avoids.bind (h.saveState "" hsaves _) ?_
  intro _
  apply Avoids.ite
  · intro _
    apply Avoids.ite
    · exact fun _ => then_return (h.mapCache _)
    · exact fun _ => Avoids.pure fun _ hw => hw.left
  intro _
  apply Avoids.ite fun _ => then_return (h.removeState _ _)
  intro _
  apply Avoids.ite h.drop
  exact fun _ => Avoids.pure fun _ hw => hw.left

theorem Kept.listServices (h : Kept env c bad lossy saves I) {servicesRoot : String}
    (hsaves : saves .getRoot servicesRoot) :
    Avoids bad I (ZkClient.listServices env c servicesRoot) fun a w =>
      I w ∧ forall zkpath, zkpath ∈ a.2 -> exists node, zkpath = servicesRoot ++ "/" ++ node := by
  refine Avoids.bind (h.zooWgetChildren .getRoot servicesRoot) ?_
  intro answer
  refine Avoids.bind (h.saveState "" hsaves _) ?_
  intro _
  apply Avoids.ite
  · intro _
    refine Avoids.pure fun w hw => ⟨hw.left, ?_⟩
    intro zkpath hmem
    rcases List.mem_map.mp hmem with ⟨node, _, rfl⟩
    exact ⟨node, rfl⟩
  intro _
  apply Avoids.ite
  · intro hinvalid
    refine Avoids.bind (h.onSessionTimeout hinvalid) fun _ => ?_
    exact Avoids.pure fun _ hw => ⟨hw, fun _ hmem => absurd hmem List.not_mem_nil⟩
  · exact fun _ => Avoids.pure fun _ hw =>
      ⟨hw.left, fun _ hmem => absurd hmem List.not_mem_nil⟩

theorem Kept.makeEnode (h : Kept env c bad lossy saves I) {absPath : String} (data : String)
    (hsaves : saves .createEphereral absPath) :
    Avoids bad I (ZkClient.makeEnode env c absPath data) fun _ => I := by
  refine Avoids.bind (h.zooCreate absPath _) ?_
  intro rc
  refine Avoids.bind (h.saveState data hsaves _) ?_
  intro _
  have hwatch : Avoids bad I (do FrProxy.log (.watch absPath); return rc) fun _ => I :=
    Avoids.bind (h.log _) fun _ => Avoids.pure fun _ hw => hw
  dsimp only
  apply Avoids.ite
  · intro hinvalid
    exact Avoids.bind (h.onSessionTimeout hinvalid) fun _ => hwatch
  intro _
  apply Avoids.ite
  · intro _
    refine Avoids.bind (Q := fun _ => I) ?_ fun _ => hwatch
    exact (h.giveState _ (Or.inr rfl)).mono (fun _ hw => hw.left) fun _ _ hw => hw
  · exact fun _ => hwatch.mono (fun _ hw => hw.left) fun _ _ hw => hw

theorem Kept.takeOver (h : Kept env c bad lossy saves I) (ptr : StatePtr) :
    Avoids bad I (ZkClient.takeOver c ptr) fun state w => I w ∧ saves state.type state.path := by
  refine Avoids.bind (Q := fun w t => I t ∧ I w) (Avoids.get fun _ hw => ⟨hw, hw⟩) ?_
  intro w
  cases hderef : w.pool.stateBag_.deref ptr with
  | none => exact Avoids.throw fun hbad => absurd (h.stops _ hbad) (by decide)
  | some state =>
      have hsaves : I w -> saves state.type state.path :=
        fun hw => h.found w ptr.key state hw (StateBag.get_of_deref hderef)
      refine Avoids.bind ((h.log _).carry _) fun _ => ?_
      refine Avoids.bind ((h.giveState _ (Or.inl rfl)).carry _) fun _ => ?_
      exact Avoids.pure fun _ hw => ⟨hw.left, hsaves hw.right⟩

theorem return_avoids {α : Type} (a : α) : Avoids bad I (pure a : ZkM α) fun _ => I :=
  Avoids.pure fun _ hw => hw

theorem Kept.connectLoop (h : Kept env c bad lossy saves I) (attempts : Nat) :
    Avoids bad I (ZkClient.connectLoop env attempts) fun _ => I := by
  induction attempts with
  | zero => exact return_avoids false
  | succ attempts ih =>
      refine Avoids.bind (Avoids.get (Q := fun _ => I) fun _ hw => hw) ?_
      intro w
      refine Avoids.bind (h.log _) fun _ => ?_
      exact Avoids.ite (fun _ => return_avoids true) fun _ => ih

theorem asked_avoids (f : World -> Bool) :
    Avoids bad I (do return f (<- get) : ZkM Bool) fun _ => I :=
  fun _ hw => hw

theorem Kept.ready (h : Kept env c bad lossy saves I) {reconnect : ClientId -> ZkM Bool}
    (hreconnect : Avoids bad I (reconnect c) fun _ => I) :
    Avoids bad I (ZkClient.ready reconnect c) fun _ => I := by
  refine Avoids.bind (asked_avoids fun w => w.pool.getConnected c) fun _ => ?_
  apply Avoids.ite fun _ => return_avoids true
  intro _
  refine Avoids.bind hreconnect fun _ => ?_
  refine Avoids.bind (asked_avoids fun w => w.pool.getConnected c) fun _ => ?_
  refine Avoids.bind (asked_avoids fun w => (w.pool.clients c).zhandle_) fun _ => ?_
  apply Avoids.ite fun _ => return_avoids true
  intro _
  exact Avoids.bind (h.log _) fun _ => return_avoids false

end Calls

section Operations

variable {env : Env} {c : ClientId} {bad : Stop -> Prop} {lossy : World -> Prop}
variable {saves : ZkStateType -> String -> Prop} {I : World -> Prop}
variable {reconnect : ClientId -> ZkM Bool} (h : Kept env c bad lossy saves I)
  (hready : Avoids bad I (ready reconnect c) fun _ => I)

include hready in
theorem guarded_avoids {α : Type} {x y : ZkM α} (hx : Avoids bad I x fun _ => I)
    (hy : Avoids bad I y fun _ => I) :
    Avoids bad I (do if <- ready reconnect c then x else y) fun _ => I :=
  Avoids.bind hready fun _ => Avoids.ite (fun _ => hx) fun _ => hy

include h hready

theorem getServiceInstance_avoids (service node : String) :
    Avoids bad I (getServiceInstance env reconnect c service node) fun _ => I :=
  guarded_avoids hready (h.readInstance service node) (return_avoids false)

theorem getServiceInstanceAt_avoids (path : String) :
    Avoids bad I (getServiceInstanceAt env reconnect c path) fun _ => I := by
  unfold getServiceInstanceAt
  cases splitPath path with
  | none => exact return_avoids true
  | some parts => exact getServiceInstance_avoids h hready parts.1 parts.2

theorem getService_avoids {service : String} (hsaves : saves .getService service) :
    Avoids bad I (getService env reconnect c service) fun _ => I := by
  refine guarded_avoids hready ?_ (return_avoids false)
  refine Avoids.bind (h.listService hsaves) fun a => ?_
  refine Avoids.bind (Avoids.forM a.2 fun node _ => ?_) fun _ => return_avoids a.1
  exact Avoids.bind (getServiceInstance_avoids h hready service node) fun _ => return_avoids _

theorem getAllServices_avoids {servicesRoot : String} (hsaves : saves .getRoot servicesRoot) :
    Avoids bad I (getAllServices env reconnect c servicesRoot) fun _ => I := by
  refine guarded_avoids hready ?_ (return_avoids false)
  refine Avoids.bind (h.listServices hsaves) fun a => ?_
  apply Avoids.carried
  intro hlisted
  refine Avoids.foldlM a.2 (fun ret zkpath hmem => ?_) a.1
  apply Avoids.ite
  · intro _
    rcases hlisted zkpath hmem with ⟨node, rfl⟩
    exact getService_avoids h hready (h.services servicesRoot node)
  · exact fun _ => return_avoids false

theorem createEnode_avoids {absPath : String} (data : String)
    (hsaves : saves .createEphereral absPath) :
    Avoids bad I (createEnode env reconnect c absPath data) fun _ => I :=
  guarded_avoids hready (h.makeEnode data hsaves) (return_avoids zconnectionloss)

theorem restore_avoids {state : ZkState} (hsaves : saves state.type state.path) :
    Avoids bad I (restore env reconnect c state) fun _ => I := by
  unfold restore
  cases htype : state.type with
  | createEphereral =>
      rw [htype] at hsaves
      exact Avoids.bind (createEnode_avoids h hready _ hsaves) fun _ => return_avoids _
  | getService =>
      rw [htype] at hsaves
      exact Avoids.bind (getService_avoids h hready hsaves) fun _ => return_avoids _
  | getServiceInstance =>
      exact Avoids.bind (getServiceInstanceAt_avoids h hready _) fun _ => return_avoids _
  | getRoot =>
      rw [htype] at hsaves
      exact Avoids.bind (getAllServices_avoids h hready hsaves) fun _ => return_avoids _

theorem takeOverStates_avoids (states : List StatePtr) :
    Avoids bad I (takeOverStates env reconnect c states) fun _ => I :=
  Avoids.forM states fun ptr _ =>
    Avoids.bind (h.takeOver ptr) fun _ =>
      Avoids.carried fun hsaves => restore_avoids h hready hsaves

theorem restoreStates_avoids :
    Avoids bad I (restoreStates env reconnect c) fun _ => I := by
  refine Avoids.bind (Avoids.get (Q := fun _ => I) fun _ hw => hw) fun w => ?_
  refine Avoids.bind (takeOverStates_avoids h hready _) fun _ => ?_
  refine Avoids.bind (Avoids.get (Q := fun _ => I) fun _ hw => hw) fun w => ?_
  exact takeOverStates_avoids h hready _

end Operations

theorem Kept.connectZk {env : Env} {c : ClientId} {bad : Stop -> Prop}
    {saves : ZkStateType -> String -> Prop} {I : World -> Prop}
    (h : Kept env c bad (fun _ => True) saves I) (hdepth : ¬ bad Stop.depth)
    (hhandle : forall w handle, I w -> I { w with pool := w.pool.setHandle c handle })
    (hconnected : forall w, I w -> I { w with pool := w.pool.setConnected c true })
    (depth : Nat) :
    Avoids bad I (ZkClient.connectZk env depth c) fun _ => I := by
  have hsetHandle : forall handle, Avoids bad I (mapPool (·.setHandle c handle)) fun _ => I :=
    fun handle => Avoids.modify fun w hw => hhandle w handle hw
  induction depth with
  | zero => exact Avoids.throw hdepth
  | succ depth ih =>
      unfold ZkClient.connectZk
      refine Avoids.bind (asked_avoids fun w => w.pool.getConnected c) fun _ => ?_
      apply Avoids.ite fun _ => return_avoids true
      intro _
      refine Avoids.bind (hsetHandle false) fun _ => ?_
      refine Avoids.bind (h.connectLoop 11) fun _ => ?_
      apply Avoids.ite
      · intro _
        refine Avoids.bind (hsetHandle true) fun _ => ?_
        refine Avoids.bind (Q := fun _ => I) (Avoids.modify fun w hw => hconnected w hw) fun _ => ?_
        refine Avoids.bind ?_ fun _ => return_avoids true
        exact restoreStates_avoids h (h.ready ih)
      · intro _
        refine Avoids.bind (Q := fun _ => I) ?_ fun _ => return_avoids false
        exact Avoids.modify fun w hw => h.lost w hw trivial

def stamped (env : Env) (w : World) (c : ClientId) : World where
  pool := (opened env w).1.stamp c (env.clock (w.ticks + 1) + w.slept)
  cache := w.cache
  trace := w.trace
  ticks := w.ticks + 2
  slept := w.slept

theorem poolOpen_avoids {env : Env} {depth : Nat} {bad : Stop -> Prop} {I : World -> Prop}
    {Q : Option ClientId -> World -> Prop}
    (hnone : forall w, I w -> (opened env w).2 = none ->
      Q none { w with pool := (opened env w).1, ticks := w.ticks + 1 })
    (hsome : forall w c, I w -> (opened env w).2 = some c ->
      Avoids bad (fun v => v = stamped env w c) (open_ env depth c) fun _ => Q (some c)) :
    Avoids bad I (poolOpen env depth) Q := by
  intro w hw
  cases hc : (opened env w).2 with
  | none =>
      have hrun : poolOpen env depth w =
          Except.ok (none, { w with pool := (opened env w).1, ticks := w.ticks + 1 }) := by
        simp only [poolOpen, mapPool, nowInMs, bind_assoc, get_bind_run, modify_bind_run,
          pure_bind]
        unfold opened at hc
        rw [hc]
        rfl
      rw [hrun]
      exact hnone w hw hc
  | some c =>
      have hrun : poolOpen env depth w =
          (do let _ <- open_ env depth c; return some c : ZkM (Option ClientId))
            (stamped env w c) := by
        simp only [poolOpen, mapPool, nowInMs, bind_assoc, get_bind_run, modify_bind_run,
          pure_bind]
        unfold opened at hc
        rw [hc]
        rfl
      rw [hrun]
      exact Avoids.bind (hsome w c hw hc) (fun _ => Avoids.pure fun _ ht => ht) _ rfl

/-!
## The states that are saved
-/

theorem kept_built (env : Env) (c : ClientId) :
    Kept env c (fun _ => False) (fun _ => True) StateBag.Joins fun w => w.pool.stateBag_.Built where
  stops := fun _ h => h.elim
  instances := fun service node _ => ⟨service, node, rfl⟩
  services := fun _ _ h => nomatch h
  found := fun _ _ _ hw hget => hw.joins hget
  quiet := fun _ _ hquiet hw => hw.change hquiet.states
  stays := fun _ _ _ _ => trivial
  lost := fun _ hw _ => hw
  answers := fun _ _ _ _ _ _ => trivial

theorem connectZk_built (env : Env) (c : ClientId) (depth : Nat) :
    Avoids (fun _ => False) (fun w => w.pool.stateBag_.Built) (connectZk env depth c)
      fun _ w => w.pool.stateBag_.Built :=
  (kept_built env c).connectZk (fun h => h) (fun _ _ hw => hw) (fun _ hw => hw) depth

section Built

variable {env : Env} {c : ClientId} {depth : Nat} {w w' : World} {a : Bool}

theorem getService_built (h : w.pool.stateBag_.Built) {service : String}
    (hrun : getService env (connectZk env depth) c service w = Except.ok (a, w')) :
    w'.pool.stateBag_.Built :=
  have hkept := kept_built env c
  (getService_avoids hkept (hkept.ready (connectZk_built env c depth)) fun h => nomatch h).ok h
    hrun

theorem getServiceInstance_built (h : w.pool.stateBag_.Built) {service node : String}
    (hrun : getServiceInstance env (connectZk env depth) c service node w = Except.ok (a, w')) :
    w'.pool.stateBag_.Built :=
  have hkept := kept_built env c
  (getServiceInstance_avoids hkept (hkept.ready (connectZk_built env c depth)) service node).ok h
    hrun

theorem getAllServices_built (h : w.pool.stateBag_.Built) {servicesRoot : String}
    (hrun : getAllServices env (connectZk env depth) c servicesRoot w = Except.ok (a, w')) :
    w'.pool.stateBag_.Built :=
  have hkept := kept_built env c
  (getAllServices_avoids hkept (hkept.ready (connectZk_built env c depth)) fun h => nomatch h).ok
    h hrun

theorem createEnode_built (h : w.pool.stateBag_.Built) {absPath data : String} {rc : Int}
    (hrun : createEnode env (connectZk env depth) c absPath data w = Except.ok (rc, w')) :
    w'.pool.stateBag_.Built :=
  have hkept := kept_built env c
  (createEnode_avoids hkept (hkept.ready (connectZk_built env c depth)) data
    fun h => nomatch h).ok h hrun

end Built

end ZkClient

end FrProxy
