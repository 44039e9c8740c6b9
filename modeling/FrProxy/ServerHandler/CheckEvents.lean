import FrProxy.ServerHandler.Trace

/-!
# The order of the events of a check

A check calls ZooKeeper through its client, asks for the root, and then either
scans and purges, with the reading of the clock between the two calls as the
time stamp, or falls back on the recovery file.
-/

namespace FrProxy

open Program

namespace Event

/-- The events of the calls of a client, but for `zoo_get`. -/
def isCall : Event -> Bool
  | .get _ _ => false
  | .sleep => false
  | .purge _ => false
  | .load _ => false
  | _ => true

/-- The reads of instances, after each of which the clock is read. -/
def isRead : Event -> Bool
  | .instance_ _ _ _ _ _ => true
  | _ => false

end Event

/-- Calls of a client lead from one world to the other, and nobody else read the clock. -/
def Paced (w w' : World) : Prop :=
  exists events, w'.trace = w.trace ++ events ∧ w'.slept = w.slept ∧
    w'.ticks = w.ticks + events.countP Event.isRead ∧
    forall e, e ∈ events -> e.isCall = true

theorem Paced.refl (w : World) : Paced w w :=
  ⟨[], by simp, rfl, rfl, fun e he => absurd he List.not_mem_nil⟩

theorem Paced.trans {u v w : World} (huv : Paced u v) (hvw : Paced v w) : Paced u w := by
  rcases huv with ⟨first, htrace, hslept, hticks, hfirst⟩
  rcases hvw with ⟨second, htrace', hslept', hticks', hsecond⟩
  refine ⟨first ++ second, ?_, hslept'.trans hslept, ?_, ?_⟩
  · rw [htrace', htrace, List.append_assoc]
  · rw [hticks', hticks, List.countP_append, Nat.add_assoc]
  · intro e he
    exact (List.mem_append.mp he).elim (hfirst e) (hsecond e)

section Calls

variable {env : Env} {c : ClientId}

theorem silent_paced {f : World -> World}
    (h : forall w, (f w).trace = w.trace ∧ (f w).ticks = w.ticks ∧ (f w).slept = w.slept) :
    Steps Paced (modify f : ZkM PUnit) := by
  apply Steps.modify
  intro w
  rcases h w with ⟨htrace, hticks, hslept⟩
  exact ⟨[], by rw [htrace]; simp, hslept, hticks, fun e he => absurd he List.not_mem_nil⟩

theorem mapPool_paced (f : ClientPool -> ClientPool) : Steps Paced (mapPool f) :=
  silent_paced fun _ => ⟨rfl, rfl, rfl⟩

theorem mapBag_paced (f : StateBag -> StateBag) : Steps Paced (mapBag f) := by
  unfold mapBag
  exact mapPool_paced _

theorem mapCache_paced (f : RegistryCache -> RegistryCache) : Steps Paced (mapCache f) :=
  silent_paced fun _ => ⟨rfl, rfl, rfl⟩

theorem log_paced {e : Event} (hcall : e.isCall = true) (hread : e.isRead = false) :
    Steps Paced (log e) := by
  apply Steps.modify
  intro w
  refine ⟨[e], rfl, rfl, by simp [hread], fun e' he => ?_⟩
  rw [List.mem_singleton.mp he]
  exact hcall

namespace ZkClient

theorem saveState_paced (type : ZkStateType) (path data : String) :
    Steps Paced (saveState c type path data) := by
  unfold saveState
  exact mapBag_paced _

theorem removeState_paced (path : String) (type : ZkStateType) :
    Steps Paced (removeState path type) := by
  unfold removeState
  exact mapBag_paced _

theorem onSessionTimeout_paced : Steps Paced (onSessionTimeout c) :=
  mapPool_paced _

theorem zooWget_paced (service node : String) : Steps Paced (zooWget env c service node) := by
  intro w a w' hrun
  simp only [zooWget, nowInMs, log, bind_assoc, get_bind_run, modify_bind_run, pure_bind,
    pure_run] at hrun
  cases hrun
  apply Relation.ReflTransGen.single
  refine ⟨[_], rfl, rfl, rfl, fun e he => ?_⟩
  rw [List.mem_singleton.mp he]
  rfl

theorem readInstance_paced (service node : String) :
    Steps Paced (readInstance env c service node) := by
  apply Steps.bind (zooWget_paced service node)
  intro answer
  rcases answer with ⟨rc, data, mtime⟩
  dsimp only
  apply Steps.bind (saveState_paced _ _ _)
  intro _
  apply Steps.ite
  · split
    · exact Steps.throw _
    · exact Steps.bind (mapCache_paced _) fun _ => Steps.pure true
  · apply Steps.ite
    · exact Steps.bind (removeState_paced _ _) fun _ => Steps.pure false
    · exact Steps.ite (Steps.bind onSessionTimeout_paced fun _ => Steps.pure false)
        (Steps.pure true)

theorem zooWgetChildren_paced (type : ZkStateType) (path : String) :
    Steps Paced (zooWgetChildren env c type path) :=
  Steps.bind Steps.get fun _ => Steps.bind (log_paced rfl rfl) fun _ => Steps.pure _

theorem listService_paced (service : String) : Steps Paced (listService env c service) := by
  apply Steps.bind (zooWgetChildren_paced _ service)
  intro answer
  rcases answer with ⟨rc, nodes⟩
  dsimp only
  apply Steps.bind (saveState_paced _ _ _)
  intro _
  apply Steps.ite
  · exact Steps.ite (Steps.bind (mapCache_paced _) fun _ => Steps.pure _) (Steps.pure _)
  · apply Steps.ite
    · exact Steps.bind (removeState_paced _ _) fun _ => Steps.pure _
    · exact Steps.ite (Steps.bind onSessionTimeout_paced fun _ => Steps.pure _) (Steps.pure _)

theorem listServices_paced (servicesRoot : String) :
    Steps Paced (listServices env c servicesRoot) := by
  apply Steps.bind (zooWgetChildren_paced _ servicesRoot)
  intro answer
  rcases answer with ⟨rc, nodes⟩
  dsimp only
  apply Steps.bind (saveState_paced _ _ _)
  intro _
  apply Steps.ite (Steps.pure _)
  exact Steps.ite (Steps.bind onSessionTimeout_paced fun _ => Steps.pure _) (Steps.pure _)

theorem takeOver_paced (ptr : StatePtr) : Steps Paced (takeOver c ptr) := by
  apply Steps.bind Steps.get
  intro w
  split
  · exact Steps.throw _
  · exact Steps.bind (log_paced rfl rfl) fun _ =>
      Steps.bind (mapBag_paced _) fun _ => Steps.pure _

theorem zooCreate_paced {path : String} {record : Int -> Event}
    (hrecord : forall rc, (record rc).isCall = true ∧ (record rc).isRead = false) :
    Steps Paced (zooCreate env c path record) :=
  Steps.bind Steps.get fun _ =>
    Steps.bind (log_paced (hrecord _).left (hrecord _).right) fun _ => Steps.pure _

theorem makePnode_paced (absPath : String) : Steps Paced (makePnode env c absPath) := by
  apply Steps.bind (zooCreate_paced fun _ => ⟨rfl, rfl⟩)
  intro rc
  exact Steps.ite (Steps.bind onSessionTimeout_paced fun _ => Steps.pure rc) (Steps.pure rc)

theorem makeEnode_paced (absPath data : String) :
    Steps Paced (makeEnode env c absPath data) := by
  apply Steps.bind (zooCreate_paced fun _ => ⟨rfl, rfl⟩)
  intro rc
  apply Steps.bind (saveState_paced _ _ _)
  intro _
  have hwatch : Steps Paced (log (.watch absPath) >>= fun _ => pure rc : ZkM Int) :=
    Steps.bind (log_paced rfl rfl) fun _ => Steps.pure rc
  apply Steps.ite
  · exact Steps.bind onSessionTimeout_paced fun _ => hwatch
  · exact Steps.ite (Steps.bind (mapBag_paced _) fun _ => hwatch) hwatch

theorem connectLoop_paced (attempts : Nat) : Steps Paced (connectLoop env attempts) := by
  induction attempts with
  | zero => exact Steps.pure false
  | succ attempts ih =>
      apply Steps.bind Steps.get
      intro w
      exact Steps.bind (log_paced rfl rfl) fun _ => Steps.ite (Steps.pure true) ih

instance : CallMoves env c Paced where
  readInstance := readInstance_paced
  listService := listService_paced
  listServices := listServices_paced
  takeOver := takeOver_paced
  makePnode := makePnode_paced
  makeEnode := makeEnode_paced
  refused := log_paced rfl rfl
  connect := by
    intro x hx
    refine Steps.bind getConnected_steps fun _ => Steps.ite (Steps.pure true) ?_
    refine Steps.bind (mapPool_paced _) fun _ => Steps.bind (connectLoop_paced 11) fun _ => ?_
    apply Steps.ite
    · exact Steps.bind (mapPool_paced _) fun _ => Steps.bind (mapPool_paced _) fun _ => hx
    · exact Steps.bind (mapPool_paced _) fun _ => Steps.pure false

end ZkClient

theorem paced_of_steps {α : Type} {x : ZkM α} (hx : Steps Paced x) {w w' : World} {a : α}
    (hrun : x w = Except.ok (a, w')) : Paced w w' :=
  hx.relates Paced.refl (fun _ _ _ => Paced.trans) (fun _ _ => id) hrun

end Calls

/-!
## The check
-/

namespace ServerHandler

variable {env : Env} {depth : Nat}

theorem poolOpen_paced {w w' : World} {result : Option ClientId}
    (hrun : ZkClient.poolOpen env depth w = Except.ok (result, w')) :
    (result = none -> w'.trace = w.trace) ∧
      forall c, result = some c -> Paced { w with ticks := w.ticks + 2 } w' := by
  simp only [ZkClient.poolOpen, mapPool, nowInMs, bind_assoc, get_bind_run, modify_bind_run,
    pure_bind] at hrun
  cases hopen : ((w.pool.destroyClients false).openSection (env.clock w.ticks + w.slept)).2 with
  | none =>
      rw [hopen] at hrun
      cases hrun
      refine ⟨fun _ => rfl, ?_⟩
      intro c hc
      cases hc
  | some c =>
      rw [hopen] at hrun
      simp only [get_bind_run, modify_bind_run] at hrun
      rcases bind_ok.mp hrun with ⟨b, v, hconnect, hrest⟩
      cases hrest
      refine ⟨?_, ?_⟩
      · intro hnone
        cases hnone
      · intro d _
        have hsteps : Steps Paced (ZkClient.open_ env depth c) := ZkClient.open_steps depth
        have hpaced := paced_of_steps hsteps hconnect
        exact hpaced

theorem clientCheck_run {c : ClientId} {w w' : World} {b : Bool}
    (hrun : ZkClient.check env (ZkClient.connectZk env depth) c root w = Except.ok (b, w')) :
    exists v, Paced w v ∧ ((b = false ∧ w' = v) ∨ exists rc, b = decide (rc = zok) ∧
      w' = { v with trace := v.trace ++ [.get root rc] }) := by
  have hreconnect : Steps Paced (ZkClient.connectZk env depth c) := ZkClient.connectZk_steps depth
  have hready : Steps Paced (ZkClient.ready (ZkClient.connectZk env depth) c) :=
    ZkClient.ready_steps (log_paced rfl rfl) hreconnect
  unfold ZkClient.check at hrun
  rcases bind_ok.mp hrun with ⟨up, x, hup, hrest⟩
  have hx : Paced w x := paced_of_steps hready hup
  cases up with
  | false =>
      cases hrest
      exact ⟨_, hx, Or.inl ⟨rfl, rfl⟩⟩
  | true =>
      rcases bind_ok.mp hrest with ⟨y, z, hget, hrest⟩
      cases hget
      rcases bind_ok.mp hrest with ⟨_, v, htake, hrest⟩
      have hv : Paced x v := paced_of_steps (ZkClient.takeOverStates_steps hreconnect _) htake
      rcases bind_ok.mp hrest with ⟨rc, u, hget, hrest⟩
      cases hget
      cases hrest
      exact ⟨v, hx.trans hv, Or.inr ⟨_, rfl, rfl⟩⟩

theorem scan_run {c : ClientId} {w w' : World} {u : PUnit}
    (hrun : scan env depth c w = Except.ok (u, w')) :
    exists reads, (forall e, e ∈ reads -> e.isCall = true) ∧
      w'.trace = w.trace ++ .sleep :: reads ++ [.purge (env.clock w.ticks + (w.slept + 1))] := by
  simp only [scan, sleepMs, nowInMs, log, bind_assoc, get_bind_run, modify_bind_run,
    pure_bind] at hrun
  rcases bind_ok.mp hrun with ⟨b, v, hscan, hpurge⟩
  have hreconnect : Steps Paced (ZkClient.connectZk env depth c) := ZkClient.connectZk_steps depth
  rcases paced_of_steps (ZkClient.getAllServices_steps hreconnect root) hscan with
    ⟨reads, htrace, _, _, hcalls⟩
  cases hpurge
  refine ⟨reads, hcalls, ?_⟩
  dsimp only
  rw [htrace]
  simp

theorem loadIfEmpty_run {w w' : World} {u : PUnit}
    (hrun : loadIfEmpty env w = Except.ok (u, w')) :
    w'.trace = w.trace ∨ exists v, w'.trace = w.trace ++ [.load v] := by
  simp only [loadIfEmpty, get_bind_run, ite_run] at hrun
  split at hrun
  · unfold fromFile at hrun
    cases hfile : env.cacheFile with
    | none =>
        rw [hfile] at hrun
        cases hrun
        exact Or.inl rfl
    | some text =>
        rw [hfile] at hrun
        simp only [get_bind_run] at hrun
        cases hread : Registry.unserialize env.parse (env.clock (w.ticks + 0) + w.slept) text with
        | error stop =>
            rw [hread] at hrun
            cases hrun
        | ok v =>
            rw [hread] at hrun
            cases hrun
            exact Or.inr ⟨_, rfl⟩
  · cases hrun
    exact Or.inl rfl

inductive CheckEvents (env : Env) (w : World) : List Event -> Prop where
  /-- The root was not read, or not with `ZOK`. -/
  | fallback {calls rest : List Event} (hcalls : forall e, e ∈ calls -> e.isCall = true)
      (hrest : forall e, e ∈ rest -> (exists rc, rc ≠ zok ∧ e = .get root rc) ∨ exists v, e = .load v) :
      CheckEvents env w (calls ++ rest)
  /-- The time stamp is the reading of the clock after all that the calls before made. -/
  | scanned {calls reads : List Event} (hcalls : forall e, e ∈ calls -> e.isCall = true)
      (hreads : forall e, e ∈ reads -> e.isCall = true) :
      CheckEvents env w (calls ++ .get root zok :: .sleep :: reads ++
        [.purge (env.clock (w.ticks + 2 + calls.countP Event.isRead) + (w.slept + 1))])

theorem check_events {w w' : World} {u : PUnit}
    (hrun : check env depth w = Except.ok (u, w')) : CheckEvents env w (happened w w') := by
  rcases bind_ok.mp hrun with ⟨result, x, hopen, hrest⟩
  rcases poolOpen_paced hopen with ⟨hnone, hsome⟩
  have hload : forall {y z : World} {u : PUnit} {calls got : List Event},
      (forall e, e ∈ calls -> e.isCall = true) ->
      (forall e, e ∈ got -> exists rc, rc ≠ zok ∧ e = .get root rc) ->
      y.trace = w.trace ++ (calls ++ got) -> loadIfEmpty env y = Except.ok (u, z) ->
      exists events, CheckEvents env w events ∧ z.trace = w.trace ++ events := by
    intro y z u calls got hcalls hgot htrace hrun
    rcases loadIfEmpty_run hrun with hsame | ⟨v, hloaded⟩
    · exact ⟨_, CheckEvents.fallback hcalls fun e he => Or.inl (hgot e he),
        hsame.trans htrace⟩
    · refine ⟨calls ++ (got ++ [.load v]), CheckEvents.fallback hcalls fun e he => ?_, ?_⟩
      · rcases List.mem_append.mp he with he | he
        · exact Or.inl (hgot e he)
        · exact Or.inr ⟨v, List.mem_singleton.mp he⟩
      · rw [hloaded, htrace]
        simp
  cases result with
  | none =>
      rcases @hload _ _ _ [] [] (by simp) (by simp) (by simpa using hnone rfl) hrest with ⟨events, hevents, htrace⟩
      exact (happened_of_append htrace).symm ▸ hevents
  | some c =>
      rcases hsome c rfl with ⟨first, htrace, hslept, hticks, hfirst⟩
      rcases bind_ok.mp hrest with ⟨_, z, hwork, hclose⟩
      rcases bind_ok.mp hwork with ⟨b, y, hcheck, hwork⟩
      rcases clientCheck_run hcheck with ⟨v, ⟨second, htrace', hslept', hticks', hsecond⟩, hend⟩
      have hcalls : forall e, e ∈ first ++ second -> e.isCall = true := fun e he =>
        (List.mem_append.mp he).elim (hfirst e) (hsecond e)
      have hv : v.trace = w.trace ++ (first ++ second) := by
        rw [htrace', htrace, List.append_assoc]
      have hclosed : w'.trace = z.trace := by
        cases hclose
        rfl
      rcases hend with ⟨rfl, rfl⟩ | ⟨rc, rfl, rfl⟩
      · rcases @hload _ _ _ _ [] hcalls (by simp) (by simpa using hv) hwork with
          ⟨events, hevents, hz⟩
        exact (happened_of_append (hclosed.trans hz)).symm ▸ hevents
      · by_cases hrc : rc = zok
        · rw [if_pos (decide_eq_true hrc)] at hwork
          rcases scan_run hwork with ⟨reads, hreads, hz⟩
          have hstamp : v.ticks = w.ticks + 2 + (first ++ second).countP Event.isRead := by
            rw [hticks', hticks, List.countP_append, Nat.add_assoc]
          have hall : w'.trace = w.trace ++ (first ++ second ++ .get root zok :: .sleep :: reads ++
              [.purge (env.clock (w.ticks + 2 + (first ++ second).countP Event.isRead) +
                (w.slept + 1))]) := by
            rw [hclosed, hz, <- hstamp, show w.slept = v.slept from (hslept'.trans hslept).symm, hrc]
            dsimp only
            rw [hv]
            simp
          exact (happened_of_append hall).symm ▸ CheckEvents.scanned hcalls hreads
        · rw [if_neg (by simpa using hrc)] at hwork
          have hgot : forall e, e ∈ [Event.get root rc] -> exists rc, rc ≠ zok ∧ e = .get root rc :=
            fun e he => ⟨rc, hrc, List.mem_singleton.mp he⟩
          rcases hload hcalls hgot (by dsimp only; rw [hv]; simp) hwork with ⟨events, hevents, hz⟩
          exact (happened_of_append (hclosed.trans hz)).symm ▸ hevents

end ServerHandler

end FrProxy
