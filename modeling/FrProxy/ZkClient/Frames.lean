import FrProxy.Library.Frames
import FrProxy.ZkClient.Trace

/-!
# The calls of a client on an explicit stack

The operations of a client with their loops and the reconnections nested in them,
frame by frame: what is left of each loop, and what is done when a nested
reconnection is over, stands on the stack.
-/

namespace FrProxy

namespace ZkClient

open Program

/-- An operation that begins with the test of the connection. -/
inductive Op where
  | serviceInstance (service node : String)
  | service (service : String)
  | allServices (servicesRoot : String)
  | enode (absPath data : String)
  | check (topZkPath : String)
deriving DecidableEq

inductive Frame where
  /-- An operation from its start. -/
  | op (o : Op)
  /-- An operation after it has called `connect_zk`. -/
  | resume (o : Op)
  | connect
  | restoreStates
  /-- The second half of `restore_states`. -/
  | free
  /-- The loop of `take_over_states`, with the states that are left. -/
  | states (list : List StatePtr)
  /-- The loop of `get_service`, with the instances that are left, and the result. -/
  | instances (service : String) (nodes : List String) (ret : Bool)
  /-- The loop of `get_all_services`, with the services that are left. -/
  | services (list : List String)
  /-- The end of `check`. -/
  | probe (topZkPath : String)
deriving DecidableEq

def restoreFrames (state : ZkState) : List Frame :=
  match state.type with
  | .createEphereral => [.op (.enode state.path state.data)]
  | .getService => [.op (.service state.path)]
  | .getServiceInstance =>
      match splitPath state.path with
      | none => []
      | some (service, node) => [.op (.serviceInstance service node)]
  | .getRoot => [.op (.allServices state.path)]

section Bodies

variable (env : Env) (c : ClientId)

/-- The operation on a client that is connected, up to its loop. -/
def Op.body : Op -> ZkM (Bool × List Frame)
  | serviceInstance path node => do
      let ret <- readInstance env c path node
      return (ret, [])
  | service path => do
      let (ret, nodes) <- listService env c path
      return (ret, [.instances path nodes ret])
  | allServices servicesRoot => do
      let (ret, list) <- listServices env c servicesRoot
      return (ret, [.services list])
  | enode absPath data => do
      let rc <- makeEnode env c absPath data
      return (decide (rc = zok), [])
  | check topZkPath => do
      let w <- get
      return (true, [.states (w.pool.stateBag_.getList 0), .probe topZkPath])

/-- The body of a frame; the register holds the result of the last call. -/
def Frame.body : Frame -> Bool -> ZkM (Bool × List Frame)
  | op o, r => do
      if <- getConnected c then o.body env c
      else return (r, [.connect, .resume o])
  | resume o, _ => do
      if (<- getConnected c) && (<- hasHandle c) then o.body env c
      else
        log .refused
        return (false, [])
  | connect, r => do
      if <- getConnected c then return (true, [])
      else
        mapPool (·.setHandle c false)
        if <- connectLoop env 11 then
          mapPool (·.setHandle c true)
          mapPool (·.setConnected c true)
          return (r, [.restoreStates])
        else
          mapPool (·.setConnected c false)
          return (false, [])
  | restoreStates, r => do
      let w <- get
      return (r, [.states (w.pool.stateBag_.getList c), .free])
  | free, r => do
      let w <- get
      return (r, [.states (w.pool.stateBag_.getList 0)])
  | states [], r => return (r, [])
  | states (ptr :: rest), r => do
      let state <- takeOver c ptr
      return (r, restoreFrames state ++ [.states rest])
  | instances _ [] ret, _ => return (ret, [])
  | instances service (node :: nodes) ret, r =>
      return (r, [.op (.serviceInstance service node), .instances service nodes ret])
  | services [], r => return (r, [])
  | services (zkpath :: rest), r =>
      if r then return (r, [.op (.service zkpath), .services rest])
      else return (false, [.services rest])
  | probe topZkPath, _ => do
      let rc <- zooGet env c topZkPath
      return (decide (rc = zok), [])

end Bodies

/-!
## The frames run the operations
-/

section Runs

variable {env : Env} {c : ClientId}

/-- A program of the client, run by frames; only the depth of the nesting is not kept. -/
abbrev Framed {α : Type} (env : Env) (c : ClientId) (r : Bool) (frames : List Frame) (x : ZkM α)
    (R : α -> Bool -> Prop) : Prop :=
  Frames.Runs (Frame.body env c) (fun stop => stop ≠ Stop.depth) r frames x R

abbrev Begun {α : Type} (env : Env) (c : ClientId) (b : ZkM (Bool × List Frame)) (x : ZkM α)
    (R : α -> Bool -> Prop) : Prop :=
  Frames.Begins (Frame.body env c) (fun stop => stop ≠ Stop.depth) b x R

open Frames

theorem guarded_eq {α : Type} (reconnect : ClientId -> ZkM Bool) (x y : ZkM α) :
    (do if <- ready reconnect c then x else y) = (do
      if <- getConnected c then x
      else
        let _ <- reconnect c
        if (<- getConnected c) && (<- hasHandle c) then x
        else
          log .refused
          y) := by
  unfold ready
  rw [bind_assoc]
  congr 1
  funext connected
  cases connected with
  | true => rfl
  | false =>
      simp only [Bool.false_eq_true, if_false, bind_assoc]
      congr 1
      funext _
      congr 1
      funext up
      congr 1
      funext handle
      cases up && handle with
      | true => rfl
      | false => rfl

variable {reconnect : ClientId -> ZkM Bool}

theorem op_runs (hreconnect : forall r, Framed env c r [.connect] (reconnect c) fun _ _ => True)
    {α : Type} {o : Op} {x : ZkM α} {a : α} {R : α -> Bool -> Prop}
    (hbody : Begun env c (o.body env c) x R) (hrefused : R a false) (r : Bool) :
    Framed env c r [.op o] (do if <- ready reconnect c then x else return a) R := by
  rw [guarded_eq]
  apply Runs.frame
  refine Begins.bind fun connected => Begins.ite (fun _ => hbody) fun _ => ?_
  apply Begins.frames
  apply Runs.seq [Frame.connect] _ (hreconnect r)
  intro _ r' _
  apply Runs.frame
  refine Begins.bind fun up => Begins.bind fun handle => ?_
  apply Begins.ite (fun _ => hbody)
  intro _
  exact Begins.bind fun _ => Begins.done hrefused

section Operations

variable (hreconnect : forall r, Framed env c r [.connect] (reconnect c) fun _ _ => True)

include hreconnect

theorem getServiceInstance_framed (service node : String) (r : Bool) :
    Framed env c r [.op (.serviceInstance service node)]
      (getServiceInstance env reconnect c service node) fun _ _ => True := by
  apply op_runs hreconnect ?_ trivial
  rw [<- bind_pure (readInstance env c service node)]
  apply Begins.bind
  intro _
  exact Begins.done trivial

theorem getServiceInstanceAt_framed (state : ZkState) (htype : state.type = .getServiceInstance)
    (r : Bool) :
    Framed env c r (restoreFrames state) (getServiceInstanceAt env reconnect c state.path)
      fun _ _ => True := by
  unfold restoreFrames getServiceInstanceAt
  rw [htype]
  cases splitPath state.path with
  | none => exact Runs.nil trivial
  | some parts => exact getServiceInstance_framed hreconnect parts.1 parts.2 r

theorem instances_framed (service : String) (nodes : List String) (ret r : Bool) :
    Framed env c r [.instances service nodes ret]
      (do
        nodes.forM fun node => do
          let _ <- getServiceInstance env reconnect c service node
        return ret) fun a r' => r' = a := by
  induction nodes generalizing r with
  | nil => exact Runs.frame (Begins.done rfl)
  | cons node nodes ih =>
      apply Runs.frame
      apply Begins.frames
      rw [List.forM_eq_forM, List.forM_cons, bind_assoc, bind_assoc]
      apply Runs.seq [Frame.op (.serviceInstance service node)] _
        (getServiceInstance_framed hreconnect service node r)
      intro _ r' _
      rw [pure_bind]
      exact ih r'

theorem getService_framed (service : String) (r : Bool) :
    Framed env c r [.op (.service service)] (getService env reconnect c service)
      fun a r' => r' = a := by
  apply op_runs (a := false) (R := fun a r' => r' = a) hreconnect ?_ rfl
  refine Begins.bind fun v => ?_
  exact Begins.frames (instances_framed hreconnect service v.2 v.1 v.1)

theorem services_framed (list : List String) (ret : Bool) :
    Framed env c ret [.services list]
      (list.foldlM (fun ret zkpath => do
        if ret then getService env reconnect c zkpath else return false) ret)
      fun _ _ => True := by
  induction list generalizing ret with
  | nil => exact Runs.frame (Begins.done trivial)
  | cons zkpath rest ih =>
      apply Runs.frame
      rw [List.foldlM_cons]
      cases ret with
      | true =>
          apply Begins.frames
          apply Runs.seq [Frame.op (.service zkpath)] _
            (getService_framed hreconnect zkpath true)
          intro a r' hr
          rw [hr]
          exact ih a
      | false => exact Begins.frames (ih false)

theorem getAllServices_framed (servicesRoot : String) (r : Bool) :
    Framed env c r [.op (.allServices servicesRoot)] (getAllServices env reconnect c servicesRoot)
      fun _ _ => True := by
  apply op_runs hreconnect ?_ trivial
  refine Begins.bind fun v => ?_
  exact Begins.frames (services_framed hreconnect v.2 v.1)

theorem createEnode_framed (absPath data : String) (r : Bool) :
    Framed env c r [.op (.enode absPath data)] (createEnode env reconnect c absPath data)
      fun _ _ => True := by
  apply op_runs hreconnect ?_ trivial
  rw [<- bind_pure (makeEnode env c absPath data)]
  apply Begins.bind
  intro _
  exact Begins.done trivial

theorem restore_framed (state : ZkState) (r : Bool) :
    Framed env c r (restoreFrames state) (restore env reconnect c state) fun _ _ => True := by
  unfold restore
  cases htype : state.type with
  | createEphereral =>
      have hframes : restoreFrames state = [.op (.enode state.path state.data)] := by
        simp [restoreFrames, htype]
      rw [hframes]
      exact Runs.ignore (createEnode_framed hreconnect state.path state.data r)
  | getService =>
      have hframes : restoreFrames state = [.op (.service state.path)] := by
        simp [restoreFrames, htype]
      rw [hframes]
      exact Runs.ignore (getService_framed hreconnect state.path r)
  | getServiceInstance =>
      exact Runs.ignore (getServiceInstanceAt_framed hreconnect state htype r)
  | getRoot =>
      have hframes : restoreFrames state = [.op (.allServices state.path)] := by
        simp [restoreFrames, htype]
      rw [hframes]
      exact Runs.ignore (getAllServices_framed hreconnect state.path r)

theorem takeOverStates_framed (list : List StatePtr) (r : Bool) :
    Framed env c r [.states list] (takeOverStates env reconnect c list) fun _ _ => True := by
  induction list generalizing r with
  | nil => exact Runs.frame (Begins.done trivial)
  | cons ptr rest ih =>
      apply Runs.frame
      unfold takeOverStates
      rw [List.forM_eq_forM, List.forM_cons, bind_assoc]
      refine Begins.bind fun state => ?_
      apply Begins.frames
      exact Runs.seq _ _ (restore_framed hreconnect state r) fun _ r' _ => ih r'

theorem restoreStates_framed (r : Bool) :
    Framed env c r [.restoreStates] (restoreStates env reconnect c) fun _ _ => True := by
  apply Runs.frame
  refine Begins.bind fun w => ?_
  apply Begins.frames
  apply Runs.seq [Frame.states (w.pool.stateBag_.getList c)] _
    (takeOverStates_framed hreconnect _ r)
  intro _ r' _
  apply Runs.frame
  refine Begins.bind fun v => ?_
  exact Begins.frames (takeOverStates_framed hreconnect _ r')

theorem check_framed (topZkPath : String) (r : Bool) :
    Framed env c r [.op (.check topZkPath)] (check env reconnect c topZkPath) fun _ _ => True := by
  apply op_runs hreconnect ?_ trivial
  refine Begins.bind fun w => ?_
  apply Begins.frames
  apply Runs.seq [Frame.states (w.pool.stateBag_.getList 0)] _
    (takeOverStates_framed hreconnect _ true)
  intro _ r' _
  apply Runs.frame
  exact Begins.bind fun _ => Begins.done trivial

end Operations

/-- The frames do what `connect_zk` does, however deep its reconnections are nested. -/
theorem connectZk_framed (depth : Nat) (r : Bool) :
    Framed env c r [.connect] (connectZk env depth c) fun _ _ => True := by
  induction depth generalizing r with
  | zero =>
      intro s stack
      exact fun hbad => absurd rfl hbad
  | succ depth ih =>
      apply Runs.frame
      unfold connectZk
      refine Begins.bind fun connected => ?_
      apply Begins.ite fun _ => Begins.done trivial
      intro _
      refine Begins.bind fun _ => Begins.bind fun connected => ?_
      apply Begins.ite
      · intro _
        refine Begins.bind fun _ => Begins.bind fun _ => ?_
        apply Begins.frames
        apply Runs.seq _ [] (restoreStates_framed ih r)
        exact fun _ _ _ => Runs.nil trivial
      · intro _
        exact Begins.bind fun _ => Begins.done trivial

end Runs

end ZkClient

end FrProxy
