import FrProxy.ZkClient.Frames
import FrProxy.ZkClient.Reconnect

/-!
# The states that the loops visit

The loop of `take_over_states` goes through a list of state objects that was made
before it started.  A read inside it, or inside a reconnection nested in it, may
delete one of them.
-/

namespace FrProxy

open Program

/-!
## State objects and events
-/

theorem next_le_onBag (c : ClientId) (e : Event) (bag : StateBag) :
    bag.next ≤ (e.onBag c bag).next := by
  have hadd : forall state : ZkState, bag.next ≤ (bag.add state).next := by
    intro state
    rw [StateBag.next_add]
    exact Nat.le_succ _
  cases e with
  | takeOver key => exact Nat.le_refl _
  | children type path rc nodes =>
      unfold Event.onBag
      dsimp only
      split
      · exact hadd _
      · exact hadd _
  | instance_ service node rc data mtime =>
      unfold Event.onBag
      dsimp only
      split
      · exact hadd _
      · exact hadd _
  | create path data rc =>
      unfold Event.onBag
      dsimp only
      split
      · exact hadd _
      · exact hadd _
  | _ => exact Nat.le_refl _

theorem isSome_deref_of_onBag {c : ClientId} {e : Event} {bag : StateBag} {ptr : StatePtr}
    (haddr : ptr.addr < bag.next) (h : ((e.onBag c bag).deref ptr).isSome = true) :
    (bag.deref ptr).isSome = true := by
  cases e with
  | takeOver key => exact (StateBag.isSome_deref_replaceClientIdOf _ _).mp h
  | children type path rc nodes =>
      unfold Event.onBag at h
      dsimp only at h
      split at h
      · exact StateBag.isSome_deref_of_add haddr (StateBag.isSome_deref_remove.mp h).right
      · exact StateBag.isSome_deref_of_add haddr h
  | instance_ service node rc data mtime =>
      unfold Event.onBag at h
      dsimp only at h
      split at h
      · exact StateBag.isSome_deref_of_add haddr (StateBag.isSome_deref_remove.mp h).right
      · exact StateBag.isSome_deref_of_add haddr h
  | create path data rc =>
      unfold Event.onBag at h
      dsimp only at h
      split at h
      · exact StateBag.isSome_deref_of_add haddr
          ((StateBag.isSome_deref_replaceClientIdOf _ _).mp h)
      · exact StateBag.isSome_deref_of_add haddr h
  | _ => exact h

def StateBag.Deleted (bag : StateBag) (ptr : StatePtr) : Prop :=
  ptr.addr < bag.next ∧ ¬ (bag.deref ptr).isSome = true

theorem StateBag.Deleted.onBag {c : ClientId} {bag : StateBag} {ptr : StatePtr}
    (h : bag.Deleted ptr) (e : Event) : (e.onBag c bag).Deleted ptr := by
  constructor
  · exact Nat.lt_of_lt_of_le h.left (next_le_onBag c e bag)
  · intro hthere
    exact h.right (isSome_deref_of_onBag h.left hthere)

theorem moves_replay {env : Env} {c : ClientId} {w w' : World}
    (h : Relation.ReflTransGen (ClientMove env c) w w') :
    exists es, w'.trace = w.trace ++ es ∧
      w'.pool.stateBag_ = replay c w.pool.stateBag_ es := by
  induction h with
  | refl => exact ⟨[], by simp, rfl⟩
  | tail _ hmove ih =>
      rcases ih with ⟨es, htrace, hbag⟩
      cases hmove with
      | event e he _ =>
          refine ⟨es ++ [e], ?_, ?_⟩
          · rw [he.trace, htrace, List.append_assoc]
          · rw [he.bag, hbag, replay_append]
            rfl
      | hangUp _ => exact ⟨es, htrace, hbag⟩
      | attach => exact ⟨es, htrace, hbag⟩
      | connect _ => exact ⟨es, htrace, hbag⟩
      | disconnect => exact ⟨es, htrace, hbag⟩

namespace ZkClient

open Frames

/-!
## Frames
-/

/-- The states that a loop has still to visit. -/
def Frame.waiting : Frame -> List StatePtr
  | states list => list
  | _ => []

def pending (stack : List Frame) : List StatePtr :=
  stack.flatMap Frame.waiting

theorem pending_append (frames stack : List Frame) :
    pending (frames ++ stack) = pending frames ++ pending stack :=
  List.flatMap_append

theorem pending_restoreFrames (state : ZkState) : pending (restoreFrames state) = [] := by
  unfold restoreFrames
  cases state.type with
  | getServiceInstance =>
      dsimp only
      cases splitPath state.path with
      | none => rfl
      | some parts => rfl
  | _ => rfl

theorem pending_restored (state : ZkState) (rest : List StatePtr) :
    pending (restoreFrames state ++ [.states rest]) = rest := by
  rw [pending_append, pending_restoreFrames]
  simp [pending, Frame.waiting]

section Bodies

variable {env : Env} {c : ClientId}

theorem Op.body_steps (o : Op) : Steps (ClientMove env c) (o.body env c) := by
  cases o with
  | serviceInstance service node =>
      exact Steps.bind (readInstance_steps service node) fun _ => Steps.pure _
  | service path => exact Steps.bind (listService_steps path) fun _ => Steps.pure _
  | allServices servicesRoot =>
      exact Steps.bind (listServices_steps servicesRoot) fun _ => Steps.pure _
  | enode absPath data => exact Steps.bind (makeEnode_steps absPath data) fun _ => Steps.pure _
  | check topZkPath => exact Steps.bind Steps.get fun _ => Steps.pure _

theorem Frame.body_steps (f : Frame) (r : Bool) :
    Steps (ClientMove env c) (f.body env c r) := by
  cases f with
  | op o =>
      refine Steps.bind getConnected_steps fun _ => Steps.ite o.body_steps ?_
      exact Steps.pure _
  | resume o =>
      refine Steps.bind getConnected_steps fun _ => Steps.bind hasHandle_steps fun _ => ?_
      apply Steps.ite o.body_steps
      refine Steps.bind (log_steps (fun _ => trivial) (fun _ => rfl) fun _ => rfl) fun _ => ?_
      exact Steps.pure _
  | connect =>
      apply hangUp_steps (Steps.pure _)
      refine Steps.bind (connectLoop_steps 11) fun _ => Steps.ite ?_ ?_
      · exact connect_steps (Steps.pure _)
      · exact Steps.bind disconnect_steps fun _ => Steps.pure _
  | restoreStates => exact Steps.bind Steps.get fun _ => Steps.pure _
  | free => exact Steps.bind Steps.get fun _ => Steps.pure _
  | states list =>
      cases list with
      | nil => exact Steps.pure _
      | cons ptr rest => exact Steps.bind (takeOver_steps ptr) fun _ => Steps.pure _
  | instances service nodes ret =>
      cases nodes with
      | nil => exact Steps.pure _
      | cons node nodes => exact Steps.pure _
  | services list =>
      cases list with
      | nil => exact Steps.pure _
      | cons zkpath rest => exact Steps.ite (Steps.pure _) (Steps.pure _)
  | probe topZkPath => exact Steps.bind (zooGet_steps topZkPath) fun _ => Steps.pure _

def Frame.creates : Frame -> String -> Prop
  | op (.enode absPath _), path => absPath = path
  | resume (.enode absPath _), path => absPath = path
  | _, _ => False

/--
What a frame does that visits no state: a loop that starts in its place visits the
states of the client or those without a client, and only a creation is about the
state of an ephemeral znode.
-/
structure Plain (c : ClientId) (creates : String -> Prop) (w w' : World) (frames : List Frame) :
    Prop where
  listed : forall ptr, ptr ∈ pending frames -> exists d, (d = c ∨ d = 0) ∧
    ptr ∈ w'.pool.stateBag_.getList d
  frames : forall f path, f ∈ frames -> f.creates path -> creates path
  events : forall e path, e ∈ happened w w' -> e.key = some (createKey path .createEphereral) ->
    creates path

theorem plain_of_events {creates : String -> Prop} {w w' : World} {frames : List Frame}
    (es : List Event) (htrace : w'.trace = w.trace ++ es) (hpending : pending frames = [])
    (hframes : forall f path, f ∈ frames -> f.creates path -> creates path)
    (hevents : forall e path, e ∈ es -> e.key = some (createKey path .createEphereral) ->
      creates path) : Plain c creates w w' frames where
  listed := by
    intro ptr hptr
    rw [hpending] at hptr
    cases hptr
  frames := hframes
  events := by
    intro e path he
    rw [happened_of_append htrace] at he
    exact hevents e path he

theorem plain_of_trace {creates : String -> Prop} {w w' : World} {frames : List Frame}
    (htrace : w'.trace = w.trace) (hpending : pending frames = [])
    (hframes : forall f path, f ∈ frames -> f.creates path -> creates path) :
    Plain c creates w w' frames :=
  plain_of_events [] (by rw [htrace, List.append_nil]) hpending hframes fun _ _ h =>
    absurd h List.not_mem_nil

theorem plain_of_event {creates : String -> Prop} {w w' : World} {frames : List Frame} {e : Event}
    (htrace : w'.trace = w.trace ++ [e]) (hpending : pending frames = [])
    (hframes : forall f path, f ∈ frames -> f.creates path -> creates path)
    (hevent : forall path, e.key ≠ some (createKey path .createEphereral)) :
    Plain c creates w w' frames := by
  apply plain_of_events [e] htrace hpending hframes
  intro e' path he' hkey
  rw [List.mem_singleton.mp he'] at hkey
  exact absurd hkey (hevent path)

theorem plain_of_list {creates : String -> Prop} {w : World} {d : ClientId} {rest : List Frame}
    (hd : d = c ∨ d = 0) (hpending : pending rest = [])
    (hrest : forall f path, f ∈ rest -> f.creates path -> creates path) :
    Plain c creates w w (.states (w.pool.stateBag_.getList d) :: rest) where
  listed := by
    intro ptr hptr
    have hcons : pending (.states (w.pool.stateBag_.getList d) :: rest) =
        w.pool.stateBag_.getList d ++ pending rest := List.flatMap_cons
    rw [hcons, hpending, List.append_nil] at hptr
    exact ⟨d, hd, hptr⟩
  frames := by
    intro f path hf hcreates
    rcases List.mem_cons.mp hf with rfl | hf
    · cases hcreates
    · exact hrest f path hf hcreates
  events := by
    intro e path he
    have hnone : happened w w = [] := happened_of_append (List.append_nil _).symm
    rw [hnone] at he
    cases he

theorem creates_nil {f : Frame} {path : String} {creates : String -> Prop} (hf : f ∈ [])
    (_ : f.creates path) : creates path :=
  absurd hf List.not_mem_nil

theorem creates_singleton {f g : Frame} {path : String} {creates : String -> Prop}
    (hg : g ∈ [f]) (hnone : forall path, ¬ f.creates path) (hcreates : g.creates path) :
    creates path := by
  rw [List.mem_singleton.mp hg] at hcreates
  exact absurd hcreates (hnone path)

theorem children_key_ne {type : ZkStateType} {path service : String} {rc : Int}
    {nodes : List String} (htype : type ≠ .createEphereral) :
    (Event.children type service rc nodes).key ≠ some (createKey path .createEphereral) := by
  intro h
  exact htype (createKey_inj (Option.some.inj h)).right

theorem Op.body_plain {o : Op} {w w' : World} {r : Bool} {frames : List Frame}
    (hrun : o.body env c w = Except.ok ((r, frames), w')) :
    Plain c (Frame.op o).creates w w' frames := by
  cases o with
  | check topZkPath =>
      cases hrun
      exact plain_of_list (Or.inr rfl) rfl fun _ _ hf => creates_singleton hf fun _ h => h
  | serviceInstance service node =>
      rcases bind_ok.mp hrun with ⟨ret, v, hread, hpure⟩
      rcases readInstance_records hread with ⟨rc, data, mtime, hrecords⟩
      cases hpure
      apply plain_of_event hrecords.trace rfl (fun _ _ => creates_nil)
      intro path h
      exact createKey_ne (by decide) (Option.some.inj h)
  | service path =>
      rcases bind_ok.mp hrun with ⟨a, v, hread, hpure⟩
      rcases listService_records hread with ⟨rc, nodes, hrecords, _⟩
      cases hpure
      exact plain_of_event hrecords.trace rfl (fun _ _ hf => creates_singleton hf fun _ h => h)
        fun _ => children_key_ne (by decide)
  | allServices servicesRoot =>
      rcases bind_ok.mp hrun with ⟨a, v, hread, hpure⟩
      rcases listServices_records hread with ⟨rc, nodes, hrecords, _⟩
      cases hpure
      exact plain_of_event hrecords.trace rfl (fun _ _ hf => creates_singleton hf fun _ h => h)
        fun _ => children_key_ne (by decide)
  | enode absPath data =>
      rcases bind_ok.mp hrun with ⟨rc, v, hmake, hpure⟩
      rcases makeEnode_records hmake with ⟨u, hcreate, hwatch⟩
      cases hpure
      have htrace : w'.trace = w.trace ++ [.create absPath data rc, .watch absPath] := by
        rw [hwatch.trace, hcreate.trace]
        simp
      apply plain_of_events _ htrace rfl (fun _ _ => creates_nil)
      intro e path he hkey
      simp only [List.mem_cons, List.not_mem_nil, or_false] at he
      rcases he with rfl | rfl
      · exact (createKey_inj (Option.some.inj hkey)).left
      · cases hkey

theorem connectLoop_events {attempts : Nat} {w w' : World} {b : Bool}
    (hrun : connectLoop env attempts w = Except.ok (b, w')) :
    exists es, w'.trace = w.trace ++ es ∧ forall e, e ∈ es -> exists ready, e = .init ready := by
  induction attempts generalizing w with
  | zero =>
      cases hrun
      exact ⟨[], by simp, fun e he => absurd he List.not_mem_nil⟩
  | succ attempts ih =>
      simp only [connectLoop, log, get_bind_run, modify_bind_run, ite_run, pure_run] at hrun
      by_cases hready : env.zookeeperInit w.trace.length = true
      · rw [if_pos hready] at hrun
        cases hrun
        refine ⟨[.init true], by simp [hready], ?_⟩
        intro e he
        exact ⟨true, List.mem_singleton.mp he⟩
      · rw [if_neg hready] at hrun
        rcases ih hrun with ⟨es, htrace, hes⟩
        refine ⟨.init (env.zookeeperInit w.trace.length) :: es, by simp [htrace], ?_⟩
        intro e he
        rcases List.mem_cons.mp he with rfl | he
        · exact ⟨_, rfl⟩
        · exact hes e he

theorem Frame.op_plain {o : Op} {r r' : Bool} {w w' : World} {frames : List Frame}
    (hrun : (Frame.op o).body env c r w = Except.ok ((r', frames), w')) :
    Plain c (Frame.op o).creates w w' frames := by
  simp only [Frame.body, getConnected, bind_assoc, get_bind_run, pure_bind, ite_run] at hrun
  split at hrun
  · exact Op.body_plain hrun
  · cases hrun
    apply plain_of_trace rfl rfl
    intro f path hf hcreates
    rcases List.mem_cons.mp hf with rfl | hf
    · cases hcreates
    · rw [List.mem_singleton.mp hf] at hcreates
      cases o with
      | enode absPath data => exact hcreates
      | _ => cases hcreates

theorem Frame.resume_plain {o : Op} {r r' : Bool} {w w' : World} {frames : List Frame}
    (hrun : (Frame.resume o).body env c r w = Except.ok ((r', frames), w')) :
    Plain c (Frame.resume o).creates w w' frames := by
  have hsame : (Frame.resume o).creates = (Frame.op o).creates := by
    cases o with
    | _ => rfl
  rw [hsame]
  simp only [Frame.body, getConnected, hasHandle, log, bind_assoc, get_bind_run, pure_bind,
    ite_run, modify_bind_run, pure_run] at hrun
  split at hrun
  · exact Op.body_plain hrun
  · cases hrun
    exact plain_of_event rfl rfl (fun _ _ => creates_nil) fun _ => (Option.some_ne_none _).symm

theorem Frame.connect_plain {r r' : Bool} {w w' : World} {frames : List Frame}
    (hrun : Frame.connect.body env c r w = Except.ok ((r', frames), w')) :
    Plain c Frame.connect.creates w w' frames := by
  simp only [Frame.body, getConnected, mapPool, bind_assoc, get_bind_run, pure_bind, ite_run,
    modify_bind_run, pure_run] at hrun
  split at hrun
  · cases hrun
    exact plain_of_trace rfl rfl fun _ _ => creates_nil
  · rcases bind_ok.mp hrun with ⟨b, v, hloop, hrest⟩
    rcases connectLoop_events hloop with ⟨es, htrace, hes⟩
    have hkeys : forall e path, e ∈ es -> e.key = some (createKey path .createEphereral) ->
        Frame.connect.creates path := by
      intro e path he hkey
      rcases hes e he with ⟨ready, rfl⟩
      cases hkey
    cases b with
    | true =>
        cases hrest
        exact plain_of_events es htrace rfl (fun _ _ hf => creates_singleton hf fun _ h => h) hkeys
    | false =>
        cases hrest
        exact plain_of_events es htrace rfl (fun _ _ => creates_nil) hkeys

theorem Frame.body_cases {f : Frame} {r r' : Bool} {w w' : World} {frames : List Frame}
    (hrun : f.body env c r w = Except.ok ((r', frames), w')) :
    (exists ptr rest state, f = .states (ptr :: rest) ∧
      w.pool.stateBag_.deref ptr = some state ∧ Records env c (.takeOver ptr.key) w w' ∧
      frames = restoreFrames state ++ [.states rest]) ∨
    (f.waiting = [] ∧ Plain c f.creates w w' frames) := by
  cases f with
  | op o => exact Or.inr ⟨rfl, Frame.op_plain hrun⟩
  | resume o => exact Or.inr ⟨rfl, Frame.resume_plain hrun⟩
  | connect => exact Or.inr ⟨rfl, Frame.connect_plain hrun⟩
  | restoreStates =>
      cases hrun
      refine Or.inr ⟨rfl, plain_of_list (Or.inl rfl) rfl ?_⟩
      exact fun _ _ hf => creates_singleton hf fun _ h => h
  | free =>
      cases hrun
      exact Or.inr ⟨rfl, plain_of_list (Or.inr rfl) rfl fun _ _ => creates_nil⟩
  | states list =>
      cases list with
      | nil =>
          cases hrun
          exact Or.inr ⟨rfl, plain_of_trace rfl rfl fun _ _ => creates_nil⟩
      | cons ptr rest =>
          rcases bind_ok.mp hrun with ⟨state, v, htakeOver, hpure⟩
          rcases takeOver_records htakeOver with ⟨hrecords, hderef⟩
          cases hpure
          exact Or.inl ⟨ptr, rest, state, rfl, hderef, hrecords, rfl⟩
  | instances service nodes ret =>
      refine Or.inr ⟨rfl, ?_⟩
      cases nodes with
      | nil =>
          cases hrun
          exact plain_of_trace rfl rfl fun _ _ => creates_nil
      | cons node nodes =>
          cases hrun
          apply plain_of_trace rfl rfl
          intro f path hf
          rcases List.mem_cons.mp hf with rfl | hf
          · exact fun h => h
          · exact creates_singleton hf fun _ h => h
  | services list =>
      refine Or.inr ⟨rfl, ?_⟩
      cases list with
      | nil =>
          cases hrun
          exact plain_of_trace rfl rfl fun _ _ => creates_nil
      | cons zkpath rest =>
          cases r with
          | true =>
              cases hrun
              apply plain_of_trace rfl rfl
              intro f path hf
              rcases List.mem_cons.mp hf with rfl | hf
              · exact fun h => h
              · exact creates_singleton hf fun _ h => h
          | false =>
              cases hrun
              exact plain_of_trace rfl rfl fun _ _ hf => creates_singleton hf fun _ h => h
  | probe topZkPath =>
      refine Or.inr ⟨rfl, ?_⟩
      rcases bind_ok.mp hrun with ⟨rc, v, hget, hpure⟩
      have hrecords := zooGet_records hget
      cases hpure
      exact plain_of_event hrecords.trace rfl (fun _ _ => creates_nil) fun _ =>
        (Option.some_ne_none _).symm

/-!
## Where a program can use a deleted state
-/

/-- A program that uses no state object. -/
abbrev Safe {α : Type} (x : ZkM α) : Prop :=
  Avoids (fun stop => stop = Stop.dangling) (fun _ => True) x fun _ _ => True

theorem safe_of_returns {α : Type} {x : ZkM α} (h : forall w, exists a w', x w = Except.ok (a, w')) :
    Safe x := by
  apply Avoids.of_returns
  intro w _
  rcases h w with ⟨a, w', hrun⟩
  exact ⟨a, w', hrun, trivial⟩

theorem readInstance_safe (service node : String) : Safe (readInstance env c service node) := by
  refine Avoids.bind (Q := fun _ _ => True)
    (safe_of_returns fun w => ⟨_, _, rfl⟩) fun answer => ?_
  refine Avoids.bind (Q := fun _ _ => True) (safe_of_returns fun w => ⟨_, _, rfl⟩) fun _ => ?_
  apply Avoids.ite
  · intro _
    cases hread : env.readEndpoint answer.2.1.data with
    | error stop =>
        apply Avoids.throw
        intro hstop
        exact env.readEndpoint_ne_error (by decide) (by decide) _ (hstop ▸ hread)
    | ok endpoint => exact safe_of_returns fun w => ⟨_, _, rfl⟩
  intro _
  apply Avoids.ite fun _ => safe_of_returns fun w => ⟨_, _, rfl⟩
  intro _
  apply Avoids.ite fun _ => safe_of_returns fun w => ⟨_, _, rfl⟩
  exact fun _ => return_avoids true

theorem listService_safe (path : String) : Safe (listService env c path) := by
  refine Avoids.bind (Q := fun _ _ => True)
    (safe_of_returns fun w => ⟨_, _, rfl⟩) fun answer => ?_
  refine Avoids.bind (Q := fun _ _ => True) (safe_of_returns fun w => ⟨_, _, rfl⟩) fun _ => ?_
  apply Avoids.ite
  · intro _
    apply Avoids.ite
    · exact fun _ => safe_of_returns fun w => ⟨_, _, rfl⟩
    · exact fun _ => return_avoids _
  intro _
  apply Avoids.ite fun _ => safe_of_returns fun w => ⟨_, _, rfl⟩
  intro _
  apply Avoids.ite fun _ => safe_of_returns fun w => ⟨_, _, rfl⟩
  exact fun _ => return_avoids _

theorem listServices_safe (servicesRoot : String) : Safe (listServices env c servicesRoot) := by
  refine Avoids.bind (Q := fun _ _ => True)
    (safe_of_returns fun w => ⟨_, _, rfl⟩) fun answer => ?_
  refine Avoids.bind (Q := fun _ _ => True) (safe_of_returns fun w => ⟨_, _, rfl⟩) fun _ => ?_
  apply Avoids.ite fun _ => return_avoids _
  intro _
  apply Avoids.ite fun _ => safe_of_returns fun w => ⟨_, _, rfl⟩
  exact fun _ => return_avoids _

theorem makeEnode_safe (absPath data : String) : Safe (makeEnode env c absPath data) := by
  refine Avoids.bind (Q := fun _ _ => True) (safe_of_returns fun w => ⟨_, _, rfl⟩) fun rc => ?_
  refine Avoids.bind (Q := fun _ _ => True) (safe_of_returns fun w => ⟨_, _, rfl⟩) fun _ => ?_
  apply Avoids.ite fun _ => safe_of_returns fun w => ⟨_, _, rfl⟩
  intro _
  apply Avoids.ite
  · exact fun _ => safe_of_returns fun w => ⟨_, _, rfl⟩
  · exact fun _ => safe_of_returns fun w => ⟨_, _, rfl⟩

theorem connectLoop_safe (attempts : Nat) : Safe (connectLoop env attempts) := by
  induction attempts with
  | zero => exact return_avoids false
  | succ attempts ih =>
      refine Avoids.bind (Q := fun _ _ => True) (Avoids.get fun _ _ => trivial) fun w => ?_
      refine Avoids.bind (Q := fun _ _ => True) (Avoids.modify fun _ _ => trivial) fun _ => ?_
      exact Avoids.ite (fun _ => return_avoids true) fun _ => ih

theorem Op.body_safe (o : Op) : Safe (o.body env c) := by
  cases o with
  | serviceInstance service node =>
      exact Avoids.bind (readInstance_safe service node) fun _ => return_avoids _
  | service path => exact Avoids.bind (listService_safe path) fun _ => return_avoids _
  | allServices servicesRoot =>
      exact Avoids.bind (listServices_safe servicesRoot) fun _ => return_avoids _
  | enode absPath data => exact Avoids.bind (makeEnode_safe absPath data) fun _ => return_avoids _
  | check topZkPath => exact safe_of_returns fun w => ⟨_, _, rfl⟩

/-- Only a loop over states can use one that was deleted: the one that it visits. -/
theorem Frame.body_dangling {f : Frame} {r : Bool} {w : World}
    (hrun : f.body env c r w = Except.error Stop.dangling) :
    exists ptr rest, f = .states (ptr :: rest) ∧ w.pool.stateBag_.deref ptr = none := by
  have hunsafe : ¬ Safe (f.body env c r) := fun hsafe => hsafe.run trivial rfl hrun
  have hasked : forall g : World -> Bool, Safe (do return g (<- get) : ZkM Bool) :=
    fun g => asked_avoids g
  cases f with
  | op o =>
      refine absurd ?_ hunsafe
      refine Avoids.bind (hasked _) fun _ => Avoids.ite (fun _ => o.body_safe) fun _ => ?_
      exact return_avoids _
  | resume o =>
      refine absurd ?_ hunsafe
      refine Avoids.bind (hasked _) fun _ => Avoids.bind (hasked _) fun _ => ?_
      apply Avoids.ite fun _ => o.body_safe
      exact fun _ => safe_of_returns fun w => ⟨_, _, rfl⟩
  | connect =>
      refine absurd ?_ hunsafe
      refine Avoids.bind (hasked _) fun _ => Avoids.ite (fun _ => return_avoids _) fun _ => ?_
      refine Avoids.bind (Q := fun _ _ => True) (Avoids.modify fun _ _ => trivial) fun _ => ?_
      refine Avoids.bind (connectLoop_safe 11) fun _ => Avoids.ite ?_ ?_
      · exact fun _ => safe_of_returns fun w => ⟨_, _, rfl⟩
      · exact fun _ => safe_of_returns fun w => ⟨_, _, rfl⟩
  | restoreStates => cases hrun
  | free => cases hrun
  | states list =>
      cases list with
      | nil => cases hrun
      | cons ptr rest =>
          refine ⟨ptr, rest, rfl, ?_⟩
          cases hderef : w.pool.stateBag_.deref ptr with
          | none => rfl
          | some state =>
              simp only [Frame.body, takeOver, get_bind_run, bind_assoc, hderef, log, mapBag,
                mapPool, modify_bind_run, pure_bind, pure_run] at hrun
              cases hrun
  | instances service nodes ret =>
      cases nodes with
      | nil => cases hrun
      | cons node nodes => cases hrun
  | services list =>
      cases list with
      | nil => cases hrun
      | cons zkpath rest =>
          cases r with
          | true => cases hrun
          | false => cases hrun
  | probe topZkPath => cases hrun

end Bodies

/-!
## What a step does to the states that are left
-/

abbrev Running : Type :=
  Config World Bool Frame

/-- No event of a step deletes a state that a loop has still to visit. -/
def Spares (s t : Running) : Prop :=
  forall e, e ∈ happened s.state t.state -> forall ptr, ptr ∈ pending s.stack ->
    e.removed ≠ some ptr.key

/-- All states that the loops have still to visit are in the bag. -/
def Alive (s : Running) : Prop :=
  forall ptr, ptr ∈ pending s.stack -> (s.state.pool.stateBag_.deref ptr).isSome = true

section Step

variable {env : Env} {c : ClientId} {s t : Running}

/-- A state that is left after a step was left before it, or was just listed. -/
theorem pending_step (hstep : Step (Frame.body env c) s t) {ptr : StatePtr}
    (hptr : ptr ∈ pending t.stack) :
    ptr ∈ pending s.stack ∨ (t.state.pool.stateBag_.deref ptr).isSome = true := by
  cases hstep with
  | @frame f stack frames w w' r r' hbody =>
      dsimp only at hptr ⊢
      rw [pending_append, List.mem_append] at hptr
      have hcons : pending (f :: stack) = f.waiting ++ pending stack := List.flatMap_cons
      rw [hcons, List.mem_append]
      rcases hptr with hnew | hold
      · rcases Frame.body_cases hbody with ⟨p, rest, state, rfl, _, _, rfl⟩ | ⟨_, hplain⟩
        · rw [pending_restored] at hnew
          exact Or.inl (Or.inl (List.mem_cons_of_mem p hnew))
        · rcases hplain.listed ptr hnew with ⟨d, _, hmem⟩
          exact Or.inr (getList_there hmem)
      · exact Or.inl (Or.inr hold)

theorem events_step (hstep : Step (Frame.body env c) s t) :
    t.state.pool.stateBag_ = replay c s.state.pool.stateBag_ (happened s.state t.state) := by
  cases hstep with
  | @frame f stack frames w w' r r' hbody =>
      rcases moves_replay (f.body_steps r _ _ _ hbody) with ⟨es, htrace, hbag⟩
      dsimp only
      rw [happened_of_append htrace]
      exact hbag

theorem alive_step (hstep : Step (Frame.body env c) s t) (hspares : Spares s t) (h : Alive s) :
    Alive t := by
  intro ptr hptr
  rcases pending_step hstep hptr with hold | hthere
  · rw [events_step hstep]
    apply replay_keeps (I := fun bag => (bag.deref ptr).isSome = true)
    · intro e bag he
      exact isSome_deref_onBag c (hspares e he ptr hold)
    · exact h ptr hold
  · exact hthere

theorem pending_after (hstep : Step (Frame.body env c) s t) {ptr : StatePtr}
    (hptr : ptr ∈ pending s.stack) :
    ptr ∈ pending t.stack ∨
    ((s.state.pool.stateBag_.deref ptr).isSome = true ∧
      happened s.state t.state = [.takeOver ptr.key]) := by
  cases hstep with
  | @frame f stack frames w w' r r' hbody =>
      dsimp only at hptr ⊢
      have hcons : pending (f :: stack) = f.waiting ++ pending stack := List.flatMap_cons
      rw [hcons, List.mem_append] at hptr
      rw [pending_append, List.mem_append]
      rcases hptr with hvisited | hbelow
      · rcases Frame.body_cases hbody with
          ⟨p, rest, state, rfl, hderef, hrecords, rfl⟩ | ⟨hnone, _⟩
        · rw [pending_restored]
          rcases List.mem_cons.mp hvisited with rfl | hmem
          · refine Or.inr ⟨?_, happened_of_append hrecords.trace⟩
            rw [hderef]
            rfl
          · exact Or.inl (Or.inl hmem)
        · rw [hnone] at hvisited
          cases hvisited
      · exact Or.inl (Or.inr hbelow)

/-- A loop has still to visit a state that was deleted. -/
def Doomed (s : Running) : Prop :=
  exists ptr, ptr ∈ pending s.stack ∧ s.state.pool.stateBag_.Deleted ptr

theorem doomed_step (hstep : Step (Frame.body env c) s t) (h : Doomed s) : Doomed t := by
  rcases h with ⟨ptr, hptr, hdeleted⟩
  rcases pending_after hstep hptr with hleft | ⟨hthere, _⟩
  · refine ⟨ptr, hleft, ?_⟩
    rw [events_step hstep]
    exact replay_keeps (I := fun bag => bag.Deleted ptr) (fun e _ _ hbag => hbag.onBag e) hdeleted
  · exact absurd hthere hdeleted.right

/-- A step that deletes a state that is left leaves a loop with a deleted state. -/
theorem doomed_of_not_spares (hstep : Step (Frame.body env c) s t) (halive : Alive s)
    (h : ¬ Spares s t) : Doomed t := by
  unfold Spares at h
  push Not at h
  rcases h with ⟨e, he, ptr, hptr, hremoved⟩
  have haddr := StateBag.addrOf_lt (StateBag.isSome_deref.mp (halive ptr hptr))
  have hdeleted : t.state.pool.stateBag_.Deleted ptr := by
    rw [events_step hstep]
    apply replay_establishes (I := fun bag => bag.Deleted ptr)
      (J := fun bag => ptr.addr < bag.next) (fun e _ _ hbag => hbag.onBag e) ?_ he ?_ haddr
    · exact fun e bag _ hbag => Nat.lt_of_lt_of_le hbag (next_le_onBag c e bag)
    · intro bag hbag
      refine ⟨Nat.lt_of_lt_of_le hbag (next_le_onBag c e bag), ?_⟩
      intro hthere
      rcases Option.isSome_iff_exists.mp hthere with ⟨state, hderef⟩
      have hget := StateBag.get_of_deref hderef
      rw [get_onBag_removed hremoved] at hget
      cases hget
  rcases pending_after hstep hptr with hleft | ⟨_, htaken⟩
  · exact ⟨ptr, hleft, hdeleted⟩
  · rw [htaken, List.mem_singleton] at he
    subst he
    cases hremoved

end Step

/-!
## Whole runs
-/

/-- The calls that replay the states. -/
inductive Entry where
  | connectZk
  | restoreStates
  | check (topZkPath : String)

namespace Entry

def frame : Entry -> Frame
  | connectZk => .connect
  | restoreStates => .restoreStates
  | check topZkPath => .op (.check topZkPath)

/-- The call, with so many reconnections nested in it at most. -/
def run (env : Env) (depth : Nat) (c : ClientId) : Entry -> ZkM PUnit
  | connectZk => do
      let _ <- ZkClient.connectZk env depth c
  | restoreStates => ZkClient.restoreStates env (ZkClient.connectZk env depth) c
  | check topZkPath => do
      let _ <- ZkClient.check env (ZkClient.connectZk env depth) c topZkPath

def start (entry : Entry) (w : World) : Running where
  state := w
  stack := [entry.frame]
  register := false

/-- In every state of the run the loop that is on top visits a state of the bag. -/
def VisitsBag (entry : Entry) (env : Env) (c : ClientId) (w : World) : Prop :=
  forall s ptr rest stack, Reaches (Frame.body env c) (entry.start w) s ->
    s.stack = .states (ptr :: rest) :: stack ->
    (s.state.pool.stateBag_.deref ptr).isSome = true

/-- In no step of the run a read is answered so that a state is deleted that a loop has still to visit. -/
def Spared (entry : Entry) (env : Env) (c : ClientId) (w : World) : Prop :=
  forall s t, Reaches (Frame.body env c) (entry.start w) s -> Step (Frame.body env c) s t ->
    Spares s t

variable {env : Env} {c : ClientId}

theorem run_framed (entry : Entry) (depth : Nat) :
    Framed env c false [entry.frame] (entry.run env depth c) fun _ _ => True := by
  cases entry with
  | connectZk => exact Runs.ignore (connectZk_framed depth false)
  | restoreStates => exact restoreStates_framed (connectZk_framed depth) false
  | check topZkPath => exact Runs.ignore (check_framed (connectZk_framed depth) topZkPath false)

theorem alive_start (entry : Entry) (w : World) : Alive (entry.start w) := by
  intro ptr hptr
  cases entry with
  | connectZk => cases hptr
  | restoreStates => cases hptr
  | check topZkPath => cases hptr

theorem visitsBag_of_spared {entry : Entry} {w : World} (h : entry.Spared env c w) :
    entry.VisitsBag env c w := by
  intro s ptr rest stack hreach hstack
  have halive : Alive s := hreach.keeps
    (fun t u ht hstep hkept => alive_step hstep (h t u ht hstep) hkept) (alive_start entry w)
  apply halive
  rw [hstack]
  exact List.mem_append_left _ List.mem_cons_self

theorem not_visitsBag_of_dangling {entry : Entry} {depth : Nat} {w : World}
    (h : entry.run env depth c w = Except.error Stop.dangling) : ¬ entry.VisitsBag env c w := by
  intro hvisits
  rcases (run_framed entry depth).stops h (by decide) with ⟨s, hreach, f, stack, hstack, hbody⟩
  rcases Frame.body_dangling hbody with ⟨ptr, rest, rfl, hnone⟩
  have hthere := hvisits s ptr rest stack hreach hstack
  rw [hnone] at hthere
  cases hthere

theorem spared_of_returns {entry : Entry} {depth : Nat} {w w' : World}
    (h : entry.run env depth c w = Except.ok (⟨⟩, w')) : entry.Spared env c w := by
  rcases (run_framed entry depth).returns h with ⟨r, _, hend⟩
  have hlast : forall s, ¬ Step (Frame.body env c) ⟨w', [], r⟩ s := by
    intro s hstep
    cases hstep
  have hnotDoomed : forall s, Reaches (Frame.body env c) (entry.start w) s -> ¬ Doomed s := by
    intro s hs hdoomed
    have hrest := hs.before_end hend hlast
    rcases hrest.keeps (fun t u _ hstep => doomed_step hstep) hdoomed with ⟨ptr, hptr, _⟩
    cases hptr
  have halive : forall s, Reaches (Frame.body env c) (entry.start w) s -> Alive s := by
    intro s hs
    apply hs.keeps ?_ (alive_start entry w)
    intro t u ht hstep hkept
    apply alive_step hstep ?_ hkept
    by_contra hspares
    exact hnotDoomed u (ht.tail hstep) (doomed_of_not_spares hstep hkept hspares)
  intro s t hs hstep
  by_contra hspares
  exact hnotDoomed t (hs.tail hstep) (doomed_of_not_spares hstep (halive s hs) hspares)

/--
A run whose answers delete no state that a loop has still to visit visits states of
the bag only, and the call does not stop for a deleted one.  A call that returns
got no such answer.
-/
theorem visits_bag_of_spared (entry : Entry) (env : Env) (c : ClientId) (w : World) :
    (entry.Spared env c w -> entry.VisitsBag env c w ∧
      forall depth, entry.run env depth c w ≠ Except.error Stop.dangling) ∧
    forall depth w', entry.run env depth c w = Except.ok (⟨⟩, w') -> entry.Spared env c w := by
  constructor
  · intro hspared
    have hvisits := visitsBag_of_spared hspared
    exact ⟨hvisits, fun _ hrun => not_visitsBag_of_dangling hrun hvisits⟩
  · intro depth w' hrun
    exact spared_of_returns hrun

section Example

/-- The session is lost in the first read, and the last service is gone when it is read again. -/
private def serviceGone : Env where
  parse := fun _ => none
  zookeeperInit := fun _ => true
  zooWgetChildren := fun n _ =>
    if n = 2 then (zinvalidstate, []) else if n = 10 then (znonode, []) else (zok, [])
  zooWget := fun _ _ => (zok, {})
  zooCreate := fun _ _ => zok
  zooGet := fun _ _ => zok
  clock := fun _ => 10
  cacheFile := none

/-- The first client watches three services, and has no session. -/
private def threeServices : World where
  pool := {
    ClientPool.start id with
    stateBag_ :=
      ((StateBag.empty.add { clientId := 1, type := .getService, path := "/soa/services/a" }).add
        { clientId := 1, type := .getService, path := "/soa/services/b" }).add
        { clientId := 1, type := .getService, path := "/soa/services/c" } }
  cache := RegistryCache.empty
  trace := []
  ticks := 0
  slept := 0

private def stopOf (x : ZkM PUnit) (w : World) : Option Stop :=
  match x w with
  | .ok _ => none
  | .error stop => some stop

private theorem run_stopOf {x : ZkM PUnit} {w : World} {stop : Stop} (h : stopOf x w = some stop) :
    x w = Except.error stop := by
  unfold stopOf at h
  cases hrun : x w with
  | ok v =>
      rw [hrun] at h
      cases h
  | error other =>
      rw [hrun] at h
      rw [Option.some.inj h]

private theorem run_of_stopOf {x : ZkM PUnit} {w : World} (h : stopOf x w = none) :
    exists w', x w = Except.ok (⟨⟩, w') := by
  unfold stopOf at h
  cases hrun : x w with
  | ok v => exact ⟨v.2, rfl⟩
  | error other =>
      rw [hrun] at h
      cases h

/-- The services are read again in a session that goes on. -/
theorem three_services_visited :
    connectZk.VisitsBag { serviceGone with zooWgetChildren := fun _ _ => (zok, []) } 1
      threeServices := by
  rcases run_of_stopOf (x := connectZk.run { serviceGone with
    zooWgetChildren := fun _ _ => (zok, []) } 1 1) (w := threeServices) (by decide +kernel) with
    ⟨w', hrun⟩
  have h := visits_bag_of_spared connectZk
    { serviceGone with zooWgetChildren := fun _ _ => (zok, []) } 1 threeServices
  exact (h.left (h.right 1 w' hrun)).left

/-- The nested reconnection deletes the state of the third service under the outer loop. -/
theorem nested_reconnection_deletes :
    ¬ forall (entry : Entry) (env : Env) (c : ClientId) (w : World), entry.VisitsBag env c w := by
  intro h
  have hrun : connectZk.run serviceGone 2 1 threeServices = Except.error Stop.dangling :=
    run_stopOf (by decide +kernel)
  exact not_visitsBag_of_dangling hrun (h connectZk serviceGone 1 threeServices)

end Example

end Entry

end ZkClient

end FrProxy
