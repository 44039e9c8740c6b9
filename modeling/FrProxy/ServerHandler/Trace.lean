import FrProxy.ServerHandler
import FrProxy.ZkClient.Trace

/-!
# The check, event by event

Between `open` and `close` a check consists of moves of its client, of events
of its own that leave the pool alone, and of readings of the clock.
-/

namespace FrProxy

inductive OwnMove (env : Env) : World -> World -> Prop where
  | event {w w' : World} (e : Event) (htrace : w'.trace = w.trace ++ [e])
      (hcache : w'.cache = e.onCache env w.cache) (hpool : w'.pool = w.pool) :
      OwnMove env w w'
  | clock {w w' : World} (htrace : w'.trace = w.trace) (hcache : w'.cache = w.cache)
      (hpool : w'.pool = w.pool) : OwnMove env w w'

inductive TaskMove (env : Env) (c : ClientId) : World -> World -> Prop where
  | client {w w' : World} (h : ClientMove env c w w') : TaskMove env c w w'
  | own {w w' : World} (h : OwnMove env w w') : TaskMove env c w w'

theorem OwnMove.pool_eq {env : Env} {w w' : World} (h : OwnMove env w w') :
    w'.pool = w.pool := by
  cases h with
  | event _ _ _ hpool => exact hpool
  | clock _ _ hpool => exact hpool

namespace ServerHandler

open Program

variable {env : Env} {depth : Nat} {c : ClientId}

theorem nowInMs_steps : Steps (OwnMove env) (nowInMs env) := by
  apply Steps.bind Steps.get
  intro w
  exact Steps.bind (Steps.modify fun _ => OwnMove.clock rfl rfl rfl) fun _ => Steps.pure _

theorem sleepMs_steps (ms : Nat) : Steps (OwnMove env) (sleepMs ms) :=
  Steps.bind (Steps.modify fun _ => OwnMove.clock rfl rfl rfl) fun _ =>
    Steps.modify fun _ => OwnMove.event .sleep rfl rfl rfl

theorem removeOverdue_steps (timestamp : Nat) :
    Steps (OwnMove env) (removeOverdue timestamp) :=
  Steps.modify fun _ => OwnMove.event (.purge timestamp) rfl rfl rfl

theorem fromFile_steps : Steps (OwnMove env) (fromFile env) := by
  unfold fromFile
  cases env.cacheFile with
  | none => exact Steps.pure _
  | some text =>
      apply Steps.bind Steps.get
      intro w
      dsimp only
      cases Registry.unserialize env.parse (env.clock (w.ticks + 0) + w.slept) text with
      | error stop => exact Steps.throw stop
      | ok v => exact Steps.modify fun _ => OwnMove.event (.load _) rfl rfl rfl

theorem loadIfEmpty_steps : Steps (OwnMove env) (loadIfEmpty env) :=
  Steps.bind Steps.get fun _ => Steps.ite fromFile_steps (Steps.pure _)

theorem scan_steps : Steps (TaskMove env c) (scan env depth c) := by
  have hown : forall {α : Type} {x : ZkM α}, Steps (OwnMove env) x ->
      Steps (TaskMove env c) x := fun hx => hx.mono fun _ _ => TaskMove.own
  apply Steps.bind (hown (sleepMs_steps 1))
  intro _
  apply Steps.bind (hown nowInMs_steps)
  intro now
  have hscan : Steps (ClientMove env c)
      (ZkClient.getAllServices env (ZkClient.connectZk env depth) c root) :=
    ZkClient.getAllServices_steps (ZkClient.connectZk_steps depth) root
  exact Steps.bind (hscan.mono fun _ _ => TaskMove.client) fun _ =>
    hown (removeOverdue_steps now)

theorem checkWith_steps : Steps (TaskMove env c) (checkWith env depth c) := by
  have hcheck : Steps (ClientMove env c)
      (ZkClient.check env (ZkClient.connectZk env depth) c root) :=
    ZkClient.check_steps (ZkClient.connectZk_steps depth) (ZkClient.zooGet_steps root)
  exact Steps.bind (hcheck.mono fun _ _ => TaskMove.client) fun _ =>
    Steps.ite scan_steps (loadIfEmpty_steps.mono fun _ _ => TaskMove.own)

end ServerHandler

end FrProxy
