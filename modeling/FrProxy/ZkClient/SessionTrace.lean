import FrProxy.Watcher
import FrProxy.ZkClient.Trace

/-!
# The session of a client, told from the events

A client has a session from an attempt that succeeded to the next answer that
tells it that the session is gone.
-/

namespace FrProxy

open Program

def Event.session : Event -> Bool -> Bool
  | .init ready, _ => ready
  | e, up => decide (e.rc ≠ zinvalidstate) && up

/-- Whether the client counts as connected after these events. -/
def sessionAfter (up : Bool) (events : List Event) : Bool :=
  events.foldl (fun up e => e.session up) up

theorem sessionAfter_append (up : Bool) (first second : List Event) :
    sessionAfter up (first ++ second) = sessionAfter (sessionAfter up first) second :=
  List.foldl_append

def Told (c : ClientId) (w w' : World) : Prop :=
  exists events, w'.trace = w.trace ++ events ∧
    w'.pool.getConnected c = sessionAfter (w.pool.getConnected c) events

theorem Told.refl (c : ClientId) (w : World) : Told c w w :=
  ⟨[], by simp, rfl⟩

theorem Told.trans {c : ClientId} {u v w : World} (huv : Told c u v) (hvw : Told c v w) :
    Told c u w := by
  rcases huv with ⟨first, htrace, hfirst⟩
  rcases hvw with ⟨second, htrace', hsecond⟩
  refine ⟨first ++ second, ?_, ?_⟩
  · rw [htrace', htrace, List.append_assoc]
  · rw [hsecond, hfirst, sessionAfter_append]

theorem Records.told {env : Env} {c : ClientId} {e : Event} {w w' : World}
    (h : Records env c e w w')
    (hcall : forall up, e.session up = (decide (e.rc ≠ zinvalidstate) && up)) : Told c w w' := by
  refine ⟨[e], h.trace, ?_⟩
  rw [h.pool, Event.getConnected_onPool]
  exact (hcall _).symm

theorem steps_of_told {c : ClientId} {α : Type} {x : ZkM α}
    (h : forall w a w', x w = Except.ok (a, w') -> Told c w w') : Steps (Told c) x :=
  fun w a w' hrun => Relation.ReflTransGen.single (h w a w' hrun)

namespace ZkClient

variable {env : Env} {c : ClientId}

theorem connectLoop_told (attempts : Nat) {w w' : World} {up : Bool}
    (hrun : connectLoop env attempts w = Except.ok (up, w')) :
    exists events, w'.trace = w.trace ++ events ∧ w'.pool = w.pool ∧
      sessionAfter false events = up := by
  induction attempts generalizing w with
  | zero =>
      cases hrun
      exact ⟨[], by simp, rfl, rfl⟩
  | succ attempts ih =>
      simp only [connectLoop, log, get_bind_run, modify_bind_run, ite_run, pure_run] at hrun
      cases hready : env.zookeeperInit w.trace.length with
      | true =>
          rw [if_pos hready] at hrun
          cases hrun
          exact ⟨[.init true], by rw [hready], rfl, rfl⟩
      | false =>
          rw [if_neg (by simp [hready])] at hrun
          rcases ih hrun with ⟨events, htrace, hpool, hup⟩
          refine ⟨.init false :: events, ?_, hpool, hup⟩
          rw [htrace, hready]
          simp

theorem getConnected_setConnected (p : ClientPool) (b : Bool) :
    (p.setConnected c b).getConnected c = b := by
  simp [ClientPool.getConnected, ClientPool.setConnected, ClientPool.updateClient]

theorem connect_told {x : ZkM Bool} (hx : Steps (Told c) x) : Steps (Told c) (do
    if <- getConnected c then return true
    else
      mapPool (·.setHandle c false)
      if <- connectLoop env 11 then
        mapPool (·.setHandle c true)
        mapPool (·.setConnected c true)
        x
      else
        mapPool (·.setConnected c false)
        return false) := by
  intro w a w' hrun
  simp only [getConnected, mapPool, bind_assoc, get_bind_run, pure_bind, ite_run,
    modify_bind_run] at hrun
  cases hdown : w.pool.getConnected c with
  | true =>
      rw [hdown] at hrun
      cases hrun
      exact Relation.ReflTransGen.refl
  | false =>
      rw [if_neg (by simp [hdown])] at hrun
      rcases bind_ok.mp hrun with ⟨up, v, hloop, hrest⟩
      rcases connectLoop_told 11 hloop with ⟨events, htrace, hpool, hup⟩
      have htold : forall p, p.getConnected c = up -> Told c w { v with pool := p } :=
        fun p hp => ⟨events, htrace, by rw [hdown, hup]; exact hp⟩
      cases up with
      | true =>
          simp only [if_true, modify_bind_run] at hrest
          have hconnected := htold ((v.pool.setHandle c true).setConnected c true)
            (getConnected_setConnected _ true)
          exact Relation.ReflTransGen.head hconnected (hx _ a w' hrest)
      | false =>
          simp only [Bool.false_eq_true, if_false, modify_bind_run, pure_run] at hrest
          cases hrest
          exact Relation.ReflTransGen.single
            (htold (v.pool.setConnected c false) (getConnected_setConnected _ false))

instance : CallMoves env c (Told c) where
  readInstance := by
    intro service node
    apply steps_of_told
    intro w a w' hrun
    rcases readInstance_records hrun with ⟨rc, data, mtime, h⟩
    exact h.told fun _ => rfl
  listService := by
    intro service
    apply steps_of_told
    intro w a w' hrun
    rcases listService_records hrun with ⟨rc, nodes, h, _⟩
    exact h.told fun _ => rfl
  listServices := by
    intro servicesRoot
    apply steps_of_told
    intro w a w' hrun
    rcases listServices_records hrun with ⟨rc, nodes, h, _⟩
    exact h.told fun _ => rfl
  takeOver := by
    intro ptr
    apply steps_of_told
    intro w a w' hrun
    have h : Records env c (.takeOver ptr.key) w w' := (takeOver_records hrun).left
    exact h.told fun _ => rfl
  makePnode := by
    intro absPath
    apply steps_of_told
    intro w a w' hrun
    exact (makePnode_records hrun).told fun _ => rfl
  makeEnode := by
    intro absPath data
    apply steps_of_told
    intro w a w' hrun
    rcases makeEnode_records hrun with ⟨v, hcreate, hwatch⟩
    exact (hcreate.told fun _ => rfl).trans (hwatch.told fun _ => rfl)
  refused := Steps.modify fun w => ⟨[.refused], rfl, rfl⟩
  connect := fun _ hx => connect_told hx

/-- What an operation records tells whether its client is connected afterwards. -/
theorem told_of_steps {α : Type} {x : ZkM α} (hx : Steps (Told c) x) {w w' : World} {a : α}
    (hrun : x w = Except.ok (a, w')) : Told c w w' :=
  hx.relates (Told.refl c) (fun _ _ _ => Told.trans) (fun _ _ => id) hrun

end ZkClient

theorem Watcher.reread_steps {env : Env} {depth : Nat} {M : World -> World -> Prop}
    (path : String) (c : ClientId) [ZkClient.CallMoves env c M] (watcher : Watcher) :
    Steps M (Watcher.reread env depth path c watcher) := by
  have hreconnect : Steps M (ZkClient.connectZk env depth c) := ZkClient.connectZk_steps depth
  cases watcher with
  | serviceInstance => exact ZkClient.getServiceInstance_steps hreconnect _ _
  | root => exact ZkClient.getAllServices_steps hreconnect path
  | service => exact ZkClient.getService_steps hreconnect path

end FrProxy
