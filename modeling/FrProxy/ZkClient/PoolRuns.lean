import FrProxy.ClientPool.System
import FrProxy.ServerHandler.Trace
import FrProxy.Watcher
import FrProxy.ZkClient.SessionTrace

/-!
# The tasks as callers of the pool

The check and the watchers are callers in the sense of `PoolSystem`: each of
them is a run of its steps, with the operations of the borrowed client between
`open` and `close`.
-/

namespace FrProxy

namespace PoolSystem

def Leads (s s' : PoolSystem) : Prop :=
  Relation.ReflTransGen (fun t t' => exists a, step t a = some t') s s'

theorem Leads.refl (s : PoolSystem) : Leads s s :=
  Relation.ReflTransGen.refl

theorem Leads.trans {s t u : PoolSystem} (hst : Leads s t) (htu : Leads t u) : Leads s u :=
  Relation.ReflTransGen.trans hst htu

theorem Leads.of_step {s s' : PoolSystem} (a : PoolAction) (h : step s a = some s') :
    Leads s s' :=
  Relation.ReflTransGen.single ⟨a, h⟩

def withPool (s : PoolSystem) (p : ClientPool) : PoolSystem :=
  { s with pool := p }

theorem sound_leads {s s' : PoolSystem} (h : Leads s s') (hs : Sound s) : Sound s' := by
  induction h with
  | refl => exact hs
  | tail _ hstep ih =>
      rcases hstep with ⟨a, ha⟩
      exact sound_step ha ih

/-!
## Operations of a borrowed client
-/

section Operations

variable {s : PoolSystem} {c : ClientId}

theorem leads_saveState (hc : c ∈ s.outstanding) (type : ZkStateType) (path data : String) :
    Leads s (s.mapBag (·.add { clientId := c, type, path, data })) := by
  apply Leads.of_step (.saveState c type path data)
  simp [step, hc]

theorem leads_removeState (key : String) : Leads s (s.mapBag (·.remove key)) :=
  Leads.of_step (.removeState key) rfl

theorem leads_freeState (key : String) :
    Leads s (s.mapBag (·.replaceClientIdOf key 0)) :=
  Leads.of_step (.freeState key) rfl

theorem leads_onBag (hc : c ∈ s.outstanding) (e : Event) :
    Leads s (s.mapBag (e.onBag c)) := by
  cases e with
  | takeOver key =>
      apply Leads.of_step (.takeOver c key)
      show step s (.takeOver c key) = some (s.mapBag (·.replaceClientIdOf key c))
      simp [step, hc]
  | children type path rc nodes =>
      have hsave := leads_saveState hc type path ""
      unfold Event.onBag
      by_cases hgone : type = .getService ∧ rc = znonode
      · simp only [hgone, and_self, if_true]
        exact (hgone.left ▸ hsave).trans (leads_removeState _)
      · simp only [hgone, if_false]
        exact hsave
  | instance_ service node rc data mtime =>
      have hsave := leads_saveState hc .getServiceInstance (service ++ "/" ++ node) ""
      unfold Event.onBag
      by_cases hgone : rc = znonode
      · simp only [hgone, if_true]
        exact hsave.trans (leads_removeState _)
      · simp only [hgone, if_false]
        exact hsave
  | create path data rc =>
      have hsave := leads_saveState hc .createEphereral path data
      unfold Event.onBag
      by_cases hexists : rc = znodeexists
      · simp only [hexists, if_true]
        exact hsave.trans (leads_freeState _)
      · simp only [hexists, if_false]
        exact hsave
  | _ => exact Leads.refl s

theorem leads_onPool (hc : c ∈ s.outstanding) (e : Event) :
    Leads s (s.withPool (e.onPool c s.pool)) := by
  have hbag := leads_onBag hc e
  unfold Event.onPool
  dsimp only
  split
  · exact hbag.trans (Leads.of_step (.setConnected c false) rfl)
  · exact hbag

theorem ClientMove.leads {env : Env} {w w' : World} (h : ClientMove env c w w')
    (hpool : s.pool = w.pool) (hc : c ∈ s.outstanding) :
    Leads s (s.withPool w'.pool) := by
  cases h with
  | event e he _ =>
      rw [he.pool, <- hpool]
      exact leads_onPool hc e
  | hangUp _ => exact Leads.of_step (.setHandle c false) (by rw [<- hpool]; rfl)
  | attach => exact Leads.of_step (.setHandle c true) (by rw [<- hpool]; rfl)
  | connect _ => exact Leads.of_step (.setConnected c true) (by rw [<- hpool]; rfl)
  | disconnect => exact Leads.of_step (.setConnected c false) (by rw [<- hpool]; rfl)

theorem moves_lead {env : Env} {w w' : World}
    (h : Relation.ReflTransGen (ClientMove env c) w w') (hpool : s.pool = w.pool)
    (hc : c ∈ s.outstanding) : Leads s (s.withPool w'.pool) := by
  induction h with
  | refl =>
      rw [<- hpool]
      exact Leads.refl s
  | tail _ hmove ih => exact ih.trans (ClientMove.leads hmove rfl hc)

end Operations

/-!
## The tasks
-/

section Tasks

open Program ZkClient

variable {env : Env} {depth : Nat} {s : PoolSystem} {w w' : World}

theorem open_leads {r : Option ClientId}
    (hrun : poolOpen env depth w = Except.ok (r, w')) (hpool : s.pool = w.pool) :
    Leads s { s with pool := w'.pool, held := r.toList ++ s.held } := by
  rcases poolOpen_run hrun with ⟨hr, hnone, hsome⟩
  have hsection : Leads s {
      s with pool := (opened env w).1, opening := r.toList ++ s.opening } := by
    apply (Leads.of_step (.destroyClients false) rfl).trans
    apply Leads.of_step (.openSection (env.clock w.ticks + w.slept))
    unfold opened at hr
    simp only [step, mapPool, hpool, opened, hr]
  cases r with
  | none =>
      rw [(hnone rfl).right]
      exact hsection
  | some c =>
      rcases hsome c rfl with ⟨v, now, _, hv, hmoves⟩
      let u : PoolSystem := { s with pool := v.pool, held := c :: s.held }
      have hstamp : Leads { s with pool := (opened env w).1, opening := c :: s.opening } u := by
        apply Leads.of_step (.stamp c now)
        simp [step, u, hv]
      have hheld : c ∈ u.outstanding := List.mem_append_right _ List.mem_cons_self
      exact hsection.trans (hstamp.trans (moves_lead hmoves rfl hheld))

theorem close_leads {c : ClientId} {u : PUnit} (hrun : close c w = Except.ok (u, w'))
    (hpool : s.pool = w.pool) (hc : c ∈ s.held) :
    Leads s { s with pool := w'.pool, held := s.held.erase c } := by
  simp only [close, FrProxy.mapPool, modify_bind_run, modify_run] at hrun
  cases hrun
  have hrelease : Leads s {
      s with
      pool := w.pool.setInUsing c false, held := s.held.erase c, closing := c :: s.closing } := by
    apply Leads.of_step (.release c)
    simp [step, hc, hpool]
  refine hrelease.trans (Leads.of_step (.onClientClosing c) ?_)
  simp [step]

theorem TaskMove.leads {c : ClientId} (h : TaskMove env c w w') (hpool : s.pool = w.pool)
    (hc : c ∈ s.outstanding) : Leads s (s.withPool w'.pool) := by
  cases h with
  | client h => exact ClientMove.leads h hpool hc
  | own h =>
      rw [h.pool_eq, <- hpool]
      exact Leads.refl s

theorem task_leads {c : ClientId} (h : Relation.ReflTransGen (TaskMove env c) w w')
    (hpool : s.pool = w.pool) (hc : c ∈ s.outstanding) : Leads s (s.withPool w'.pool) := by
  induction h with
  | refl =>
      rw [<- hpool]
      exact Leads.refl s
  | tail _ hmove ih => exact ih.trans (TaskMove.leads hmove rfl hc)

theorem borrow_leads {c : ClientId} {u v : World} {a : PUnit}
    (hopen : poolOpen env depth w = Except.ok (some c, u)) (hpool : s.pool = w.pool)
    (huse : forall t : PoolSystem, t.pool = u.pool -> c ∈ t.outstanding ->
      Leads t (t.withPool v.pool))
    (hclose : close c v = Except.ok (a, w')) : Leads s (s.withPool w'.pool) := by
  let t : PoolSystem := { s with pool := u.pool, held := c :: s.held }
  have hfirst : Leads s t := open_leads hopen hpool
  have hheld : c ∈ t.outstanding := List.mem_append_right _ List.mem_cons_self
  have hlast := close_leads (s := t.withPool v.pool) hclose rfl List.mem_cons_self
  have hdone := hfirst.trans ((huse t rfl hheld).trans hlast)
  simpa [t, withPool] using hdone

theorem check_leads {u : PUnit} (hrun : ServerHandler.check env depth w = Except.ok (u, w'))
    (hpool : s.pool = w.pool) : Leads s (s.withPool w'.pool) := by
  rcases bind_ok.mp hrun with ⟨r, v, hopen, hrest⟩
  cases r with
  | none =>
      have hsame : w'.pool = v.pool :=
        ServerHandler.loadIfEmpty_steps.keeps (I := fun x => x.pool = v.pool)
          (fun _ _ hmove hx => hmove.pool_eq.trans hx) hrest rfl
      have hfirst := open_leads hopen hpool
      rw [hsame]
      exact hfirst
  | some c =>
      rcases bind_ok.mp hrest with ⟨a, x, hwork, hclose⟩
      exact borrow_leads hopen hpool
        (fun t ht hheld => task_leads (ServerHandler.checkWith_steps v a x hwork) ht hheld) hclose

theorem onEvent_leads {watcher : Watcher} {type : ZkEventType} {path : String}
    {c : ClientId} {u : PUnit}
    (hrun : Watcher.onEvent env depth watcher type path c w = Except.ok (u, w'))
    (hpool : s.pool = w.pool) (hc : c ∈ s.outstanding) : Leads s (s.withPool w'.pool) := by
  have hread : Steps (ClientMove env c)
      (Watcher.reread env depth path c watcher >>= fun _ => pure PUnit.unit) :=
    Steps.bind (watcher.reread_steps path c) fun _ => Steps.pure _
  have hsame : Leads s (s.withPool w.pool) := by
    rw [<- hpool]
    exact Leads.refl s
  cases type with
  | created => exact moves_lead (hread w _ w' hrun) hpool hc
  | changed => exact moves_lead (hread w _ w' hrun) hpool hc
  | child => exact moves_lead (hread w _ w' hrun) hpool hc
  | deleted =>
      have hremove : Leads s (s.mapBag (·.remove (createKey path watcher.stateType))) :=
        leads_removeState _
      cases hrun
      have hbag : s.mapBag (·.remove (createKey path watcher.stateType)) = s.withPool {
          w.pool with
          stateBag_ := w.pool.stateBag_.remove (createKey path watcher.stateType) } := by
        rw [<- hpool]
        rfl
      rw [hbag] at hremove
      exact hremove
  | session =>
      cases hrun
      exact hsame
  | notWatching =>
      cases hrun
      exact hsame

theorem callback_leads {watcher : Watcher} {type : ZkEventType} {path : String} {u : PUnit}
    (hrun : Watcher.callback env depth watcher type path w = Except.ok (u, w'))
    (hpool : s.pool = w.pool) : Leads s (s.withPool w'.pool) := by
  rcases bind_ok.mp hrun with ⟨r, v, hopen, hrest⟩
  cases r with
  | none =>
      have hfirst := open_leads hopen hpool
      cases hrest
      exact hfirst.trans (leads_freeState _)
  | some c =>
      rcases bind_ok.mp hrest with ⟨a, x, hwork, hclose⟩
      apply borrow_leads hopen hpool ?_ hclose
      intro t ht hheld
      exact onEvent_leads hwork ht hheld

theorem zero_not_idle (h : Leads s (s.withPool w.pool)) (hs : Sound s) :
    0 ∉ w.pool.idle_ := by
  intro hzero
  have hknown := (sound_leads h hs).known 0 (Or.inr (Or.inr (Or.inl hzero)))
  exact absurd hknown.left (Nat.lt_irrefl 0)

end Tasks

end PoolSystem

end FrProxy
