import FrProxy.ClientPool.System

/-!
# Owners of watch states

A client releases its states when it goes to `toDestrory_`.  A caller that still
holds such a client can record further states under its number, and nobody
releases those before the client is deleted.
-/

namespace FrProxy

namespace ClientPool

/-- A state has no client, or one that is neither deleted nor going to be. -/
def Owned (p : ClientPool) : Prop :=
  forall key s, p.stateBag_.get key = some s -> s.clientId = 0 ∨
    (0 < s.clientId ∧ s.clientId ≤ p.lastId_ ∧ s.clientId ∉ p.toDestrory_ ∧
      s.clientId ∉ p.deleted)

def LiveOwners (p : ClientPool) : Prop :=
  forall key s, p.stateBag_.get key = some s -> s.clientId = 0 ∨
    (0 < s.clientId ∧ s.clientId ≤ p.lastId_ ∧ s.clientId ∉ p.deleted)

theorem Owned.live {p : ClientPool} (h : p.Owned) : p.LiveOwners := by
  intro key s hs
  rcases h key s hs with hzero | ⟨hpos, hle, _, hdel⟩
  · exact Or.inl hzero
  · exact Or.inr ⟨hpos, hle, hdel⟩

theorem Owned.frame {p q : ClientPool} (h : p.Owned) (hbag : q.stateBag_ = p.stateBag_)
    (hlast : p.lastId_ ≤ q.lastId_)
    (hgone : forall c, c ∈ q.toDestrory_ ∨ c ∈ q.deleted ->
      c ∈ p.toDestrory_ ∨ c ∈ p.deleted) : q.Owned := by
  intro key s hs
  rw [hbag] at hs
  rcases h key s hs with hzero | ⟨hpos, hle, hdes, hdel⟩
  · exact Or.inl hzero
  · refine Or.inr ⟨hpos, Nat.le_trans hle hlast, fun hmem => ?_, fun hmem => ?_⟩
    · exact (hgone _ (Or.inl hmem)).elim hdes hdel
    · exact (hgone _ (Or.inr hmem)).elim hdes hdel

theorem Owned.moveToDestroyList {p : ClientPool} (h : p.Owned) (c : ClientId) :
    (p.moveToDestroyList c).Owned := by
  intro key s hs
  have hget : (p.stateBag_.replaceClientId c 0).get key = some s := hs
  unfold StateBag.replaceClientId at hget
  rw [StateBag.get_giveTo] at hget
  rcases Option.map_eq_some_iff.mp hget with ⟨t, ht, rfl⟩
  by_cases htc : t.clientId = c
  · simp [htc]
  · simp only [beq_iff_eq, htc, if_false]
    rcases h key t ht with hzero | ⟨hpos, hle, hdes, hdel⟩
    · exact Or.inl hzero
    · refine Or.inr ⟨hpos, hle, fun hmem => ?_, hdel⟩
      rcases List.mem_append.mp hmem with hmem | hmem
      · exact hdes hmem
      · exact htc (List.mem_singleton.mp hmem)

theorem Owned.resetSection (p : ClientPool) : p.resetSection.Owned := by
  intro key s hs
  have hget : p.stateBag_.resetClientId.get key = some s := hs
  unfold StateBag.resetClientId at hget
  rw [StateBag.get_giveTo] at hget
  rcases Option.map_eq_some_iff.mp hget with ⟨t, _, rfl⟩
  exact Or.inl rfl

theorem Owned.mapBag {p : ClientPool} (h : p.Owned) (c : ClientId) (bag : StateBag)
    (hc : c = 0 ∨ (0 < c ∧ c ≤ p.lastId_ ∧ c ∉ p.toDestrory_ ∧ c ∉ p.deleted))
    (hbag : forall key s, bag.get key = some s -> s.clientId = c ∨
      exists t, p.stateBag_.get key = some t ∧ t.clientId = s.clientId) :
    Owned { p with stateBag_ := bag } := by
  intro key s hs
  rcases hbag key s hs with heq | ⟨t, ht, heq⟩
  · rw [heq]
    exact hc
  · rw [<- heq]
    exact h key t ht

end ClientPool

theorem StateBag.owner_of_get_add {bag : StateBag} {state : ZkState} {key : String}
    {s : ZkState} (h : (bag.add state).get key = some s) :
    s.clientId = state.clientId ∨
      exists t, bag.get key = some t ∧ t.clientId = s.clientId := by
  rw [StateBag.get_add] at h
  split at h
  · cases hold : bag.get key with
    | none =>
        simp only [hold, Option.some.injEq] at h
        exact Or.inl (congrArg ZkState.clientId h.symm)
    | some t =>
        simp only [hold, Option.some.injEq] at h
        rw [<- h]
        exact Or.inl rfl
  · exact Or.inr ⟨s, h, rfl⟩

theorem StateBag.owner_of_get_replaceClientIdOf {bag : StateBag} {k key : String}
    {c : ClientId} {s : ZkState} (h : (bag.replaceClientIdOf k c).get key = some s) :
    s.clientId = c ∨ exists t, bag.get key = some t ∧ t.clientId = s.clientId := by
  rw [StateBag.get_replaceClientIdOf] at h
  split at h
  · rcases Option.map_eq_some_iff.mp h with ⟨t, _, rfl⟩
    exact Or.inl rfl
  · exact Or.inr ⟨s, h, rfl⟩

theorem StateBag.owner_of_get_remove {bag : StateBag} {k key : String} {s : ZkState}
    (h : (bag.remove k).get key = some s) :
    exists t, bag.get key = some t ∧ t.clientId = s.clientId := by
  rw [StateBag.get_remove] at h
  split at h
  · cases h
  · exact ⟨s, h, rfl⟩

namespace PoolSystem

/-- Only clients that are neither deleted nor going to be record states. -/
def RecordsInPool (s : PoolSystem) : PoolAction -> Prop
  | .saveState c _ _ _ => c ∉ s.pool.toDestrory_ ∧ c ∉ s.pool.deleted
  | .takeOver c _ => c ∉ s.pool.toDestrory_ ∧ c ∉ s.pool.deleted
  | _ => True

instance (s : PoolSystem) : (a : PoolAction) -> Decidable (RecordsInPool s a)
  | .saveState c _ _ _ =>
      inferInstanceAs (Decidable (c ∉ s.pool.toDestrory_ ∧ c ∉ s.pool.deleted))
  | .takeOver c _ =>
      inferInstanceAs (Decidable (c ∉ s.pool.toDestrory_ ∧ c ∉ s.pool.deleted))
  | .destroyClients _ | .openSection _ | .stamp _ _ | .setConnected _ _ | .setHandle _ _
  | .release _ | .onClientClosing _ | .reset | .setMaxClient _ | .setUsedTimeout _
  | .removeState _ | .freeState _ => instDecidableTrue

theorem owned_start (addr : ClientId -> Nat) : (start addr).pool.Owned := by
  intro key s hs
  simp [start, ClientPool.start] at hs

theorem owned_openMove {s t : PoolSystem} (h : s.pool.Owned) (hmove : OpenMove s t) :
    t.pool.Owned := by
  cases hmove with
  | @giveUp c rest _ =>
      have hrest : ClientPool.Owned { s.pool with idle_ := rest } :=
        h.frame rfl (Nat.le_refl _) fun _ hc => hc
      exact hrest.moveToDestroyList c
  | reuse _ => exact h.frame rfl (Nat.le_refl _) fun _ hc => hc
  | create => exact h.frame rfl (Nat.le_succ _) fun _ hc => hc
  | @evict c _ =>
      have hless : ClientPool.Owned
          (ClientPool.setInUsing { s.pool with using_ := s.pool.using_.erase c } c false) :=
        h.frame rfl (Nat.le_refl _) fun _ hc => hc
      exact hless.moveToDestroyList c

theorem owned_onClientClosing {p : ClientPool} (h : p.Owned) (c : ClientId) :
    (p.onClientClosing c).Owned := by
  have hless : ClientPool.Owned { p with using_ := p.using_.erase c } :=
    h.frame rfl (Nat.le_refl _) fun _ hc => hc
  rcases p.onClientClosing_cases c with ⟨_, hclose⟩ | ⟨_, hclose⟩
  · rw [hclose]
    exact hless.frame rfl (Nat.le_refl _) fun _ hc => hc
  · rw [hclose]
    exact hless.moveToDestroyList c

theorem owned_step {s s' : PoolSystem} {a : PoolAction} (hstep : step s a = some s')
    (hsound : Sound s) (h : s.pool.Owned) (hguard : RecordsInPool s a) : s'.pool.Owned := by
  have hborrower : forall c, c ∈ s.outstanding -> 0 < c ∧ c ≤ s.pool.lastId_ :=
    fun c hc => hsound.known c (Or.inl (List.mem_append_left _ hc))
  cases a with
  | destroyClients force =>
      cases hstep
      refine h.frame rfl (Nat.le_refl _) ?_
      intro c hc
      simp only [mapPool, ClientPool.destroyClients, List.mem_filter, List.mem_append,
        List.mem_reverse] at hc
      tauto
  | openSection now =>
      exact openSection_keeps (fun t => t.pool.Owned)
        (fun _ _ hmove ht => owned_openMove ht hmove) hstep h
  | onClientClosing c =>
      rw [step_pool hstep]
      exact owned_onClientClosing h c
  | reset =>
      cases hstep
      exact ClientPool.Owned.resetSection s.pool
  | setMaxClient max =>
      cases hstep
      show (s.pool.setMaxClient max).Owned
      rcases s.pool.setMaxClient_eq max with ⟨limit, heq⟩
      rw [heq]
      exact h.frame rfl (Nat.le_refl _) fun _ hd => hd
  | setUsedTimeout timeoutInMs =>
      cases hstep
      show (s.pool.setUsedTimeout timeoutInMs).Owned
      rcases s.pool.setUsedTimeout_eq timeoutInMs with ⟨timeout, heq⟩
      rw [heq]
      exact h.frame rfl (Nat.le_refl _) fun _ hd => hd
  | saveState c type path data =>
      simp only [step, Option.ite_none_right_eq_some, Option.some.injEq] at hstep
      rcases hstep with ⟨hc, rfl⟩
      rcases hborrower c hc with ⟨hpos, hle⟩
      exact h.mapBag c _ (Or.inr ⟨hpos, hle, hguard.left, hguard.right⟩)
        fun _ _ hget => StateBag.owner_of_get_add hget
  | takeOver c key =>
      simp only [step, Option.ite_none_right_eq_some, Option.some.injEq] at hstep
      rcases hstep with ⟨hc, rfl⟩
      rcases hborrower c hc with ⟨hpos, hle⟩
      exact h.mapBag c _ (Or.inr ⟨hpos, hle, hguard.left, hguard.right⟩)
        fun _ _ hget => StateBag.owner_of_get_replaceClientIdOf hget
  | removeState key =>
      cases hstep
      exact h.mapBag 0 _ (Or.inl rfl) fun _ _ hget => Or.inr (StateBag.owner_of_get_remove hget)
  | freeState key =>
      cases hstep
      exact h.mapBag 0 _ (Or.inl rfl) fun _ _ hget =>
        StateBag.owner_of_get_replaceClientIdOf hget
  | _ =>
      rw [step_pool hstep]
      exact h.frame rfl (Nat.le_refl _) fun _ hd => hd

/--
In a run in which only clients outside `toDestrory_` record states, no state
ever names a deleted client.
-/
theorem owners_live (addr : ClientId -> Nat) (actions : List PoolAction)
    (hguard : forall s a s', (s, a, s') ∈ runFrom addr actions -> RecordsInPool s a) :
    forall s a s', (s, a, s') ∈ runFrom addr actions -> s'.pool.LiveOwners := by
  have hrun := Transition.good_of_guarded step (fun s => Sound s ∧ s.pool.Owned)
    RecordsInPool (fun _ _ s' => s'.pool.LiveOwners)
    (fun _ _ _ hstep h hguard =>
      let howned := owned_step hstep h.left h.right hguard
      ⟨⟨sound_step hstep h.left, howned⟩, howned.live⟩)
    ⟨sound_start addr, owned_start addr⟩ hguard
  intro s a s' hmem
  exact (hrun s a s' hmem).right

/-- A state recorded by a client on its way out is stranded by the next forced destruction. -/
theorem recorded_then_stranded {s s' : PoolSystem} {c : ClientId} {type : ZkStateType}
    {path data : String} (hstep : step s (.saveState c type path data) = some s')
    (hpos : 0 < c) (hc : c ∈ s.pool.toDestrory_) :
    ¬ (s'.pool.destroyClients true).LiveOwners := by
  simp only [step, Option.ite_none_right_eq_some, Option.some.injEq] at hstep
  rcases hstep with ⟨_, rfl⟩
  intro hlive
  have hadd := StateBag.get_add s.pool.stateBag_ { clientId := c, type, path, data }
    (createKey path type)
  have hkey : (ZkState.key { clientId := c, type, path, data }) = createKey path type := rfl
  have howner : exists t, (s.pool.stateBag_.add { clientId := c, type, path, data }).get
      (createKey path type) = some t ∧ t.clientId = c := by
    rw [hadd, if_pos hkey]
    cases s.pool.stateBag_.get (createKey path type) with
    | none => exact ⟨_, rfl, rfl⟩
    | some t => exact ⟨_, rfl, rfl⟩
  rcases howner with ⟨t, ht, hid⟩
  rcases hlive (createKey path type) t ht with hzero | ⟨_, _, hdel⟩
  · rw [hid] at hzero
    exact absurd hzero (Nat.ne_of_gt hpos)
  · apply hdel
    apply List.mem_append_left
    rw [hid, List.mem_reverse, List.mem_filter]
    exact ⟨hc, rfl⟩

section Example

/-- A client records a watch between the reset of the pool and its forced destruction. -/
private def watchAfterReset : List PoolAction :=
  [.openSection 5, .stamp 1 5, .setConnected 1 true, .reset,
    .saveState 1 .getService "/soa/services/a" "", .destroyClients true]

theorem watch_stranded :
    ¬ forall (addr : ClientId -> Nat) (actions : List PoolAction) s a s',
      (s, a, s') ∈ runFrom addr actions -> s'.pool.LiveOwners := by
  intro h
  have hfinal : (finalFrom id watchAfterReset).pool.LiveOwners :=
    Transition.final_of_transitions step watchAfterReset (owned_start id).live
      (h id watchAfterReset)
  have howner := hfinal "1/soa/services/a"
    { clientId := 1, type := .getService, path := "/soa/services/a" } (by decide)
  rcases howner with hzero | ⟨_, _, hdel⟩
  · exact absurd hzero (by decide)
  · exact hdel (by decide)

/-- A client records a watch while it is in use, and is closed without a connection. -/
private def watchInUse : List PoolAction :=
  [.openSection 5, .stamp 1 5, .saveState 1 .getService "/soa/services/a" "", .release 1,
    .onClientClosing 1, .destroyClients false]

theorem watch_released : (finalFrom id watchInUse).pool.LiveOwners := by
  have hguard : forall x, x ∈ runFrom id watchInUse -> RecordsInPool x.1 x.2.1 := by
    decide
  have hrun := owners_live id watchInUse fun s a s' hmem => hguard (s, a, s') hmem
  exact Transition.final_of_transitions step watchInUse (owned_start id).live hrun

end Example

end PoolSystem

end FrProxy
