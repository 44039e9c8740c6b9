import FrProxy.ClientPool.Opening
import FrProxy.Watcher
import FrProxy.ZkClient.Invariants

/-!
# The end of a session

The watchers of a session are told that it expired, with a path that is NULL or
empty.  What they keep, whatever else the pool is doing at that time.
-/

namespace FrProxy

open Program ZkClient

/-!
## States that are spared
-/

/-- No state has an empty path. -/
def StateBag.Named (bag : StateBag) : Prop :=
  forall key state, bag.get key = some state -> state.path ≠ ""

theorem StateBag.Named.changed {bag bag' : StateBag} {c : ClientId} (h : bag.Named)
    (hchange : bag.Changed c (fun _ path => path ≠ "") bag') : bag'.Named := by
  intro key s hget
  rcases hchange.get_some hget with ⟨old, hold, _, hpath, _⟩ | ⟨hsaves, _⟩
  · exact hpath ▸ h key old hold
  · exact hsaves

theorem StateBag.Named.giveTo {bag : StateBag} (h : bag.Named) (f : ZkState -> Bool)
    (d : ClientId) : (bag.giveTo f d).Named :=
  h.changed (.give f d (Or.inl rfl))

namespace ClientPool

/-- While the client is connected, no state is recorded as its own. -/
def Released (p : ClientPool) (k : ClientId) : Prop :=
  p.getConnected k = true ->
    forall key state, p.stateBag_.get key = some state -> state.clientId ≠ k

structure Spares (k : ClientId) (p q : ClientPool) : Prop where
  connected : q.getConnected k = p.getConnected k
  known : p.lastId_ ≤ q.lastId_
  states : forall key s, q.stateBag_.get key = some s ->
    exists old, p.stateBag_.get key = some old ∧ s.path = old.path ∧
      (s.clientId = old.clientId ∨ s.clientId ≠ k)

/-- The client exists and either is not connected or owns no state; every state has a path. -/
structure Harmless (k : ClientId) (p : ClientPool) : Prop where
  released : p.Released k
  named : p.stateBag_.Named
  positive : 0 < k
  known : k ≤ p.lastId_

section Spares

variable {k : ClientId} {p q r : ClientPool}

theorem Spares.of_fields (hbag : q.stateBag_ = p.stateBag_)
    (hconn : q.getConnected k = p.getConnected k) (hlast : p.lastId_ ≤ q.lastId_) :
    Spares k p q where
  connected := hconn
  known := hlast
  states := by
    intro key s hs
    rw [hbag] at hs
    exact ⟨s, hs, rfl, Or.inl rfl⟩

theorem Spares.trans (hpq : Spares k p q) (hqr : Spares k q r) : Spares k p r where
  connected := hqr.connected.trans hpq.connected
  known := Nat.le_trans hpq.known hqr.known
  states := by
    intro key s hs
    rcases hqr.states key s hs with ⟨t, ht, hpath, howner⟩
    rcases hpq.states key t ht with ⟨old, hold, hpath', howner'⟩
    refine ⟨old, hold, hpath.trans hpath', ?_⟩
    rcases howner with hsame | hne
    · rw [hsame]
      exact howner'
    · exact Or.inr hne

theorem Harmless.spares (h : Harmless k p) (hs : Spares k p q) : Harmless k q where
  released := by
    intro hconn key s hget
    rcases hs.states key s hget with ⟨old, hold, _, howner⟩
    rcases howner with hsame | hne
    · rw [hsame]
      exact h.released (hs.connected ▸ hconn) key old hold
    · exact hne
  named := by
    intro key s hget
    rcases hs.states key s hget with ⟨old, hold, hpath, _⟩
    rw [hpath]
    exact h.named key old hold
  positive := h.positive
  known := Nat.le_trans h.known hs.known

theorem spares_free (hpos : 0 < k) (f : ZkState -> Bool) :
    Spares k p { p with stateBag_ := p.stateBag_.giveTo f 0 } where
  connected := rfl
  known := Nat.le_refl _
  states := by
    intro key s hs
    rw [StateBag.get_giveTo] at hs
    rcases Option.map_eq_some_iff.mp hs with ⟨old, hold, rfl⟩
    refine ⟨old, hold, ?_⟩
    split
    · exact ⟨rfl, Or.inr (Nat.ne_of_lt hpos)⟩
    · exact ⟨rfl, Or.inl rfl⟩

theorem spares_moveToDestroyList (hpos : 0 < k) (c : ClientId) :
    Spares k p (p.moveToDestroyList c) := by
  have hmoved : Spares k p { p with toDestrory_ := p.toDestrory_ ++ [c] } :=
    Spares.of_fields rfl rfl (Nat.le_refl _)
  exact hmoved.trans (spares_free hpos fun s => s.clientId == c)

theorem spares_setInUsing (c : ClientId) (b : Bool) : Spares k p (p.setInUsing c b) :=
  Spares.of_fields rfl (getConnected_setInUsing p c k b) (Nat.le_refl _)

theorem spares_openMove {s t : PoolSystem} (hmove : PoolSystem.OpenMove s t) (hpos : 0 < k)
    (hknown : k ≤ s.pool.lastId_) : Spares k s.pool t.pool := by
  cases hmove with
  | @giveUp c rest _ =>
      have hrest : Spares k s.pool { s.pool with idle_ := rest } :=
        Spares.of_fields rfl rfl (Nat.le_refl _)
      exact hrest.trans (spares_moveToDestroyList hpos c)
  | @reuse c rest _ =>
      exact Spares.of_fields rfl (getConnected_setInUsing s.pool c k true) (Nat.le_refl _)
  | create =>
      have hne : ¬ k = s.pool.lastId_ + 1 := Nat.ne_of_lt (Nat.lt_succ_of_le hknown)
      refine Spares.of_fields rfl ?_ (Nat.le_succ _)
      simp [create, getConnected, setInUsing, updateClient, hne]
  | @evict c _ =>
      have hless : Spares k s.pool { s.pool with using_ := s.pool.using_.erase c } :=
        Spares.of_fields rfl rfl (Nat.le_refl _)
      exact hless.trans ((spares_setInUsing c false).trans (spares_moveToDestroyList hpos c))

theorem spares_openSection (hpos : 0 < k) (hknown : k ≤ p.lastId_) (now : Nat) :
    Spares k p (p.openSection now).1 := by
  refine PoolSystem.openSection_pool (fun q => Spares k p q) ?_ now
    (Spares.of_fields rfl rfl (Nat.le_refl _))
  intro t u hmove ht
  exact ht.trans (spares_openMove hmove hpos (Nat.le_trans hknown ht.known))

theorem spares_onClientClosing (hpos : 0 < k) (c : ClientId) :
    Spares k p (p.onClientClosing c) := by
  have hless : Spares k p { p with using_ := p.using_.erase c } :=
    Spares.of_fields rfl rfl (Nat.le_refl _)
  rcases p.onClientClosing_cases c with ⟨_, hclose⟩ | ⟨_, hclose⟩
  · rw [hclose]
    exact Spares.of_fields rfl rfl (Nat.le_refl _)
  · rw [hclose]
    exact hless.trans (spares_moveToDestroyList hpos c)

end Spares

end ClientPool

/-!
## Handing out
-/

section Opened

variable {env : Env} {w : World} {c : ClientId}

theorem ZkClient.open_run_connected {depth : Nat} (h : w.pool.getConnected c = true) :
    open_ env depth c w = Except.ok (true, w) := by
  simp [open_, ZkClient.getConnected, h]

theorem ZkClient.open_run_lost {depth : Nat} (h : w.pool.getConnected c = false) :
    open_ env depth c w = connectZk env depth c w := by
  simp [open_, ZkClient.getConnected, h]

theorem ZkClient.opened_connected (hc : (opened env w).2 = some c) (hle : c ≤ w.pool.lastId_) :
    (stamped env w c).pool.getConnected c = true := by
  have hsame := ((w.pool.destroyClients false).openSection_clients
    (env.clock w.ticks + w.slept)).right.right c hle
  have hconn : w.pool.getConnected c = true := by
    unfold opened at hc
    rw [ClientPool.openSection_snd] at hc
    cases hfind : (w.pool.destroyClients false).idle_.find?
        (w.pool.destroyClients false).getConnected with
    | some d =>
        rw [hfind] at hc
        cases hc
        exact List.find?_some hfind
    | none =>
        rw [hfind] at hc
        dsimp only at hc
        split at hc
        · cases hc
          exact absurd hle (Nat.not_succ_le_self _)
        · cases hc
  have hopened : (opened env w).1.getConnected c = true := hsame.left.trans hconn
  simpa [stamped, ClientPool.getConnected, ClientPool.stamp, ClientPool.updateClient]
    using hopened

end Opened

/-!
## The callbacks
-/

/--
An invariant of the callbacks of a session that expired.  Unless `hands`, the
pool hands out no client to them.
-/
structure Survives (env : Env) (depth : Nat) (bad : Stop -> Prop) (hands : Prop)
    (I : World -> Prop) : Prop where
  opens : Avoids bad I (poolOpen env depth) fun r w => I w ∧ (r ≠ none -> hands)
  closes : hands -> forall c, Avoids bad I (close c) fun _ => I
  frees : forall type, Avoids bad I (mapBag (·.replaceClientIdOf (createKey "" type) 0)) fun _ => I

section Survives

variable {env : Env} {depth : Nat} {bad : Stop -> Prop} {hands : Prop} {I : World -> Prop}

theorem Survives.borrow (h : Survives env depth bad hands I) (type : ZkStateType)
    {f : ClientId -> ZkM PUnit} (hf : hands -> forall c, Avoids bad I (f c) fun _ => I) :
    Avoids bad I (do
      match <- poolOpen env depth with
      | some c =>
          f c
          close c
      | none => mapBag (·.replaceClientIdOf (createKey "" type) 0)) fun _ => I := by
  refine Avoids.bind h.opens fun r => ?_
  apply Avoids.carried
  intro hhands
  cases r with
  | none => exact h.frees type
  | some c =>
      have hsome : hands := hhands (by simp)
      exact Avoids.bind (hf hsome c) fun _ => h.closes hsome c

theorem Survives.reading (h : Survives env depth bad hands I) (watcher : Watcher) :
    Avoids bad I (watcher.callback env depth .session "") fun _ => I :=
  h.borrow watcher.stateType fun _ _ => Avoids.pure fun _ hw => hw

theorem Survives.recreate (h : Survives env depth bad hands I) (hnone : ¬ hands) :
    Avoids bad I (WatchCallback.recreate env depth "") fun _ => I := by
  refine Avoids.bind h.opens fun r => ?_
  apply Avoids.carried
  intro hhands
  cases r with
  | none => exact h.frees .createEphereral
  | some c => exact absurd (hhands (by simp)) hnone

theorem Survives.expire (h : Survives env depth bad hands I) {path : Option String}
    {callbacks : List WatchCallback} (hpath : path = none ∨ path = some "")
    (hrecreate : path = some "" -> .createEnode ∈ callbacks ->
      Avoids bad I (WatchCallback.recreate env depth "") fun _ => I) :
    Avoids bad I (WatchCallback.expire env depth path callbacks) fun _ => I := by
  refine Avoids.forM callbacks fun callback hmem => ?_
  cases callback with
  | createEnode =>
      rcases hpath with rfl | rfl
      · exact Avoids.pure fun _ hw => hw
      · exact hrecreate rfl hmem
  | reading watcher =>
      rcases hpath with rfl | rfl
      · exact Avoids.pure fun _ hw => hw
      · exact h.reading watcher
  | global => exact Avoids.pure fun _ hw => hw

theorem survives_of {J : World -> Prop}
    (hopened : forall w, J w -> J { w with pool := (opened env w).1, ticks := w.ticks + 1 })
    (hstamped : forall w c, J w -> (opened env w).2 = some c ->
      Avoids bad (fun v => v = stamped env w c) (open_ env depth c) fun _ => J)
    (hclose : forall c, Avoids bad J (close c) fun _ => J)
    (hfree : forall w type, J w -> J {
      w with
      pool := {
        w.pool with
        stateBag_ := w.pool.stateBag_.replaceClientIdOf (createKey "" type) 0 } }) :
    Survives env depth bad hands fun w => J w ∧ (¬ hands -> ¬ w.pool.MayHandOut) where
  opens := by
    apply poolOpen_avoids
    · intro w hw hnone
      refine ⟨⟨hopened w hw.left, fun hnot => ?_⟩, fun h => absurd rfl h⟩
      exact (ClientPool.openSection_of_not_mayHandOut (p := w.pool.destroyClients false)
        (hw.right hnot) _).right
    · intro w c hw hc
      have hhands : hands := by
        by_contra hnot
        have hnone := (ClientPool.openSection_of_not_mayHandOut
          (p := w.pool.destroyClients false) (hw.right hnot)
          (env.clock w.ticks + w.slept)).left
        exact absurd (hc.symm.trans hnone) (by simp)
      refine (hstamped w c hw.left hc).mono (fun _ hv => hv) fun _ t ht => ?_
      exact ⟨⟨ht, fun hnot => absurd hhands hnot⟩, fun _ => hhands⟩
  closes := by
    intro hhands c
    refine (hclose c).mono (fun _ hw => hw.left) fun _ t ht => ?_
    exact ⟨ht, fun hnot => absurd hhands hnot⟩
  frees := fun type => Avoids.modify fun w hw => ⟨hfree w type hw.left, hw.right⟩

end Survives

/-!
## The harmless case
-/

section Harmless

variable {env : Env} {depth : Nat} {k : ClientId}

theorem join_ne_empty (service node : String) : service ++ "/" ++ node ≠ "" := by
  intro h
  have hlength := congrArg String.length h
  simp [String.length_append] at hlength

/-- Another client takes no state of `k`, and saves no state with an empty path. -/
theorem kept_harmless {c : ClientId} (hne : c ≠ k) :
    Kept env c (fun _ => False) (fun _ => True) (fun _ path => path ≠ "") fun w => w.pool.Harmless k where
  stops := fun _ h => h.elim
  instances := fun service node => join_ne_empty service node
  services := fun root node => join_ne_empty root node
  found := fun _ key state hw hget => hw.named key state hget
  quiet := by
    intro w w' hquiet hw
    have hlast : w'.pool.lastId_ = w.pool.lastId_ := congrArg (fun p => p.lastId_) hquiet.pool
    refine ⟨?_, hw.named.changed hquiet.states, hw.positive, hlast.symm ▸ hw.known⟩
    intro hconn key s hget
    rcases hquiet.states.get_some hget with ⟨old, hold, _, _, howner⟩ | ⟨_, howner⟩
    · rcases howner with hsame | hclient | hzero
      · rw [hsame]
        exact hw.released (hquiet.getConnected k ▸ hconn) key old hold
      · exact hclient ▸ hne
      · exact hzero ▸ Nat.ne_of_lt hw.positive
    · exact howner ▸ hne
  stays := fun _ _ _ _ => trivial
  lost := by
    intro w hw _
    refine hw.spares (ClientPool.Spares.of_fields rfl ?_ (Nat.le_refl _))
    simp [ClientPool.setConnected, ClientPool.getConnected, ClientPool.updateClient, hne.symm]
  answers := fun _ _ _ _ _ _ => trivial

theorem survives_harmless {hands : Prop} :
    Survives env depth (fun _ => False) hands fun w =>
      w.pool.Harmless k ∧ (¬ hands -> ¬ w.pool.MayHandOut) := by
  have hopened : forall w : World, w.pool.Harmless k -> (opened env w).1.Harmless k := by
    intro w hw
    have hclean : (w.pool.destroyClients false).Harmless k :=
      hw.spares (ClientPool.Spares.of_fields rfl rfl (Nat.le_refl _))
    exact hclean.spares (ClientPool.spares_openSection hw.positive hclean.known _)
  apply survives_of
  · exact fun w hw => hopened w hw
  · intro w c hw hc
    have hstamp : (stamped env w c).pool.Harmless k := by
      apply (hopened w hw).spares
      refine ClientPool.Spares.of_fields rfl ?_ (Nat.le_refl _)
      simp only [stamped, ClientPool.stamp, ClientPool.getConnected, ClientPool.updateClient]
      split
      · rfl
      · rfl
    cases hconn : (stamped env w c).pool.getConnected c with
    | true => exact Avoids.of_ok (open_run_connected hconn) hstamp
    | false =>
        have hne : c ≠ k := by
          intro heq
          rw [opened_connected hc (heq.symm ▸ hw.known)] at hconn
          cases hconn
        have hkept : Kept env c (fun _ => False) (fun _ => True) (fun _ path => path ≠ "")
            fun v => v.pool.Harmless k := kept_harmless hne
        have hconnect := hkept.connectZk (fun h => h)
          (fun v handle hv => hv.spares (ClientPool.Spares.of_fields rfl (by
            simp only [ClientPool.setHandle, ClientPool.getConnected, ClientPool.updateClient]
            split <;> rfl) (Nat.le_refl _)))
          (fun v hv => hv.spares (ClientPool.Spares.of_fields rfl (by
            simp [ClientPool.setConnected, ClientPool.getConnected, ClientPool.updateClient,
              hne.symm]) (Nat.le_refl _))) depth
        intro v hv
        rw [hv, open_run_lost hconn]
        exact hconnect _ hstamp
  · intro c
    refine Avoids.bind (Q := fun _ w => w.pool.Harmless k) ?_ fun _ => ?_
    · exact Avoids.modify fun w hw => hw.spares (ClientPool.spares_setInUsing c false)
    · exact Avoids.modify fun w hw =>
        hw.spares (ClientPool.spares_onClientClosing hw.positive c)
  · exact fun w type hw => hw.spares (ClientPool.spares_free hw.positive _)

end Harmless

end FrProxy
