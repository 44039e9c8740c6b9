import FrProxy.ZkClient.Invariants
import FrProxy.ZkClient.Tree
import Mathlib.Data.Set.Card

/-!
# The nesting of reconnections

A read that finds its session gone makes the next operation reconnect, and a
reconnection replays all states from the start.  Each level of the nesting costs
a session; a client that has one request to replay pays nothing.
-/

namespace FrProxy

open Program

namespace Env

/-- The numbers of events from `n` on after which a request may be answered `ZINVALIDSTATE`. -/
def losses (env : Env) (n : Nat) : Set Nat :=
  { m | n ≤ m ∧ env.Loses m }

theorem losses_later (env : Env) {n m : Nat} (h : n ≤ m) : env.losses m ⊆ env.losses n :=
  fun _ hk => ⟨Nat.le_trans h hk.left, hk.right⟩

def LosesAtMost (env : Env) (k : Nat) (w : World) : Prop :=
  (env.losses w.trace.length).encard ≤ k

variable {env : Env} {w w' : World}

theorem LosesAtMost.later {k l : Nat} (h : env.LosesAtMost k w) (hkl : k ≤ l)
    (htrace : w.trace.length ≤ w'.trace.length) : env.LosesAtMost l w' :=
  calc (env.losses w'.trace.length).encard
    _ ≤ (env.losses w.trace.length).encard := Set.encard_le_encard (env.losses_later htrace)
    _ ≤ k := h
    _ ≤ l := Nat.cast_le.mpr hkl

theorem LosesAtMost.spend {k : Nat} (h : env.LosesAtMost k w) (hloses : env.Loses w.trace.length)
    (htrace : w.trace.length < w'.trace.length) : exists l, k = l + 1 ∧ env.LosesAtMost l w' := by
  have hnew : w.trace.length ∉ env.losses w'.trace.length :=
    fun hmem => Nat.not_lt_of_le hmem.left htrace
  have hsubset : insert w.trace.length (env.losses w'.trace.length) ⊆
      env.losses w.trace.length :=
    Set.insert_subset ⟨Nat.le_refl _, hloses⟩ (env.losses_later (Nat.le_of_lt htrace))
  have hcount : (env.losses w'.trace.length).encard + 1 ≤ k :=
    calc (env.losses w'.trace.length).encard + 1
      _ = (insert w.trace.length (env.losses w'.trace.length)).encard :=
        (Set.encard_insert_of_notMem hnew).symm
      _ ≤ (env.losses w.trace.length).encard := Set.encard_le_encard hsubset
      _ ≤ k := h
  cases k with
  | zero => simp at hcount
  | succ l =>
      refine ⟨l, rfl, ?_⟩
      rw [Nat.cast_succ] at hcount
      exact (ENat.add_le_add_iff_right ENat.one_ne_top).mp hcount

end Env

namespace ZkClient

theorem Quiet.live {c : ClientId} {saves : ZkStateType -> String -> Prop} {w w' : World}
    (h : Quiet c saves w w') (hw : Live c w) : Live c w' :=
  ⟨(h.getConnected c).trans hw.left, (h.zhandle_ c).trans hw.right⟩

section Depth

variable {env : Env} {c : ClientId}

/-!
## The losses bound the nesting
-/

def Spent (env : Env) (k : Nat) (w : World) : Prop :=
  exists l, k = l + 1 ∧ env.LosesAtMost l w

def Restoring (env : Env) (c : ClientId) (k : Nat) (w : World) : Prop :=
  (Live c w ∧ env.LosesAtMost k w) ∨ Spent env k w

theorem Restoring.losesAtMost {k : Nat} {w : World} (h : Restoring env c k w) :
    env.LosesAtMost k w := by
  rcases h with ⟨_, h⟩ | ⟨l, rfl, h⟩
  · exact h
  · exact h.later (Nat.le_succ l) (Nat.le_refl _)

theorem kept_losesAtMost (env : Env) (c : ClientId) (k : Nat) :
    Kept env c (fun stop => stop = Stop.depth) (fun _ => True) (fun _ _ => True)
      (env.LosesAtMost k) where
  stops := fun _ h => h
  instances := fun _ _ => trivial
  services := fun _ _ => trivial
  found := fun _ _ _ _ _ => trivial
  quiet := fun _ _ hquiet hw => hw.later (Nat.le_refl k) hquiet.trace
  stays := fun _ _ _ _ => trivial
  lost := fun _ hw _ => hw
  answers := fun _ _ _ _ _ _ => trivial

theorem kept_restoring (env : Env) (c : ClientId) (k : Nat) :
    Kept env c (fun stop => stop = Stop.depth) (Spent env k) (fun _ _ => True)
      (Restoring env c k) where
  stops := fun _ h => h
  instances := fun _ _ => trivial
  services := fun _ _ => trivial
  found := fun _ _ _ _ _ => trivial
  quiet := by
    intro w w' hquiet hw
    rcases hw with ⟨hlive, hw⟩ | ⟨l, hl, hw⟩
    · exact Or.inl ⟨hquiet.live hlive, hw.later (Nat.le_refl k) hquiet.trace⟩
    · exact Or.inr ⟨l, hl, hw.later (Nat.le_refl l) hquiet.trace⟩
  stays := by
    intro w w' hquiet hw
    rcases hw with ⟨l, hl, hw⟩
    exact ⟨l, hl, hw.later (Nat.le_refl l) hquiet.trace⟩
  lost := fun _ _ hw => Or.inr hw
  answers := by
    intro w w' hw hloses hquiet htrace
    rcases hw with ⟨hlive, hw⟩ | ⟨l, hl, hw⟩
    · exact hw.spend (hloses hlive.right) htrace
    · exact ⟨l, hl, hw.later (Nat.le_refl l) hquiet.trace⟩

theorem connectZk_level {bad : Stop -> Prop} {P Q : World -> Prop} {depth : Nat}
    (hhandle : forall w handle, P w -> P { w with pool := w.pool.setHandle c handle })
    (hconnected : forall w, P w -> P { w with pool := w.pool.setConnected c true })
    (hloop : Avoids bad P (connectLoop env 11) fun _ => P)
    (hconnect : forall w, P w -> Q w)
    (hfail : forall w, P w -> Q { w with pool := w.pool.setConnected c false })
    (hrestore : Avoids bad (fun w => Live c w ∧ P w) (restoreStates env (connectZk env depth) c)
      fun _ => Q) :
    Avoids bad P (connectZk env (depth + 1) c) fun _ => Q := by
  unfold connectZk
  refine Avoids.bind (asked_avoids fun w => w.pool.getConnected c) fun _ => ?_
  apply Avoids.ite fun _ => Avoids.pure hconnect
  intro _
  refine Avoids.bind (Q := fun _ => P) (Avoids.modify fun w hw => hhandle w false hw) fun _ => ?_
  refine Avoids.bind hloop fun _ => ?_
  apply Avoids.ite
  · intro _
    refine Avoids.bind
      (Q := fun _ w => P w ∧ (w.pool.clients c).zhandle_ = true) ?_ fun _ => ?_
    · refine Avoids.modify fun w hw => ⟨hhandle w true hw, ?_⟩
      simp [ClientPool.setHandle, ClientPool.updateClient]
    · refine Avoids.bind (Q := fun _ w => Live c w ∧ P w) ?_ fun _ => ?_
      · refine Avoids.modify fun w hw => ⟨⟨?_, ?_⟩, hconnected w hw.left⟩
        · simp [ClientPool.setConnected, ClientPool.updateClient, ClientPool.getConnected]
        · simp [ClientPool.setConnected, ClientPool.updateClient, hw.right]
      · exact Avoids.bind hrestore fun _ => Avoids.pure fun _ hw => hw
  · intro _
    exact Avoids.bind (Q := fun _ => Q) (Avoids.modify hfail) fun _ => Avoids.pure fun _ hw => hw

/-- A reconnection that is nested in another one starts when a session is spent. -/
theorem connectZk_avoids (k : Nat) :
    Avoids (fun stop => stop = Stop.depth) (env.LosesAtMost k) (connectZk env (k + 1) c)
      fun _ => env.LosesAtMost k := by
  have hlevel : forall k, Avoids (fun stop => stop = Stop.depth) (Restoring env c k)
      (ready (connectZk env k) c) (fun _ => Restoring env c k) ->
      Avoids (fun stop => stop = Stop.depth) (env.LosesAtMost k) (connectZk env (k + 1) c)
        fun _ => env.LosesAtMost k := by
    intro k hready
    apply connectZk_level (fun _ _ hw => hw) (fun _ hw => hw)
      ((kept_losesAtMost env c k).connectLoop 11) (fun _ hw => hw) fun _ hw => hw
    exact (restoreStates_avoids (kept_restoring env c k) hready).mono (fun _ hw => Or.inl hw)
      fun _ _ hw => hw.losesAtMost
  induction k with
  | zero =>
      apply hlevel
      intro w hw
      rcases hw with ⟨hlive, hw⟩ | ⟨_, hl, _⟩
      · rw [ready_live hlive]
        exact Or.inl ⟨hlive, hw⟩
      · cases hl
  | succ k ih =>
      apply hlevel
      intro w hw
      rcases hw with ⟨hlive, hw⟩ | ⟨l, hl, hw⟩
      · rw [ready_live hlive]
        exact Or.inl ⟨hlive, hw⟩
      · cases hl
        exact ((kept_losesAtMost env c k).ready ih).mono (fun _ h => h)
          (fun _ _ h => Or.inr ⟨k, rfl, h⟩) w hw

end Depth

/-!
## A client with one request
-/

/-- The operation of the state sends a request: an instance is read if its path has a slash. -/
def Asks (s : ZkState) : Prop :=
  s.type = .getServiceInstance -> splitPath s.path ≠ none

theorem asks_of_key {s s' : ZkState} (hkey : s.key = s'.key) (h : Asks s) : Asks s' := by
  rcases createKey_inj hkey with ⟨hpath, htype⟩
  intro hinstance
  rw [<- hpath]
  exact h (htype.trans hinstance)

/-- The read for an instance that is recorded under `key` saves a state under `k`. -/
def Saves (key k : String) : Prop :=
  exists (s : ZkState) (parts : String × String), s.key = key ∧ s.type = .getServiceInstance ∧
    splitPath s.path = some parts ∧
    k = createKey (parts.1 ++ "/" ++ parts.2) .getServiceInstance

theorem asks_of_saves {s : ZkState} {k : String} (h : Saves s.key k) : Asks s := by
  rcases h with ⟨u, parts, hu, _, hsplit, _⟩
  intro _
  rw [<- (createKey_inj hu).left, hsplit]
  exact nofun

/--
To restore the bag the client sends the request of this state: the state is its
own, or has no client and does not become its own by the read for another one.
-/
def Requested (c : ClientId) (bag : StateBag) (key : String) (state : ZkState) : Prop :=
  bag.get key = some state ∧ Asks state ∧
    (state.clientId = c ∨ state.clientId = 0 ∧
      ¬ exists own s, bag.get own = some s ∧ s.clientId = c ∧ Saves own key)

/-- The client sends one request at most to restore the bag, and not one that lists znodes. -/
structure OneRequest (c : ClientId) (bag : StateBag) : Prop where
  single : forall key state key' state', Requested c bag key state ->
    Requested c bag key' state' -> key = key'
  plain : forall key state, Requested c bag key state ->
    state.type = .createEphereral ∨ state.type = .getServiceInstance

/-- The states without a client send no request, unless they have one of these keys. -/
def Unowned (keys : String -> Prop) (w : World) : Prop :=
  forall key state, w.pool.stateBag_.get key = some state -> state.clientId = 0 ->
    Asks state -> keys key

/-- The one request is still there only while the client has its session. -/
def Served (c : ClientId) (key : String) (w : World) : Prop :=
  (Live c w ∧ Unowned (fun k => k = key) w) ∨ Unowned (fun _ => False) w

section OneRequest

variable {env : Env} {reconnect : ClientId -> ZkM Bool} {c : ClientId} {key : String}

theorem Unowned.mono {keys keys' : String -> Prop} {w : World} (h : Unowned keys w)
    (hkeys : forall k, keys k -> keys' k) : Unowned keys' w :=
  fun k s hget hclient hasks => hkeys k (h k s hget hclient hasks)

theorem Unowned.save {keys keys' : String -> Prop} {w : World} (h : Unowned keys w)
    {state : ZkState} (hstate : state.clientId ≠ 0)
    (hkeys : forall k, keys k -> k ≠ state.key -> keys' k) :
    Unowned keys' { w with pool := { w.pool with stateBag_ := w.pool.stateBag_.add state } } := by
  intro k s hget hclient hasks
  have hget : (w.pool.stateBag_.add state).get k = some s := hget
  rw [StateBag.get_add] at hget
  split at hget
  · cases hold : w.pool.stateBag_.get k with
    | none =>
        rw [hold] at hget
        cases hget
        exact absurd hclient hstate
    | some old =>
        rw [hold] at hget
        cases hget
        exact absurd hclient hstate
  · rename_i hne
    exact hkeys k (h k s hget hclient hasks) (Ne.symm hne)

theorem Unowned.remove {keys : String -> Prop} {w : World} (h : Unowned keys w) (k : String) :
    Unowned keys { w with pool := { w.pool with stateBag_ := w.pool.stateBag_.remove k } } := by
  intro k' s hget
  have hget : (w.pool.stateBag_.remove k).get k' = some s := hget
  rw [StateBag.get_remove] at hget
  split at hget
  · cases hget
  · exact h k' s hget

theorem Unowned.give {keys keys' : String -> Prop} {w : World} (h : Unowned keys w) {k : String}
    {d : ClientId} (hkeys : forall k', keys k' -> k' ≠ k -> keys' k') (hk : d = 0 -> keys' k) :
    Unowned keys'
      { w with pool := { w.pool with stateBag_ := w.pool.stateBag_.replaceClientIdOf k d } } := by
  intro k' s hget hclient hasks
  have hget : (w.pool.stateBag_.replaceClientIdOf k d).get k' = some s := hget
  rw [StateBag.get_replaceClientIdOf] at hget
  split at hget
  · rename_i hsame
    rcases Option.map_eq_some_iff.mp hget with ⟨old, _, rfl⟩
    exact hsame ▸ hk hclient
  · rename_i hne
    exact hkeys k' (h k' s hget hclient hasks) (Ne.symm hne)

theorem takeOver_avoids {I J : World -> Prop} (ptr : StatePtr)
    (hgive : forall w, I w -> J { w with
      trace := w.trace ++ [.takeOver ptr.key]
      pool := { w.pool with stateBag_ := w.pool.stateBag_.replaceClientIdOf ptr.key c } }) :
    Avoids (fun stop => stop = Stop.depth) I (takeOver c ptr) fun state w =>
      J w ∧ state.key = ptr.key := by
  intro w hw
  unfold takeOver
  rw [get_bind_run]
  cases hderef : w.pool.stateBag_.deref ptr with
  | none => exact Stop.noConfusion
  | some state => exact ⟨hgive w hw, StateBag.key_of_get (StateBag.get_of_deref hderef)⟩

theorem restore_idle {state : ZkState} (h : ¬ Asks state) :
    restore env reconnect c state = pure ⟨⟩ := by
  have htype : state.type = .getServiceInstance := by
    by_contra hne
    exact h fun heq => absurd heq hne
  have hpath : splitPath state.path = none := by
    by_contra hne
    exact h fun _ => hne
  unfold restore getServiceInstanceAt
  rw [htype, hpath]
  rfl

theorem takeOverStates_idle {I : World -> Prop} {states : List StatePtr}
    (hidle : forall ptr, ptr ∈ states -> forall s : ZkState, s.key = ptr.key -> ¬ Asks s)
    (hgive : forall (ptr : StatePtr) w, I w -> I { w with
      trace := w.trace ++ [.takeOver ptr.key]
      pool := { w.pool with stateBag_ := w.pool.stateBag_.replaceClientIdOf ptr.key c } }) :
    Avoids (fun stop => stop = Stop.depth) I (takeOverStates env reconnect c states)
      fun _ => I := by
  refine Avoids.forM states fun ptr hptr => ?_
  refine Avoids.bind (takeOver_avoids ptr (hgive ptr)) fun state => ?_
  apply Avoids.carried
  intro hkey
  rw [restore_idle (hidle ptr hptr state hkey)]
  exact return_avoids _

theorem Served.give (hc : c ≠ 0) {w : World} (h : Served c key w) (k : String) :
    Served c key { w with
      trace := w.trace ++ [.takeOver k]
      pool := { w.pool with stateBag_ := w.pool.stateBag_.replaceClientIdOf k c } } := by
  rcases h with ⟨hlive, h⟩ | h
  · exact Or.inl ⟨hlive, h.give (fun _ hk _ => hk) fun hzero => absurd hzero hc⟩
  · exact Or.inr (h.give (fun _ hk _ => hk) fun hzero => absurd hzero hc)

theorem readInstance_served (hc : c ≠ 0) (service node : String) :
    Avoids (fun stop => stop = Stop.depth)
      (Unowned fun k => k = createKey (service ++ "/" ++ node) .getServiceInstance)
      (readInstance env c service node) fun _ => Unowned fun _ => False := by
  have hget : Avoids (fun stop => stop = Stop.depth)
      (Unowned fun k => k = createKey (service ++ "/" ++ node) .getServiceInstance)
      (zooWget env c service node) fun _ =>
        Unowned fun k => k = createKey (service ++ "/" ++ node) .getServiceInstance :=
    fun _ hw => hw
  refine Avoids.bind hget fun answer => ?_
  refine Avoids.bind (Q := fun _ => Unowned fun _ => False) ?_ fun _ => ?_
  · exact Avoids.modify fun _ hw => hw.save hc fun _ hk hne => hne hk
  apply Avoids.ite
  · intro _
    cases hread : env.readEndpoint answer.2.1.data with
    | error stop =>
        apply Avoids.throw
        intro hdepth
        exact env.readEndpoint_ne_error (by decide) (by decide) _ (hdepth ▸ hread)
    | ok endpoint => exact fun _ hw => hw
  intro _
  apply Avoids.ite
  · exact fun _ _ hw => hw.remove _
  intro _
  exact Avoids.ite (fun _ _ hw => hw) fun _ _ hw => hw

theorem makeEnode_served (hc : c ≠ 0) (path data : String) :
    Avoids (fun stop => stop = Stop.depth) (fun w => Live c w ∧ Unowned (fun _ => False) w)
      (makeEnode env c path data) fun _ => Served c (createKey path .createEphereral) := by
  have hcreate : Avoids (fun stop => stop = Stop.depth)
      (fun w => Live c w ∧ Unowned (fun _ => False) w)
      (zooCreate env c path (.create path data)) fun _ w =>
        Live c w ∧ Unowned (fun _ => False) w := fun _ hw => hw
  refine Avoids.bind hcreate fun rc => ?_
  refine Avoids.bind (Q := fun _ w => Live c w ∧ Unowned (fun _ => False) w) ?_ fun _ => ?_
  · exact Avoids.modify fun _ hw => ⟨hw.left, hw.right.save hc fun _ hk _ => hk⟩
  dsimp only
  apply Avoids.ite
  · exact fun _ _ hw => Or.inr hw.right
  intro _
  apply Avoids.ite
  · exact fun _ _ hw => Or.inl ⟨hw.left, hw.right.give (fun _ h => h.elim) fun _ => rfl⟩
  · exact fun _ _ hw => Or.inr hw.right

theorem restore_served (hc : c ≠ 0) {state : ZkState}
    (hplain : state.type = .createEphereral ∨ state.type = .getServiceInstance) :
    Avoids (fun stop => stop = Stop.depth) (fun w => Live c w ∧ Unowned (Saves state.key) w)
      (restore env reconnect c state) fun _ => Served c state.key := by
  have hready : Avoids (fun stop => stop = Stop.depth)
      (fun w => Live c w ∧ Unowned (Saves state.key) w) (ready reconnect c) fun ok w =>
        (Live c w ∧ Unowned (Saves state.key) w) ∧ ok = true := by
    intro w hw
    rw [ready_live hw.left]
    exact ⟨hw, rfl⟩
  unfold restore
  rcases hplain with htype | htype
  · have hsaves : forall k, Saves state.key k -> False := by
      intro k hk
      rcases hk with ⟨s, _, hs, hinstance, _⟩
      have hsame := (createKey_inj hs).right
      rw [hinstance, htype] at hsame
      cases hsame
    rw [htype]
    refine Avoids.bind (Q := fun _ => Served c state.key) ?_ fun _ => return_avoids _
    refine Avoids.bind hready fun ok => Avoids.carried fun hok => ?_
    rw [if_pos hok]
    have hkey : state.key = createKey state.path .createEphereral := by rw [ZkState.key, htype]
    rw [hkey]
    exact (makeEnode_served hc state.path state.data).mono
      (fun _ hw => ⟨hw.left, hw.right.mono fun k hk => hsaves k (hkey ▸ hk)⟩) fun _ _ hw => hw
  · have hsaves : forall k, Saves state.key k -> exists parts : String × String,
        splitPath state.path = some parts ∧
          k = createKey (parts.1 ++ "/" ++ parts.2) .getServiceInstance := by
      intro k hk
      rcases hk with ⟨s, parts, hs, _, hsplit, hk⟩
      exact ⟨parts, (createKey_inj hs).left ▸ hsplit, hk⟩
    rw [htype]
    refine Avoids.bind (Q := fun _ => Served c state.key) ?_ fun _ => return_avoids _
    unfold getServiceInstanceAt
    cases hsplit : splitPath state.path with
    | none =>
        refine Avoids.pure fun _ hw => Or.inr (hw.right.mono fun k hk => ?_)
        rcases hsaves k hk with ⟨parts, hparts, _⟩
        rw [hsplit] at hparts
        cases hparts
    | some parts =>
        refine Avoids.bind hready fun ok => Avoids.carried fun hok => ?_
        rw [if_pos hok]
        refine (readInstance_served hc parts.1 parts.2).mono (fun _ hw => ?_) fun _ _ hw => Or.inr hw
        refine hw.right.mono fun k hk => ?_
        rcases hsaves k hk with ⟨other, hother, hk⟩
        rw [hsplit] at hother
        cases hother
        exact hk

theorem takeOverStates_served (hc : c ≠ 0)
    (hplain : forall s : ZkState, s.key = key -> Asks s ->
      s.type = .createEphereral ∨ s.type = .getServiceInstance) {K : String -> Prop}
    (hkeys : forall k, K k -> k ≠ key -> Saves key k) {states : List StatePtr}
    (hone : forall ptr, ptr ∈ states -> forall s : ZkState, s.key = ptr.key -> Asks s ->
      ptr.key = key)
    (hfirst : (forall k, K k -> k = key) ∨ exists ptr, ptr ∈ states ∧ ptr.key = key)
    (hdistinct : states.Pairwise fun ptr other => ptr.key ≠ other.key) :
    Avoids (fun stop => stop = Stop.depth) (fun w => Live c w ∧ Unowned K w)
      (takeOverStates env reconnect c states) fun _ => Served c key := by
  induction states with
  | nil =>
      rcases hfirst with hkey | ⟨_, hptr, _⟩
      · exact Avoids.pure fun _ hw => Or.inl ⟨hw.left, hw.right.mono hkey⟩
      · cases hptr
  | cons ptr rest ih =>
      rcases List.pairwise_cons.mp hdistinct with ⟨hhead, hrest⟩
      have hone' : forall other, other ∈ rest -> forall s : ZkState, s.key = other.key ->
          Asks s -> other.key = key := fun other hother => hone other (List.mem_cons_of_mem _ hother)
      by_cases hptr : ptr.key = key
      · refine Avoids.bind (Q := fun _ => Served c key) ?_ fun _ => ?_
        · refine Avoids.bind (takeOver_avoids (J := fun w => Live c w ∧ Unowned (Saves key) w)
            ptr ?_) fun state => ?_
          · intro w hw
            refine ⟨hw.left, hw.right.give (fun k hk hne => hkeys k hk (hptr ▸ hne)) ?_⟩
            exact fun hzero => absurd hzero hc
          · apply Avoids.carried
            intro hkey
            have hstate : state.key = key := hkey.trans hptr
            by_cases hasks : Asks state
            · rw [<- hstate]
              exact restore_served hc (hplain state hstate hasks)
            · rw [restore_idle hasks]
              exact Avoids.pure fun _ hw =>
                Or.inr (hw.right.mono fun k hk => hasks (asks_of_saves (hstate ▸ hk)))
        · refine takeOverStates_idle ?_ fun other _ hw => hw.give hc other.key
          intro other hother s hs hasks
          exact hhead other hother (hptr.trans (hone' other hother s hs hasks).symm)
      · have hfirst' : (forall k, K k -> k = key) ∨
            exists other, other ∈ rest ∧ other.key = key := by
          rcases hfirst with hkey | ⟨other, hother, hkey⟩
          · exact Or.inl hkey
          · rcases List.mem_cons.mp hother with rfl | hother
            · exact absurd hkey hptr
            · exact Or.inr ⟨other, hother, hkey⟩
        refine Avoids.bind (Q := fun _ w => Live c w ∧ Unowned K w) ?_ fun _ =>
          ih hone' hfirst' hrest
        refine Avoids.bind (takeOver_avoids (J := fun w => Live c w ∧ Unowned K w) ptr ?_)
          fun state => ?_
        · intro w hw
          exact ⟨hw.left, hw.right.give (fun _ hk _ => hk) fun hzero => absurd hzero hc⟩
        · apply Avoids.carried
          intro hkey
          rw [restore_idle fun hasks => hptr (hone ptr List.mem_cons_self state hkey hasks)]
          exact return_avoids _

/-- Its own request takes the others that are left from those without a client. -/
theorem OneRequest.exists_key {bag : StateBag} (h : OneRequest c bag) :
    exists key, (forall k state, bag.get k = some state -> state.clientId = c -> Asks state ->
        k = key) ∧
      (forall s : ZkState, s.key = key -> Asks s ->
        s.type = .createEphereral ∨ s.type = .getServiceInstance) ∧
      ((forall k state, bag.get k = some state -> state.clientId = 0 -> Asks state -> k = key) ∨
        (exists own, bag.get key = some own ∧ own.clientId = c) ∧
        forall k state, bag.get k = some state -> state.clientId = 0 -> Asks state -> k ≠ key ->
          Saves key k) := by
  have hplain : forall key state, Requested c bag key state -> forall s : ZkState, s.key = key ->
      Asks s -> s.type = .createEphereral ∨ s.type = .getServiceInstance := by
    intro key state hstate s hs _
    have hsame : s.key = state.key := hs.trans (StateBag.key_of_get hstate.left).symm
    rw [(createKey_inj hsame).right]
    exact h.plain key state hstate
  by_cases hown : exists key state, bag.get key = some state ∧ state.clientId = c ∧ Asks state
  · rcases hown with ⟨key, state, hget, hclient, hasks⟩
    have hstate : Requested c bag key state := ⟨hget, hasks, Or.inl hclient⟩
    have honly : forall k s, bag.get k = some s -> s.clientId = c -> Asks s -> k = key :=
      fun k s hk hs hks => h.single k s key state ⟨hk, hks, Or.inl hs⟩ hstate
    refine ⟨key, honly, hplain key state hstate, Or.inr ⟨⟨state, hget, hclient⟩, ?_⟩⟩
    intro k s hk hs hks hne
    by_contra hsaves
    refine hne (h.single k s key state ⟨hk, hks, Or.inr ⟨hs, ?_⟩⟩ hstate)
    intro hsaved
    rcases hsaved with ⟨own, t, ht, htclient, htsaves⟩
    have htasks : Asks t := asks_of_saves ((StateBag.key_of_get ht).symm ▸ htsaves)
    exact hsaves (honly own t ht htclient htasks ▸ htsaves)
  · have hfree : forall k s, bag.get k = some s -> s.clientId = 0 -> Asks s ->
        Requested c bag k s := by
      intro k s hk hs hks
      refine ⟨hk, hks, Or.inr ⟨hs, fun hsaved => ?_⟩⟩
      rcases hsaved with ⟨own, t, ht, htclient, htsaves⟩
      exact hown ⟨own, t, ht, htclient,
        asks_of_saves ((StateBag.key_of_get ht).symm ▸ htsaves)⟩
    have hnone : forall key k s, bag.get k = some s -> s.clientId = c -> Asks s -> k = key :=
      fun key k s hk hs hks => absurd ⟨k, s, hk, hs, hks⟩ hown
    by_cases hsome : exists key state, bag.get key = some state ∧ state.clientId = 0 ∧ Asks state
    · rcases hsome with ⟨key, state, hget, hclient, hasks⟩
      have hstate := hfree key state hget hclient hasks
      refine ⟨key, hnone key, hplain key state hstate, Or.inl fun k s hk hs hks => ?_⟩
      exact h.single k s key state (hfree k s hk hs hks) hstate
    · refine ⟨createKey "" .createEphereral, hnone _, ?_, Or.inl fun k s hk hs hks => ?_⟩
      · exact fun s hs _ => Or.inl (createKey_inj hs).right
      · exact absurd ⟨k, s, hk, hs, hks⟩ hsome

theorem mem_getList_asks {bag : StateBag} {d : ClientId} {ptr : StatePtr}
    (hptr : ptr ∈ bag.getList d) {s : ZkState} (hkey : s.key = ptr.key) (hasks : Asks s) :
    exists state, bag.get ptr.key = some state ∧ state.clientId = d ∧ Asks state := by
  rcases StateBag.deref_of_mem_getList hptr with ⟨state, hderef, hclient⟩
  have hget := StateBag.get_of_deref hderef
  exact ⟨state, hget, hclient, asks_of_key (hkey.trans (StateBag.key_of_get hget).symm) hasks⟩

/-- The states of the client come first, then those that have no client by then. -/
theorem restoreStates_served (hc : c ≠ 0) {bag : StateBag} (h : OneRequest c bag) :
    Avoids (fun stop => stop = Stop.depth) (fun w => Live c w ∧ w.pool.stateBag_ = bag)
      (restoreStates env reconnect c) fun _ _ => True := by
  rcases h.exists_key with ⟨key, hkey, hplain, hfree⟩
  have hpass : forall v : World, Avoids (fun stop => stop = Stop.depth)
      (fun w => Served c key w ∧ w = v)
      (takeOverStates env reconnect c (v.pool.stateBag_.getList 0)) fun _ _ => True := by
    intro v w hw
    rcases hw with ⟨hserved, rfl⟩
    rcases hserved with ⟨hlive, hunowned⟩ | hunowned
    · refine ((takeOverStates_served hc hplain (fun _ hk hne => absurd hk hne) ?_
        (Or.inl fun _ hk => hk) (StateBag.getList_pairwise _ _)).mono (fun _ hw => hw)
          fun _ _ _ => trivial) w ⟨hlive, hunowned⟩
      intro ptr hptr s hs hasks
      rcases mem_getList_asks hptr hs hasks with ⟨state, hget, hclient, hstate⟩
      exact hunowned ptr.key state hget hclient hstate
    · refine takeOverStates_idle (I := fun _ => True) ?_ (fun _ _ _ => trivial) w trivial
      intro ptr hptr s hs hasks
      rcases mem_getList_asks hptr hs hasks with ⟨state, hget, hclient, hstate⟩
      exact hunowned ptr.key state hget hclient hstate
  refine Avoids.bind (Q := fun v w => (Live c w ∧ w.pool.stateBag_ = bag) ∧ w = v)
    (Avoids.get fun _ hw => ⟨hw, rfl⟩) fun v => ?_
  refine Avoids.bind (Q := fun _ => Served c key) ?_ fun _ => ?_
  · intro w hw
    rcases hw with ⟨⟨hlive, rfl⟩, rfl⟩
    have hone : forall ptr, ptr ∈ w.pool.stateBag_.getList c -> forall s : ZkState,
        s.key = ptr.key -> Asks s -> ptr.key = key := by
      intro ptr hptr s hs hasks
      rcases mem_getList_asks hptr hs hasks with ⟨state, hget, hclient, hstate⟩
      exact hkey ptr.key state hget hclient hstate
    rcases hfree with hfree | ⟨⟨own, hown, hclient⟩, hfree⟩
    · exact takeOverStates_served (K := fun k => k = key) hc hplain
        (fun _ hk hne => absurd hk hne) hone (Or.inl fun _ hk => hk)
        (StateBag.getList_pairwise _ _) w ⟨hlive, hfree⟩
    · rcases StateBag.exists_mem_getList hown hclient with ⟨ptr, hptr, hptrkey⟩
      refine takeOverStates_served (K := fun k => k ≠ key -> Saves key k) hc hplain
        (fun _ hk => hk) hone (Or.inr ⟨ptr, hptr, hptrkey⟩)
        (StateBag.getList_pairwise _ _) w ⟨hlive, ?_⟩
      exact fun k s hk hs hks => hfree k s hk hs hks
  · exact Avoids.bind (Avoids.get fun _ hw => ⟨hw, rfl⟩) hpass

theorem connectZk_served (hc : c ≠ 0) {bag : StateBag} (h : OneRequest c bag) :
    Avoids (fun stop => stop = Stop.depth) (fun w => w.pool.stateBag_ = bag)
      (connectZk env 1 c) fun _ _ => True := by
  have hloop : forall attempts, Avoids (fun stop => stop = Stop.depth)
      (fun w => w.pool.stateBag_ = bag) (connectLoop env attempts)
      fun _ w => w.pool.stateBag_ = bag := by
    intro attempts
    induction attempts with
    | zero => exact return_avoids false
    | succ attempts ih =>
        refine Avoids.bind (Q := fun _ w => w.pool.stateBag_ = bag) (Avoids.get fun _ hw => hw)
          fun _ => ?_
        refine Avoids.bind (Q := fun _ w => w.pool.stateBag_ = bag)
          (Avoids.modify fun _ hw => hw) fun _ => ?_
        exact Avoids.ite (fun _ => return_avoids true) fun _ => ih
  apply connectZk_level (fun _ _ hw => hw) (fun _ hw => hw) (hloop 11) (fun _ _ => trivial)
    fun _ _ => trivial
  exact restoreStates_served hc h

end OneRequest

end ZkClient

end FrProxy
