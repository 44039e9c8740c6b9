import FrProxy.ZkClient.Nesting
import FrProxy.ZkClient.Tree
import Mathlib.Order.Interval.Finset.Nat
import Mathlib.Data.Set.Finite.Lattice

/-!
# A flapping session

ZooKeeper accepts every new session, and answers `ZINVALIDSTATE` again and again.
A client that watches one service with enough instances then never comes back
from `connect_zk`.
-/

namespace FrProxy

open Program

/-!
## The order of the states
-/

/-- The bag of a client that watches one service, and perhaps some instances. -/
structure StateBag.Watches (bag : StateBag) (c : ClientId) (service : String) : Prop where
  watched : exists state, bag.get (createKey service .getService) = some state ∧
    state.clientId = c
  others : forall key state, bag.get key = some state ->
    key = createKey service .getService ∨ state.type = .getServiceInstance

namespace StateBag

theorem not_instance_lt_service {key service : String} {state : ZkState}
    (hkey : state.key = key) (htype : state.type = .getServiceInstance) :
    ¬ compare key (createKey service .getService) = .lt := by
  intro hlt
  rw [<- hkey, ZkState.key, htype] at hlt
  exact absurd (createKey_lt hlt) (by decide)

theorem Watches.getList {bag : StateBag} {c : ClientId} {service : String}
    (h : bag.Watches c service) :
    exists ptr rest state, bag.getList c = ptr :: rest ∧ bag.deref ptr = some state ∧
      state.type = .getService ∧ state.path = service := by
  rcases h.watched with ⟨state, hget, hclient⟩
  rcases createKey_inj (key_of_get hget) with ⟨hpath, htype⟩
  rcases get_eq_some.mp hget with ⟨addr, hslot⟩
  have hmem : (createKey service .getService, { addr, state }) ∈ bag.map_.toList.filter
      fun entry => entry.2.state.clientId == c := by
    rw [List.mem_filter]
    exact ⟨Std.ExtTreeMap.mem_toList_iff_getElem?_eq_some.mpr hslot, by simpa using hclient⟩
  have hordered : (bag.map_.toList.filter fun entry => entry.2.state.clientId == c).Pairwise
      fun a b => compare a.1 b.1 = .lt :=
    Std.ExtTreeMap.ordered_keys_toList.sublist List.filter_sublist
  unfold StateBag.getList
  cases hlist : bag.map_.toList.filter fun entry => entry.2.state.clientId == c with
  | nil =>
      rw [hlist] at hmem
      cases hmem
  | cons entry rest =>
      rw [hlist] at hmem hordered
      have hfirst : entry = (createKey service .getService, { addr, state }) := by
        rcases List.mem_cons.mp hmem with heq | hrest
        · exact heq.symm
        · have hlt := (List.pairwise_cons.mp hordered).left _ hrest
          have hentry : entry ∈ bag.map_.toList := by
            have hfound : entry ∈ entry :: rest := List.mem_cons_self
            rw [<- hlist] at hfound
            exact List.mem_of_mem_filter hfound
          have hfound : bag.map_[entry.1]? = some entry.2 :=
            Std.ExtTreeMap.mem_toList_iff_getElem?_eq_some.mp hentry
          have hgot : bag.get entry.1 = some entry.2.state :=
            get_eq_some.mpr ⟨entry.2.addr, hfound⟩
          rcases h.others entry.1 entry.2.state hgot with hsame | htype
          · rw [hsame] at hlt
            simp at hlt
          · exact absurd hlt (not_instance_lt_service (key_of_get hgot) htype)
      refine ⟨{ key := createKey service .getService, addr },
        rest.map fun entry => { key := entry.1, addr := entry.2.addr }, state, ?_, ?_, htype, hpath⟩
      · rw [hfirst]
        rfl
      · simp [deref, hslot]

theorem Watches.add {bag : StateBag} {c : ClientId} {service : String}
    (h : bag.Watches c service) {state : ZkState} (hclient : state.clientId = c)
    (htype : state.key = createKey service .getService ∨ state.type = .getServiceInstance) :
    (bag.add state).Watches c service where
  watched := by
    rcases h.watched with ⟨old, hget, hold⟩
    rw [get_add, hget]
    split
    · exact ⟨_, rfl, hclient⟩
    · exact ⟨old, rfl, hold⟩
  others := by
    intro key found hfound
    rw [get_add] at hfound
    split at hfound
    · rename_i hkey
      rcases htype with hservice | hinstance
      · exact Or.inl (hkey.symm.trans hservice)
      · split at hfound
        · cases hfound
          exact Or.inr hinstance
        · rename_i old hold
          cases hfound
          exact h.others key old hold
    · exact h.others key found hfound

theorem Watches.takeOver {bag : StateBag} {c : ClientId} {service : String}
    (h : bag.Watches c service) (key : String) :
    (bag.replaceClientIdOf key c).Watches c service where
  watched := by
    rcases h.watched with ⟨old, hget, hold⟩
    rw [get_replaceClientIdOf, hget]
    split
    · exact ⟨_, rfl, rfl⟩
    · exact ⟨old, rfl, hold⟩
  others := by
    intro other found hfound
    rw [get_replaceClientIdOf] at hfound
    split at hfound
    · rcases Option.map_eq_some_iff.mp hfound with ⟨old, hold, rfl⟩
      exact h.others other old hold
    · exact h.others other found hfound

end StateBag

/--
ZooKeeper accepts every session.  After `n` events a creation or the read of an
instance finds its session gone when `invalid n`, and znodes are listed with `nodes n`.
-/
def flapping (invalid : Nat -> Bool) (nodes : Nat -> List String) : Env where
  parse := fun _ => none
  zookeeperInit := fun _ => true
  zooWgetChildren := fun n _ => (zok, nodes n)
  zooWget := fun n _ => (if invalid n then zinvalidstate else zconnectionloss, {})
  zooCreate := fun n _ => if invalid n then zinvalidstate else zok
  zooGet := fun _ _ => zok
  clock := fun _ => 0
  cacheFile := none

/-- After each number of events a listing is long enough to come to such a read. -/
def Recurring (invalid : Nat -> Bool) (nodes : Nat -> List String) : Prop :=
  forall n, exists z, n < z ∧ invalid z = true ∧ z < n + (nodes n).length

theorem flapping_loses {invalid : Nat -> Bool} {nodes : Nat -> List String} {n : Nat} :
    (flapping invalid nodes).Loses n <-> invalid n = true := by
  constructor
  · intro h
    rcases h with ⟨path, h⟩
    have hanswers : zok = zinvalidstate ∨
        (if invalid n then zinvalidstate else zconnectionloss) = zinvalidstate ∨
        (if invalid n then zinvalidstate else zok) = zinvalidstate := h
    by_contra hn
    rw [if_neg hn, if_neg hn] at hanswers
    exact absurd hanswers (by decide)
  · intro h
    exact ⟨"", Or.inr (Or.inl (if_pos h))⟩

namespace ZkClient

/-!
## One level of the recursion
-/

section Flapping

variable {invalid : Nat -> Bool} {nodes : Nat -> List String} {c : ClientId} {service : String}
variable {reconnect : ClientId -> ZkM Bool}

theorem ready_stops {stop : Stop} {w : World} (hlost : w.pool.getConnected c = false)
    (hreconnect : reconnect c w = Except.error stop) :
    ready reconnect c w = Except.error stop := by
  unfold ready
  simp only [getConnected, bind_assoc, get_bind_run, pure_bind, hlost]
  exact stops_bind hreconnect

/-- What the client saves when it reads the service keeps a property of the bag. -/
structure ReadsKeep (c : ClientId) (service : String) (I : StateBag -> Prop) : Prop where
  listed : forall bag, I bag -> I (bag.add { clientId := c, type := .getService, path := service })
  read : forall bag node, I bag -> I (bag.add {
    clientId := c, type := .getServiceInstance, path := service ++ "/" ++ node })

section Reads

variable {I : StateBag -> Prop} (hkeep : ReadsKeep c service I)

include hkeep

theorem readInstance_session {w : World} (hlive : Live c w) (hbag : I w.pool.stateBag_)
    (node : String) :
    Returns (readInstance (flapping invalid nodes) c service node) w fun _ w' =>
      I w'.pool.stateBag_ ∧ w'.trace.length = w.trace.length + 1 ∧
        if invalid w.trace.length then w'.pool.getConnected c = false else Live c w' := by
  have hadded := hkeep.read _ node hbag
  have hanswer : (flapping invalid nodes).zooWget w.trace.length (service ++ "/" ++ node) =
      (if invalid w.trace.length then zinvalidstate else zconnectionloss, {}) := rfl
  simp only [readInstance, zooWget, nowInMs, log, saveState, mapBag, mapPool, bind_assoc,
    get_bind_run, modify_bind_run, pure_bind, hlive.right, if_true, hanswer, Returns]
  cases hinvalid : invalid w.trace.length with
  | true =>
      refine ⟨false, _, rfl, hadded, List.length_append, ?_⟩
      simp [ClientPool.getConnected, ClientPool.setConnected, ClientPool.updateClient]
  | false => exact ⟨true, _, rfl, hadded, List.length_append, hlive⟩

theorem getServiceInstance_session {w : World} (hlive : Live c w) (hbag : I w.pool.stateBag_)
    (node : String) :
    Returns (getServiceInstance (flapping invalid nodes) reconnect c service node) w fun _ w' =>
      I w'.pool.stateBag_ ∧ w'.trace.length = w.trace.length + 1 ∧
        if invalid w.trace.length then w'.pool.getConnected c = false else Live c w' :=
  Returns.bindOk (ready_live hlive) (readInstance_session hkeep hlive hbag node)

/--
The loop over the instances comes to a read whose session is gone, and the next
instance makes the client reconnect.
-/
theorem readInstances_stops {stop : Stop}
    (hreconnect : forall w, w.pool.getConnected c = false ->
      I w.pool.stateBag_ -> reconnect c w = Except.error stop)
    {z : Nat} (hz : invalid z = true) (list : List String) {w : World} (hlive : Live c w)
    (hbag : I w.pool.stateBag_) (hbefore : w.trace.length ≤ z)
    (henough : z + 2 ≤ w.trace.length + list.length) :
    (list.forM fun node => do
      let _ <- getServiceInstance (flapping invalid nodes) reconnect c service node) w =
        Except.error stop := by
  induction list generalizing w with
  | nil =>
      rw [List.length_nil] at henough
      omega
  | cons node rest ih =>
      rw [List.length_cons] at henough
      apply stops_after (Returns.discard (getServiceInstance_session hkeep hlive hbag node))
      intro _ v h
      rcases h with ⟨hbag', hlength, hsession⟩
      cases hinvalid : invalid w.trace.length with
      | true =>
          rw [hinvalid, if_pos rfl] at hsession
          cases rest with
          | nil =>
              rw [List.length_nil] at henough
              omega
          | cons other _ =>
              exact stops_bind (stops_bind (stops_bind
                (ready_stops hsession (hreconnect v hsession hbag'))))
      | false =>
          rw [hinvalid] at hsession
          have hne : w.trace.length ≠ z := by
            intro heq
            rw [heq, hz] at hinvalid
            cases hinvalid
          exact ih hsession hbag' (by omega) (by omega)

theorem listService_session {w : World} (hlive : Live c w) (hbag : I w.pool.stateBag_) :
    Returns (listService (flapping invalid nodes) c service) w fun a w' =>
      a.2 = nodes w.trace.length ∧ Live c w' ∧
        I w'.pool.stateBag_ ∧ w'.trace.length = w.trace.length + 1 := by
  have hadded := hkeep.listed _ hbag
  simp only [listService, zooWgetChildren, log, saveState, mapBag, mapPool, mapCache, bind_assoc,
    get_bind_run, modify_bind_run, pure_bind, hlive.right, if_true, flapping, Returns]
  by_cases hsome : (nodes w.trace.length).length > 0
  · rw [if_pos hsome]
    exact ⟨_, _, rfl, rfl, hlive, hadded, List.length_append⟩
  · rw [if_neg hsome]
    exact ⟨_, _, rfl, rfl, hlive, hadded, List.length_append⟩

/-- A client that lists the service does not come to the end of the list. -/
theorem getService_stops {stop : Stop} (hrecurs : Recurring invalid nodes)
    (hreconnect : forall w, w.pool.getConnected c = false ->
      I w.pool.stateBag_ -> reconnect c w = Except.error stop)
    {w : World} (hlive : Live c w) (hbag : I w.pool.stateBag_) :
    getService (flapping invalid nodes) reconnect c service w = Except.error stop := by
  apply stops_bindOk (ready_live hlive)
  rw [if_pos rfl]
  apply stops_after (listService_session hkeep hlive hbag)
  intro a v h
  rcases h with ⟨hlist, hlive', hbag', htrace⟩
  rcases hrecurs w.trace.length with ⟨z, hlater, hinvalid, hlong⟩
  apply stops_bind
  rw [hlist]
  exact readInstances_stops hkeep hreconnect hinvalid _ hlive' hbag' (by omega) (by omega)

end Reads

theorem watches_readsKeep : ReadsKeep c service fun bag => bag.Watches c service where
  listed := fun _ h => h.add rfl (Or.inl rfl)
  read := fun _ _ h => h.add rfl (Or.inr rfl)

theorem restoreStates_stops {stop : Stop}
    (hrecurs : Recurring invalid nodes)
    (hreconnect : forall w, w.pool.getConnected c = false ->
      w.pool.stateBag_.Watches c service -> reconnect c w = Except.error stop)
    {w : World} (hlive : Live c w) (hwatches : w.pool.stateBag_.Watches c service) :
    restoreStates (flapping invalid nodes) reconnect c w = Except.error stop := by
  rcases hwatches.getList with ⟨ptr, rest, state, hlist, hderef, htype, hpath⟩
  unfold restoreStates
  rw [get_bind_run, hlist]
  apply stops_bind
  apply stops_bind
  have htaken : Returns (takeOver c ptr) w fun a w' => a = state ∧ Live c w' ∧
      w'.pool.stateBag_.Watches c service := by
    unfold takeOver
    apply Returns.getBind
    rw [hderef]
    exact ⟨_, _, rfl, rfl, hlive, hwatches.takeOver ptr.key⟩
  apply stops_after htaken
  intro a v h
  rcases h with ⟨rfl, hlive', hwatches'⟩
  unfold restore
  rw [htype, hpath]
  exact stops_bind (getService_stops watches_readsKeep hrecurs hreconnect hlive' hwatches')

theorem connectZk_stops (hrecurs : Recurring invalid nodes) (depth : Nat)
    {w : World} (hlost : w.pool.getConnected c = false)
    (hwatches : w.pool.stateBag_.Watches c service) :
    connectZk (flapping invalid nodes) depth c w = Except.error Stop.depth := by
  induction depth generalizing w with
  | zero => rfl
  | succ depth ih =>
      have hinit : forall n, (flapping invalid nodes).zookeeperInit n = true := fun _ => rfl
      unfold connectZk
      simp only [getConnected, connectLoop, log, mapPool, bind_assoc, get_bind_run,
        modify_bind_run, pure_bind, hlost, Bool.false_eq_true, if_false, hinit, if_true]
      exact stops_bind (restoreStates_stops hrecurs (fun _ => ih)
        (live_connected (w := { w with pool := w.pool.setHandle c false })) hwatches)

end Flapping

/-!
## When every reconnection comes to an end
-/

/-- A client that watches a service and whose session has expired. -/
def expired (c : ClientId) (service : String) : World where
  pool := {
    ClientPool.start id with
    using_ := [c]
    lastId_ := c
    stateBag_ := StateBag.empty.add { clientId := c, type := .getService, path := service } }
  cache := RegistryCache.empty
  trace := []
  ticks := 0
  slept := 0

theorem expired_watches (c : ClientId) (service : String) :
    (expired c service).pool.stateBag_.Watches c service where
  watched := by
    refine ⟨{ clientId := c, type := .getService, path := service }, ?_, rfl⟩
    show (StateBag.empty.add _).get _ = _
    rw [StateBag.get_add, StateBag.get_empty]
    exact if_pos rfl
  others := by
    intro key state h
    have hget : (StateBag.empty.add { clientId := c, type := .getService, path := service }).get
      key = some state := h
    rw [StateBag.get_add, StateBag.get_empty] at hget
    split at hget
    · rename_i hkey
      exact Or.inl hkey.symm
    · cases hget

/--
Wherever sessions may be lost again and again, there are answers for which a client
that watches one service never comes back.
-/
theorem connectZk_endless {Z : Set Nat} (hZ : Z.Infinite) :
    exists env : Env, env.InvalidOnlyAt Z ∧
      forall depth, connectZk env depth 1 (expired 1 "/soa/services/s") =
        Except.error Stop.depth := by
  classical
  have hlater : forall n, exists m, m ∈ Z ∧ n < m := hZ.exists_gt
  choose next hnext using hlater
  refine ⟨flapping (fun n => decide (n ∈ Z)) fun n => (List.range (next n + 1)).map Nat.repr,
    fun n path hn => of_decide_eq_true (flapping_loses.mp ⟨path, hn⟩), fun depth => ?_⟩
  apply connectZk_stops _ depth rfl (expired_watches 1 "/soa/services/s")
  intro n
  refine ⟨next n, (hnext n).right, decide_eq_true (hnext n).left, ?_⟩
  rw [List.length_map, List.length_range]
  omega

end ZkClient

end FrProxy
