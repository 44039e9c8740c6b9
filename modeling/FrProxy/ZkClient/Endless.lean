import FrProxy.ZkClient.Flapping

/-!
# Reconnections without an end

Every session is accepted, and every read of an instance and every creation finds
it gone.  A client that has one request to restore comes back, and any other one
does not: its second request reconnects, and finds both requests again.
-/

namespace FrProxy

open Program

/-!
## What the client gains
-/

/--
Nothing is removed, and the client takes states: its own stay as they are, and so
do the others unless their keys are `taken`.
-/
structure StateBag.Gained (c : ClientId) (taken : String -> Prop) (bag bag' : StateBag) :
    Prop where
  same : forall key state, bag.get key = some state -> state.clientId = c ∨ ¬ taken key ->
    bag'.get key = some state
  valid : forall ptr, (bag.deref ptr).isSome = true -> (bag'.deref ptr).isSome = true

namespace StateBag.Gained

variable {c : ClientId} {taken : String -> Prop} {bag bag' bag'' : StateBag}

theorem refl (c : ClientId) (taken : String -> Prop) (bag : StateBag) :
    Gained c taken bag bag where
  same := fun _ _ h _ => h
  valid := fun _ h => h

theorem trans (h : Gained c taken bag bag') (h' : Gained c taken bag' bag'') :
    Gained c taken bag bag'' where
  same := fun key state hget hstate => h'.same key state (h.same key state hget hstate) hstate
  valid := fun ptr hptr => h'.valid ptr (h.valid ptr hptr)

theorem mono {taken' : String -> Prop} (h : Gained c taken bag bag')
    (htaken : forall key, taken key -> taken' key) : Gained c taken' bag bag' where
  same := fun key state hget hstate =>
    h.same key state hget (hstate.imp_right fun hkey htake => hkey (htaken key htake))
  valid := h.valid

theorem add {state : ZkState} (hclient : state.clientId = c) (htaken : taken state.key) :
    Gained c taken bag (bag.add state) where
  same := by
    intro key s hget hs
    rw [get_add]
    split
    · rename_i hkey
      rcases hs with hs | hs
      · rw [hget, hclient, <- hs]
      · exact absurd (hkey ▸ htaken) hs
    · exact hget
  valid := fun _ h => isSome_deref_add state h

theorem give {key : String} (htaken : taken key) :
    Gained c taken bag (bag.replaceClientIdOf key c) where
  same := by
    intro k s hget hs
    rw [get_replaceClientIdOf]
    split
    · rename_i hkey
      rcases hs with hs | hs
      · rw [hget, Option.map_some, <- hs]
      · exact absurd (hkey ▸ htaken) hs
    · exact hget
  valid := fun _ h => (isSome_deref_replaceClientIdOf key c).mpr h

end StateBag.Gained

namespace ZkClient

/-!
## A client that has more than one request
-/

def Asking (c : ClientId) (bag : StateBag) (key : String) (state : ZkState) : Prop :=
  bag.get key = some state ∧ state.clientId = c ∧ Asks state

/-- The state lists znodes, which are read one after the other. -/
def Lists (state : ZkState) : Prop :=
  state.type = .getService ∨ state.type = .getRoot

/-- Two requests of the client's own, or one that lists znodes. -/
def Demanding (c : ClientId) (bag : StateBag) : Prop :=
  (exists key state, Asking c bag key state ∧ Lists state) ∨
    exists key state key' state', Asking c bag key state ∧ Asking c bag key' state' ∧ key ≠ key'

theorem Lists.asks {state : ZkState} (h : Lists state) : Asks state := by
  intro hinstance
  rcases h with htype | htype
  · rw [htype] at hinstance
    cases hinstance
  · rw [htype] at hinstance
    cases hinstance

theorem plain_of_not_lists {state : ZkState} (h : ¬ Lists state) :
    state.type = .createEphereral ∨ state.type = .getServiceInstance := by
  cases htype : state.type with
  | createEphereral => exact Or.inl rfl
  | getServiceInstance => exact Or.inr rfl
  | getService => exact absurd (Or.inl htype) h
  | getRoot => exact absurd (Or.inr htype) h

theorem lists_of_key {s s' : ZkState} (hkey : s.key = s'.key) (h : Lists s) : Lists s' := by
  unfold Lists
  rw [<- (createKey_inj hkey).right]
  exact h

theorem Asking.gained {c : ClientId} {taken : String -> Prop} {bag bag' : StateBag} {key : String}
    {state : ZkState} (h : Asking c bag key state) (hgained : bag.Gained c taken bag') :
    Asking c bag' key state :=
  ⟨hgained.same key state h.left (Or.inl h.right.left), h.right⟩

theorem Demanding.gained {c : ClientId} {taken : String -> Prop} {bag bag' : StateBag}
    (h : Demanding c bag) (hgained : bag.Gained c taken bag') : Demanding c bag' := by
  rcases h with ⟨key, state, hstate, hlists⟩ | ⟨key, state, key', state', hstate, hstate', hne⟩
  · exact Or.inl ⟨key, state, hstate.gained hgained, hlists⟩
  · exact Or.inr ⟨key, state, key', state', hstate.gained hgained, hstate'.gained hgained, hne⟩

theorem Demanding.add {c : ClientId} {bag : StateBag} (h : Demanding c bag) {state : ZkState}
    (hclient : state.clientId = c) : Demanding c (bag.add state) := by
  have hgained : bag.Gained c (fun _ => True) (bag.add state) := .add hclient trivial
  exact h.gained hgained

theorem demanding_readsKeep (c : ClientId) (service : String) :
    ReadsKeep c service (Demanding c) where
  listed := fun _ h => h.add rfl
  read := fun _ _ h => h.add rfl

/-!
## One request at a time
-/

/-- ZooKeeper accepts every session, which is gone with the next read or creation. -/
def hostile : Env :=
  flapping (fun _ => true) fun _ => ["a", "b"]

theorem hostile_recurring : Recurring (fun _ => true) fun _ => ["a", "b"] :=
  fun n => ⟨n + 1, Nat.lt_succ_self n, rfl, Nat.lt_succ_self (n + 1)⟩

section Hostile

variable {c : ClientId} {reconnect : ClientId -> ZkM Bool} {stop : Stop}

theorem takeOver_gains {ptr : StatePtr} {w : World}
    (hvalid : (w.pool.stateBag_.deref ptr).isSome = true) :
    Returns (takeOver c ptr) w fun state w' => state.key = ptr.key ∧
      w'.pool.clients = w.pool.clients ∧
      w.pool.stateBag_.Gained c (fun k => k = ptr.key) w'.pool.stateBag_ ∧
      exists s, w'.pool.stateBag_.get ptr.key = some s ∧ s.clientId = c ∧ s.key = state.key := by
  rcases Option.isSome_iff_exists.mp hvalid with ⟨state, hderef⟩
  have hget := StateBag.get_of_deref hderef
  unfold takeOver
  apply Returns.getBind
  rw [hderef]
  refine ⟨state, _, rfl, StateBag.key_of_get hget, rfl, .give rfl, ?_⟩
  refine ⟨{ state with clientId := c }, ?_, rfl, rfl⟩
  show (w.pool.stateBag_.replaceClientIdOf ptr.key c).get ptr.key = _
  rw [StateBag.get_replaceClientIdOf, if_pos rfl, hget]
  rfl

theorem restore_lost {state : ZkState} (hasks : Asks state) {w : World}
    (hlost : w.pool.getConnected c = false) (hreconnect : reconnect c w = Except.error stop) :
    restore hostile reconnect c state w = Except.error stop := by
  have hready := ready_stops hlost hreconnect
  unfold restore
  cases htype : state.type with
  | createEphereral => exact stops_bind (stops_bind hready)
  | getService => exact stops_bind (stops_bind hready)
  | getRoot => exact stops_bind (stops_bind hready)
  | getServiceInstance =>
      unfold getServiceInstanceAt
      cases hsplit : splitPath state.path with
      | none => exact absurd hsplit (hasks htype)
      | some parts => exact stops_bind (stops_bind hready)

theorem restore_plain {state : ZkState} (hasks : Asks state)
    (hplain : state.type = .createEphereral ∨ state.type = .getServiceInstance) {w : World}
    (hlive : Live c w) :
    Returns (restore hostile reconnect c state) w fun _ w' =>
      w'.pool.getConnected c = false ∧
        w.pool.stateBag_.Gained c (fun k => k = state.key ∨ Saves state.key k)
          w'.pool.stateBag_ := by
  unfold restore
  rcases hplain with htype | htype
  · rw [htype]
    have hkey : createKey state.path .createEphereral = state.key := by rw [ZkState.key, htype]
    refine Returns.discard (Returns.bindOk (ready_live hlive) ?_)
    rw [if_pos rfl]
    simp only [makeEnode, zooCreate, hostile, flapping, log, saveState, onSessionTimeout, mapBag,
      mapPool, bind_assoc, get_bind_run, modify_bind_run, pure_bind, hlive.right, if_true, Returns]
    refine ⟨zinvalidstate, _, rfl, ?_, .add rfl (Or.inl hkey)⟩
    simp [ClientPool.getConnected, ClientPool.setConnected, ClientPool.updateClient]
  · rw [htype]
    unfold getServiceInstanceAt
    cases hsplit : splitPath state.path with
    | none => exact absurd hsplit (hasks htype)
    | some parts =>
        refine Returns.discard (Returns.bindOk (ready_live hlive) ?_)
        rw [if_pos rfl]
        simp only [readInstance, zooWget, hostile, flapping, nowInMs, log, saveState,
          onSessionTimeout, mapBag, mapPool, bind_assoc, get_bind_run, modify_bind_run, pure_bind,
          hlive.right, if_true, Returns]
        refine ⟨false, _, rfl, ?_, .add rfl (Or.inr ⟨state, parts, rfl, htype, hsplit, rfl⟩)⟩
        simp [ClientPool.getConnected, ClientPool.setConnected, ClientPool.updateClient]

section Reconnect

variable (hreconnect : forall w, w.pool.getConnected c = false ->
  Demanding c w.pool.stateBag_ -> reconnect c w = Except.error stop)

include hreconnect

/-- A listing leads to two reads, the second of which reconnects. -/
theorem restore_lists {state : ZkState} (hlists : Lists state) {w : World} (hlive : Live c w)
    (hbag : Demanding c w.pool.stateBag_) :
    restore hostile reconnect c state w = Except.error stop := by
  unfold restore
  rcases hlists with htype | htype
  · rw [htype]
    exact stops_bind (getService_stops (demanding_readsKeep c state.path) hostile_recurring
      hreconnect hlive hbag)
  · rw [htype]
    apply stops_bind
    apply stops_bindOk (ready_live hlive)
    rw [if_pos rfl]
    have hlist : Returns (listServices hostile c state.path) w fun a w' =>
        a = (true, [state.path ++ "/" ++ "a", state.path ++ "/" ++ "b"]) ∧ Live c w' ∧
          Demanding c w'.pool.stateBag_ := by
      simp only [listServices, zooWgetChildren, hostile, flapping, log, saveState, mapBag, mapPool,
        bind_assoc, get_bind_run, modify_bind_run, pure_bind, hlive.right, if_true, Returns]
      exact ⟨_, _, rfl, rfl, hlive, hbag.add rfl⟩
    apply stops_after hlist
    intro a v h
    rcases h with ⟨rfl, hlive', hbag'⟩
    exact stops_bind (getService_stops (demanding_readsKeep c _) hostile_recurring
      hreconnect hlive' hbag')

end Reconnect

/-!
## The loops over the states
-/

def AsksAt (key : String) : Prop :=
  exists s : ZkState, s.key = key ∧ Asks s

/-- Two of the states send a request, or one that lists znodes. -/
def Excessive (states : List StatePtr) : Prop :=
  (exists ptr, ptr ∈ states ∧ exists s : ZkState, s.key = ptr.key ∧ Lists s) ∨
    exists ptr other, ptr ∈ states ∧ other ∈ states ∧ ptr.key ≠ other.key ∧
      AsksAt ptr.key ∧ AsksAt other.key

variable {states : List StatePtr} {w : World}

theorem live_of_clients {v : World} (hlive : Live c w) (h : v.pool.clients = w.pool.clients) :
    Live c v := by
  unfold Live ClientPool.getConnected
  rw [h]
  exact hlive

theorem lost_of_clients {v : World} (hlost : w.pool.getConnected c = false)
    (h : v.pool.clients = w.pool.clients) : v.pool.getConnected c = false := by
  unfold ClientPool.getConnected
  rw [h]
  exact hlost

theorem round_idle {ptr : StatePtr} (hvalid : (w.pool.stateBag_.deref ptr).isSome = true)
    (hidle : ¬ AsksAt ptr.key) :
    Returns (do
      let state <- takeOver c ptr
      restore hostile reconnect c state) w fun _ v => v.pool.clients = w.pool.clients ∧
        w.pool.stateBag_.Gained c (fun k => k = ptr.key) v.pool.stateBag_ := by
  apply (takeOver_gains hvalid).bind
  intro state u hu
  rcases hu with ⟨hkey, hclients, hgained, _⟩
  rw [restore_idle fun hasks => hidle ⟨state, hkey, hasks⟩]
  exact Returns.pure ⟨hclients, hgained⟩

theorem takeOverStates_gains
    (hvalid : forall ptr, ptr ∈ states -> (w.pool.stateBag_.deref ptr).isSome = true)
    (hidle : forall ptr, ptr ∈ states -> ¬ AsksAt ptr.key) :
    Returns (takeOverStates hostile reconnect c states) w fun _ w' =>
      w'.pool.clients = w.pool.clients ∧
        w.pool.stateBag_.Gained c (fun k => exists ptr, ptr ∈ states ∧ k = ptr.key)
          w'.pool.stateBag_ := by
  refine Returns.forM (I := fun v : World => v.pool.clients = w.pool.clients ∧
    w.pool.stateBag_.Gained c (fun k => exists ptr, ptr ∈ states ∧ k = ptr.key)
      v.pool.stateBag_) states ?_ ⟨rfl, .refl _ _ _⟩
  intro ptr v hptr hv
  apply (round_idle (hv.right.valid ptr (hvalid ptr hptr)) (hidle ptr hptr)).mono
  intro _ u hu
  exact ⟨hu.left.trans hv.left, hv.right.trans (hu.right.mono fun _ hk => ⟨ptr, hptr, hk⟩)⟩

theorem takeOverStates_one {first : String} (hasks : AsksAt first)
    (hplain : forall s : ZkState, s.key = first -> ¬ Lists s)
    (hvalid : forall ptr, ptr ∈ states -> (w.pool.stateBag_.deref ptr).isSome = true)
    (hfirst : exists ptr, ptr ∈ states ∧ ptr.key = first)
    (honly : forall ptr, ptr ∈ states -> AsksAt ptr.key -> ptr.key = first)
    (hdistinct : states.Pairwise fun ptr other => ptr.key ≠ other.key) (hlive : Live c w) :
    Returns (takeOverStates hostile reconnect c states) w fun _ w' =>
      w'.pool.getConnected c = false ∧
        w.pool.stateBag_.Gained c
          (fun k => (exists ptr, ptr ∈ states ∧ k = ptr.key) ∨ Saves first k)
          w'.pool.stateBag_ := by
  induction states generalizing w with
  | nil =>
      rcases hfirst with ⟨_, hptr, _⟩
      cases hptr
  | cons ptr rest ih =>
      rcases List.pairwise_cons.mp hdistinct with ⟨hhead, hrest⟩
      have htaken : forall k, (exists other, other ∈ rest ∧ k = other.key) ->
          (exists other, other ∈ ptr :: rest ∧ k = other.key) ∨ Saves first k := by
        intro k hk
        rcases hk with ⟨other, hother, hk⟩
        exact Or.inl ⟨other, List.mem_cons_of_mem _ hother, hk⟩
      have hhere : forall k, k = ptr.key ->
          (exists other, other ∈ ptr :: rest ∧ k = other.key) ∨ Saves first k :=
        fun k hk => Or.inl ⟨ptr, List.mem_cons_self, hk⟩
      by_cases hptr : ptr.key = first
      · have hone : Returns (do
            let state <- takeOver c ptr
            restore hostile reconnect c state) w fun _ v => v.pool.getConnected c = false ∧
              w.pool.stateBag_.Gained c
                (fun k => (exists other, other ∈ ptr :: rest ∧ k = other.key) ∨ Saves first k)
                v.pool.stateBag_ := by
          apply (takeOver_gains (hvalid ptr List.mem_cons_self)).bind
          intro state u hu
          rcases hu with ⟨hkey, hclients, hgained, _⟩
          rcases hasks with ⟨s, hs, hasks⟩
          have hstate : state.key = first := hkey.trans hptr
          apply (restore_plain (asks_of_key (hs.trans hstate.symm) hasks)
            (plain_of_not_lists (hplain state hstate)) (live_of_clients hlive hclients)).mono
          intro _ v hv
          refine ⟨hv.left, (hgained.mono hhere).trans (hv.right.mono fun k hk => ?_)⟩
          rw [hstate] at hk
          exact hk.imp_left fun hk => ⟨ptr, List.mem_cons_self, hk.trans hptr.symm⟩
        apply hone.bind
        intro _ v hv
        have hidle : forall other, other ∈ rest -> ¬ AsksAt other.key := by
          intro other hother hother'
          exact hhead other hother
            (hptr.trans (honly other (List.mem_cons_of_mem _ hother) hother').symm)
        apply (takeOverStates_gains (fun other hother =>
          hv.right.valid other (hvalid other (List.mem_cons_of_mem _ hother))) hidle).mono
        intro _ u hu
        exact ⟨lost_of_clients hv.left hu.left, hv.right.trans (hu.right.mono htaken)⟩
      · have hidle : ¬ AsksAt ptr.key := fun h => hptr (honly ptr List.mem_cons_self h)
        apply (round_idle (hvalid ptr List.mem_cons_self) hidle).bind
        intro _ v hv
        have hfirst' : exists other, other ∈ rest ∧ other.key = first := by
          rcases hfirst with ⟨other, hother, hkey⟩
          rcases List.mem_cons.mp hother with rfl | hother
          · exact absurd hkey hptr
          · exact ⟨other, hother, hkey⟩
        apply (ih (fun other hother =>
          hv.right.valid other (hvalid other (List.mem_cons_of_mem _ hother))) hfirst'
          (fun other hother => honly other (List.mem_cons_of_mem _ hother)) hrest (live_of_clients hlive hv.left)).mono
        intro _ u hu
        refine ⟨hu.left, (hv.right.mono hhere).trans (hu.right.mono fun k hk => ?_)⟩
        exact hk.elim (htaken k) Or.inr

section Reconnect

variable (hreconnect : forall w, w.pool.getConnected c = false ->
  Demanding c w.pool.stateBag_ -> reconnect c w = Except.error stop)

include hreconnect

/-- After a request that cost the session, any further request reconnects. -/
theorem takeOverStates_lost {first : String} {own : ZkState}
    (hown : Asking c w.pool.stateBag_ first own)
    (hvalid : forall ptr, ptr ∈ states -> (w.pool.stateBag_.deref ptr).isSome = true)
    (hother : forall ptr, ptr ∈ states -> ptr.key ≠ first)
    (hsome : exists ptr, ptr ∈ states ∧ AsksAt ptr.key)
    (hlost : w.pool.getConnected c = false) :
    takeOverStates hostile reconnect c states w = Except.error stop := by
  induction states generalizing w with
  | nil =>
      rcases hsome with ⟨_, hptr, _⟩
      cases hptr
  | cons ptr rest ih =>
      by_cases hptr : AsksAt ptr.key
      · apply stops_bind
        apply stops_after (takeOver_gains (hvalid ptr List.mem_cons_self))
        intro state v hv
        rcases hv with ⟨hkey, hclients, hgained, s, hget, hclient, hs⟩
        rcases hptr with ⟨t, ht, hasks⟩
        have hstate : Asks state := asks_of_key (ht.trans hkey.symm) hasks
        have hlost' := lost_of_clients hlost hclients
        refine restore_lost hstate hlost' (hreconnect v hlost' (Or.inr ⟨first, own, ptr.key, s,
          hown.gained hgained, ⟨hget, hclient, asks_of_key hs.symm hstate⟩, ?_⟩))
        exact (hother ptr List.mem_cons_self).symm
      · apply stops_after (round_idle (hvalid ptr List.mem_cons_self) hptr)
        intro _ v hv
        refine ih (hown.gained hv.right) ?_ ?_ ?_ (lost_of_clients hlost hv.left)
        · exact fun other hmem => hv.right.valid other (hvalid other (List.mem_cons_of_mem _ hmem))
        · exact fun other hmem => hother other (List.mem_cons_of_mem _ hmem)
        · rcases hsome with ⟨other, hmem, hasks⟩
          rcases List.mem_cons.mp hmem with rfl | hmem
          · exact absurd hasks hptr
          · exact ⟨other, hmem, hasks⟩

theorem takeOverStates_excessive
    (hvalid : forall ptr, ptr ∈ states -> (w.pool.stateBag_.deref ptr).isSome = true)
    (hdistinct : states.Pairwise fun ptr other => ptr.key ≠ other.key)
    (hexcessive : Excessive states) (hlive : Live c w) :
    takeOverStates hostile reconnect c states w = Except.error stop := by
  induction states generalizing w with
  | nil =>
      rcases hexcessive with ⟨_, hptr, _⟩ | ⟨_, _, hptr, _⟩
      · cases hptr
      · cases hptr
  | cons ptr rest ih =>
      rcases List.pairwise_cons.mp hdistinct with ⟨hhead, hrest⟩
      have hvalid' : forall v : World, w.pool.stateBag_.Gained c (fun _ => True) v.pool.stateBag_ ->
          forall other, other ∈ rest -> (v.pool.stateBag_.deref other).isSome = true :=
        fun v hv other hother => hv.valid other (hvalid other (List.mem_cons_of_mem _ hother))
      by_cases hptr : AsksAt ptr.key
      · by_cases hlists : exists s : ZkState, s.key = ptr.key ∧ Lists s
        · apply stops_bind
          apply stops_after (takeOver_gains (hvalid ptr List.mem_cons_self))
          intro state v hv
          rcases hv with ⟨hkey, hclients, _, s, hget, hclient, hs⟩
          rcases hlists with ⟨t, ht, hlists⟩
          have hstate : Lists state := lists_of_key (ht.trans hkey.symm) hlists
          have hown : Lists s := lists_of_key hs.symm hstate
          exact restore_lists hreconnect hstate (live_of_clients hlive hclients)
            (Or.inl ⟨ptr.key, s, ⟨hget, hclient, hown.asks⟩, hown⟩)
        · have hone : Returns (do
              let state <- takeOver c ptr
              restore hostile reconnect c state) w fun _ v => v.pool.getConnected c = false ∧
                w.pool.stateBag_.Gained c (fun _ => True) v.pool.stateBag_ ∧
                exists s, Asking c v.pool.stateBag_ ptr.key s := by
            apply (takeOver_gains (hvalid ptr List.mem_cons_self)).bind
            intro state u hu
            rcases hu with ⟨hkey, hclients, hgained, s, hget, hclient, hs⟩
            rcases hptr with ⟨t, ht, hasks⟩
            have hstate : Asks state := asks_of_key (ht.trans hkey.symm) hasks
            apply (restore_plain hstate (plain_of_not_lists fun h => hlists ⟨state, hkey, h⟩)
              (live_of_clients hlive hclients)).mono
            intro _ v hv
            have hown : Asking c u.pool.stateBag_ ptr.key s :=
              ⟨hget, hclient, asks_of_key hs.symm hstate⟩
            exact ⟨hv.left, (hgained.mono fun _ _ => trivial).trans
              (hv.right.mono fun _ _ => trivial), s, hown.gained hv.right⟩
          apply stops_after hone
          intro _ v hv
          rcases hv with ⟨hlost, hgained, s, hown⟩
          refine takeOverStates_lost hreconnect hown (hvalid' v hgained)
            (fun other hother => (hhead other hother).symm) ?_ hlost
          rcases hexcessive with ⟨other, hother, s, hs, hlist⟩ | ⟨first, second, hmem, hmem', hne,
            hasks, hasks'⟩
          · rcases List.mem_cons.mp hother with rfl | hother
            · exact absurd ⟨s, hs, hlist⟩ hlists
            · exact ⟨other, hother, s, hs, hlist.asks⟩
          · rcases List.mem_cons.mp hmem with rfl | hmem
            · rcases List.mem_cons.mp hmem' with rfl | hmem'
              · exact absurd rfl hne
              · exact ⟨second, hmem', hasks'⟩
            · exact ⟨first, hmem, hasks⟩
      · apply stops_after (round_idle (hvalid ptr List.mem_cons_self) hptr)
        intro _ v hv
        refine ih (hvalid' v (hv.right.mono fun _ _ => trivial)) hrest ?_
          (live_of_clients hlive hv.left)
        have hmem_rest : forall other, other ∈ ptr :: rest -> AsksAt other.key -> other ∈ rest := by
          intro other hother hasks
          rcases List.mem_cons.mp hother with rfl | hother
          · exact absurd hasks hptr
          · exact hother
        rcases hexcessive with ⟨other, hother, s, hs, hlist⟩ | ⟨first, second, hmem, hmem', hne,
          hasks, hasks'⟩
        · exact Or.inl ⟨other, hmem_rest other hother ⟨s, hs, hlist.asks⟩, s, hs, hlist⟩
        · exact Or.inr ⟨first, second, hmem_rest first hmem hasks, hmem_rest second hmem' hasks',
            hne, hasks, hasks'⟩

end Reconnect

/-!
## The restoration of the states
-/

theorem oneRequest_of_not_excessive {bag : StateBag}
    (hstates : forall key state, Requested c bag key state -> exists ptr, ptr ∈ states ∧ ptr.key = key)
    (h : ¬ Excessive states) : OneRequest c bag where
  single := by
    intro key state key' state' hstate hstate'
    rcases hstates key state hstate with ⟨ptr, hptr, rfl⟩
    rcases hstates key' state' hstate' with ⟨other, hother, rfl⟩
    by_contra hne
    exact h (Or.inr ⟨ptr, other, hptr, hother, hne,
      ⟨state, StateBag.key_of_get hstate.left, hstate.right.left⟩,
      ⟨state', StateBag.key_of_get hstate'.left, hstate'.right.left⟩⟩)
  plain := by
    intro key state hstate
    rcases hstates key state hstate with ⟨ptr, hptr, rfl⟩
    exact plain_of_not_lists fun hlists =>
      h (Or.inl ⟨ptr, hptr, state, StateBag.key_of_get hstate.left, hlists⟩)

theorem Demanding.not_oneRequest {bag : StateBag} (h : Demanding c bag) : ¬ OneRequest c bag := by
  intro hone
  rcases h with ⟨key, state, hstate, hlists⟩ | ⟨key, state, key', state', hstate, hstate', hne⟩
  · have hplain := hone.plain key state ⟨hstate.left, hstate.right.right, Or.inl hstate.right.left⟩
    rcases hlists with htype | htype
    · rw [htype] at hplain
      exact absurd hplain (by decide)
    · rw [htype] at hplain
      exact absurd hplain (by decide)
  · exact hne (hone.single key state key' state'
      ⟨hstate.left, hstate.right.right, Or.inl hstate.right.left⟩
      ⟨hstate'.left, hstate'.right.right, Or.inl hstate'.right.left⟩)

theorem valid_of_mem_getList {bag : StateBag} {d : ClientId} {ptr : StatePtr}
    (h : ptr ∈ bag.getList d) : (bag.deref ptr).isSome = true := by
  rcases StateBag.deref_of_mem_getList h with ⟨s, hs, _⟩
  rw [hs]
  rfl

/--
The second request is among the client's own states, or comes with those that have
no client.
-/
theorem restoreStates_endless (hc : c ≠ 0)
    (hreconnect : forall w, w.pool.getConnected c = false ->
      Demanding c w.pool.stateBag_ -> reconnect c w = Except.error stop)
    (hlive : Live c w) (hmany : ¬ OneRequest c w.pool.stateBag_) :
    restoreStates hostile reconnect c w = Except.error stop := by
  have howner : forall d ptr key state, ptr ∈ w.pool.stateBag_.getList d -> ptr.key = key ->
      w.pool.stateBag_.get key = some state -> state.clientId = d := by
    intro d ptr key state hptr hkey hget
    rcases StateBag.deref_of_mem_getList hptr with ⟨s, hs, hclient⟩
    have hsame := StateBag.get_of_deref hs
    rw [hkey, hget] at hsame
    cases hsame
    exact hclient
  unfold restoreStates
  rw [get_bind_run]
  by_cases hexcessive : Excessive (w.pool.stateBag_.getList c)
  · exact stops_bind (takeOverStates_excessive hreconnect (fun _ => valid_of_mem_getList)
      (StateBag.getList_pairwise _ _) hexcessive hlive)
  by_cases hone : exists ptr, ptr ∈ w.pool.stateBag_.getList c ∧ AsksAt ptr.key
  · rcases hone with ⟨ptr, hptr, hasks⟩
    have hplain : forall s : ZkState, s.key = ptr.key -> ¬ Lists s :=
      fun s hs hlists => hexcessive (Or.inl ⟨ptr, hptr, s, hs, hlists⟩)
    have honly : forall other, other ∈ w.pool.stateBag_.getList c -> AsksAt other.key ->
        other.key = ptr.key := by
      intro other hother hasks'
      by_contra hne
      exact hexcessive (Or.inr ⟨other, ptr, hother, hptr, hne, hasks', hasks⟩)
    have hfree : exists key state, Requested c w.pool.stateBag_ key state ∧ state.clientId ≠ c := by
      by_contra hnone
      refine hmany (oneRequest_of_not_excessive (fun key state hstate => ?_) hexcessive)
      apply StateBag.exists_mem_getList hstate.left
      by_contra hne
      exact hnone ⟨key, state, hstate, hne⟩
    rcases hfree with ⟨key, state, ⟨hget, hstate, howned⟩, hne⟩
    rcases howned.resolve_left hne with ⟨hzero, hleft⟩
    rcases StateBag.deref_of_mem_getList hptr with ⟨own, hderef, hclient⟩
    have hown := StateBag.get_of_deref hderef
    apply stops_after (takeOverStates_one hasks hplain (fun _ => valid_of_mem_getList)
      ⟨ptr, hptr, rfl⟩ honly (StateBag.getList_pairwise _ _) hlive)
    intro _ v hv
    rcases hv with ⟨hlost, hgained⟩
    have hkept : v.pool.stateBag_.get key = some state := by
      refine hgained.same key state hget (Or.inr fun htaken => ?_)
      rcases htaken with ⟨other, hother, hkey⟩ | hsaves
      · exact hne (howner c other key state hother hkey.symm hget)
      · exact hleft ⟨ptr.key, own, hown, hclient, hsaves⟩
    rcases StateBag.exists_mem_getList hkept hzero with ⟨other, hother, hkey⟩
    rcases hasks with ⟨t, ht, hasks⟩
    have hfirst : Asking c v.pool.stateBag_ ptr.key own :=
      ⟨hgained.same _ _ hown (Or.inl hclient), hclient,
        asks_of_key (ht.trans (StateBag.key_of_get hown).symm) hasks⟩
    rw [get_bind_run]
    refine takeOverStates_lost hreconnect hfirst (fun _ => valid_of_mem_getList) ?_
      ⟨other, hother, state, (StateBag.key_of_get hget).trans hkey.symm, hstate⟩ hlost
    intro third hthird hsame
    rcases StateBag.deref_of_mem_getList hthird with ⟨s, hs, hthirdzero⟩
    have hgot := StateBag.get_of_deref hs
    rw [hsame, hfirst.left] at hgot
    cases hgot
    exact hc (hclient.symm.trans hthirdzero)
  · apply stops_after (takeOverStates_gains (fun _ => valid_of_mem_getList)
      fun ptr hptr hasks => hone ⟨ptr, hptr, hasks⟩)
    intro _ v hv
    rw [get_bind_run]
    refine takeOverStates_excessive hreconnect (fun _ => valid_of_mem_getList)
      (StateBag.getList_pairwise _ _) ?_ (live_of_clients hlive hv.left)
    by_contra hfew
    refine hmany (oneRequest_of_not_excessive (fun key state hstate => ?_) hfew)
    rcases hstate with ⟨hget, hasks, hclient⟩
    have hne : state.clientId ≠ c := by
      intro hclient
      rcases StateBag.exists_mem_getList hget hclient with ⟨ptr, hptr, hkey⟩
      exact hone ⟨ptr, hptr, state, (StateBag.key_of_get hget).trans hkey.symm, hasks⟩
    have hkept : v.pool.stateBag_.get key = some state := by
      refine hv.right.same key state hget (Or.inr fun htaken => ?_)
      rcases htaken with ⟨other, hother, hkey⟩
      exact hne (howner c other key state hother hkey.symm hget)
    exact StateBag.exists_mem_getList hkept (hclient.resolve_left hne).left

end Hostile

theorem connectZk_hostile {c : ClientId} (hc : c ≠ 0) (depth : Nat) {w : World}
    (hlost : w.pool.getConnected c = false) (hmany : ¬ OneRequest c w.pool.stateBag_) :
    connectZk hostile depth c w = Except.error Stop.depth := by
  induction depth generalizing w with
  | zero => rfl
  | succ depth ih =>
      have hinit : forall n, hostile.zookeeperInit n = true := fun _ => rfl
      unfold connectZk
      simp only [getConnected, connectLoop, log, mapPool, bind_assoc, get_bind_run,
        modify_bind_run, pure_bind, hlost, Bool.false_eq_true, if_false, hinit, if_true]
      exact stops_bind (restoreStates_endless hc
        (fun v hv hdemand => ih hv hdemand.not_oneRequest)
        (live_connected (w := { w with pool := w.pool.setHandle c false })) hmany)

/--
A call of `connect_zk` terminates when finitely many sessions can be lost, and each
loss costs one level of the nesting at most.  Whatever ZooKeeper answers, it terminates
for a client that has one request to restore, without a nested call, and for no other
client that is not connected.
-/
theorem connectZk_nests {c : ClientId} (hc : c ≠ 0) (w : World) :
    (forall env : Env, (env.losses w.trace.length).Finite ->
      connectZk env ((env.losses w.trace.length).ncard + 1) c w ≠ Except.error Stop.depth) ∧
    ((forall env : Env, exists depth, connectZk env depth c w ≠ Except.error Stop.depth) <->
      w.pool.getConnected c = true ∨ OneRequest c w.pool.stateBag_) ∧
    (w.pool.getConnected c = true ∨ OneRequest c w.pool.stateBag_ ->
      forall env : Env, connectZk env 1 c w ≠ Except.error Stop.depth) := by
  have hone : w.pool.getConnected c = true ∨ OneRequest c w.pool.stateBag_ ->
      forall env : Env, connectZk env 1 c w ≠ Except.error Stop.depth := by
    intro h env
    rcases h with hconnected | hone
    · unfold connectZk
      simp only [getConnected, bind_assoc, get_bind_run, pure_bind, hconnected, if_true]
      intro hstop
      cases hstop
    · exact (connectZk_served hc hone).run rfl rfl
  refine ⟨?_, ⟨?_, fun h env => ⟨1, hone h env⟩⟩, hone⟩
  · intro env hfinite
    have hlosses : env.LosesAtMost (env.losses w.trace.length).ncard w :=
      le_of_eq hfinite.cast_ncard_eq.symm
    exact (connectZk_avoids _).run hlosses rfl
  · intro hends
    by_contra hmany
    rcases hends hostile with ⟨depth, hdepth⟩
    refine hdepth (connectZk_hostile hc depth ?_ fun h => hmany (Or.inr h))
    exact Bool.eq_false_iff.mpr fun h => hmany (Or.inl h)

/--
A client that has read one instance, and whose session has expired.  Another client
that restored the same instance has left a state with one slash more.
-/
def expiredReader : World where
  pool := {
    ClientPool.start id with
    using_ := [1]
    lastId_ := 1
    stateBag_ := (StateBag.empty.add {
      clientId := 0, type := .getServiceInstance, path := "/soa/services/s//a" }).add {
      clientId := 1, type := .getServiceInstance, path := "/soa/services/s/a" } }
  cache := RegistryCache.empty
  trace := []
  ticks := 0
  slept := 0

theorem expiredReader_oneRequest : OneRequest 1 expiredReader.pool.stateBag_ := by
  have hown : expiredReader.pool.stateBag_.get
      (createKey "/soa/services/s/a" .getServiceInstance) = some {
        clientId := 1, type := .getServiceInstance, path := "/soa/services/s/a" } := by
    show ((StateBag.empty.add _).add _).get _ = _
    rw [StateBag.get_add, StateBag.get_add, StateBag.get_empty]
    rfl
  have hbag : forall key state, Requested 1 expiredReader.pool.stateBag_ key state ->
      createKey "/soa/services/s/a" .getServiceInstance = key ∧
        state.type = .getServiceInstance := by
    intro key state h
    rcases h with ⟨hget, _, howner⟩
    have hget : ((StateBag.empty.add {
      clientId := 0, type := .getServiceInstance, path := "/soa/services/s//a" }).add {
      clientId := 1, type := .getServiceInstance, path := "/soa/services/s/a" }).get key =
        some state := hget
    rw [StateBag.get_add, StateBag.get_add, StateBag.get_empty] at hget
    split at hget
    · rename_i hkey
      refine ⟨hkey, ?_⟩
      subst hkey
      rw [if_neg (by decide)] at hget
      cases hget
      rfl
    · split at hget
      · rename_i hkey
        cases hget
        rcases howner with hclient | ⟨_, hleft⟩
        · cases hclient
        · refine absurd ⟨_, _, hown, rfl, ?_⟩ hleft
          exact ⟨{ clientId := 1, type := .getServiceInstance, path := "/soa/services/s/a" },
            ("/soa/services/s", "/a"), rfl, rfl, rfl, hkey.symm⟩
      · cases hget
  refine ⟨?_, fun key state h => Or.inr (hbag key state h).right⟩
  intro key state key' state' h h'
  exact (hbag key state h).left.symm.trans (hbag key' state' h').left

/--
One session is lost between two instances of a service: the client reconnects inside
of its reconnection, and no deeper.  A client with one request does not, though all
sessions are lost.
-/
theorem connectZk_nests_once :
    connectZk (flapping (fun n => n == 3) fun _ => ["a", "b"]) 1 1
      (expired 1 "/soa/services/s") = Except.error Stop.depth ∧
    connectZk (flapping (fun n => n == 3) fun _ => ["a", "b"]) 2 1
      (expired 1 "/soa/services/s") ≠ Except.error Stop.depth ∧
    connectZk hostile 1 1 expiredReader ≠ Except.error Stop.depth := by
  have hlosses : (flapping (fun n => n == 3) fun _ => ["a", "b"]).losses
      (expired 1 "/soa/services/s").trace.length = {3} := by
    ext n
    simp [Env.losses, flapping_loses, expired]
  have hone := (connectZk_nests (c := 1) (by decide) (expired 1 "/soa/services/s")).left
    (flapping (fun n => n == 3) fun _ => ["a", "b"]) (hlosses ▸ Set.finite_singleton 3)
  rw [hlosses, Set.ncard_singleton] at hone
  exact ⟨rfl, hone, (connectZk_nests (c := 1) (by decide) expiredReader).right.right
    (Or.inr expiredReader_oneRequest) hostile⟩

/--
Every session is accepted and every read of an instance finds its session gone:
no depth is enough for a client that watches one service.
-/
theorem connectZk_recurses :
    ¬ forall (env : Env) (c : ClientId) (w : World),
      exists depth, connectZk env depth c w ≠ Except.error Stop.depth := by
  intro h
  rcases h hostile 1 (expired 1 "/soa/services/s") with ⟨depth, hdepth⟩
  exact hdepth (connectZk_stops hostile_recurring depth rfl (expired_watches 1 "/soa/services/s"))

end ZkClient

end FrProxy
