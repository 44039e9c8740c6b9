import FrProxy.ServerHandler
import FrProxy.ZkClient.Foreign

/-!
# The registration of the proxy

The proxy registers itself once.  Should that fail, a later check creates the
znode if its state was left without a client.
-/

namespace FrProxy

namespace ServerHandler

open Program ZkClient

/-!
## The calls of a registration
-/

section Calls

variable {env : Env} {depth : Nat} {c : ClientId} {path : String}

theorem untouched_refused (path : String) (w : World) :
    Untouched (createKey path .createEphereral) w { w with trace := w.trace ++ [.refused] } where
  state := rfl
  events := by
    refine ⟨[.refused], rfl, ?_⟩
    intro e he hkey
    rw [List.mem_singleton.mp he] at hkey
    cases hkey

theorem foreign_after {key : String} {w w' : World} (h : Untouched key w w')
    (hforeign : ¬ w.pool.stateBag_.HeldBy c key) : ¬ w'.pool.stateBag_.HeldBy c key := by
  unfold StateBag.HeldBy StateBag.ownerOf at hforeign ⊢
  rw [h.state]
  exact hforeign

theorem open_untouched {w w' : World} {b : Bool}
    (hforeign : ¬ w.pool.stateBag_.HeldBy c (createKey path .createEphereral))
    (hrun : open_ env depth c w = Except.ok (b, w')) :
    Untouched (createKey path .createEphereral) w w' := by
  simp only [open_, getConnected, bind_assoc, get_bind_run, pure_bind, ite_run] at hrun
  split at hrun
  · cases hrun
    exact Untouched.refl _ w
  · exact connectZk_untouched hforeign hrun

theorem ready_untouched {w w' : World} {b : Bool}
    (hforeign : ¬ w.pool.stateBag_.HeldBy c (createKey path .createEphereral))
    (hrun : ready (connectZk env depth) c w = Except.ok (b, w')) :
    Untouched (createKey path .createEphereral) w w' := by
  simp only [ready, getConnected, bind_assoc, get_bind_run, pure_bind, ite_run] at hrun
  split at hrun
  · cases hrun
    exact Untouched.refl _ w
  · rcases bind_ok.mp hrun with ⟨_, v, hconnect, hrest⟩
    have hconnected := connectZk_untouched hforeign hconnect
    simp only [hasHandle, log, bind_assoc, get_bind_run, pure_bind, ite_run,
      modify_bind_run] at hrest
    split at hrest
    · cases hrest
      exact hconnected
    · cases hrest
      exact hconnected.trans (untouched_refused path v)

theorem createPnode_untouched {absPath : String} {w w' : World} {rc : Int}
    (hforeign : ¬ w.pool.stateBag_.HeldBy c (createKey path .createEphereral))
    (hrun : createPnode env (connectZk env depth) c absPath w = Except.ok (rc, w')) :
    Untouched (createKey path .createEphereral) w w' := by
  rcases bind_ok.mp hrun with ⟨connected, v, hready, hrest⟩
  have hv := ready_untouched hforeign hready
  cases connected with
  | true =>
      have hrecords := makePnode_records hrest
      exact hv.trans (untouched_of_records hrecords (Option.some_ne_none _).symm)
  | false =>
      cases hrest
      exact hv

inductive RegisterRun (env : Env) (c : ClientId) (path : String) : World -> World -> Prop where
  /-- The client could not be connected. -/
  | refused {w v : World} (hmoves : Relation.ReflTransGen (ClientMove env c) w v)
      (hdown : v.pool.getConnected c = false)
      (hforeign : ¬ w.pool.stateBag_.HeldBy c (createKey path .createEphereral) ->
        Untouched (createKey path .createEphereral) w
          { v with trace := v.trace ++ [.refused] }) :
      RegisterRun env c path w { v with trace := v.trace ++ [.refused] }
  /-- ZooKeeper was asked to create the znode. -/
  | asked {w v u w' : World} (rc : Int)
      (hmoves : Relation.ReflTransGen (ClientMove env c) w v)
      (hup : v.pool.getConnected c = true) (hcreate : Records env c (.create path "" rc) v u)
      (hwatch : Records env c (.watch path) u w') : RegisterRun env c path w w'

theorem registerWith_run {hostname : String} {port : Int} {w w' : World} {u : PUnit}
    (hrun : registerWith env depth hostname port c w = Except.ok (u, w')) :
    RegisterRun env c (proxyPath hostname port) w w' := by
  simp only [registerWith, getConnected, log, bind_assoc, get_bind_run, pure_bind, ite_run,
    modify_run] at hrun
  cases hconn : w.pool.getConnected c with
  | false =>
      rw [hconn] at hrun
      cases hrun
      exact RegisterRun.refused Relation.ReflTransGen.refl hconn fun _ =>
        untouched_refused _ w
  | true =>
      rw [hconn] at hrun
      have hreconnect : Steps (ClientMove env c) (connectZk env depth c) := connectZk_steps depth
      rcases bind_ok.mp hrun with ⟨_, w₁, hfirst, hrun⟩
      rcases bind_ok.mp hrun with ⟨_, w₂, hsecond, hrun⟩
      rcases bind_ok.mp hrun with ⟨_, w₃, hlast, hpure⟩
      cases hpure
      have hmoves : Relation.ReflTransGen (ClientMove env c) w w₂ :=
        (createPnode_steps hreconnect _ w _ w₁ hfirst).trans
          (createPnode_steps hreconnect _ w₁ _ w₂ hsecond)
      rcases bind_ok.mp hlast with ⟨connected, v, hready, hmake⟩
      rcases ready_run hreconnect hready with ⟨rfl, hthen, hup⟩ | ⟨rfl, x, hthen, hdown, rfl⟩
      · rcases makeEnode_records hmake with ⟨y, hcreate, hwatch⟩
        exact RegisterRun.asked _ (hmoves.trans hthen) hup hcreate hwatch
      · cases hmake
        refine RegisterRun.refused (hmoves.trans hthen) hdown fun hforeign => ?_
        have h₁ := createPnode_untouched hforeign hfirst
        have h₂ := createPnode_untouched (foreign_after h₁ hforeign) hsecond
        have h₁₂ := h₁.trans h₂
        exact h₁₂.trans (ready_untouched (foreign_after h₁₂ hforeign) hready)

end Calls

/-!
## Whether the registration is made good
-/

section Registered

variable (env : Env) (path : String)

def Announced (events : List Event) : Prop :=
  exists data, Event.create path data zok ∈ events

/-- The znode was created, or a later check creates it: its state has no client. -/
def Settled (w w' : World) : Prop :=
  Announced path (happened w w') ∨
  w'.pool.stateBag_.ownerOf (createKey path .createEphereral) = some 0

/-- The last thing that happened is the creation of the znode, answered with that return code. -/
def EndsWith (rc : Int) (events : List Event) : Prop :=
  exists first data, events = first ++ [.create path data rc, .watch path]

/--
The znode was created; or its creation was answered last, with a return code that
frees the state at once or when the client is closed; or no connection was to be
had, and the section of `open` left the state free or with the client it gave out.
-/
def Handled (w w' : World) : Prop :=
  Announced path (happened w w') ∨
  EndsWith path znodeexists (happened w w') ∨
  EndsWith path zinvalidstate (happened w w') ∨
  ((happened w w').getLast? = some .refused ∧
    exists d, (opened env w).1.stateBag_.ownerOf (createKey path .createEphereral) = some d ∧
      (d = 0 ∨ (opened env w).2 = some d))

variable {env path}

theorem endsWith_append {first : List Event} {data : String} {rc rc' : Int} :
    EndsWith path rc (first ++ [.create path data rc', .watch path]) <-> rc' = rc := by
  constructor
  · intro h
    rcases h with ⟨first', data', heq⟩
    have hlast := (List.append_inj' heq rfl).right
    simp only [List.cons.injEq, Event.create.injEq] at hlast
    exact hlast.left.right.right
  · intro h
    subst h
    exact ⟨first, data, rfl⟩

theorem not_endsWith_refused {first : List Event} {rc : Int} :
    ¬ EndsWith path rc (first ++ [.refused]) := by
  intro h
  rcases h with ⟨first', data, heq⟩
  have hlast := congrArg List.getLast? heq
  simp at hlast

theorem settled_iff_of_refused {w w' : World} {first : List Event}
    (hevents : happened w w' = first ++ [.refused])
    (howned : (exists d, (opened env w).1.stateBag_.ownerOf (createKey path .createEphereral) =
        some d ∧ (d = 0 ∨ (opened env w).2 = some d)) ->
      w'.pool.stateBag_.ownerOf (createKey path .createEphereral) = some 0)
    (hforeign : (¬ exists d, (opened env w).1.stateBag_.ownerOf
        (createKey path .createEphereral) = some d ∧ (d = 0 ∨ (opened env w).2 = some d)) ->
      ¬ Settled path w w') : Settled path w w' <-> Handled env path w w' := by
  unfold Handled
  simp only [hevents, not_endsWith_refused, false_or, List.getLast?_concat, true_and]
  constructor
  · intro h
    right
    by_contra hnone
    exact hforeign hnone h
  · intro h
    rcases h with hannounced | hheld
    · exact Or.inl (hevents ▸ hannounced)
    · exact Or.inr (howned hheld)

theorem owner_of_create {c : ClientId} {rc : Int} {v u x : World}
    (hup : v.pool.getConnected c = true) (hcreate : Records env c (.create path "" rc) v u)
    (hwatch : Records env c (.watch path) u x) :
    x.pool.getConnected c = decide (rc ≠ zinvalidstate) ∧
    x.pool.stateBag_.ownerOf (createKey path .createEphereral) =
      some (if rc = znodeexists then 0 else c) := by
  constructor
  · have hsame : x.pool.getConnected c = u.pool.getConnected c := by
      rw [hwatch.pool]
      rfl
    rw [hsame, hcreate.pool, Event.getConnected_onPool, hup, Bool.and_true]
    rfl
  · have hsame : x.pool.stateBag_ = u.pool.stateBag_ := hwatch.bag
    have henabled : (Event.create path "" rc).Enabled v.pool.stateBag_ := trivial
    rw [hsame, hcreate.bag, Event.ownerOf_onBag henabled]
    simp [Cell.after, Event.gives]

theorem closed_of_refused {c : ClientId} {v x : World} {events : List Event}
    (hc : c ≠ 0) (htrace : x.trace = v.trace ++ events)
    (hdown : ¬ x.pool.getConnected c = true) {w' : World}
    (hreleased : w'.pool.stateBag_.ownerOf (createKey path .createEphereral) =
      if x.pool.getConnected c = true then
        x.pool.stateBag_.ownerOf (createKey path .createEphereral)
      else (x.pool.stateBag_.ownerOf (createKey path .createEphereral)).map
        fun o => if o = c then 0 else o) :
    (x.pool.stateBag_.HeldBy c (createKey path .createEphereral) ->
      w'.pool.stateBag_.ownerOf (createKey path .createEphereral) = some 0) ∧
    (¬ v.pool.stateBag_.HeldBy c (createKey path .createEphereral) ->
      Untouched (createKey path .createEphereral) v x -> ¬ Announced path events ∧
        w'.pool.stateBag_.ownerOf (createKey path .createEphereral) ≠ some 0) := by
  rw [hreleased, if_neg hdown]
  constructor
  · intro hheld
    rcases hheld with ⟨d, howner, rfl | rfl⟩
    · rw [howner]
      simp
    · rw [howner]
      simp
  · intro hforeign huntouched
    constructor
    · intro hannounced
      rcases hannounced with ⟨data, hmem⟩
      rcases huntouched.events with ⟨es, hes, hkeys⟩
      rw [htrace] at hes
      rw [List.append_cancel_left hes] at hmem
      exact hkeys _ hmem rfl
    · intro hzero
      have hkept := foreign_after huntouched hforeign
      rcases Option.map_eq_some_iff.mp hzero with ⟨d, howner, hd⟩
      apply hkept
      refine ⟨d, howner, ?_⟩
      split at hd
      · rename_i heq
        exact Or.inr heq
      · exact Or.inl hd

theorem heldBy_iff_opened {c : ClientId} {w v : World}
    (hresult : some c = (opened env w).2)
    (hbag : v.pool.stateBag_ = (opened env w).1.stateBag_) (key : String) :
    v.pool.stateBag_.HeldBy c key <->
      exists d, (opened env w).1.stateBag_.ownerOf key = some d ∧
        (d = 0 ∨ (opened env w).2 = some d) := by
  unfold StateBag.HeldBy
  rw [hbag, <- hresult]
  constructor
  · intro h
    rcases h with ⟨d, howner, hzero | rfl⟩
    · exact ⟨d, howner, Or.inl hzero⟩
    · exact ⟨d, howner, Or.inr rfl⟩
  · intro h
    rcases h with ⟨d, howner, hzero | hgiven⟩
    · exact ⟨d, howner, Or.inl hzero⟩
    · exact ⟨d, howner, Or.inr (Option.some.inj hgiven).symm⟩

/-- The registration whose creation was answered, after its client is closed. -/
theorem settled_iff_of_answered {c : ClientId} {rc : Int} {w y z x w' : World}
    {first : List Event} (hc : c ≠ 0)
    (hevents : happened w w' = first ++ [.create path "" rc, .watch path])
    (hup : y.pool.getConnected c = true) (hcreate : Records env c (.create path "" rc) y z)
    (hwatch : Records env c (.watch path) z x)
    (hreleased : w'.pool.stateBag_.ownerOf (createKey path .createEphereral) =
      if x.pool.getConnected c = true then
        x.pool.stateBag_.ownerOf (createKey path .createEphereral)
      else (x.pool.stateBag_.ownerOf (createKey path .createEphereral)).map
        fun o => if o = c then 0 else o) :
    Settled path w w' <-> Handled env path w w' := by
  rcases owner_of_create hup hcreate hwatch with ⟨hconn, howner⟩
  rw [hconn, howner] at hreleased
  unfold Settled Handled
  rw [hevents, endsWith_append, endsWith_append, hreleased]
  have hlast : (first ++ [Event.create path "" rc, .watch path]).getLast? ≠ some .refused := by
    simp
  simp only [hlast, false_and, or_false]
  apply or_congr_right
  by_cases hexists : rc = znodeexists
  · simp [hexists]
  · by_cases hstate : rc = zinvalidstate
    · simp [hstate]
    · simp [hexists, hstate, hc]

end Registered

/--
After a registration the znode is created, or the bag holds its state without a
client, exactly when the creation ended with an answer that the code handles or
the connection was missing while the state was there already.
-/
theorem registration_settled_iff (env : Env) (depth : Nat) (hostname : String) (port : Int)
    (w w' : World) (hids : 0 ∉ w.pool.idle_)
    (hrun : registerSelf env depth hostname port w = Except.ok (⟨⟩, w')) :
    Settled (proxyPath hostname port) w w' <-> Handled env (proxyPath hostname port) w w' := by
  rcases bind_ok.mp hrun with ⟨result, u, hopen, hrest⟩
  rcases poolOpen_opens hopen with ⟨hresult, hnone, hsome⟩
  cases result with
  | none =>
      rcases hnone rfl with ⟨htrace, hpool⟩
      cases hrest
      have hevents : happened w { u with trace := u.trace ++ [.refused] } = [] ++ [.refused] :=
        happened_of_append (by rw [htrace, List.nil_append])
      apply settled_iff_of_refused hevents
      · intro howned
        rcases howned with ⟨d, howner, rfl | hgiven⟩
        · dsimp only
          rw [hpool]
          exact howner
        · rw [<- hresult] at hgiven
          cases hgiven
      · intro hforeign hsettled
        rcases hsettled with ⟨data, hmem⟩ | hzero
        · rw [hevents] at hmem
          simp at hmem
        · dsimp only at hzero
          rw [hpool] at hzero
          exact hforeign ⟨0, hzero, Or.inl rfl⟩
  | some c =>
      rcases hsome c rfl with ⟨v, now, b, htrace, hpool, hopened⟩
      rcases bind_ok.mp hrest with ⟨_, x, hregister, hclose⟩
      rcases close_run hclose (createKey (proxyPath hostname port) .createEphereral) with
        ⟨hclosed, hreleased⟩
      have hc : c ≠ 0 := by
        intro hzero
        have hne : (opened env w).2 ≠ some 0 := opened_ne_zero hids
        exact hne (hzero ▸ hresult.symm)
      have hbag : v.pool.stateBag_ = (opened env w).1.stateBag_ := by
        rw [hpool]
        rfl
      have hiff := heldBy_iff_opened hresult hbag
        (createKey (proxyPath hostname port) .createEphereral)
      have hfirst : Relation.ReflTransGen (ClientMove env c) v u := open_steps depth v b u hopened
      cases registerWith_run hregister with
      | @refused y hmoves hdown huntouched =>
          rcases moves_replay (hfirst.trans hmoves) with ⟨es, hes, _⟩
          have hevents : happened w w' = es ++ [.refused] := by
            apply happened_of_append
            rw [hclosed, hes, htrace, List.append_assoc]
          have hdown' : ¬ y.pool.getConnected c = true := by simp [hdown]
          have htrace' : y.trace ++ [.refused] = v.trace ++ happened w w' := by
            rw [hevents, hes, List.append_assoc]
          rcases closed_of_refused (v := v)
            (x := { y with trace := y.trace ++ [Event.refused] }) hc htrace' hdown' hreleased with
            ⟨hheld, hforeign⟩
          apply settled_iff_of_refused hevents
          · intro howned
            have hkept := held_of_moves (hfirst.trans hmoves) (hiff.mpr howned)
            exact hheld hkept
          · intro hnone hsettled
            have hnotHeld : ¬ v.pool.stateBag_.HeldBy c
                (createKey (proxyPath hostname port) .createEphereral) :=
              fun hheld => hnone (hiff.mp hheld)
            have hopenUntouched := open_untouched hnotHeld hopened
            have hall := hopenUntouched.trans
              (huntouched (foreign_after hopenUntouched hnotHeld))
            rcases hforeign hnotHeld hall with ⟨hnotAnnounced, hnotDue⟩
            rcases hsettled with hannounced | hdue
            · exact hnotAnnounced hannounced
            · exact hnotDue hdue
      | @asked y z _ rc hmoves hup hcreate hwatch =>
          rcases moves_replay (hfirst.trans hmoves) with ⟨es, hes, _⟩
          have hevents : happened w w' =
              es ++ [.create (proxyPath hostname port) "" rc, .watch (proxyPath hostname port)] := by
            apply happened_of_append
            rw [hclosed, hwatch.trace, hcreate.trace, hes, htrace]
            simp
          exact settled_iff_of_answered hc hevents hup hcreate hwatch hreleased

section Example

/-- The parents exist, and the connection breaks when the proxy's own znode is to be created. -/
private def breaking : Env where
  parse := fun _ => none
  zookeeperInit := fun _ => true
  zooWgetChildren := fun _ _ => (zok, [])
  zooWget := fun _ _ => (zok, {})
  zooCreate := fun _ path => if path = "/soa/proxies/host:80" then zconnectionloss else znodeexists
  zooGet := fun _ _ => zok
  clock := fun _ => 10
  cacheFile := none

private def unregistered : World where
  pool := ClientPool.start id
  cache := RegistryCache.empty
  trace := []
  ticks := 0
  slept := 0

private def registration (env : Env) : Except Stop (PUnit × World) :=
  registerSelf env 1 "host" 80 unregistered

private def registrationEnd (env : Env) : World :=
  match registration env with
  | .ok (_, w') => w'
  | .error _ => unregistered

private theorem registration_run {env : Env} (h : (registration env).isOk = true) :
    registerSelf env 1 "host" 80 unregistered = Except.ok (⟨⟩, registrationEnd env) := by
  unfold registrationEnd
  cases hrun : registration env with
  | error stop =>
      rw [hrun] at h
      cases h
  | ok result => exact hrun

/-- A connection that breaks in the last call leaves the state with an idle, connected client. -/
theorem broken_registration_kept :
    ¬ forall (env : Env) (depth : Nat) (hostname : String) (port : Int) (w w' : World),
      0 ∉ w.pool.idle_ -> registerSelf env depth hostname port w = Except.ok (⟨⟩, w') ->
      Settled (proxyPath hostname port) w w' := by
  intro h
  have howner : (registrationEnd breaking).pool.stateBag_.ownerOf
      (createKey (proxyPath "host" 80) .createEphereral) = some 1 := by decide +kernel
  have hevents : happened unregistered (registrationEnd breaking) =
      [.init true, .createPnode "/soa" znodeexists, .createPnode "/soa/proxies" znodeexists,
        .create "/soa/proxies/host:80" "" zconnectionloss, .watch "/soa/proxies/host:80"] := by
    decide +kernel
  have hsettled := h breaking 1 "host" 80 unregistered (registrationEnd breaking)
    List.not_mem_nil (registration_run (by decide +kernel))
  rcases hsettled with ⟨data, hmem⟩ | hzero
  · rw [hevents] at hmem
    simp [zok, zconnectionloss] at hmem
  · rw [howner] at hzero
    exact absurd hzero (by decide)

/-- The znode of a proxy that was started again after a crash is still there. -/
theorem crashed_registration_settled :
    Settled (proxyPath "host" 80) unregistered
        (registrationEnd { breaking with zooCreate := fun _ _ => znodeexists }) <->
      Handled { breaking with zooCreate := fun _ _ => znodeexists } (proxyPath "host" 80)
        unregistered (registrationEnd { breaking with zooCreate := fun _ _ => znodeexists }) :=
  registration_settled_iff { breaking with zooCreate := fun _ _ => znodeexists } 1 "host" 80
    unregistered _ List.not_mem_nil (registration_run (by decide +kernel))

end Example

end ServerHandler

end FrProxy
