import FrProxy.Watcher.Sessions
import FrProxy.ZkClient.Tree

/-!
# Expired sessions

Whether the watchers of an expired session release its states.  They know the
pool and not the client, so that a client of which nobody has noticed anything
keeps its states.
-/

namespace FrProxy

open Program ZkClient

/-!
## Paths in a run
-/

namespace PoolSystem

def SavesNamed : PoolAction -> Prop
  | .saveState _ _ path _ => path ≠ ""
  | _ => True

instance : (a : PoolAction) -> Decidable (SavesNamed a)
  | .saveState _ _ path _ => inferInstanceAs (Decidable (path ≠ ""))
  | .destroyClients _ | .openSection _ | .stamp _ _ | .setConnected _ _ | .setHandle _ _
  | .release _ | .onClientClosing _ | .reset | .setMaxClient _ | .setUsedTimeout _
  | .takeOver _ _ | .removeState _ | .freeState _ => instDecidableTrue

theorem named_openMove {s t : PoolSystem} (h : s.pool.stateBag_.Named) (hmove : OpenMove s t) :
    t.pool.stateBag_.Named := by
  cases hmove with
  | @giveUp c rest _ => exact h.giveTo (fun s => s.clientId == c) 0
  | reuse _ => exact h
  | create => exact h
  | @evict c _ => exact h.giveTo (fun s => s.clientId == c) 0

theorem named_step {s s' : PoolSystem} {a : PoolAction} (hstep : step s a = some s')
    (h : s.pool.stateBag_.Named) (hguard : SavesNamed a) : s'.pool.stateBag_.Named := by
  rw [step_pool hstep]
  cases a with
  | openSection now =>
      exact openSection_pool (fun p => p.stateBag_.Named)
        (fun _ _ hmove ht => named_openMove ht hmove) now h
  | onClientClosing c =>
      show (s.pool.onClientClosing c).stateBag_.Named
      rcases s.pool.onClientClosing_cases c with ⟨_, hclose⟩ | ⟨_, hclose⟩
      · rw [hclose]
        exact h
      · rw [hclose]
        exact h.giveTo (fun s => s.clientId == c) 0
  | reset => exact h.giveTo (fun _ => true) 0
  | setMaxClient max =>
      show (s.pool.setMaxClient max).stateBag_.Named
      rcases s.pool.setMaxClient_eq max with ⟨limit, heq⟩
      rw [heq]
      exact h
  | setUsedTimeout timeoutInMs =>
      show (s.pool.setUsedTimeout timeoutInMs).stateBag_.Named
      rcases s.pool.setUsedTimeout_eq timeoutInMs with ⟨timeout, heq⟩
      rw [heq]
      exact h
  | saveState c type path data => exact h.changed (.save _ rfl hguard)
  | takeOver c key => exact h.giveTo (fun s => s.key == key) c
  | removeState key => exact h.changed (.remove (c := 0) key)
  | freeState key => exact h.giveTo (fun s => s.key == key) 0
  | _ => exact h

theorem named_final {addr : ClientId -> Nat} {actions : List PoolAction}
    (hguard : forall a, a ∈ actions -> SavesNamed a) :
    (finalFrom addr actions).pool.stateBag_.Named := by
  refine Transition.final_keeps step (P := fun s => s.pool.stateBag_.Named)
    (fun _ _ _ hstep h ha => named_step hstep h ha) actions ?_ hguard
  intro key s hs
  simp [start, ClientPool.start] at hs

end PoolSystem

/-!
## A client that nobody notices
-/

namespace ClientPool

/-- The connected owner of the state has not timed out. -/
structure Clings (state : ZkState) (now : Nat) (p : ClientPool) : Prop where
  connected : p.getConnected state.clientId = true
  known : state.clientId ≤ p.lastId_
  fresh : p.timedOut now state.clientId = false
  held : p.stateBag_.get state.key = some state

section Clings

variable {state : ZkState} {now : Nat} {p q : ClientPool}

theorem Clings.of_fields (h : Clings state now p)
    (hconn : q.getConnected state.clientId = p.getConnected state.clientId)
    (hlast : p.lastId_ ≤ q.lastId_)
    (huse : (q.clients state.clientId).lastUse_ = (p.clients state.clientId).lastUse_)
    (htimeout : q.usedTimeout_ = p.usedTimeout_)
    (hheld : q.stateBag_.get state.key = some state) : Clings state now q where
  connected := hconn.trans h.connected
  known := Nat.le_trans h.known hlast
  fresh := (timedOut_congr huse htimeout now).trans h.fresh
  held := hheld

theorem Clings.other (h : Clings state now p) {c : ClientId} (hne : ¬ state.clientId = c)
    (f : ZkClient -> ZkClient) : Clings state now (p.updateClient c f) := by
  refine h.of_fields ?_ (Nat.le_refl _) ?_ rfl h.held
  · simp [getConnected, updateClient, hne]
  · simp [updateClient, hne]

theorem not_timedOut_lastUse (p : ClientPool) (c : ClientId) :
    p.timedOut (p.clients c).lastUse_ c = false := by
  simp only [timedOut, Int.sub_self, Int.zero_emod, decide_eq_false_iff_not, Int.not_lt]
  exact Int.emod_nonneg _ (by decide)

theorem Clings.stamp (h : Clings state now p) (c : ClientId) :
    Clings state now (p.stamp c now) := by
  by_cases hc : state.clientId = c
  · refine ⟨?_, h.known, ?_, h.held⟩
    · rw [<- h.connected]
      simp [ClientPool.stamp, getConnected, updateClient, hc]
    · have huse : ((p.stamp c now).clients state.clientId).lastUse_ = now := by
        simp [ClientPool.stamp, updateClient, hc]
      have hfresh := not_timedOut_lastUse (p.stamp c now) state.clientId
      rw [huse] at hfresh
      exact hfresh
  · exact h.other hc _

theorem Clings.openSection (h : Clings state now p) : Clings state now (p.openSection now).1 := by
  rcases p.openSection_clients now with ⟨hlast, htimeout, hold⟩
  rcases hold state.clientId h.known with ⟨hconn, huse⟩
  exact h.of_fields hconn hlast huse htimeout (openSection_get_kept h.held h.connected h.fresh)

theorem Clings.setInUsing (h : Clings state now p) (c : ClientId) (b : Bool) :
    Clings state now (p.setInUsing c b) :=
  h.of_fields (getConnected_setInUsing p c _ b) (Nat.le_refl _) (lastUse_setInUsing p c _ b) rfl
    h.held

theorem Clings.onClientClosing (h : Clings state now p) (c : ClientId) :
    Clings state now (p.onClientClosing c) := by
  rcases p.onClientClosing_cases c with ⟨_, hclose⟩ | ⟨hconn, hclose⟩
  · rw [hclose]
    exact h.of_fields rfl (Nat.le_refl _) rfl rfl h.held
  · rw [hclose]
    refine h.of_fields rfl (Nat.le_refl _) rfl rfl ?_
    have hne : ¬ state.clientId = c := by
      intro heq
      rw [<- heq, h.connected] at hconn
      cases hconn
    show (p.stateBag_.giveTo (fun s => s.clientId == c) 0).get state.key = some state
    rw [StateBag.get_giveTo, h.held, Option.map_some]
    simp [hne]

theorem Clings.free (h : Clings state now p) (hpath : state.path ≠ "") (type : ZkStateType) :
    Clings state now {
      p with stateBag_ := p.stateBag_.replaceClientIdOf (createKey "" type) 0 } := by
  refine h.of_fields rfl (Nat.le_refl _) rfl rfl ?_
  have hne : ¬ createKey "" type = state.key :=
    fun heq => hpath (createKey_inj heq).left.symm
  rw [StateBag.get_replaceClientIdOf, if_neg hne]
  exact h.held

end Clings

end ClientPool

/-- No session is ever connected, and the clock stands still. -/
def unreachable (now : Nat) : Env where
  parse := fun _ => none
  zookeeperInit := fun _ => false
  zooWgetChildren := fun _ _ => (zconnectionloss, [])
  zooWget := fun _ _ => (zconnectionloss, {})
  zooCreate := fun _ _ => zconnectionloss
  zooGet := fun _ _ => zconnectionloss
  clock := fun _ => now
  cacheFile := none

section Unreachable

variable {now slept : Nat} {state : ZkState}

theorem connectLoop_unreachable {I : World -> Prop}
    (hlog : forall w e, I w -> I { w with trace := w.trace ++ [e] }) (attempts : Nat) :
    Avoids (fun _ => True) I (connectLoop (unreachable now) attempts)
      fun ready w => I w ∧ ready = false := by
  induction attempts with
  | zero => exact Avoids.pure fun _ hw => ⟨hw, rfl⟩
  | succ attempts ih =>
      refine Avoids.bind (Avoids.get (Q := fun _ => I) fun _ hw => hw) fun w => ?_
      refine Avoids.bind (Q := fun _ => I) (Avoids.modify fun v hv => hlog v _ hv) fun _ => ?_
      exact ih

theorem connectZk_unreachable {c : ClientId} {J : ClientPool -> Prop}
    (hhandle : forall p, J p -> J (p.setHandle c false))
    (hconnected : forall p, J p -> J (p.setConnected c false)) (depth : Nat) :
    Avoids (fun _ => True) (fun w => w.slept = slept ∧ J w.pool)
      (connectZk (unreachable now) (depth + 1) c) fun _ w => w.slept = slept ∧ J w.pool := by
  unfold connectZk
  refine Avoids.bind (asked_avoids fun w => w.pool.getConnected c) fun _ => ?_
  apply Avoids.ite fun _ => return_avoids true
  intro _
  refine Avoids.bind (Q := fun _ w => w.slept = slept ∧ J w.pool) ?_ fun _ => ?_
  · exact Avoids.modify fun w hw => ⟨hw.left, hhandle w.pool hw.right⟩
  · refine Avoids.bind (connectLoop_unreachable (fun _ _ hw => hw) 11) fun ready => ?_
    apply Avoids.carried
    intro hready
    subst hready
    refine Avoids.bind (Q := fun _ w => w.slept = slept ∧ J w.pool) ?_ fun _ =>
      return_avoids false
    exact Avoids.modify fun w hw => ⟨hw.left, hconnected w.pool hw.right⟩

/-- The callbacks leave the state with its owner, when no session can be connected. -/
theorem survives_clings {depth : Nat} {hands : Prop} (hpath : state.path ≠ "") :
    Survives (unreachable now) (depth + 1) (fun _ => True) hands fun w =>
      (w.slept = slept ∧ w.pool.Clings state (now + slept)) ∧
        (¬ hands -> ¬ w.pool.MayHandOut) := by
  have hopened : forall w : World, w.slept = slept ->
      w.pool.Clings state (now + slept) ->
        (opened (unreachable now) w).1.Clings state (now + slept) := by
    intro w hslept hw
    have hclean : (w.pool.destroyClients false).Clings state (now + slept) :=
      hw.of_fields rfl (Nat.le_refl _) rfl rfl hw.held
    subst hslept
    exact hclean.openSection
  apply survives_of
  · exact fun w hw => ⟨hw.left, hopened w hw.left hw.right⟩
  · intro w c hw hc
    have hstamp : (stamped (unreachable now) w c).pool.Clings state (now + slept) := by
      have hnow := (hopened w hw.left hw.right).stamp c
      rw [<- hw.left] at hnow ⊢
      exact hnow
    cases hconn : (stamped (unreachable now) w c).pool.getConnected c with
    | true => exact Avoids.of_ok (open_run_connected hconn) ⟨hw.left, hstamp⟩
    | false =>
        have hne : ¬ state.clientId = c := by
          intro heq
          have hsame := hstamp.connected
          rw [heq, hconn] at hsame
          cases hsame
        have hconnect : Avoids (fun _ => True)
            (fun v => v.slept = slept ∧ v.pool.Clings state (now + slept))
            (connectZk (unreachable now) (depth + 1) c)
            fun _ v => v.slept = slept ∧ v.pool.Clings state (now + slept) :=
          connectZk_unreachable (J := ClientPool.Clings state (now + slept))
            (fun p hp => hp.other hne fun client => { client with zhandle_ := false })
            (fun p hp => hp.other hne fun client => { client with connected_ := false }) depth
        intro v hv
        rw [hv, open_run_lost hconn]
        exact hconnect _ ⟨hw.left, hstamp⟩
  · intro c
    refine Avoids.bind
      (Q := fun _ w => w.slept = slept ∧ w.pool.Clings state (now + slept)) ?_ fun _ => ?_
    · exact Avoids.modify fun w hw => ⟨hw.left, hw.right.setInUsing c false⟩
    · exact Avoids.modify fun w hw => ⟨hw.left, hw.right.onClientClosing c⟩
  · exact fun w type hw => ⟨hw.left, hw.right.free hpath type⟩

end Unreachable

/-!
## A znode without a path
-/

/-- There is a state of an ephemeral znode with an empty path. -/
def StateBag.Unnamed (bag : StateBag) : Prop :=
  (bag.get (createKey "" .createEphereral)).isSome = true

theorem StateBag.Unnamed.giveTo {bag : StateBag} (h : bag.Unnamed) (f : ZkState -> Bool)
    (d : ClientId) : (bag.giveTo f d).Unnamed := by
  unfold StateBag.Unnamed
  rw [StateBag.get_giveTo, Option.isSome_map]
  exact h

theorem unnamed_add (bag : StateBag) (c : ClientId) (data : String) :
    (bag.add { clientId := c, type := .createEphereral, path := "", data }).Unnamed := by
  have hkey : ZkState.key { clientId := c, type := .createEphereral, path := "", data } =
      createKey "" .createEphereral := rfl
  unfold StateBag.Unnamed
  rw [StateBag.get_add, if_pos hkey]
  cases bag.get (createKey "" .createEphereral) with
  | none => rfl
  | some s => rfl

theorem not_named {bag : StateBag} (h : bag.Unnamed) : ¬ bag.Named := by
  intro hnamed
  rcases Option.isSome_iff_exists.mp h with ⟨state, hget⟩
  exact hnamed _ state hget (createKey_inj (StateBag.key_of_get hget)).left

theorem unnamed_openSection {p : ClientPool} (h : p.stateBag_.Unnamed) (now : Nat) :
    (p.openSection now).1.stateBag_.Unnamed := by
  refine PoolSystem.openSection_pool (fun q => q.stateBag_.Unnamed) ?_ now h
  intro t u hmove ht
  cases hmove with
  | @giveUp c rest _ => exact ht.giveTo (fun s => s.clientId == c) 0
  | reuse _ => exact ht
  | create => exact ht
  | @evict c _ => exact ht.giveTo (fun s => s.clientId == c) 0

theorem unnamed_opened {env : Env} {w : World} (h : w.pool.stateBag_.Unnamed) :
    (opened env w).1.stateBag_.Unnamed :=
  unnamed_openSection (p := w.pool.destroyClients false) h _

theorem Onward.unnamed {env : Env} {c : ClientId} {w w' : World}
    (h : Onward env c (fun _ => False) w w') (hw : w.pool.stateBag_.Unnamed) : w'.pool.stateBag_.Unnamed := by
  rcases Option.isSome_iff_exists.mp hw with ⟨state, hget⟩
  rcases StateBag.get_eq_some.mp hget with ⟨addr, hslot⟩
  have hptr : (w.pool.stateBag_.deref { key := createKey "" .createEphereral, addr }).isSome =
      true := StateBag.isSome_deref.mpr (congrArg (Option.map StateSlot.addr) hslot)
  rcases Option.isSome_iff_exists.mp (h.states _ (fun h => h) hptr) with ⟨state', hderef⟩
  exact Option.isSome_iff_exists.mpr ⟨state', StateBag.get_of_deref hderef⟩

theorem createEnode_unnamed {env : Env} {c : ClientId} {reconnect : ClientId -> ZkM Bool}
    {w : World} (hconn : w.pool.getConnected c = true) (data : String) :
    Returns (createEnode env reconnect c "" data) w
      fun _ w' => w'.pool.stateBag_.Unnamed := by
  have hready : ready reconnect c w = Except.ok (true, w) := by
    simp [ready, ZkClient.getConnected, hconn]
  apply Returns.bindOk hready
  rw [if_pos rfl]
  simp only [makeEnode, zooCreate, log, saveState, mapBag, mapPool, bind_assoc, get_bind_run,
    modify_bind_run, pure_bind, Returns]
  generalize (if (w.pool.clients c).zhandle_ = true then env.zooCreate w.trace.length ""
    else zinvalidstate) = rc
  by_cases hinvalid : rc = zinvalidstate
  · rw [if_pos hinvalid]
    exact ⟨_, _, rfl, unnamed_add _ c data⟩
  · rw [if_neg hinvalid]
    by_cases hexists : rc = znodeexists
    · rw [if_pos hexists]
      exact ⟨_, _, rfl, (unnamed_add _ c data).giveTo (fun s => s.key == _) 0⟩
    · rw [if_neg hexists]
      exact ⟨_, _, rfl, unnamed_add _ c data⟩

theorem close_unnamed {bad : Stop -> Prop} (c : ClientId) :
    Avoids bad (fun w => w.pool.stateBag_.Unnamed) (close c)
      fun _ w => w.pool.stateBag_.Unnamed := by
  refine Avoids.bind (Q := fun _ w => w.pool.stateBag_.Unnamed) (Avoids.modify fun _ hw => hw)
    fun _ => ?_
  apply Avoids.modify
  intro w hw
  rcases w.pool.onClientClosing_cases c with ⟨_, hclose⟩ | ⟨_, hclose⟩
  · dsimp only
    rw [hclose]
    exact hw
  · dsimp only
    rw [hclose]
    exact hw.giveTo (fun s => s.clientId == c) 0

section Serving

variable {env : Env} {t : ZkTree env.parse} (hserves : Serves env t) (depth : Nat)

include hserves

theorem poolOpen_connects (w : World) :
    Returns (poolOpen env (depth + 1)) w fun r w' => r = (opened env w).2 ∧
      (r = none -> w'.pool = (opened env w).1) ∧
      (forall c, r = some c -> w'.pool.getConnected c = true) ∧
      (w.pool.stateBag_.Unnamed -> w'.pool.stateBag_.Unnamed) := by
  refine Avoids.returns (P := fun v => v = w) (poolOpen_avoids ?_ ?_) rfl
  · intro v hv hnone
    subst hv
    exact ⟨hnone.symm, fun _ => rfl, fun _ h => (nomatch h), unnamed_opened⟩
  · intro v c hv hc
    subst hv
    apply Avoids.of_returns
    intro u hu
    subst hu
    have hkeeps : v.pool.stateBag_.Unnamed -> (stamped env v c).pool.stateBag_.Unnamed :=
      unnamed_opened
    cases hconn : (stamped env v c).pool.getConnected c with
    | true =>
        refine ⟨true, _, open_run_connected hconn, hc.symm, fun h => (nomatch h), ?_, hkeeps⟩
        intro d hd
        cases hd
        exact hconn
    | false =>
        have hattached : (stamped env v c).pool.Attached c := by
          intro htrue
          rw [hconn] at htrue
          cases htrue
        unfold Returns
        rw [open_run_lost hconn]
        refine (connectZk_returns (hserves.provides "") depth hattached).mono fun _ w' honward => ?_
        refine ⟨hc.symm, fun h => (nomatch h), ?_, fun h => honward.unnamed (hkeeps h)⟩
        intro d hd
        cases hd
        exact honward.live.left

theorem survives_unnamed :
    Survives env (depth + 1) (fun _ => True) True fun w => w.pool.stateBag_.Unnamed where
  opens := Avoids.of_returns fun w hw =>
    (poolOpen_connects hserves depth w).mono fun _ _ h => ⟨h.right.right.right hw, fun _ => trivial⟩
  closes := fun _ c => close_unnamed c
  frees := fun type => Avoids.modify fun _ hw =>
    hw.giveTo (fun s => s.key == createKey "" type) 0

theorem recreate_serving (w : World) :
    Returns (WatchCallback.recreate env (depth + 1) "") w fun _ w' =>
      (w.pool.stateBag_.Unnamed -> w'.pool.stateBag_.Unnamed) ∧
      ((opened env w).2 ≠ none -> w'.pool.stateBag_.Unnamed) ∧
      ((opened env w).2 = none -> w'.pool = {
        (opened env w).1 with
        stateBag_ :=
          (opened env w).1.stateBag_.replaceClientIdOf (createKey "" .createEphereral) 0 }) := by
  apply Returns.bind (poolOpen_connects hserves depth w)
  intro r v h
  rcases h with ⟨hr, hnone, hconn, hkeeps⟩
  cases r with
  | none =>
      refine ⟨⟨⟩, { v with pool := { v.pool with stateBag_ := _ } }, rfl, ?_, ?_, ?_⟩
      · exact fun h => (hkeeps h).giveTo (fun s => s.key == createKey "" .createEphereral) 0
      · exact fun h => absurd hr.symm h
      · intro _
        dsimp only
        rw [hnone rfl]
  | some c =>
      have hcreate : Returns (do
          let _ <- createEnode env (connectZk env (depth + 1)) c "" ""
          close c) v fun _ w' => w'.pool.stateBag_.Unnamed := by
        apply Returns.bind (createEnode_unnamed (hconn c rfl) "")
        exact fun _ u hu => (close_unnamed c).returns hu
      refine hcreate.mono fun _ w' h => ?_
      exact ⟨fun _ => h, fun _ => h, fun hopen => absurd (hr.trans hopen) (by simp)⟩

end Serving

/-!
## What the expiry releases
-/

theorem timedOut_turns (p : ClientPool) (now turns : Nat) (c : ClientId) :
    p.timedOut (now + 2 ^ 64 * turns) c = p.timedOut now c := by
  have hturns : ((now + 2 ^ 64 * turns : Nat) : Int) - (p.clients c).lastUse_ =
      ((now : Int) - (p.clients c).lastUse_) + 2 ^ 64 * (turns : Int) := by
    rw [Int.natCast_add, Int.natCast_mul, Int.natCast_pow, Int.sub_eq_add_neg,
      Int.sub_eq_add_neg, Int.add_right_comm]
    rfl
  unfold ClientPool.timedOut
  rw [hturns, Int.add_mul_emod_self_left]

theorem exists_clock (now slept : Nat) : exists clock, clock + slept = now + 2 ^ 64 * slept :=
  ⟨now + 2 ^ 64 * slept - slept, by omega⟩

section Instance

private def hostText : String :=
  "\x7b\"serviceEndpoint\":\x7b\"host\":\"h\",\"port\":1\x7d\x7d"

private def parseHost (text : String) : Option Json :=
  if text = hostText then
    some (.object [("serviceEndpoint", .object [("host", .string "h"), ("port", .int 1)])])
  else none

private theorem parseHost_text : exists members inner,
    parseHost hostText = some (.object members) ∧
    Json.findMember "serviceEndpoint" (.object members) = .ok (some (.object inner)) ∧
    Json.findMember "host" (.object inner) = .ok (some (.string "h")) ∧
    Json.findMember "port" (.object inner) = .ok (some (.int 1)) :=
  ⟨_, _, rfl, rfl, rfl, rfl⟩

private theorem hostText_short : hostText.toList.length < 256 := by
  decide

private theorem hostText_clean : '\x00' ∉ hostText.toList := by
  decide

private theorem host_named : "h" ≠ "" := by
  decide

private theorem no_children (_ : String) : "" ∉ ([] : List String) :=
  List.not_mem_nil

/-- A tree of instances without children. -/
private def bareTree : ZkTree parseHost where
  children := fun _ => []
  data := fun _ => {
    node := { data := hostText }
    host := "h"
    port := 1
    short := hostText_short
    clean := hostText_clean
    parsed := parseHost_text
    named := host_named }
  named := no_children

private def serving (now : Nat) : Env where
  parse := parseHost
  zookeeperInit := fun _ => true
  zooWgetChildren := fun _ path => (zok, bareTree.children path)
  zooWget := fun _ path => (zok, (bareTree.data path).node)
  zooCreate := fun _ _ => zok
  zooGet := fun _ _ => zok
  clock := fun _ => now
  cacheFile := none

private theorem serves_bareTree (now : Nat) : Serves (serving now) bareTree where
  init := fun _ => rfl
  children := fun _ _ => rfl
  data := fun _ _ => rfl
  create := fun _ _ => rfl
  get := fun _ _ => rfl
  clock := fun _ _ _ => Nat.le_refl _

private theorem opened_or_room {w : World} (hmay : w.pool.MayHandOut) :
    exists now, (opened (serving now) w).2 ≠ none ∨
      ((opened (serving now) w).1.using_.length : Int) < (opened (serving now) w).1.maxClient_ := by
  let p := w.pool.destroyClients false
  rcases hmay with ⟨c, hc, hconn⟩ | hroom | ⟨hfull, now, c, hc, htimed⟩
  · refine ⟨0, Or.inl fun hnone => ?_⟩
    have hfind := (ClientPool.openSection_of_none (p := p) hnone).left
    exact List.find?_eq_none.mp hfind c hc hconn
  · refine ⟨0, Or.inl fun hnone => ?_⟩
    exact (ClientPool.openSection_of_none (p := p) hnone).right.left hroom
  · rcases exists_clock now w.slept with ⟨clock, hclock⟩
    refine ⟨clock, ?_⟩
    by_cases hnone : (opened (serving clock) w).2 = none
    · right
      apply ClientPool.openSection_makes_room (p := p) hnone hfull hc
      show p.timedOut (clock + w.slept) c = true
      rw [hclock, timedOut_turns]
      exact htimed
    · exact Or.inl hnone

private theorem recreate_twice {now : Nat} {w : World}
    (h : (opened (serving now) w).2 ≠ none ∨
      ((opened (serving now) w).1.using_.length : Int) < (opened (serving now) w).1.maxClient_) :
    Returns (do
      WatchCallback.recreate (serving now) 1 ""
      WatchCallback.recreate (serving now) 1 "") w fun _ w' => w'.pool.stateBag_.Unnamed := by
  have hserves := serves_bareTree now
  apply Returns.bind (recreate_serving hserves 0 w)
  intro _ v hv
  apply (recreate_serving hserves 0 v).mono
  intro _ u hu
  by_cases hnone : (opened (serving now) w).2 = none
  · have hroom := h.resolve_left fun hne => hne hnone
    apply hu.right.left
    intro hagain
    have hfull := (ClientPool.openSection_of_none
      (p := v.pool.destroyClients false) hagain).right.left
    apply hfull
    rw [hv.right.right hnone]
    exact hroom
  · exact hu.left (hv.right.left hnone)

private theorem expire_unnamed {w : World} (hmay : w.pool.MayHandOut)
    (callbacks : List WatchCallback) : exists env depth w',
      WatchCallback.expire env depth (some "") (.createEnode :: .createEnode :: callbacks) w =
        Except.ok (⟨⟩, w') ∧ w'.pool.stateBag_.Unnamed := by
  rcases opened_or_room hmay with ⟨now, h⟩
  have hserves := serves_bareTree now
  have hrecreate : Avoids (fun _ => True) (fun v => v.pool.stateBag_.Unnamed)
      (WatchCallback.recreate (serving now) 1 "") fun _ v => v.pool.stateBag_.Unnamed :=
    Avoids.of_returns fun v hv => (recreate_serving hserves 0 v).mono fun _ _ hu => hu.left hv
  have hrest := (survives_unnamed hserves 0).expire (Or.inr rfl)
    (fun _ (_ : WatchCallback.createEnode ∈ callbacks) => hrecreate)
  rcases recreate_twice h with ⟨_, v, hrun, hv⟩
  rcases hrest.returns hv with ⟨_, u, hrun', hu⟩
  rcases bind_ok.mp hrun with ⟨_, v', hfirst, hsecond⟩
  refine ⟨serving now, 1, u, ?_, hu⟩
  exact bind_ok.mpr ⟨_, v', hfirst, bind_ok.mpr ⟨_, v, hsecond, hrun'⟩⟩

end Instance

namespace WatchCallback

/--
Whatever ZooKeeper answers, when the callbacks of the session of `k` have been
called, each of them once or for several watches, and have returned, `k` is not
both connected and recorded as an owner, and no state has an empty path.
-/
def ExpiryReleases (w : World) (k : ClientId) (path : Option String)
    (callbacks : List WatchCallback) : Prop :=
  forall env depth calls w', (forall callback, callback ∈ calls <-> callback ∈ callbacks) ->
    expire env depth path calls w = Except.ok (⟨⟩, w') ->
      w'.pool.Released k ∧ w'.pool.stateBag_.Named

def Recreates (path : Option String) (callbacks : List WatchCallback) : Prop :=
  path = some "" ∧ .createEnode ∈ callbacks

section Expiry

variable {w : World} {k : ClientId} {path : Option String} {callbacks : List WatchCallback}

theorem expire_keeps {env : Env} {depth : Nat} {bad : Stop -> Prop} {I : World -> Prop}
    {calls : List WatchCallback}
    (h : Survives env depth bad (¬ Recreates path callbacks) I)
    (hpath : path = none ∨ path = some "")
    (hcalls : forall callback, callback ∈ calls <-> callback ∈ callbacks) :
    Avoids bad I (expire env depth path calls) fun _ => I := by
  apply h.expire hpath
  intro hempty hcreate
  exact h.recreate (not_not.mpr ⟨hempty, (hcalls _).mp hcreate⟩)

theorem not_mayHandOut_of_releases (h : ExpiryReleases w k path callbacks)
    (hrecreates : Recreates path callbacks) : ¬ w.pool.MayHandOut := by
  intro hmay
  rcases hrecreates with ⟨hempty, hcreate⟩
  rcases expire_unnamed hmay callbacks with ⟨env, depth, w', hrun, hunnamed⟩
  rw [<- hempty] at hrun
  refine not_named hunnamed (h env depth _ w' ?_ hrun).right
  intro callback
  simp only [List.mem_cons]
  constructor
  · intro hcallback
    rcases hcallback with rfl | rfl | hcallback
    · exact hcreate
    · exact hcreate
    · exact hcallback
  · exact fun hcallback => Or.inr (Or.inr hcallback)

theorem released_of_releases (h : ExpiryReleases w k path callbacks)
    (hpath : path = none ∨ path = some "") (hnamed : w.pool.stateBag_.Named)
    (hknown : k ≤ w.pool.lastId_) : w.pool.Released k := by
  intro hconn key state hget hclient
  subst hclient
  rcases exists_clock (w.pool.clients state.clientId).lastUse_ w.slept with ⟨clock, hclock⟩
  have hclings : w.pool.Clings state (clock + w.slept) := by
    refine ⟨hconn, hknown, ?_, StateBag.key_of_get hget ▸ hget⟩
    rw [hclock, timedOut_turns]
    exact w.pool.not_timedOut_lastUse state.clientId
  have hsurvives : Survives (unreachable clock) 1 (fun _ => True) (¬ Recreates path callbacks)
      fun v => (v.slept = w.slept ∧ v.pool.Clings state (clock + w.slept)) ∧
        (¬ ¬ Recreates path callbacks -> ¬ v.pool.MayHandOut) :=
    survives_clings (hnamed key state hget)
  have hrun := expire_keeps hsurvives hpath fun _ => Iff.rfl
  rcases hrun.returns ⟨⟨rfl, hclings⟩, fun hnot =>
    not_mayHandOut_of_releases h (not_not.mp hnot)⟩ with ⟨_, w', hrun', hkept⟩
  have hclings' := hkept.left.right
  exact (h _ _ _ w' (fun _ => Iff.rfl) hrun').left hclings'.connected _ state hclings'.held rfl

/-- Without a client for `create_enode_watcher` nothing can go wrong for one that lost nothing. -/
theorem releases_of_released (hreleased : w.pool.Released k)
    (hrefused : Recreates path callbacks -> ¬ w.pool.MayHandOut)
    (hpath : path = none ∨ path = some "") (hnamed : w.pool.stateBag_.Named) (hpos : 0 < k)
    (hknown : k ≤ w.pool.lastId_) : ExpiryReleases w k path callbacks := by
  intro env depth calls w' hcalls hrun
  have hsurvives : Survives env depth (fun _ => False) (¬ Recreates path callbacks)
      fun v => v.pool.Harmless k ∧ (¬ ¬ Recreates path callbacks -> ¬ v.pool.MayHandOut) :=
    survives_harmless
  have hdone := (expire_keeps hsurvives hpath hcalls).ok
    ⟨⟨hreleased, hnamed, hpos, hknown⟩, fun hnot => hrefused (not_not.mp hnot)⟩ hrun
  exact ⟨hdone.left.released, hdone.left.named⟩

end Expiry

/--
The states of an expired session are released exactly if its client had none, or
had noticed, and if `create_enode_watcher` is not called with an empty path while
the pool may hand out a client.
-/
theorem expiry_releases_iff (addr : ClientId -> Nat) (actions : List PoolAction)
    (hguard : forall a, a ∈ actions -> PoolSystem.SavesNamed a) (w : World)
    (hpool : w.pool = (PoolSystem.finalFrom addr actions).pool) (k : ClientId) (hpos : 0 < k)
    (hknown : k ≤ w.pool.lastId_) (path : Option String) (hpath : path = none ∨ path = some "")
    (callbacks : List WatchCallback) :
    ExpiryReleases w k path callbacks <->
      w.pool.Released k ∧ (Recreates path callbacks -> ¬ w.pool.MayHandOut) := by
  have hnamed : w.pool.stateBag_.Named := hpool ▸ PoolSystem.named_final hguard
  constructor
  · intro h
    exact ⟨released_of_releases h hpath hnamed hknown, not_mayHandOut_of_releases h⟩
  · intro h
    exact releases_of_released h.left h.right hpath hnamed hpos hknown

section Example

private def worldAfter (actions : List PoolAction) : World where
  pool := (PoolSystem.finalFrom id actions).pool
  cache := RegistryCache.empty
  trace := []
  ticks := 0
  slept := 0

/-- A client that is still connecting records a watch. -/
private def watchInTime : List PoolAction :=
  [.openSection 5, .stamp 1 5, .saveState 1 .getService "/soa/services/s" ""]

theorem expiry_releases_connecting :
    ExpiryReleases (worldAfter watchInTime) 1 (some "") [.reading .service, .global] :=
  (expiry_releases_iff id watchInTime (by decide) (worldAfter watchInTime) rfl 1 (by decide)
    (by decide) (some "") (Or.inr rfl) [.reading .service, .global]).mpr
    ⟨fun hconn => absurd hconn (by decide), fun h => absurd h.right (by decide)⟩

/-- A connected client records a watch and is closed. -/
private def watchAndClose : List PoolAction :=
  [.openSection 5, .stamp 1 5, .setHandle 1 true, .setConnected 1 true,
    .saveState 1 .getService "/soa/services/s" "", .release 1, .onClientClosing 1]

/-- No callback notices that the session of an idle client has expired. -/
theorem expiry_unnoticed :
    ¬ forall (addr : ClientId -> Nat) (actions : List PoolAction) (w : World) (k : ClientId)
      (path : Option String) (callbacks : List WatchCallback),
      (forall a, a ∈ actions -> PoolSystem.SavesNamed a) ->
        w.pool = (PoolSystem.finalFrom addr actions).pool -> 0 < k -> k ≤ w.pool.lastId_ ->
          path = none ∨ path = some "" ->
            (forall key state, w.pool.stateBag_.get key = some state -> state.clientId = k ->
              ofType state.type ∈ callbacks) ->
              ExpiryReleases w k path callbacks := by
  intro h
  have hall : forall type, ofType type ∈
      [createEnode, reading .serviceInstance, reading .root, reading .service, global] := by
    intro type
    cases type <;> decide
  have hreleases := h id watchAndClose (worldAfter watchAndClose) 1 none _ (by decide) rfl
    (by decide) (by decide) (Or.inl rfl) fun _ state _ _ => hall state.type
  have hreleased := (hreleases (unreachable 0) 1 _ (worldAfter watchAndClose)
    (fun _ => Iff.rfl) rfl).left
  exact hreleased (by decide) "1/soa/services/s"
    { clientId := 1, type := .getService, path := "/soa/services/s" } (by decide) rfl

end Example

end WatchCallback

end FrProxy
