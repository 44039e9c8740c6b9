import FrProxy.ClientPool.System
import FrProxy.Library.Cell
import FrProxy.Watcher
import FrProxy.ZkClient.SessionTrace
import Mathlib.Data.List.TakeWhile

/-!
# Whether a watch is set again

A watcher must not leave the state of its watch with a live client unless the
watch was set again: nobody would ask ZooKeeper for it any more.
-/

namespace FrProxy

/-!
## Owners
-/

namespace StateBag

def ownerOf (bag : StateBag) (key : String) : Option ClientId :=
  (bag.get key).map (·.clientId)

theorem ownerOf_add (bag : StateBag) (state : ZkState) (key : String) :
    (bag.add state).ownerOf key =
      if state.key = key then some state.clientId else bag.ownerOf key := by
  unfold ownerOf
  rw [get_add]
  split
  · cases bag.get key with
    | none => rfl
    | some s => rfl
  · rfl

theorem ownerOf_remove (bag : StateBag) (k key : String) :
    (bag.remove k).ownerOf key = if k = key then none else bag.ownerOf key := by
  unfold ownerOf
  rw [get_remove]
  split
  · rfl
  · rfl

theorem ownerOf_replaceClientIdOf (bag : StateBag) (k : String) (c : ClientId)
    (key : String) :
    (bag.replaceClientIdOf k c).ownerOf key =
      if k = key then (bag.ownerOf key).map fun _ => c else bag.ownerOf key := by
  unfold ownerOf
  rw [get_replaceClientIdOf]
  split
  · rw [Option.map_map, Option.map_map]
    rfl
  · rfl

theorem ownerOf_replaceClientId (bag : StateBag) (c d : ClientId) (key : String) :
    (bag.replaceClientId c d).ownerOf key =
      (bag.ownerOf key).map fun o => if o = c then d else o := by
  unfold ownerOf replaceClientId
  rw [get_giveTo, Option.map_map, Option.map_map]
  congr 1
  funext s
  by_cases hs : s.clientId = c
  · simp [hs]
  · simp [hs]

end StateBag

namespace Event

/-- The client that an event of client `c` records the state for. -/
def gives (c : ClientId) (key : String) : Event -> Option ClientId
  | .takeOver k => if k = key then some c else none
  | .children type path rc _ =>
      if createKey path type = key ∧ ¬ (type = .getService ∧ rc = znonode) then some c
      else none
  | .instance_ service node _ _ _ =>
      if createKey (service ++ "/" ++ node) .getServiceInstance = key then some c else none
  | .create path _ rc =>
      if createKey path .createEphereral = key then some (if rc = znodeexists then 0 else c)
      else none
  | _ => none

def removes (key : String) : Event -> Bool
  | .children .getService path rc _ =>
      decide (rc = znonode ∧ createKey path .getService = key)
  | .instance_ service _ rc _ _ =>
      decide (rc = znonode ∧ createKey service .getServiceInstance = key)
  | _ => false

theorem ownerOf_onBag {c : ClientId} {key : String} {e : Event} {bag : StateBag}
    (henabled : e.Enabled bag) :
    (e.onBag c bag).ownerOf key =
      Cell.after (gives c key) (fun e _ => removes key e) (bag.ownerOf key) e := by
  cases e with
  | takeOver k =>
      rcases henabled with ⟨s, hs⟩
      simp only [onBag, Cell.after, gives, removes, StateBag.ownerOf_replaceClientIdOf]
      by_cases hk : k = key
      · subst hk
        simp [StateBag.ownerOf, hs]
      · simp [hk]
  | children type path rc nodes =>
      simp only [onBag, Cell.after, gives]
      by_cases hgone : type = .getService ∧ rc = znonode
      · rcases hgone with ⟨rfl, rfl⟩
        simp only [and_self, if_true, removes, StateBag.ownerOf_remove, StateBag.ownerOf_add,
          ZkState.key, not_true, and_false, if_false, true_and]
        by_cases hkey : createKey path .getService = key
        · simp [hkey]
        · simp [hkey]
      · have hkeep : removes key (.children type path rc nodes) = false := by
          cases type with
          | getService =>
              have hrc : rc ≠ znonode := fun h => hgone ⟨rfl, h⟩
              simp [removes, hrc]
          | createEphereral => rfl
          | getServiceInstance => rfl
          | getRoot => rfl
        simp only [hgone, if_false, hkeep, not_false_eq_true, and_true, StateBag.ownerOf_add,
          ZkState.key]
        by_cases hkey : createKey path type = key
        · simp [hkey]
        · simp [hkey]
  | instance_ service node rc data mtime =>
      simp only [onBag, Cell.after, gives, removes]
      by_cases hkey : createKey (service ++ "/" ++ node) .getServiceInstance = key
      · have hne : ¬ createKey service .getServiceInstance = key :=
          fun h => createKey_below_ne service node _ (h.trans hkey.symm)
        rw [if_pos hkey]
        by_cases hrc : rc = znonode
        · simp [hrc, StateBag.ownerOf_remove, StateBag.ownerOf_add, ZkState.key, hne, hkey]
        · simp [hrc, StateBag.ownerOf_add, ZkState.key, hkey]
      · rw [if_neg hkey]
        by_cases hrc : rc = znonode
        · simp only [hrc, if_true, StateBag.ownerOf_remove, StateBag.ownerOf_add, ZkState.key,
            hkey, if_false, true_and]
          by_cases hservice : createKey service .getServiceInstance = key
          · simp [hservice]
          · simp [hservice]
        · simp [hrc, StateBag.ownerOf_add, ZkState.key, hkey]
  | create path data rc =>
      simp only [onBag, Cell.after, gives, removes]
      by_cases hkey : createKey path .createEphereral = key
      · by_cases hrc : rc = znodeexists
        · simp [hrc, StateBag.ownerOf_replaceClientIdOf, StateBag.ownerOf_add, ZkState.key, hkey]
        · simp [hrc, StateBag.ownerOf_add, ZkState.key, hkey]
      · by_cases hrc : rc = znodeexists
        · simp [hrc, StateBag.ownerOf_replaceClientIdOf, StateBag.ownerOf_add, ZkState.key, hkey]
        · simp [hrc, StateBag.ownerOf_add, ZkState.key, hkey]
  | _ => exact (Cell.after_idle rfl fun _ => rfl).symm

end Event

/-!
## Moves of one client
-/

def ownerAfter (c : ClientId) (key : String) (o : Option ClientId) (events : List Event) :
    Option ClientId :=
  events.foldl (Cell.after (Event.gives c key) fun e _ => Event.removes key e) o

theorem ownerAfter_append (c : ClientId) (key : String) (o : Option ClientId)
    (first second : List Event) :
    ownerAfter c key o (first ++ second) =
      ownerAfter c key (ownerAfter c key o first) second :=
  List.foldl_append

def Follows (c : ClientId) (key : String) (w w' : World) (events : List Event) : Prop :=
  w'.trace = w.trace ++ events ∧
  w'.pool.stateBag_.ownerOf key = ownerAfter c key (w.pool.stateBag_.ownerOf key) events

theorem Follows.trans {c : ClientId} {key : String} {u v w : World}
    {first second : List Event} (huv : Follows c key u v first)
    (hvw : Follows c key v w second) : Follows c key u w (first ++ second) := by
  constructor
  · rw [hvw.left, huv.left, List.append_assoc]
  · rw [hvw.right, huv.right, ownerAfter_append]

theorem Records.follows {env : Env} {c : ClientId} {key : String} {e : Event} {w w' : World}
    (h : Records env c e w w') (henabled : e.Enabled w.pool.stateBag_) :
    Follows c key w w' [e] := by
  constructor
  · exact h.trace
  · rw [h.bag, Event.ownerOf_onBag henabled]
    rfl

theorem ClientMove.follows {env : Env} {c : ClientId} {w w' : World}
    (h : ClientMove env c w w') (key : String) : exists events, Follows c key w w' events := by
  cases h with
  | event e he henabled => exact ⟨[e], he.follows henabled⟩
  | hangUp _ => exact ⟨[], by simp, rfl⟩
  | attach => exact ⟨[], by simp, rfl⟩
  | connect _ => exact ⟨[], by simp, rfl⟩
  | disconnect => exact ⟨[], by simp, rfl⟩

theorem moves_follow {env : Env} {c : ClientId} {w w' : World}
    (h : Relation.ReflTransGen (ClientMove env c) w w') (key : String) :
    exists events, Follows c key w w' events := by
  induction h with
  | refl => exact ⟨[], by simp, rfl⟩
  | tail _ hmove ih =>
      rcases ih with ⟨first, hfirst⟩
      rcases hmove.follows key with ⟨second, hsecond⟩
      exact ⟨first ++ second, hfirst.trans hsecond⟩

namespace ZkClient

open Program

/-!
## Opening and closing
-/

structure Numbered (s : PoolSystem) : Prop where
  idle : 0 ∉ s.pool.idle_
  opening : 0 ∉ s.opening

theorem Numbered.openMove {s t : PoolSystem} (hmove : PoolSystem.OpenMove s t) (h : Numbered s) :
    Numbered t := by
  cases hmove with
  | @giveUp c rest hidle =>
      exact ⟨fun hmem => h.idle (hidle ▸ List.mem_cons_of_mem c hmem), h.opening⟩
  | @reuse c rest hidle =>
      refine ⟨fun hmem => h.idle (hidle ▸ List.mem_cons_of_mem c hmem), ?_⟩
      intro hmem
      rcases List.mem_cons.mp hmem with hzero | hmem
      · exact h.idle (hidle ▸ hzero ▸ List.mem_cons_self)
      · exact h.opening hmem
  | create =>
      refine ⟨h.idle, ?_⟩
      intro hmem
      rcases List.mem_cons.mp hmem with hzero | hmem
      · exact absurd hzero.symm (Nat.succ_ne_zero _)
      · exact h.opening hmem
  | evict _ => exact ⟨h.idle, h.opening⟩

theorem opened_ne_zero {env : Env} {w : World} (hids : 0 ∉ w.pool.idle_) :
    (opened env w).2 ≠ some 0 := by
  intro hzero
  have hdone := PoolSystem.openSection_alone Numbered (fun _ _ => Numbered.openMove)
    (p := w.pool.destroyClients false) (env.clock w.ticks + w.slept)
    ⟨hids, List.not_mem_nil⟩
  exact hdone.opening (Option.mem_toList.mpr hzero)

theorem opened_owned {env : Env} {w : World} {key : String}
    (hstate : exists d, w.pool.stateBag_.ownerOf key = some d) :
    exists d, (opened env w).1.stateBag_.ownerOf key = some d := by
  refine PoolSystem.openSection_pool (fun p => exists d, p.stateBag_.ownerOf key = some d)
    ?_ _ hstate
  have hreleased : forall (bag : StateBag) (c : ClientId),
      (exists d, bag.ownerOf key = some d) ->
      exists d, (bag.replaceClientId c 0).ownerOf key = some d := by
    intro bag c h
    rcases h with ⟨d, hd⟩
    have howner := StateBag.ownerOf_replaceClientId bag c 0 key
    rw [hd] at howner
    exact ⟨_, howner⟩
  intro s t hmove h
  cases hmove with
  | @giveUp c rest _ => exact hreleased _ c h
  | reuse _ => exact h
  | create => exact h
  | @evict c _ => exact hreleased _ c h

theorem close_run {c : ClientId} {w w' : World} {u : PUnit}
    (hrun : close c w = Except.ok (u, w')) (key : String) :
    w'.trace = w.trace ∧
    w'.pool.stateBag_.ownerOf key =
      if w.pool.getConnected c = true then w.pool.stateBag_.ownerOf key
      else (w.pool.stateBag_.ownerOf key).map fun o => if o = c then 0 else o := by
  simp only [close, mapPool, modify_bind_run, modify_run] at hrun
  cases hrun
  refine ⟨rfl, ?_⟩
  have hsame := ClientPool.getConnected_setInUsing w.pool c c false
  rcases (w.pool.setInUsing c false).onClientClosing_cases c with
    ⟨hconn, hclose⟩ | ⟨hconn, hclose⟩
  · rw [if_pos (hsame ▸ hconn)]
    dsimp only
    rw [hclose]
    rfl
  · rw [if_neg (Bool.eq_false_iff.mp (hsame ▸ hconn))]
    dsimp only
    rw [hclose]
    exact StateBag.ownerOf_replaceClientId _ _ _ _

end ZkClient

/-- The return code of an event that reads the path for a watch of that type. -/
def Event.readOf (type : ZkStateType) (path : String) : Event -> Option Int
  | .children t p rc _ => if t = type ∧ p = path then some rc else none
  | .instance_ service node rc _ _ =>
      if type = .getServiceInstance ∧ service ++ "/" ++ node = path then some rc else none
  | _ => none

theorem Event.readOf_eq_some {type : ZkStateType} {path : String} {e : Event} {rc : Int}
    (h : e.readOf type path = some rc) :
    (exists nodes, e = .children type path rc nodes) ∨
    (type = .getServiceInstance ∧ exists service node data mtime,
      service ++ "/" ++ node = path ∧ e = .instance_ service node rc data mtime) := by
  cases e with
  | children t p r nodes =>
      simp only [readOf, Option.ite_none_right_eq_some, Option.some.injEq] at h
      rcases h with ⟨⟨rfl, rfl⟩, rfl⟩
      exact Or.inl ⟨nodes, rfl⟩
  | instance_ service node r data mtime =>
      simp only [readOf, Option.ite_none_right_eq_some, Option.some.injEq] at h
      rcases h with ⟨⟨htype, hpath⟩, rfl⟩
      exact Or.inr ⟨htype, service, node, data, mtime, hpath, rfl⟩
  | _ => cases h

namespace Watcher

open Program ZkClient

/-!
## The read of a watcher
-/

inductive RereadRun (env : Env) (c : ClientId) (watcher : Watcher) (path : String) :
    World -> World -> Prop where
  /-- The client could not be connected. -/
  | refused {w w' : World} (hdown : w'.pool.getConnected c = false) :
      RereadRun env c watcher path w w'
  /-- The path was read, and after it what was listed. -/
  | read {w v u w' : World} (e : Event) (rc : Int)
      (hread : e.readOf watcher.stateType path = some rc)
      (hmoves : Relation.ReflTransGen (ClientMove env c) w v) (hrecords : Records env c e v u)
      (hrest : Relation.ReflTransGen (ClientMove env c) u w')
      (hlast : watcher = .serviceInstance -> w' = u) : RereadRun env c watcher path w w'

theorem guarded_run {env : Env} {c : ClientId} {watcher : Watcher} {path : String}
    {reconnect : ClientId -> ZkM Bool}
    (hreconnect : Steps (ClientMove env c) (reconnect c)) {x : ZkM Bool}
    (hx : forall v a w', x v = Except.ok (a, w') -> exists e rc u,
      e.readOf watcher.stateType path = some rc ∧ Records env c e v u ∧
      Relation.ReflTransGen (ClientMove env c) u w' ∧ (watcher = .serviceInstance -> w' = u))
    {w w' : World} {b : Bool}
    (hrun : (do if <- ready reconnect c then x else return false : ZkM Bool) w =
      Except.ok (b, w')) : RereadRun env c watcher path w w' := by
  rcases bind_ok.mp hrun with ⟨connected, v, hready, hrest⟩
  rcases ready_run hreconnect hready with ⟨rfl, hmoves, _⟩ | ⟨rfl, u, _, hdown, rfl⟩
  · rcases hx v b w' hrest with ⟨e, rc, u, hread, hrecords, hafter, hlast⟩
    exact RereadRun.read e rc hread hmoves hrecords hafter hlast
  · cases hrest
    exact RereadRun.refused hdown

theorem splitNode_append {path : String} (h : '/' ∈ path.toList) :
    (splitNode path).1 ++ "/" ++ (splitNode path).2 = path := by
  unfold splitNode
  have hparts := List.takeWhile_append_dropWhile (p := fun ch => ch != '/')
    (l := path.toList.reverse)
  cases hdrop : path.toList.reverse.dropWhile fun ch => ch != '/' with
  | nil =>
      have hall := List.dropWhile_eq_nil_iff.mp hdrop '/' (List.mem_reverse.mpr h)
      simp at hall
  | cons slash rest =>
      have hslash : slash = '/' := by
        have hhead := List.head?_dropWhile_not (fun ch => ch != '/') path.toList.reverse
        rw [hdrop] at hhead
        simpa using hhead
      rw [hdrop, hslash] at hparts
      have hpath : path.toList =
          rest.reverse ++ ['/'] ++ (path.toList.reverse.takeWhile fun ch => ch != '/').reverse := by
        have hreverse := congrArg List.reverse hparts
        simpa using hreverse.symm
      apply String.toList_injective
      simp only [String.toList_append, String.toList_ofList]
      exact hpath.symm

theorem reread_run {env : Env} {depth : Nat} {path : String} {c : ClientId}
    {watcher : Watcher} (hpath : '/' ∈ path.toList) {w w' : World} {b : Bool}
    (hrun : reread env depth path c watcher w = Except.ok (b, w')) :
    RereadRun env c watcher path w w' := by
  have hreconnect : Steps (ClientMove env c) (connectZk env depth c) := connectZk_steps depth
  cases watcher with
  | serviceInstance =>
      refine guarded_run hreconnect ?_ hrun
      intro v a w' hread
      rcases readInstance_records hread with ⟨rc, data, mtime, h⟩
      refine ⟨_, rc, w', ?_, h, Relation.ReflTransGen.refl, fun _ => rfl⟩
      simp [Event.readOf, stateType, splitNode_append hpath]
  | root =>
      refine guarded_run hreconnect ?_ hrun
      intro v a w' hread
      rcases bind_ok.mp hread with ⟨⟨ret, list⟩, u, hlist, hloop⟩
      rcases listServices_records hlist with ⟨rc, nodes, h, _⟩
      refine ⟨_, rc, u, by simp [Event.readOf, stateType], h, ?_, fun heq => by cases heq⟩
      have hloopSteps : Steps (ClientMove env c) (list.foldlM (fun ret zkpath => do
          if ret then getService env (connectZk env depth) c zkpath else return false)
          ret) :=
        Steps.foldlM list (fun ret zkpath _ =>
          Steps.ite (getService_steps hreconnect zkpath) (Steps.pure false)) ret
      exact hloopSteps u a w' hloop
  | service =>
      refine guarded_run hreconnect ?_ hrun
      intro v a w' hread
      rcases bind_ok.mp hread with ⟨⟨ret, nodes⟩, u, hlist, hloop⟩
      rcases listService_records hlist with ⟨rc, children, h, _⟩
      refine ⟨_, rc, u, by simp [Event.readOf, stateType], h, ?_, fun heq => by cases heq⟩
      exact readInstances_steps hreconnect path nodes ret u a w' hloop

theorem reread_told {env : Env} {depth : Nat} {path : String} {c : ClientId} {watcher : Watcher}
    {w w' : World} {b : Bool} (hrun : reread env depth path c watcher w = Except.ok (b, w')) :
    Told c w w' :=
  told_of_steps (watcher.reread_steps path c) hrun

/-!
## The duty of a watcher
-/

section Duty

variable (env : Env) (watcher : Watcher) (type : ZkEventType) (path : String)

/-- The watched read was answered `ZOK`, on the session that the client still has. -/
def Rearmed (events : List Event) : Prop :=
  exists before e after, events = before ++ e :: after ∧
    e.readOf watcher.stateType path = some zok ∧
    forall e', e' ∈ after -> forall up, e'.session up = up

def Vanished (events : List Event) : Prop :=
  type = .deleted ∨ exists e, e ∈ events ∧ e.readOf watcher.stateType path = some znonode

/-- A connected client is recorded for the watch, but the watch was not set again. -/
def Forgotten (w w' : World) : Prop :=
  ¬ Rearmed watcher path (happened w w') ∧ exists d, d ≠ 0 ∧
    w'.pool.stateBag_.ownerOf (createKey path watcher.stateType) = some d ∧
    w'.pool.getConnected d = true

/--
The watch was set again, or its state was removed with the znode, or the state
was released; and no connected client is left with a watch that was used up.
-/
def Settled (w w' : World) : Prop :=
  (Rearmed watcher path (happened w w') ∨
    (w'.pool.stateBag_.ownerOf (createKey path watcher.stateType) = none ∧
      Vanished watcher type path (happened w w')) ∨
    w'.pool.stateBag_.ownerOf (createKey path watcher.stateType) = some 0) ∧
  ¬ Forgotten watcher path w w'

def LastRead (rc : Int) (events : List Event) : Prop :=
  (events.filterMap fun e => e.readOf watcher.stateType path).getLast? = some rc

/-- The owner of the state after the events of client `c`, when the section of `open` left `o`. -/
def Owner (c : ClientId) (o : Option ClientId) (events : List Event) (d : ClientId) : Prop :=
  Cell.Holds (Event.gives c (createKey path watcher.stateType))
    (fun e _ => Event.removes (createKey path watcher.stateType) e) o events d

/--
No client could be had; or the path was read with success on a session that was
not lost after it; or the last answer was that the service is gone; or the
client ended without a session, and it is the one whose states its closing
releases.
-/
def Handled (w w' : World) : Prop :=
  let events := happened w w'
  let o := (opened env w).1.stateBag_.ownerOf (createKey path watcher.stateType)
  type = .deleted ∨ forall c, (opened env w).2 = some c ->
    Rearmed watcher path events ∨
    (watcher = .service ∧ LastRead watcher path znonode events) ∨
    (sessionAfter ((opened env w).1.getConnected c) events = false ∧
      ((exists d, Owner watcher path c o events d ∧ (d = 0 ∨ d = c)) ∨
        (forall d, ¬ Owner watcher path c o events d) ∧ Vanished watcher type path events))

end Duty

/-!
## The owner after the reads of the path
-/

section Reads

variable {env : Env} {watcher : Watcher} {path : String} {c : ClientId} {w w' : World}

theorem lastRead_append {e : Event} {rc : Int} {events : List Event} :
    LastRead watcher path rc (events ++ [e]) <->
      e.readOf watcher.stateType path = some rc ∨
      (e.readOf watcher.stateType path = none ∧ LastRead watcher path rc events) := by
  unfold LastRead
  rw [List.filterMap_append]
  cases hread : e.readOf watcher.stateType path with
  | none => simp [hread]
  | some rc' => simp [hread]

theorem vanished_of_lastRead {type : ZkEventType} {events : List Event}
    (h : LastRead watcher path znonode events) : Vanished watcher type path events := by
  rcases List.mem_filterMap.mp (List.mem_of_getLast? h) with ⟨e, he, hread⟩
  exact Or.inr ⟨e, he, hread⟩

theorem gives_of_not_read {e : Event} (h : e.readOf watcher.stateType path = none) :
    e.gives c (createKey path watcher.stateType) = none ∨
      (e = .takeOver (createKey path watcher.stateType) ∧
        e.gives c (createKey path watcher.stateType) = some c) := by
  cases e with
  | takeOver k =>
      by_cases hk : k = createKey path watcher.stateType
      · exact Or.inr ⟨by rw [hk], if_pos hk⟩
      · exact Or.inl (if_neg hk)
  | children type p rc nodes =>
      refine Or.inl (if_neg fun hgives => ?_)
      rcases createKey_inj hgives.left with ⟨rfl, rfl⟩
      simp [Event.readOf] at h
  | instance_ service node rc data mtime =>
      refine Or.inl (if_neg fun hgives => ?_)
      rcases createKey_inj hgives with ⟨rfl, htype⟩
      simp [Event.readOf, <- htype] at h
  | create p data rc =>
      refine Or.inl (if_neg fun hgives => ?_)
      have htype := (createKey_inj hgives).right
      cases watcher with
      | serviceInstance => cases htype
      | root => cases htype
      | service => cases htype
  | _ => exact Or.inl rfl

theorem removes_of_not_read {e : Event} (hwatcher : watcher ≠ .serviceInstance)
    (h : e.readOf watcher.stateType path = none) :
    e.removes (createKey path watcher.stateType) = false := by
  cases e with
  | children type p rc nodes =>
      cases type with
      | getService =>
          refine decide_eq_false fun hgone => ?_
          rcases createKey_inj hgone.right with ⟨rfl, htype⟩
          simp [Event.readOf, <- htype] at h
      | createEphereral => rfl
      | getServiceInstance => rfl
      | getRoot => rfl
  | instance_ service node rc data mtime =>
      refine decide_eq_false fun hgone => ?_
      have htype := (createKey_inj hgone.right).right
      cases watcher with
      | serviceInstance => exact hwatcher rfl
      | root => cases htype
      | service => cases htype
  | _ => rfl

theorem owner_of_read {e : Event} {rc : Int}
    (hread : e.readOf watcher.stateType path = some rc) (hrecords : Records env c e w w') :
    w'.pool.stateBag_.ownerOf (createKey path watcher.stateType) =
      if watcher = .service ∧ rc = znonode then none else some c := by
  rcases Event.readOf_eq_some hread with
    ⟨nodes, rfl⟩ | ⟨htype, service, node, data, mtime, rfl, rfl⟩
  · rw [(hrecords.follows trivial).right]
    simp only [ownerAfter, List.foldl_cons, List.foldl_nil, Cell.after, Event.gives, true_and]
    cases watcher with
    | serviceInstance => simp [stateType]
    | root => simp [stateType]
    | service =>
        by_cases hrc : rc = znonode
        · simp [stateType, hrc, Event.removes]
        · simp [stateType, hrc]
  · rw [(hrecords.follows trivial).right]
    have hwatcher : watcher ≠ .service := by
      intro h
      rw [h] at htype
      cases htype
    simp [ownerAfter, Cell.after, Event.gives, htype, hwatcher]

/-- The owner after moves of a client is told by the last read of the path among them. -/
theorem moves_lastRead (hwatcher : watcher ≠ .serviceInstance)
    (h : Relation.ReflTransGen (ClientMove env c) w w') :
    exists events, Follows c (createKey path watcher.stateType) w w' events ∧
      forall rc, LastRead watcher path rc events ->
        w'.pool.stateBag_.ownerOf (createKey path watcher.stateType) =
          if watcher = .service ∧ rc = znonode then none else some c := by
  induction h with
  | refl =>
      refine ⟨[], ⟨by simp, rfl⟩, fun rc hlast => ?_⟩
      simp [LastRead] at hlast
  | @tail u v _ hmove ih =>
      rcases ih with ⟨events, hevents, howner⟩
      have hsilent : v.trace = u.trace -> v.pool.stateBag_ = u.pool.stateBag_ ->
          exists events, Follows c (createKey path watcher.stateType) w v events ∧
            forall rc, LastRead watcher path rc events ->
              v.pool.stateBag_.ownerOf (createKey path watcher.stateType) =
                if watcher = .service ∧ rc = znonode then none else some c := by
        intro htrace hbag
        rw [hbag]
        exact ⟨events, ⟨htrace.trans hevents.left, by rw [hbag]; exact hevents.right⟩, howner⟩
      cases hmove with
      | event e he henabled =>
          refine ⟨events ++ [e], hevents.trans (he.follows henabled), fun rc hlast => ?_⟩
          rcases lastRead_append.mp hlast with hread | ⟨hnone, hlast⟩
          · exact owner_of_read hread he
          · have hbefore := howner rc hlast
            have hremoves := removes_of_not_read hwatcher hnone
            rw [he.bag, Event.ownerOf_onBag henabled]
            rcases gives_of_not_read (c := c) hnone with hgives | ⟨rfl, hgives⟩
            · simp [Cell.after, hgives, hremoves, hbefore]
            · rcases henabled with ⟨s, hs⟩
              have hsome : u.pool.stateBag_.ownerOf (createKey path watcher.stateType) =
                  some s.clientId := by
                unfold StateBag.ownerOf
                rw [hs]
                rfl
              rw [hbefore] at hsome
              split at hsome
              · cases hsome
              · rename_i hkept
                rw [if_neg hkept]
                simp [Cell.after, hgives]
      | hangUp _ => exact hsilent rfl rfl
      | attach => exact hsilent rfl rfl
      | connect _ => exact hsilent rfl rfl
      | disconnect => exact hsilent rfl rfl

end Reads

/-!
## The callback
-/

theorem callback_run {env : Env} {depth : Nat} {watcher : Watcher} {type : ZkEventType}
    {path : String} {w w' : World}
    (hrun : callback env depth watcher type path w = Except.ok (⟨⟩, w')) :
    ((opened env w).2 = none ∧ w'.pool.stateBag_ =
      (opened env w).1.stateBag_.replaceClientIdOf (createKey path watcher.stateType) 0) ∨
    exists c x u v now, (opened env w).2 = some c ∧ x.trace = w.trace ∧
      x.pool = (opened env w).1.stamp c now ∧ Relation.ReflTransGen (ClientMove env c) x u ∧
      Told c x u ∧ onEvent env depth watcher type path c u = Except.ok (⟨⟩, v) ∧
      close c v = Except.ok (⟨⟩, w') := by
  rcases bind_ok.mp hrun with ⟨result, u, hopen, hrest⟩
  rcases poolOpen_opens hopen with ⟨hresult, hnone, hsome⟩
  cases result with
  | none =>
      refine Or.inl ⟨hresult.symm, ?_⟩
      rw [modify_ok.mp hrest]
      dsimp only
      rw [(hnone rfl).right]
  | some c =>
      rcases bind_ok.mp hrest with ⟨_, v, hevent, hclose⟩
      rcases hsome c rfl with ⟨x, now, b, htrace, hpool, hrun⟩
      exact Or.inr ⟨c, x, u, v, now, hresult.symm, htrace, hpool, open_steps depth x b u hrun,
        told_of_steps (open_steps depth) hrun, hevent, hclose⟩

section Endings

variable {env : Env} {watcher : Watcher} {type : ZkEventType} {path : String} {c : ClientId}
variable {w w' : World} {events : List Event}

theorem owner_iff {o : Option ClientId} {d : ClientId} :
    Owner watcher path c o events d <->
      ownerAfter c (createKey path watcher.stateType) o events = some d :=
  Cell.foldl_after_eq_some.symm

theorem settled_iff :
    Settled watcher type path w w' <->
      Rearmed watcher path (happened w w') ∨
      (w'.pool.stateBag_.ownerOf (createKey path watcher.stateType) = none ∧
        Vanished watcher type path (happened w w')) ∨
      w'.pool.stateBag_.ownerOf (createKey path watcher.stateType) = some 0 := by
  refine and_iff_left_of_imp fun h hforgotten => ?_
  rcases hforgotten with ⟨hnot, d, hd, howner, _⟩
  rcases h with hrearmed | ⟨hnone, _⟩ | hzero
  · exact hnot hrearmed
  · rw [hnone] at howner
    cases howner
  · rw [hzero] at howner
    exact hd (Option.some.inj howner).symm

theorem settled_iff_of_lost (hc : (opened env w).2 = some c) (htype : type ≠ .deleted)
    (hlost : sessionAfter ((opened env w).1.getConnected c) (happened w w') = false)
    (hgone : watcher = .service -> LastRead watcher path znonode (happened w w') ->
      ownerAfter c (createKey path watcher.stateType)
        ((opened env w).1.stateBag_.ownerOf (createKey path watcher.stateType))
        (happened w w') = none)
    (howner : w'.pool.stateBag_.ownerOf (createKey path watcher.stateType) =
      (ownerAfter c (createKey path watcher.stateType)
        ((opened env w).1.stateBag_.ownerOf (createKey path watcher.stateType))
        (happened w w')).map fun o => if o = c then 0 else o) :
    Settled watcher type path w w' <-> Handled env watcher type path w w' := by
  rw [settled_iff, howner]
  unfold Handled
  simp only [htype, false_or, hc, Option.some.injEq, forall_eq', hlost, true_and, owner_iff]
  constructor
  · intro h
    rcases h with hrearmed | ⟨hnone, hvanished⟩ | hzero
    · exact Or.inl hrearmed
    · rw [Option.map_eq_none_iff] at hnone
      refine Or.inr (Or.inr (Or.inr ⟨fun d hd => ?_, hvanished⟩))
      rw [hnone] at hd
      cases hd
    · rcases Option.map_eq_some_iff.mp hzero with ⟨d, hd, hmapped⟩
      refine Or.inr (Or.inr (Or.inl ⟨d, hd, ?_⟩))
      split at hmapped
      · rename_i heq
        exact Or.inr heq
      · exact Or.inl hmapped
  · intro h
    rcases h with hrearmed | ⟨hwatcher, hlast⟩ | ⟨d, hd, hreleased⟩ | ⟨hnone, hvanished⟩
    · exact Or.inl hrearmed
    · refine Or.inr (Or.inl ⟨?_, vanished_of_lastRead hlast⟩)
      rw [hgone hwatcher hlast]
      rfl
    · refine Or.inr (Or.inr ?_)
      rw [hd, Option.map_some]
      rcases hreleased with rfl | rfl
      · simp
      · simp
    · refine Or.inr (Or.inl ⟨?_, hvanished⟩)
      rw [Option.map_eq_none_iff]
      exact Option.eq_none_iff_forall_ne_some.mpr hnone

theorem settled_iff_of_connected {rc : Int} (hc : (opened env w).2 = some c) (hnumber : c ≠ 0)
    (htype : type ≠ .deleted)
    (hup : sessionAfter ((opened env w).1.getConnected c) (happened w w') = true)
    (hlast : LastRead watcher path rc (happened w w'))
    (howner : w'.pool.stateBag_.ownerOf (createKey path watcher.stateType) =
      if watcher = .service ∧ rc = znonode then none else some c) :
    Settled watcher type path w w' <-> Handled env watcher type path w w' := by
  rw [settled_iff, howner]
  unfold Handled
  simp only [htype, false_or, hc, Option.some.injEq, forall_eq', hup, Bool.true_eq_false, false_and,
    or_false]
  by_cases hgone : watcher = .service ∧ rc = znonode
  · have hgoneLast : LastRead watcher path znonode (happened w w') := hgone.right ▸ hlast
    rw [if_pos hgone]
    exact iff_of_true (Or.inr (Or.inl ⟨rfl, vanished_of_lastRead hgoneLast⟩))
      (Or.inr ⟨hgone.left, hgoneLast⟩)
  · rw [if_neg hgone]
    constructor
    · intro h
      rcases h with hrearmed | ⟨hnone, _⟩ | hzero
      · exact Or.inl hrearmed
      · cases hnone
      · exact absurd (Option.some.inj hzero) hnumber
    · intro h
      rcases h with hrearmed | ⟨hwatcher, hlast'⟩
      · exact Or.inl hrearmed
      · exact absurd ⟨hwatcher, Option.some.inj (hlast.symm.trans hlast')⟩ hgone

theorem settled_iff_of_reread {depth now : Nat} {x u v : World} {b : Bool}
    (hpath : '/' ∈ path.toList) (hc : (opened env w).2 = some c) (hnumber : c ≠ 0)
    (htype : type ≠ .deleted) (htrace : x.trace = w.trace)
    (hpool : x.pool = (opened env w).1.stamp c now)
    (hopen : Relation.ReflTransGen (ClientMove env c) x u) (htold : Told c x u)
    (hrun : reread env depth path c watcher u = Except.ok (b, v))
    (hclose : close c v = Except.ok (⟨⟩, w')) :
    Settled watcher type path w w' <-> Handled env watcher type path w w' := by
  rcases close_run hclose (createKey path watcher.stateType) with ⟨hclosed, hreleased⟩
  have hsteps : Steps (ClientMove env c) (reread env depth path c watcher) :=
    watcher.reread_steps path c
  have hmoves : Relation.ReflTransGen (ClientMove env c) x v := hopen.trans (hsteps u b v hrun)
  rcases moves_follow hmoves (createKey path watcher.stateType) with ⟨events, hfollows⟩
  rcases htold.trans (reread_told hrun) with ⟨told, htold, hsession⟩
  have hsame : told = events := List.append_cancel_left (htold.symm.trans hfollows.left)
  have hevents : happened w w' = events := by
    apply happened_of_append
    rw [hclosed, hfollows.left, htrace]
  have hconnected : v.pool.getConnected c =
      sessionAfter ((opened env w).1.getConnected c) (happened w w') := by
    rw [hsession, hsame, hevents, hpool]
    simp [ClientPool.getConnected, ClientPool.stamp, ClientPool.updateClient]
  have howned : v.pool.stateBag_.ownerOf (createKey path watcher.stateType) =
      ownerAfter c (createKey path watcher.stateType)
        ((opened env w).1.stateBag_.ownerOf (createKey path watcher.stateType))
        (happened w w') := by
    rw [hfollows.right, hevents, hpool]
    rfl
  have hlistening : watcher ≠ .serviceInstance -> forall rc,
      LastRead watcher path rc (happened w w') ->
      v.pool.stateBag_.ownerOf (createKey path watcher.stateType) =
        if watcher = .service ∧ rc = znonode then none else some c := by
    intro hwatcher rc hlast
    rcases moves_lastRead hwatcher hmoves with ⟨events', hfollows', howner⟩
    have hsame' : events' = events := List.append_cancel_left
      (hfollows'.left.symm.trans hfollows.left)
    rw [hevents, <- hsame'] at hlast
    exact howner rc hlast
  cases hup : v.pool.getConnected c with
  | false =>
      apply settled_iff_of_lost hc htype (hconnected.symm.trans hup)
      · intro hwatcher hlast
        rw [<- howned, hlistening (by simp [hwatcher]) znonode hlast, if_pos ⟨hwatcher, rfl⟩]
      · rw [hreleased, if_neg (by simp [hup]), howned]
  | true =>
      rw [if_pos hup] at hreleased
      have hlast : exists rc, LastRead watcher path rc (happened w w') ∧
          v.pool.stateBag_.ownerOf (createKey path watcher.stateType) =
            if watcher = .service ∧ rc = znonode then none else some c := by
        cases reread_run hpath hrun with
        | refused hdown =>
            rw [hup] at hdown
            cases hdown
        | @read y z _ e rc hread hbefore hrecords hafter hlast =>
            rcases moves_follow hbefore (createKey path watcher.stateType) with ⟨second, hsecond⟩
            rcases moves_follow hafter (createKey path watcher.stateType) with ⟨third, hthird⟩
            rcases moves_follow hopen (createKey path watcher.stateType) with ⟨first, hfirst⟩
            have hsplit : happened w w' = first ++ second ++ e :: third := by
              apply happened_of_append
              rw [hclosed, hthird.left, hrecords.trace, hsecond.left, hfirst.left, htrace]
              simp
            by_cases hwatcher : watcher = .serviceInstance
            · have hsame : v = z := hlast hwatcher
              subst hsame
              have hnil : third = [] := by simpa using hthird.left
              refine ⟨rc, ?_, owner_of_read hread hrecords⟩
              rw [hsplit, hnil]
              exact lastRead_append.mpr (Or.inl hread)
            · have hreads : (happened w w').filterMap
                  (fun e => e.readOf watcher.stateType path) ≠ [] := by
                apply List.ne_nil_of_mem (a := rc)
                exact List.mem_filterMap.mpr ⟨e, by rw [hsplit]; simp, hread⟩
              have hread' := List.getLast?_eq_some_getLast hreads
              exact ⟨_, hread', hlistening hwatcher _ hread'⟩
      rcases hlast with ⟨rc, hlast, howner⟩
      exact settled_iff_of_connected hc hnumber htype (hconnected.symm.trans hup) hlast
        (hreleased.trans howner)

end Endings

/--
A watcher sets its watch again, or removes or releases its state, and leaves no
watch that was used up with a connected client, exactly when the reads ended with
an answer that the code handles.
-/
theorem settled_iff_handled (env : Env) (depth : Nat) (watcher : Watcher)
    (type : ZkEventType) (path : String) (w w' : World)
    (htype : type ≠ .session ∧ type ≠ .notWatching) (hpath : '/' ∈ path.toList)
    (hids : 0 ∉ w.pool.idle_)
    (hstate : exists d, w.pool.stateBag_.ownerOf (createKey path watcher.stateType) = some d)
    (hrun : callback env depth watcher type path w = Except.ok (⟨⟩, w')) :
    Settled watcher type path w w' <-> Handled env watcher type path w w' := by
  have hnumber : (opened env w).2 ≠ some 0 := opened_ne_zero hids
  have howned : exists d, (opened env w).1.stateBag_.ownerOf
      (createKey path watcher.stateType) = some d := opened_owned hstate
  rcases howned with ⟨d, hd⟩
  rcases callback_run hrun with ⟨hnone, hbag⟩ |
      ⟨c, x, u, v, now, hc, htrace, hpool, hopen, htold, hevent, hclose⟩
  · refine iff_of_true (settled_iff.mpr (Or.inr (Or.inr ?_))) (Or.inr fun c hc => ?_)
    · rw [hbag, StateBag.ownerOf_replaceClientIdOf, if_pos rfl, hd]
      rfl
    · rw [hnone] at hc
      cases hc
  · have hpositive : c ≠ 0 := by
      intro hzero
      rw [hzero] at hc
      exact hnumber hc
    have hread : forall b, reread env depth path c watcher u = Except.ok (b, v) ->
        type ≠ .deleted ->
        (Settled watcher type path w w' <-> Handled env watcher type path w w') :=
      fun b hread hdeleted => settled_iff_of_reread hpath hc hpositive hdeleted htrace hpool hopen
        htold hread hclose
    cases type with
    | created =>
        rcases bind_ok.mp hevent with ⟨b, v', hb, hpure⟩
        cases hpure
        exact hread b hb (by decide)
    | changed =>
        rcases bind_ok.mp hevent with ⟨b, v', hb, hpure⟩
        cases hpure
        exact hread b hb (by decide)
    | child =>
        rcases bind_ok.mp hevent with ⟨b, v', hb, hpure⟩
        cases hpure
        exact hread b hb (by decide)
    | deleted =>
        rcases close_run hclose (createKey path watcher.stateType) with ⟨_, hreleased⟩
        refine iff_of_true (settled_iff.mpr (Or.inr (Or.inl ⟨?_, Or.inl rfl⟩))) (Or.inl rfl)
        simp only [onEvent, mapCache, removeState, mapBag, mapPool, modify_bind_run,
          modify_run] at hevent
        cases hevent
        rw [hreleased, StateBag.ownerOf_remove, if_pos rfl]
        split
        · rfl
        · rfl
    | session => exact absurd rfl htype.left
    | notWatching => exact absurd rfl htype.right

section Example

/-- ZooKeeper lists the children of a service once, and then no more. -/
private def oneListing : Env where
  parse := fun _ => none
  zookeeperInit := fun _ => true
  zooWgetChildren := fun n _ => if n < 2 then (zok, []) else (zconnectionloss, [])
  zooWget := fun _ _ => (zconnectionloss, {})
  zooCreate := fun _ _ => zconnectionloss
  zooGet := fun _ _ => zok
  clock := fun _ => 10
  cacheFile := none

/-- A client reads a service and is closed. -/
private def watchService : ZkM PUnit := do
  match <- poolOpen oneListing 1 with
  | none => return ()
  | some c =>
      let _ <- getService oneListing (connectZk oneListing 1) c "/soa/services/a"
      close c

private def idlePool : World where
  pool := ClientPool.start id
  cache := RegistryCache.empty
  trace := []
  ticks := 0
  slept := 0

private def worldAfter (x : ZkM PUnit) (w : World) : World :=
  match x w with
  | .ok (_, w') => w'
  | .error _ => w

private theorem run_worldAfter {x : ZkM PUnit} {w : World} (h : (x w).isOk = true) :
    x w = Except.ok (⟨⟩, worldAfter x w) := by
  unfold worldAfter
  cases hrun : x w with
  | error stop =>
      rw [hrun] at h
      cases h
  | ok result => rfl

private def watching : World :=
  worldAfter watchService idlePool

private def notified : World :=
  worldAfter (serviceWatcher oneListing 1 .child "/soa/services/a") watching

private theorem run_notified :
    callback oneListing 1 .service .child "/soa/services/a" watching =
      Except.ok (⟨⟩, notified) :=
  run_worldAfter (by decide)

/-- The children of a service change, and the listing fails: the watch is lost. -/
theorem watch_lost :
    ¬ forall (env : Env) (depth : Nat) (watcher : Watcher) (type : ZkEventType)
      (path : String) (w w' : World),
      type ≠ .session ∧ type ≠ .notWatching -> '/' ∈ path.toList -> 0 ∉ w.pool.idle_ ->
      (exists d, w.pool.stateBag_.ownerOf (createKey path watcher.stateType) = some d) ->
      callback env depth watcher type path w = Except.ok (⟨⟩, w') ->
      Settled watcher type path w w' := by
  intro h
  have hevents : happened watching notified =
      [.children .getService "/soa/services/a" zconnectionloss []] := by decide
  have howner : notified.pool.stateBag_.ownerOf
      (createKey "/soa/services/a" Watcher.service.stateType) = some 1 := by decide
  have hsettled := h oneListing 1 .service .child "/soa/services/a" watching notified
    (by decide) (by decide) (by decide) ⟨1, by decide⟩ run_notified
  rcases hsettled.left with ⟨before, e, after, hsplit, hread, _⟩ | ⟨hnone, _⟩ | hzero
  · have he : e ∈ before ++ e :: after := by simp
    rw [<- hsplit, hevents, List.mem_singleton] at he
    rw [he] at hread
    exact absurd hread (by decide)
  · rw [howner] at hnone
    cases hnone
  · rw [howner] at hzero
    exact absurd hzero (by decide)

theorem watch_lost_unhandled :
    Settled .service .child "/soa/services/a" watching notified <->
      Handled oneListing .service .child "/soa/services/a" watching notified :=
  settled_iff_handled oneListing 1 .service .child "/soa/services/a" watching notified
    (by decide) (by decide) (by decide) ⟨1, by decide⟩ run_notified

end Example

end Watcher

end FrProxy
