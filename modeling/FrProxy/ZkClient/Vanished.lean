import FrProxy.ZkClient.Reconnect

/-!
# Lookups of znodes that have vanished

A service or an instance may be gone when it is read: ZooKeeper answers
`ZNONODE`.  The state of the call is saved before the answer is looked at, and
then removed again under a key that each function builds by itself.
-/

namespace FrProxy

/-- A read that saves a state. -/
inductive Lookup where
  | getService (service : String)
  | getServiceInstance (service node : String)
deriving DecidableEq, Repr

namespace Lookup

def type : Lookup -> ZkStateType
  | .getService _ => .getService
  | .getServiceInstance _ _ => .getServiceInstance

def path : Lookup -> String
  | .getService service => service
  | .getServiceInstance service node => service ++ "/" ++ node

def key (l : Lookup) : String :=
  createKey l.path l.type

def onBag (c : ClientId) (l : Lookup) (bag : StateBag) : StateBag :=
  match l with
  | .getService service =>
      (bag.add { clientId := c, type := .getService, path := service }).remove
        (createKey service .getService)
  | .getServiceInstance service node =>
      (bag.add { clientId := c, type := .getServiceInstance, path := service ++ "/" ++ node }).remove
        (createKey service .getServiceInstance)

/-- ZooKeeper answers the lookup with `ZNONODE` when so many events have happened. -/
def Vanished (env : Env) (n : Nat) : Lookup -> Prop
  | .getService service => (env.zooWgetChildren n service).1 = znonode
  | .getServiceInstance service node => (env.zooWget n (service ++ "/" ++ node)).1 = znonode

def AllVanished (env : Env) : Nat -> List Lookup -> Prop
  | _, [] => True
  | n, l :: ls => l.Vanished env n ∧ AllVanished env (n + 1) ls

end Lookup

/-- The bag has no state of the lookups, and all other states as they were. -/
structure LeavesNoTrace (ls : List Lookup) (bag bag' : StateBag) : Prop where
  gone : forall l, l ∈ ls -> bag'.get l.key = none
  others : forall key, (forall l, l ∈ ls -> l.key ≠ key) -> bag'.get key = bag.get key

/-!
## The states
-/

section States

variable {c : ClientId} (bag : StateBag)

theorem get_onBag_service (path key : String) :
    ((Lookup.getService path).onBag c bag).get key =
      if (Lookup.getService path).key = key then none else bag.get key := by
  have hremove := StateBag.get_remove
    (bag.add { clientId := c, type := .getService, path }) (createKey path .getService) key
  refine hremove.trans ?_
  by_cases hkey : createKey path .getService = key
  · rw [if_pos hkey]
    exact (if_pos hkey).symm
  · rw [if_neg hkey]
    have hadd : (bag.add { clientId := c, type := .getService, path }).get key = bag.get key :=
      StateBag.get_add_other hkey
    exact hadd.trans (if_neg hkey).symm

theorem isSome_onBag_instance (service node : String) :
    (((Lookup.getServiceInstance service node).onBag c bag).get
      (Lookup.getServiceInstance service node).key).isSome = true := by
  rcases StateBag.get_add_same bag
    { clientId := c, type := .getServiceInstance, path := service ++ "/" ++ node } rfl with
    ⟨found, hfound, _⟩
  refine Option.isSome_iff_exists.mpr ⟨found, Eq.trans ?_ hfound⟩
  exact StateBag.get_remove_other (createKey_below_ne service node .getServiceInstance)

variable {ls : List Lookup}

theorem leavesNoTrace_services (h : forall l, l ∈ ls -> l.type = .getService) :
    LeavesNoTrace ls bag (ls.foldl (fun bag l => l.onBag c bag) bag) := by
  induction ls generalizing bag with
  | nil => exact ⟨fun l hl => absurd hl List.not_mem_nil, fun _ _ => rfl⟩
  | cons l ls ih =>
      rcases List.forall_mem_cons.mp h with ⟨hl, hls⟩
      cases l with
      | getServiceInstance service node => cases hl
      | getService path =>
          have htail := ih ((Lookup.getService path).onBag c bag) hls
          constructor
          · intro l' hl'
            rcases List.mem_cons.mp hl' with rfl | hmem
            · by_cases hagain : exists m, m ∈ ls ∧ m.key = (Lookup.getService path).key
              · rcases hagain with ⟨m, hm, hkey⟩
                rw [<- hkey]
                exact htail.gone m hm
              · have hother := htail.others (Lookup.getService path).key
                  fun m hm hkey => hagain ⟨m, hm, hkey⟩
                rw [List.foldl_cons, hother, get_onBag_service, if_pos rfl]
            · exact htail.gone l' hmem
          · intro key hkeys
            rcases List.forall_mem_cons.mp hkeys with ⟨hfirst, hrest⟩
            rw [List.foldl_cons, htail.others key hrest, get_onBag_service, if_neg hfirst]

theorem instance_left (h : exists l, l ∈ ls ∧ l.type = .getServiceInstance) :
    exists l, l ∈ ls ∧
      ((ls.foldl (fun bag l => l.onBag c bag) bag).get l.key).isSome = true := by
  induction ls generalizing bag with
  | nil =>
      rcases h with ⟨l, hl, _⟩
      cases hl
  | cons l ls ih =>
      by_cases hrest : exists m, m ∈ ls ∧ m.type = .getServiceInstance
      · rcases ih (l.onBag c bag) hrest with ⟨m, hm, hsome⟩
        exact ⟨m, List.mem_cons_of_mem _ hm, hsome⟩
      · have hservices : forall m, m ∈ ls -> m.type = .getService := by
          intro m hm
          cases m with
          | getService path => rfl
          | getServiceInstance service node => exact absurd ⟨_, hm, rfl⟩ hrest
        refine ⟨l, List.mem_cons_self, ?_⟩
        cases l with
        | getService path =>
            rcases h with ⟨m, hm, htype⟩
            rcases List.mem_cons.mp hm with rfl | hm
            · cases htype
            · exact absurd ⟨m, hm, htype⟩ hrest
        | getServiceInstance service node =>
            have hother := (leavesNoTrace_services (c := c)
              ((Lookup.getServiceInstance service node).onBag c bag) hservices).others
                (Lookup.getServiceInstance service node).key (by
                  intro m hm hkey
                  have htype := (createKey_inj hkey).right
                  rw [hservices m hm] at htype
                  cases htype)
            rw [List.foldl_cons, hother]
            exact isSome_onBag_instance bag service node

theorem leavesNoTrace_iff :
    LeavesNoTrace ls bag (ls.foldl (fun bag l => l.onBag c bag) bag) <->
      forall l, l ∈ ls -> l.type = .getService := by
  constructor
  · intro h
    by_contra hinstance
    have hsome : exists l, l ∈ ls ∧ l.type = .getServiceInstance := by
      rw [not_forall] at hinstance
      rcases hinstance with ⟨l, hl⟩
      rcases Classical.not_imp.mp hl with ⟨hmem, htype⟩
      cases l with
      | getService path => exact absurd rfl htype
      | getServiceInstance service node => exact ⟨_, hmem, rfl⟩
    rcases instance_left (c := c) bag hsome with ⟨l, hl, hleft⟩
    rw [h.gone l hl] at hleft
    cases hleft
  · exact leavesNoTrace_services bag

end States

namespace ZkClient

open Program

/-!
## The calls
-/

section Calls

variable (env : Env) (reconnect : ClientId -> ZkM Bool) (c : ClientId)

def lookup : Lookup -> ZkM Bool
  | .getService service => getService env reconnect c service
  | .getServiceInstance service node => getServiceInstance env reconnect c service node

def lookups (ls : List Lookup) : ZkM PUnit :=
  ls.forM fun l => do
    let _ <- lookup env reconnect c l

end Calls

section Vanished

variable {env : Env} {reconnect : ClientId -> ZkM Bool} {c : ClientId} {w v : World}

theorem readInstance_znonode (hlive : Live c v) {service node : String}
    (hanswer : (env.zooWget v.trace.length (service ++ "/" ++ node)).1 = znonode) :
    exists w', readInstance env c service node v = Except.ok (false, w') ∧ Live c w' ∧
      w'.trace.length = v.trace.length + 1 ∧
      w'.pool.stateBag_ = (Lookup.getServiceInstance service node).onBag c v.pool.stateBag_ := by
  simp only [readInstance, zooWget, nowInMs, log, saveState, mapBag, mapPool, mapCache,
    removeState, bind_assoc, get_bind_run, modify_bind_run, pure_bind, ite_run, pure_run,
    hlive.right, if_true, hanswer]
  rw [if_neg (by decide)]
  exact ⟨_, rfl, hlive, List.length_append, rfl⟩

theorem listService_znonode (hlive : Live c v) {service : String}
    (hanswer : (env.zooWgetChildren v.trace.length service).1 = znonode) :
    exists w', listService env c service v = Except.ok ((false, []), w') ∧ Live c w' ∧
      w'.trace.length = v.trace.length + 1 ∧
      w'.pool.stateBag_ = (Lookup.getService service).onBag c v.pool.stateBag_ := by
  simp only [listService, zooWgetChildren, log, saveState, mapBag, mapPool, mapCache,
    removeState, bind_assoc, get_bind_run, modify_bind_run, pure_bind, ite_run, pure_run,
    hlive.right, if_true, hanswer]
  rw [if_neg (by decide)]
  exact ⟨_, rfl, hlive, List.length_append, rfl⟩

theorem lookup_vanished (hready : ready reconnect c w = Except.ok (true, v)) (hlive : Live c v)
    {l : Lookup} (hanswer : l.Vanished env v.trace.length) :
    exists w', lookup env reconnect c l w = Except.ok (false, w') ∧ Live c w' ∧
      w'.trace.length = v.trace.length + 1 ∧
      w'.pool.stateBag_ = l.onBag c v.pool.stateBag_ := by
  cases l with
  | getServiceInstance service node =>
      rcases readInstance_znonode hlive hanswer with ⟨w', hrun, h⟩
      exact ⟨w', (bind_run hready).trans hrun, h⟩
  | getService path =>
      rcases listService_znonode hlive hanswer with ⟨w', hrun, h⟩
      refine ⟨w', (bind_run hready).trans ?_, h⟩
      rw [if_pos rfl, bind_run hrun]
      rfl

theorem lookups_vanished (reconnect : ClientId -> ZkM Bool) (hlive : Live c v) {ls : List Lookup}
    (hanswers : Lookup.AllVanished env v.trace.length ls) :
    exists u w', lookups env reconnect c ls v = Except.ok (u, w') ∧
      w'.pool.stateBag_ = ls.foldl (fun bag l => l.onBag c bag) v.pool.stateBag_ := by
  induction ls generalizing v with
  | nil => exact ⟨_, v, rfl, rfl⟩
  | cons l ls ih =>
      rcases lookup_vanished (ready_live hlive) hlive hanswers.left with
        ⟨v', hrun, hlive', hlen, hbag⟩
      rcases ih hlive' (hlen ▸ hanswers.right) with ⟨u, w', hrest, hbag'⟩
      have hfirst : (do let _ <- lookup env reconnect c l : ZkM PUnit) v = Except.ok (⟨⟩, v') :=
        bind_run hrun
      refine ⟨u, w', (bind_run hfirst).trans hrest, ?_⟩
      rw [hbag', hbag]
      rfl

/--
Lookups of vanished znodes, one after the other, leave no trace in the bag if and
only if none of them is of an instance.
-/
theorem vanished_lookups_leave_no_trace_iff
    (hready : ready reconnect c w = Except.ok (true, v)) (hlive : Live c v) {l : Lookup}
    {ls : List Lookup} (hanswers : Lookup.AllVanished env v.trace.length (l :: ls)) :
    (exists u w', lookups env reconnect c (l :: ls) w = Except.ok (u, w') ∧
      LeavesNoTrace (l :: ls) v.pool.stateBag_ w'.pool.stateBag_) <->
      forall m, m ∈ l :: ls -> m.type = .getService := by
  rcases lookup_vanished hready hlive hanswers.left with ⟨v', hrun, hlive', hlen, hbag⟩
  rcases lookups_vanished reconnect hlive' (hlen ▸ hanswers.right) with
    ⟨u, w', hrest, hbag'⟩
  have hfirst : (do let _ <- lookup env reconnect c l : ZkM PUnit) w = Except.ok (⟨⟩, v') :=
    bind_run hrun
  have hall : lookups env reconnect c (l :: ls) w = Except.ok (u, w') :=
    (bind_run hfirst).trans hrest
  have hfold : w'.pool.stateBag_ =
      (l :: ls).foldl (fun bag l => l.onBag c bag) v.pool.stateBag_ := by
    rw [hbag', hbag]
    rfl
  rw [<- leavesNoTrace_iff (c := c) v.pool.stateBag_, <- hfold, hall]
  constructor
  · intro h
    rcases h with ⟨_, _, heq, hleaves⟩
    cases heq
    exact hleaves
  · intro h
    exact ⟨u, w', rfl, h⟩

section Example

private def deserted : Env where
  parse := fun _ => none
  zookeeperInit := fun _ => false
  zooWgetChildren := fun _ _ => (znonode, [])
  zooWget := fun _ _ => (znonode, {})
  zooCreate := fun _ _ => znonode
  zooGet := fun _ _ => znonode
  clock := fun n => n
  cacheFile := none

/-- States of three types, one of them of a service that was there before. -/
private def usedBag : StateBag :=
  let bag := StateBag.empty.add { clientId := 1, type := .getRoot, path := "/soa/services" }
  let bag := bag.add { clientId := 1, type := .getService, path := "/soa/services/a" }
  let bag := bag.add { clientId := 1, type := .getService, path := "/soa/services/b" }
  bag.add { clientId := 0, type := .createEphereral, path := "/soa/proxies/p:1", data := "x" }

private def readyWorld : World where
  pool := { ClientPool.start id with
    stateBag_ := usedBag
    clients := fun _ => { connected_ := true, zhandle_ := true } }
  cache := RegistryCache.empty
  trace := []
  ticks := 0
  slept := 0

/-- A service that vanished and one that never was, looked up. -/
theorem vanished_service_leaves_no_trace :
    exists u w', lookups deserted (fun _ => return false) 1
        [.getService "/soa/services/a", .getService "/soa/services/c"] readyWorld =
        Except.ok (u, w') ∧
      LeavesNoTrace [.getService "/soa/services/a", .getService "/soa/services/c"]
        readyWorld.pool.stateBag_ w'.pool.stateBag_ := by
  have hanswers : Lookup.AllVanished deserted readyWorld.trace.length
      [.getService "/soa/services/a", .getService "/soa/services/c"] := ⟨rfl, rfl, trivial⟩
  exact (vanished_lookups_leave_no_trace_iff (ready_live ⟨rfl, rfl⟩) ⟨rfl, rfl⟩ hanswers).mpr
    (by decide)

/-- An instance that vanished between the listing and the read. -/
theorem vanished_instance_leaves_its_state :
    ¬ forall (env : Env) (c : ClientId) (w : World) (service node : String), Live c w ->
      (env.zooWget w.trace.length (service ++ "/" ++ node)).1 = znonode ->
      exists b w', getServiceInstance env (fun _ => return false) c service node w =
          Except.ok (b, w') ∧
        LeavesNoTrace [.getServiceInstance service node] w.pool.stateBag_ w'.pool.stateBag_ := by
  intro h
  rcases h deserted 1 readyWorld "/soa/services/a" "m1" ⟨rfl, rfl⟩ rfl with
    ⟨b, w', hrun, hleaves⟩
  have hlive : Live 1 readyWorld := ⟨rfl, rfl⟩
  have hready : ready (fun _ => return false) 1 readyWorld = Except.ok (true, readyWorld) :=
    ready_live hlive
  have hgone : (Lookup.getServiceInstance "/soa/services/a" "m1").Vanished deserted
      readyWorld.trace.length := rfl
  rcases lookup_vanished hready hlive hgone with ⟨v, hrun', _, _, hbag⟩
  cases hrun'.symm.trans hrun
  have hgone := hleaves.gone _ (List.mem_singleton_self _)
  rw [hbag] at hgone
  have hsome := isSome_onBag_instance (c := 1) readyWorld.pool.stateBag_ "/soa/services/a" "m1"
  rw [hgone] at hsome
  cases hsome

end Example

end Vanished

end ZkClient

end FrProxy
