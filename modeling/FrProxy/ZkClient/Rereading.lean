import FrProxy.Watcher
import FrProxy.ZkClient.Tree

/-!
# Reads and their watches

A read of a znode that is there leaves a watch behind.  What a connected client
reads, the watches that it leaves, and the lists of the cache that it replaces.
-/

namespace FrProxy

open KeyedList Program

/-- A watcher and the path that ZooKeeper calls it for. -/
abbrev Watch : Type :=
  Watcher × String

/-- The watch that a call leaves behind, if the znode is there. -/
def Event.watch? : Event -> Option Watch
  | .children .getService path rc _ => if rc = zok then some (.service, path) else none
  | .children .getRoot path rc _ => if rc = zok then some (.root, path) else none
  | .instance_ service node rc _ _ =>
      if rc = zok then some (.serviceInstance, service ++ "/" ++ node) else none
  | _ => none

def World.watches (w : World) : List Watch :=
  w.trace.filterMap Event.watch?

/-- All states that stand for a watch are the client's own. -/
def StateBag.OwnedBy (bag : StateBag) (c : ClientId) : Prop :=
  forall key s, bag.get key = some s -> s.clientId = c ∨ s.type = .createEphereral

def Owned (c : ClientId) (w : World) : Prop :=
  w.pool.stateBag_.OwnedBy c

namespace ZkTree

variable {parse : String -> Option Json}

def watchesOf (t : ZkTree parse) (service : String) : List Watch :=
  (Watcher.service, service) ::
    (t.children service).map fun node => (Watcher.serviceInstance, service ++ "/" ++ node)

/-- A list with the endpoints of a service as they are read from the tree, at `low` or later. -/
structure Filled (t : ZkTree parse) (low : Nat) (service : String) (l : RVector) : Prop where
  complete : forall node, node ∈ t.children service ->
    exists r, r ∈ l ∧ r.endpoint = t.endpoint service node
  read : forall r, r ∈ l -> r.ephemeral ∈ t.children service ∧
    r.endpoint = t.endpoint service r.ephemeral ∧ low ≤ r.mtime

theorem Filled.earlier {t : ZkTree parse} {low low' : Nat} {service : String} {l : RVector}
    (h : t.Filled low service l) (hle : low' ≤ low) : t.Filled low' service l where
  complete := h.complete
  read := fun r hr => ⟨(h.read r hr).left, (h.read r hr).right.left,
    Nat.le_trans hle (h.read r hr).right.right⟩

theorem Entries.list_load {t : ZkTree parse} {service : String} {low : Nat} {nodes : List String}
    {regs : RVector} (h : t.Entries service low nodes regs) (hservice : service ≠ "")
    (hnodes : "" ∉ nodes) (c : RegistryCache) :
    (forall r, r ∈ (c.load regs).list service -> r ∈ c.list service ∨ r ∈ regs) ∧
    (forall p, (exists r, r ∈ c.list service ∧ r.endpoint = p) ∨
        p ∈ nodes.map (t.endpoint service) ->
      exists r, r ∈ (c.load regs).list service ∧ r.endpoint = p) ∧
    forall name, name ≠ service -> (c.load regs).list name = c.list name := by
  induction h generalizing c with
  | nil =>
      refine ⟨fun r hr => Or.inl hr, ?_, fun _ _ => rfl⟩
      intro p hpost
      rcases hpost with hp | hp
      · exact hp
      · cases hp
  | @cons node reg rest regs hreg _ ih =>
      rcases hreg with ⟨mtime, _, rfl⟩
      have hnode : node ≠ "" := fun heq => hnodes (heq ▸ List.mem_cons_self)
      have haccepts := (t.accepts_entry service node mtime).mpr ⟨hservice, hnode⟩
      have hlist : forall name, (c.add (t.entry service node mtime)).list name =
          if service = name then
            touch Registry.endpoint (c.list name) (t.entry service node mtime)
          else c.list name := by
        intro name
        rw [RegistryCache.list_add]
        simp only [haccepts, true_and]
        rfl
      rcases ih (fun hmem => hnodes (List.mem_cons_of_mem _ hmem))
        (c.add (t.entry service node mtime)) with ⟨hold, hnew, hother⟩
      refine ⟨fun r hr => ?_, fun p hp => hnew p ?_, fun name hname => ?_⟩
      · rcases hold r hr with hmem | hmem
        · rw [hlist, if_pos rfl] at hmem
          rcases (mem_touch _).mp hmem with hmem | rfl
          · exact Or.inl hmem.left
          · exact Or.inr List.mem_cons_self
        · exact Or.inr (List.mem_cons_of_mem _ hmem)
      · rw [hlist, if_pos rfl]
        rcases hp with ⟨r, hr, rfl⟩ | hp
        · left
          by_cases hsame : r.endpoint = (t.entry service node mtime).endpoint
          · exact ⟨_, (mem_touch _).mpr (Or.inr rfl), hsame.symm⟩
          · exact ⟨r, (mem_touch _).mpr (Or.inl ⟨hr, hsame⟩), rfl⟩
        · rcases List.mem_cons.mp hp with rfl | hp
          · exact Or.inl ⟨_, (mem_touch _).mpr (Or.inr rfl), rfl⟩
          · exact Or.inr hp
      · have hne : service ≠ name := fun heq => hname heq.symm
        have hkept := hother name hname
        rw [hlist, if_neg hne] at hkept
        exact hkept

theorem Entries.filled {t : ZkTree parse} {service : String} {low : Nat} {regs : RVector}
    (h : t.Entries service low (t.children service) regs) (hservice : service ≠ "")
    (c : RegistryCache) :
    t.Filled low service (((c.removeName service).load regs).list service) := by
  rcases h.list_load hservice (t.named service) (c.removeName service) with ⟨hold, hnew, _⟩
  constructor
  · intro node hnode
    exact hnew _ (Or.inr (List.mem_map_of_mem hnode))
  · intro r hr
    rcases hold r hr with hmem | hmem
    · rw [RegistryCache.list_removeName, if_pos rfl] at hmem
      cases hmem
    · rcases h.exists_node hmem with ⟨node, mtime, hnode, hlow, rfl⟩
      exact ⟨hnode, rfl, hlow⟩

structure Reread (t : ZkTree parse) (low : Nat) (services : List String)
    (cache cache' : RegistryCache) : Prop where
  filled : forall service, service ∈ services -> t.children service ≠ [] ->
    t.Filled low service (cache'.list service)
  kept : forall name, name ∉ services ∨ t.children name = [] -> cache'.list name = cache.list name

theorem Reread.nil (t : ZkTree parse) (low : Nat) (cache : RegistryCache) :
    t.Reread low [] cache cache where
  filled := fun _ h => absurd h List.not_mem_nil
  kept := fun _ _ => rfl

theorem Reread.cons {t : ZkTree parse} {low low' : Nat} {service : String} {rest : List String}
    {cache cache' cache'' : RegistryCache} (hfirst : t.Reread low [service] cache cache')
    (hrest : t.Reread low' rest cache' cache'') (hle : low ≤ low') :
    t.Reread low (service :: rest) cache cache'' where
  filled := by
    intro name hname hchildren
    by_cases hmem : name ∈ rest
    · exact (hrest.filled name hmem hchildren).earlier hle
    · have hsame : name ∈ [service] := by simpa [hmem] using hname
      rw [hrest.kept name (Or.inl hmem)]
      exact hfirst.filled name hsame hchildren
  kept := by
    intro name hname
    have hsplit : (name ∉ rest ∨ t.children name = []) ∧
        (name ∉ [service] ∨ t.children name = []) := by
      rcases hname with hmem | hempty
      · exact ⟨Or.inl fun h => hmem (List.mem_cons_of_mem _ h),
          Or.inl fun h => hmem (List.mem_singleton.mp h ▸ List.mem_cons_self)⟩
      · exact ⟨Or.inr hempty, Or.inr hempty⟩
    rw [hrest.kept name hsplit.left, hfirst.kept name hsplit.right]

end ZkTree

/-- A connected client goes on; the watches that it leaves behind. -/
structure Reads (env : Env) (c : ClientId) (watches : List Watch) (w w' : World) : Prop where
  live : Live c w'
  later : Later env w w'
  owned : Owned c w -> Owned c w'
  watches : w'.watches = w.watches ++ watches

theorem Reads.refl {env : Env} {c : ClientId} {w : World} (h : Live c w) : Reads env c [] w w where
  live := h
  later := Later.refl env w
  owned := fun h => h
  watches := (List.append_nil _).symm

theorem Reads.trans {env : Env} (hclock : Monotone env.clock) {c : ClientId}
    {first second : List Watch} {u v w : World} (huv : Reads env c first u v)
    (hvw : Reads env c second v w) : Reads env c (first ++ second) u w where
  live := hvw.live
  later := huv.later.trans hclock hvw.later
  owned := fun h => hvw.owned (huv.owned h)
  watches := by rw [hvw.watches, huv.watches, List.append_assoc]

namespace StateBag

variable {bag : StateBag} {c : ClientId}

theorem OwnedBy.add (h : bag.OwnedBy c) {state : ZkState} (hstate : state.clientId = c) :
    (bag.add state).OwnedBy c := by
  intro key s hs
  rw [get_add] at hs
  split at hs
  · split at hs
    · cases hs
      exact Or.inl hstate
    · cases hs
      exact Or.inl hstate
  · exact h key s hs

theorem OwnedBy.remove (h : bag.OwnedBy c) (gone : String) : (bag.remove gone).OwnedBy c := by
  intro key s hs
  rw [get_remove] at hs
  split at hs
  · cases hs
  · exact h key s hs

theorem OwnedBy.take (h : bag.OwnedBy c) (key : String) :
    (bag.replaceClientIdOf key c).OwnedBy c := by
  intro other s hs
  rw [get_replaceClientIdOf] at hs
  split at hs
  · rcases Option.map_eq_some_iff.mp hs with ⟨_, _, rfl⟩
    exact Or.inl rfl
  · exact h other s hs

theorem OwnedBy.free (h : bag.OwnedBy c) (path : String) (replaceTo : ClientId) :
    (bag.replaceClientIdOf (createKey path .createEphereral) replaceTo).OwnedBy c := by
  intro key s hs
  rw [get_replaceClientIdOf] at hs
  split at hs
  · rename_i hkey
    rcases Option.map_eq_some_iff.mp hs with ⟨state, hstate, rfl⟩
    have hsame := (key_of_get hstate).trans hkey.symm
    exact Or.inr (createKey_inj hsame).right
  · exact h key s hs

end StateBag

namespace ZkClient

section Rereading

variable {env : Env} {t : ZkTree env.parse} {c : ClientId} {w : World}
variable {reconnect : ClientId -> ZkM Bool} (hclock : Monotone env.clock)

include hclock

theorem readInstance_reads {service node : String} (hlive : Live c w)
    (hdata : forall n, env.zooWget n (service ++ "/" ++ node) =
      (zok, (t.data (service ++ "/" ++ node)).node)) :
    Returns (readInstance env c service node) w fun _ w' =>
      Reads env c [(.serviceInstance, service ++ "/" ++ node)] w w' ∧
      w'.cache = w.cache.add (t.entry service node (w.reading env)) := by
  simp only [readInstance, zooWget, nowInMs, log, saveState, mapBag, mapPool, mapCache,
    bind_assoc, get_bind_run, modify_bind_run, pure_bind, hlive.right, if_true, hdata,
    ZkInstance.readEndpoint, Returns]
  refine ⟨true, _, rfl, ⟨hlive, ⟨Nat.le_succ _, Nat.le_refl _, fun p => ?_⟩, ?_, ?_⟩, rfl⟩
  · have hstamp := RegistryCache.stampOf_add w.cache (t.entry service node (w.reading env)) p
    by_cases hp : RMap.accepts (t.entry service node (w.reading env)) = true ∧
        (t.entry service node (w.reading env)).endpoint = p
    · refine Or.inr (Or.inr ⟨_, hstamp.trans (if_pos hp), Nat.le_refl _, ?_⟩)
      exact Nat.add_le_add_right (hclock (Nat.le_succ _)) _
    · exact Or.inl (hstamp.trans (if_neg hp))
  · exact fun howned => howned.add rfl
  · simp [World.watches, Event.watch?]

theorem readInstances_reads {service : String} (hlive : Live c w) (nodes : List String)
    (hdata : forall n node, node ∈ nodes -> env.zooWget n (service ++ "/" ++ node) =
      (zok, (t.data (service ++ "/" ++ node)).node)) :
    Returns (nodes.forM fun node => do
      let _ <- getServiceInstance env reconnect c service node) w fun _ w' =>
        Reads env c (nodes.map fun node => (.serviceInstance, service ++ "/" ++ node)) w w' ∧
        exists regs, t.Entries service (w.reading env) nodes regs ∧
          w'.cache = w.cache.load regs := by
  induction nodes generalizing w with
  | nil => exact Returns.pure ⟨Reads.refl hlive, [], List.Forall₂.nil, rfl⟩
  | cons node rest ih =>
      have hread : Returns (getServiceInstance env reconnect c service node) w _ :=
        Returns.bindOk (ready_live hlive)
          (readInstance_reads hclock hlive fun n => hdata n node List.mem_cons_self)
      apply Returns.bind (Returns.discard hread)
      intro _ v hpost
      rcases hpost with ⟨hreads, hadded⟩
      apply (ih hreads.live fun n other hmem => hdata n other (List.mem_cons_of_mem _ hmem)).mono
      intro _ w' hpost
      rcases hpost with ⟨hreads', regs, hentries, hloaded⟩
      have htime : w.reading env ≤ v.reading env := hreads.later.reading hclock
      refine ⟨hreads.trans hclock hreads', t.entry service node (w.reading env) :: regs, ?_, ?_⟩
      · apply List.Forall₂.cons ⟨w.reading env, Nat.le_refl _, rfl⟩
        apply hentries.imp
        intro _ _ hpost
        rcases hpost with ⟨mtime, hlow, heq⟩
        exact ⟨mtime, Nat.le_trans htime hlow, heq⟩
      · rw [hloaded, hadded]
        rfl

omit hclock in
theorem listService_reads {service : String} (hlive : Live c w) (hoffered : Offered env t service) :
    Returns (listService env c service) w fun a w' => a = (true, t.children service) ∧
      Reads env c [(.service, service)] w w' ∧ w'.reading env = w.reading env ∧
      w'.cache = if t.children service = [] then w.cache else w.cache.removeName service := by
  simp only [listService, zooWgetChildren, log, saveState, mapBag, mapPool, mapCache,
    bind_assoc, get_bind_run, modify_bind_run, pure_bind, hlive.right, if_true,
    hoffered.children, Returns]
  by_cases hnil : t.children service = []
  · have hzero : ¬ (t.children service).length > 0 := by simp [hnil]
    rw [if_neg hzero, if_pos hnil]
    refine ⟨_, _, rfl, rfl, ⟨hlive, ⟨Nat.le_refl _, Nat.le_refl _, fun p => Or.inl rfl⟩, ?_, ?_⟩,
      rfl, rfl⟩
    · exact fun howned => howned.add rfl
    · simp [World.watches, Event.watch?]
  · rw [if_pos (List.length_pos_iff.mpr hnil), if_neg hnil]
    refine ⟨_, _, rfl, rfl, ⟨hlive, ⟨Nat.le_refl _, Nat.le_refl _, fun p => ?_⟩, ?_, ?_⟩, rfl, rfl⟩
    · have hstamp := RegistryCache.stampOf_removeName w.cache service p
      by_cases hp : service = p.name
      · exact Or.inr (Or.inl (hstamp.trans (if_pos hp)))
      · exact Or.inl (hstamp.trans (if_neg hp))
    · exact fun howned => howned.add rfl
    · simp [World.watches, Event.watch?]

theorem getService_reads {service : String} (hlive : Live c w) (hoffered : Offered env t service) :
    Returns (getService env reconnect c service) w fun a w' => a = true ∧
      Reads env c (t.watchesOf service) w w' ∧
      t.Reread (w.reading env) [service] w.cache w'.cache := by
  apply Returns.bindOk (ready_live hlive)
  rw [if_pos rfl]
  apply Returns.bind (listService_reads hlive hoffered)
  intro a v hpost
  rcases hpost with ⟨rfl, hreads, htime, hlisted⟩
  apply Returns.bind (readInstances_reads hclock hreads.live _ hoffered.data)
  intro _ w' hpost
  rcases hpost with ⟨hreads', regs, hentries, hloaded⟩
  refine Returns.pure ⟨rfl, hreads.trans hclock hreads', ?_⟩
  rw [htime] at hentries
  by_cases hnil : t.children service = []
  · rw [if_pos hnil] at hlisted
    rw [hnil] at hentries
    cases hentries
    have hsame : w'.cache = w.cache := hloaded.trans hlisted
    rw [hsame]
    refine ⟨fun name hname hchildren => ?_, fun _ _ => rfl⟩
    rw [List.mem_singleton.mp hname] at hchildren
    exact absurd hnil hchildren
  · rw [if_neg hnil] at hlisted
    rw [hloaded, hlisted]
    constructor
    · intro name hname _
      rw [List.mem_singleton.mp hname]
      exact hentries.filled hoffered.named w.cache
    · intro name hname
      have hne : name ≠ service := by
        intro heq
        subst heq
        rcases hname with hmem | hempty
        · exact hmem (List.mem_singleton_self _)
        · exact hnil hempty
      rw [(hentries.list_load hoffered.named (t.named service) _).right.right name hne,
        RegistryCache.list_removeName, if_neg fun heq => hne heq.symm]

omit hclock in
theorem getService_missing {service : String} (hlive : Live c w)
    (habsent : forall n, env.zooWgetChildren n service = (znonode, [])) :
    Returns (getService env reconnect c service) w fun _ w' =>
      Reads env c [] w w' ∧ w'.cache = w.cache := by
  apply Returns.bindOk (ready_live hlive)
  rw [if_pos rfl]
  have hcodes : znonode ≠ zok := by decide
  simp only [listService, zooWgetChildren, log, saveState, removeState, mapBag, mapPool, mapCache,
    bind_assoc, get_bind_run, modify_bind_run, pure_bind, hlive.right, if_true, habsent, hcodes,
    if_false, Returns]
  refine ⟨_, _, rfl, ⟨hlive, ⟨Nat.le_refl _, Nat.le_refl _, fun p => Or.inl rfl⟩, ?_, ?_⟩, rfl⟩
  · exact fun howned => (howned.add rfl).remove _
  · simp [World.watches, Event.watch?]

theorem scanServices_reads (hlive : Live c w) (services : List String)
    (hoffered : forall service, service ∈ services -> Offered env t service) :
    Returns (services.foldlM (fun ret zkpath => do
      if ret then getService env reconnect c zkpath else return false) true) w
      fun a w' => a = true ∧ Reads env c (services.flatMap t.watchesOf) w w' ∧
        t.Reread (w.reading env) services w.cache w'.cache := by
  induction services generalizing w with
  | nil => exact Returns.pure ⟨rfl, Reads.refl hlive, .nil t _ _⟩
  | cons service rest ih =>
      rw [List.foldlM_cons]
      apply Returns.bind (getService_reads hclock hlive (hoffered service List.mem_cons_self))
      intro a v hpost
      rcases hpost with ⟨rfl, hreads, hreread⟩
      apply (ih hreads.live fun other hmem => hoffered other (List.mem_cons_of_mem _ hmem)).mono
      intro a w' hpost
      rcases hpost with ⟨hret, hreads', hrest⟩
      exact ⟨hret, hreads.trans hclock hreads',
        hreread.cons hrest (hreads.later.reading hclock)⟩

theorem getAllServices_reads (hlive : Live c w) {servicesRoot : String}
    (hroot : forall n, env.zooWgetChildren n servicesRoot = (zok, t.children servicesRoot))
    (hoffered : forall node, node ∈ t.children servicesRoot ->
      Offered env t (servicesRoot ++ "/" ++ node)) :
    let services := (t.children servicesRoot).map fun node => servicesRoot ++ "/" ++ node
    Returns (getAllServices env reconnect c servicesRoot) w fun _ w' =>
      Reads env c ((.root, servicesRoot) :: services.flatMap t.watchesOf) w w' ∧
        t.Reread (w.reading env) services w.cache w'.cache := by
  intro services
  have hlist : Returns (listServices env c servicesRoot) w fun a v => a = (true, services) ∧
      Reads env c [(.root, servicesRoot)] w v ∧ v.cache = w.cache ∧
      v.reading env = w.reading env := by
    simp only [listServices, zooWgetChildren, log, saveState, mapBag, mapPool, bind_assoc,
      get_bind_run, modify_bind_run, pure_bind, hlive.right, if_true, hroot, Returns]
    refine ⟨_, _, rfl, rfl, ⟨hlive, ⟨Nat.le_refl _, Nat.le_refl _, fun p => Or.inl rfl⟩, ?_, ?_⟩,
      rfl, rfl⟩
    · exact fun howned => howned.add rfl
    · simp [World.watches, Event.watch?]
  apply Returns.bindOk (ready_live hlive)
  rw [if_pos rfl]
  apply Returns.bind hlist
  intro a v hpost
  rcases hpost with ⟨rfl, hreads, hcache, htime⟩
  have hservices : forall service, service ∈ services -> Offered env t service := by
    intro service hservice
    rcases List.mem_map.mp hservice with ⟨node, hnode, rfl⟩
    exact hoffered node hnode
  apply (scanServices_reads hclock hreads.live services hservices).mono
  intro _ w' hpost
  rcases hpost with ⟨_, hreads', hreread⟩
  rw [hcache, htime] at hreread
  exact ⟨hreads.trans hclock hreads', hreread⟩

end Rereading

end ZkClient

end FrProxy
