import FrProxy.RegistryCache.Refresh
import FrProxy.RegistryCache.Stamps
import FrProxy.ZkClient
import Mathlib.Data.List.TakeWhile
import Mathlib.Order.Monotone.Defs

/-!
# Reading a fixed tree

When ZooKeeper answers every call from one tree, a connected client stays
connected, every operation returns, and the cache gets what the tree holds, with
time stamps from the readings of the clock in between.
-/

namespace FrProxy

/-!
## Trees
-/

/-- The znode of an instance, with data that the client can read. -/
structure ZkInstance (parse : String -> Option Json) where
  node : NodeData
  host : String
  port : Int
  short : node.data.toList.length < 256
  clean : '\x00' ∉ node.data.toList
  parsed : exists members inner, parse node.data = some (.object members) ∧
    Json.findMember "serviceEndpoint" (.object members) = .ok (some (.object inner)) ∧
    Json.findMember "host" (.object inner) = .ok (some (.string host)) ∧
    Json.findMember "port" (.object inner) = .ok (some (.int port))
  named : host ≠ ""

/-- The names of the children of each znode, and the znode of each instance. -/
structure ZkTree (parse : String -> Option Json) where
  children : String -> List String
  data : String -> ZkInstance parse
  named : forall path, "" ∉ children path

namespace ZkTree

variable {parse : String -> Option Json}

def endpoint (t : ZkTree parse) (service node : String) : Endpoint where
  name := service
  host := (t.data (service ++ "/" ++ node)).host
  port := (t.data (service ++ "/" ++ node)).port

def entry (t : ZkTree parse) (service node : String) (mtime : Nat) : Registry where
  name := service
  host := (t.data (service ++ "/" ++ node)).host
  port := (t.data (service ++ "/" ++ node)).port
  ctime := (t.data (service ++ "/" ++ node)).node.ctime / 1000
  mtime := mtime
  ephemeral := node

def Entries (t : ZkTree parse) (service : String) (low : Nat) (nodes : List String)
    (regs : RVector) : Prop :=
  List.Forall₂ (fun node reg => exists mtime, low ≤ mtime ∧ reg = t.entry service node mtime)
    nodes regs

def Offers (t : ZkTree parse) (service : String) (p : Endpoint) : Prop :=
  exists node, node ∈ t.children service ∧ t.endpoint service node = p

def Contains (t : ZkTree parse) (servicesRoot : String) (p : Endpoint) : Prop :=
  (exists node, node ∈ t.children servicesRoot ∧ p.name = servicesRoot ++ "/" ++ node) ∧
    t.Offers p.name p

theorem accepts_entry (t : ZkTree parse) (service node : String) (mtime : Nat) :
    RMap.accepts (t.entry service node mtime) = true <-> service ≠ "" ∧ node ≠ "" := by
  have hhost := (t.data (service ++ "/" ++ node)).named
  simp [RMap.accepts, entry, hhost]

namespace Entries

variable {t : ZkTree parse} {service : String} {low : Nat} {nodes : List String}
variable {regs : RVector}

theorem map_endpoint (h : t.Entries service low nodes regs) :
    regs.map Registry.endpoint = nodes.map (t.endpoint service) := by
  induction h with
  | nil => rfl
  | cons hreg _ ih =>
      rcases hreg with ⟨mtime, _, rfl⟩
      rw [List.map_cons, List.map_cons, ih]
      rfl

theorem exists_node (h : t.Entries service low nodes regs) {reg : Registry}
    (hreg : reg ∈ regs) :
    exists node mtime, node ∈ nodes ∧ low ≤ mtime ∧ reg = t.entry service node mtime := by
  induction h with
  | nil => cases hreg
  | @cons node _ rest _ hfirst _ ih =>
      rcases List.mem_cons.mp hreg with rfl | hrest
      · rcases hfirst with ⟨mtime, hlow, heq⟩
        exact ⟨node, mtime, List.mem_cons_self, hlow, heq⟩
      · rcases ih hrest with ⟨other, mtime, hmem, hlow, heq⟩
        exact ⟨other, mtime, List.mem_cons_of_mem _ hmem, hlow, heq⟩

theorem stampOf_other (h : t.Entries service low nodes regs) (c : RegistryCache)
    {p : Endpoint} (hp : p ∉ nodes.map (t.endpoint service)) :
    (c.load regs).stampOf p = c.stampOf p := by
  have hnone : (regs.reverse.find? fun r =>
      RMap.accepts r && decide (r.endpoint = p)) = none := by
    apply List.find?_eq_none.mpr
    intro r hr hfound
    simp only [Bool.and_eq_true, decide_eq_true_eq] at hfound
    rw [<- h.map_endpoint] at hp
    exact hp (List.mem_map.mpr ⟨r, List.mem_reverse.mp hr, hfound.right⟩)
  rw [RegistryCache.stampOf_load, hnone]

theorem stampOf_read (h : t.Entries service low nodes regs) (c : RegistryCache)
    (hservice : service ≠ "") (hnodes : "" ∉ nodes) {p : Endpoint}
    (hp : p ∈ nodes.map (t.endpoint service)) :
    exists mtime, (c.load regs).stampOf p = some mtime ∧ low ≤ mtime := by
  rw [RegistryCache.stampOf_load]
  cases hfind : regs.reverse.find? fun r => RMap.accepts r && decide (r.endpoint = p) with
  | none =>
      rw [<- h.map_endpoint] at hp
      rcases List.mem_map.mp hp with ⟨r, hr, hendpoint⟩
      rcases h.exists_node hr with ⟨node, mtime, hnode, _, rfl⟩
      have hne : node ≠ "" := fun heq => hnodes (heq ▸ hnode)
      have hskipped := List.find?_eq_none.mp hfind _ (List.mem_reverse.mpr hr)
      exact absurd (by simp [(t.accepts_entry service node mtime).mpr ⟨hservice, hne⟩,
        hendpoint]) hskipped
  | some r =>
      have hr : r ∈ regs := List.mem_reverse.mp (List.mem_of_find?_eq_some hfind)
      rcases h.exists_node hr with ⟨node, mtime, _, hlow, rfl⟩
      exact ⟨mtime, rfl, hlow⟩

end Entries

end ZkTree

/-- ZooKeeper answers every call with `ZOK`, from the tree, and the clock does not go back. -/
structure Serves (env : Env) (t : ZkTree env.parse) : Prop where
  init : forall n, env.zookeeperInit n = true
  children : forall n path, env.zooWgetChildren n path = (zok, t.children path)
  data : forall n path, env.zooWget n path = (zok, (t.data path).node)
  create : forall n path, env.zooCreate n path = zok
  get : forall n path, env.zooGet n path = zok
  clock : Monotone env.clock

structure Offered (env : Env) (t : ZkTree env.parse) (service : String) : Prop where
  named : service ≠ ""
  children : forall n, env.zooWgetChildren n service = (zok, t.children service)
  data : forall n node, node ∈ t.children service ->
    env.zooWget n (service ++ "/" ++ node) = (zok, (t.data (service ++ "/" ++ node)).node)

/--
ZooKeeper is up, and the services under the root are those of the tree.  Any other
request has any answer that leaves the session alone; `missing` says whether one
can be `ZNONODE`.  A znode that is listed exists, and data can be read without harm.
-/
structure Provides (env : Env) (t : ZkTree env.parse) (servicesRoot : String)
    (missing : Prop) : Prop where
  init : forall n, env.zookeeperInit n = true
  session : forall n path, (env.zooWgetChildren n path).1 ≠ zinvalidstate ∧
    (env.zooWget n path).1 ≠ zinvalidstate ∧ env.zooCreate n path ≠ zinvalidstate
  there : ¬ missing -> forall n path, (env.zooWgetChildren n path).1 ≠ znonode ∧
    (env.zooWget n path).1 ≠ znonode
  get : forall n, env.zooGet n servicesRoot = zok
  root : forall n, env.zooWgetChildren n servicesRoot = (zok, t.children servicesRoot)
  offered : forall node, node ∈ t.children servicesRoot ->
    Offered env t (servicesRoot ++ "/" ++ node)
  listed : forall n m path node, (env.zooWgetChildren n path).1 = zok ->
    node ∈ (env.zooWgetChildren n path).2 -> (env.zooWget m (path ++ "/" ++ node)).1 ≠ znonode
  readable : forall n path, (env.zooWget n path).1 = zok ->
    exists endpoint, env.readEndpoint (env.zooWget n path).2.data = .ok endpoint
  clock : Monotone env.clock

theorem ZkInstance.readEndpoint {env : Env} (i : ZkInstance env.parse) :
    env.readEndpoint i.node.data = .ok (i.host, i.port) := by
  have hstring : cString i.node.data = .ok i.node.data := by
    have htake : i.node.data.toList.take 256 = i.node.data.toList :=
      List.take_of_length_le (Nat.le_of_lt i.short)
    have hall : (i.node.data.toList.takeWhile fun b => b != '\x00') = i.node.data.toList := by
      apply List.takeWhile_eq_self_iff.mpr
      intro b hb
      have hne : b ≠ '\x00' := fun h => i.clean (h ▸ hb)
      simpa using hne
    have hfits : ¬ (i.node.data.toList.length = 256 ∧ '\x00' ∉ i.node.data.toList) :=
      fun h => absurd h.left (Nat.ne_of_lt i.short)
    unfold cString
    dsimp only
    rw [htake, if_neg hfits, hall, String.ofList_toList]
  rcases i.parsed with ⟨members, inner, hparse, hendpoint, hhost, hport⟩
  unfold Env.readEndpoint
  rw [hstring]
  show serviceEndpoint (env.parse i.node.data) = _
  rw [hparse]
  simp [serviceEndpoint, bind, Except.bind, pure, Except.pure,
    Json.hasMember_of_findMember hendpoint, Json.member_of_findMember hendpoint,
    Json.hasMember_of_findMember hhost, Json.member_of_findMember hhost,
    Json.hasMember_of_findMember hport, Json.member_of_findMember hport, Json.isObject,
    Json.getString]

theorem Serves.offered {env : Env} {t : ZkTree env.parse} (h : Serves env t) {service : String}
    (hservice : service ≠ "") : Offered env t service where
  named := hservice
  children := fun n => h.children n service
  data := fun n _ _ => h.data n _

theorem Serves.provides {env : Env} {t : ZkTree env.parse} (h : Serves env t)
    (servicesRoot : String) : Provides env t servicesRoot False where
  init := h.init
  session := by
    intro n path
    have hok : zok ≠ zinvalidstate := by decide
    rw [h.children, h.data, h.create]
    exact ⟨hok, hok, hok⟩
  there := by
    intro _ n path
    have hok : zok ≠ znonode := by decide
    rw [h.children, h.data]
    exact ⟨hok, hok⟩
  get := fun n => h.get n servicesRoot
  root := fun n => h.children n servicesRoot
  offered := by
    intro node _
    apply h.offered
    intro hempty
    have hlength := congrArg String.length hempty
    simp [String.length_append] at hlength
  listed := by
    intro _ m path node _ _
    have hok : zok ≠ znonode := by decide
    rw [h.data]
    exact hok
  readable := by
    intro n path _
    rw [h.data]
    exact ⟨_, (t.data path).readEndpoint⟩
  clock := h.clock

/-!
## Going on
-/

def World.reading (env : Env) (w : World) : Nat :=
  env.clock w.ticks + w.slept

/-- A later world, in which each endpoint has its old time stamp, none, or a reading in between. -/
structure Later (env : Env) (w w' : World) : Prop where
  ticks : w.ticks ≤ w'.ticks
  slept : w.slept ≤ w'.slept
  stamps : forall p, w'.cache.stampOf p = w.cache.stampOf p ∨ w'.cache.stampOf p = none ∨
    exists mtime, w'.cache.stampOf p = some mtime ∧ w.reading env ≤ mtime ∧
      mtime ≤ w'.reading env

/-- A client that is connected, with a session handle. -/
def Live (c : ClientId) (w : World) : Prop :=
  w.pool.getConnected c = true ∧ (w.pool.clients c).zhandle_ = true

/-- The client goes on: it stays connected, and states are deleted at the keys `gone` only. -/
structure Onward (env : Env) (c : ClientId) (gone : String -> Prop) (w w' : World) : Prop where
  live : Live c w'
  later : Later env w w'
  states : forall ptr, ¬ gone ptr.key -> (w.pool.stateBag_.deref ptr).isSome = true ->
    (w'.pool.stateBag_.deref ptr).isSome = true

theorem Later.reading {env : Env} (hclock : Monotone env.clock) {w w' : World}
    (h : Later env w w') : w.reading env ≤ w'.reading env :=
  Nat.add_le_add (hclock h.ticks) h.slept

theorem Later.refl (env : Env) (w : World) : Later env w w where
  ticks := Nat.le_refl _
  slept := Nat.le_refl _
  stamps := fun _ => Or.inl rfl

theorem Later.trans {env : Env} (hclock : Monotone env.clock) {u v w : World}
    (huv : Later env u v) (hvw : Later env v w) : Later env u w where
  ticks := Nat.le_trans huv.ticks hvw.ticks
  slept := Nat.le_trans huv.slept hvw.slept
  stamps := by
    intro p
    rcases hvw.stamps p with hsame | hnone | ⟨mtime, hstamp, hlow, hhigh⟩
    · rw [hsame]
      rcases huv.stamps p with hsame' | hnone | ⟨mtime, hstamp, hlow, hhigh⟩
      · exact Or.inl hsame'
      · exact Or.inr (Or.inl hnone)
      · exact Or.inr (Or.inr ⟨mtime, hstamp, hlow, Nat.le_trans hhigh (hvw.reading hclock)⟩)
    · exact Or.inr (Or.inl hnone)
    · exact Or.inr (Or.inr ⟨mtime, hstamp, Nat.le_trans (huv.reading hclock) hlow, hhigh⟩)

theorem Later.same {env : Env} {w w' : World} (hcache : w'.cache = w.cache)
    (hticks : w.ticks ≤ w'.ticks) (hslept : w.slept ≤ w'.slept) : Later env w w' where
  ticks := hticks
  slept := hslept
  stamps := fun _ => Or.inl (by rw [hcache])

theorem Later.added {env : Env} (hclock : Monotone env.clock) {w w' : World} (reg : Registry)
    (hmtime : reg.mtime = w.reading env) (hcache : w'.cache = w.cache.add reg)
    (hticks : w'.ticks = w.ticks + 1) (hslept : w'.slept = w.slept) : Later env w w' where
  ticks := hticks ▸ Nat.le_succ _
  slept := Nat.le_of_eq hslept.symm
  stamps := by
    intro p
    have hstamp := RegistryCache.stampOf_add w.cache reg p
    rw [<- hcache] at hstamp
    by_cases hp : RMap.accepts reg = true ∧ reg.endpoint = p
    · refine Or.inr (Or.inr ⟨_, hstamp.trans (if_pos hp), Nat.le_of_eq hmtime.symm, ?_⟩)
      rw [hmtime, World.reading, World.reading, hticks, hslept]
      exact Nat.add_le_add_right (hclock (Nat.le_succ _)) _
    · exact Or.inl (hstamp.trans (if_neg hp))

theorem Later.removed {env : Env} {w w' : World} {name : String}
    (hcache : w'.cache = w.cache.removeName name) (hticks : w.ticks ≤ w'.ticks)
    (hslept : w.slept ≤ w'.slept) : Later env w w' where
  ticks := hticks
  slept := hslept
  stamps := by
    intro p
    have hstamp := RegistryCache.stampOf_removeName w.cache name p
    rw [<- hcache] at hstamp
    by_cases hp : name = p.name
    · exact Or.inr (Or.inl (hstamp.trans (if_pos hp)))
    · exact Or.inl (hstamp.trans (if_neg hp))

section Onward

variable {env : Env} {c : ClientId} {gone : String -> Prop} {u v w : World}

theorem Onward.refl (h : Live c w) : Onward env c gone w w where
  live := h
  later := Later.refl env w
  states := fun _ _ hptr => hptr

theorem Onward.trans (hclock : Monotone env.clock) (huv : Onward env c gone u v)
    (hvw : Onward env c gone v w) : Onward env c gone u w where
  live := hvw.live
  later := huv.later.trans hclock hvw.later
  states := fun ptr hptr hthere => hvw.states ptr hptr (huv.states ptr hptr hthere)

theorem Onward.mono {gone' : String -> Prop} (h : Onward env c gone u v)
    (hgone : forall key, gone key -> gone' key) : Onward env c gone' u v where
  live := h.live
  later := h.later
  states := fun ptr hptr => h.states ptr fun hkey => hptr (hgone _ hkey)

end Onward

structure Scanned (env : Env) (t : ZkTree env.parse) (services : List String)
    (w w' : World) : Prop where
  offered : forall p, p.name ∈ services -> p.name ≠ "" -> t.Offers p.name p ->
    exists mtime, w'.cache.stampOf p = some mtime ∧ w.reading env ≤ mtime
  dropped : forall p, ¬ t.Offers p.name p ->
    w'.cache.stampOf p = none ∨ w'.cache.stampOf p = w.cache.stampOf p
  others : forall p, p.name ∉ services -> w'.cache.stampOf p = w.cache.stampOf p

theorem Scanned.nil (env : Env) (t : ZkTree env.parse) (w : World) : Scanned env t [] w w where
  offered := fun _ hp => absurd hp List.not_mem_nil
  dropped := fun _ _ => Or.inr rfl
  others := fun _ _ => rfl

theorem Scanned.cons {env : Env} {t : ZkTree env.parse} {service : String}
    {rest : List String} {u v w : World} (hfirst : Scanned env t [service] u v)
    (hrest : Scanned env t rest v w) (htime : u.reading env ≤ v.reading env) :
    Scanned env t (service :: rest) u w where
  offered := by
    intro p hp hname hoffers
    by_cases hmem : p.name ∈ rest
    · rcases hrest.offered p hmem hname hoffers with ⟨mtime, hstamp, hlow⟩
      exact ⟨mtime, hstamp, Nat.le_trans htime hlow⟩
    · have hservice : p.name ∈ [service] := by simpa [hmem] using hp
      rw [hrest.others p hmem]
      exact hfirst.offered p hservice hname hoffers
  dropped := by
    intro p hoffers
    rcases hrest.dropped p hoffers with hnone | hsame
    · exact Or.inl hnone
    · rw [hsame]
      exact hfirst.dropped p hoffers
  others := by
    intro p hp
    have hservice : p.name ∉ [service] := fun h => hp (by simp [List.mem_singleton.mp h])
    have hmem : p.name ∉ rest := fun h => hp (List.mem_cons_of_mem _ h)
    rw [hrest.others p hmem, hfirst.others p hservice]

namespace ZkClient

open Program

section Serving

variable {env : Env} {t : ZkTree env.parse} {c : ClientId} {w : World}
variable {reconnect : ClientId -> ZkM Bool} {servicesRoot : String} {missing : Prop}

theorem ready_live (hlive : Live c w) : ready reconnect c w = Except.ok (true, w) := by
  simp [ready, getConnected, hlive.left]

section Services

variable (gone : String -> Prop) (hclock : Monotone env.clock)

include hclock

theorem readInstance_returns (hlive : Live c w) {service node : String}
    (hdata : forall n, env.zooWget n (service ++ "/" ++ node) =
      (zok, (t.data (service ++ "/" ++ node)).node)) :
    Returns (readInstance env c service node) w fun _ w' => Onward env c gone w w' ∧
      w'.cache = w.cache.add (t.entry service node (w.reading env)) := by
  simp only [readInstance, zooWget, nowInMs, log, saveState, mapBag, mapPool, mapCache,
    bind_assoc, get_bind_run, modify_bind_run, pure_bind, hlive.right, if_true, hdata,
    ZkInstance.readEndpoint, Returns]
  refine ⟨true, _, rfl, ⟨hlive, ?_, fun _ _ hptr => StateBag.isSome_deref_add _ hptr⟩, rfl⟩
  exact Later.added hclock (t.entry service node (w.reading env)) rfl rfl rfl rfl

theorem getServiceInstance_returns (hlive : Live c w) {service node : String}
    (hdata : forall n, env.zooWget n (service ++ "/" ++ node) =
      (zok, (t.data (service ++ "/" ++ node)).node)) :
    Returns (getServiceInstance env reconnect c service node) w fun _ w' =>
      Onward env c gone w w' ∧ w'.cache = w.cache.add (t.entry service node (w.reading env)) :=
  Returns.bindOk (ready_live hlive) (readInstance_returns gone hclock hlive hdata)

theorem readInstances_returns (hlive : Live c w) {service : String} (nodes : List String)
    (hdata : forall n node, node ∈ nodes -> env.zooWget n (service ++ "/" ++ node) =
      (zok, (t.data (service ++ "/" ++ node)).node)) :
    Returns (nodes.forM fun node => do
      let _ <- getServiceInstance env reconnect c service node) w fun _ w' =>
        Onward env c gone w w' ∧ exists regs, t.Entries service (w.reading env) nodes regs ∧
          w'.cache = w.cache.load regs := by
  induction nodes generalizing w with
  | nil => exact Returns.pure ⟨Onward.refl hlive, [], List.Forall₂.nil, rfl⟩
  | cons node rest ih =>
      apply Returns.bind (Returns.discard (getServiceInstance_returns gone hclock hlive
        fun n => hdata n node List.mem_cons_self))
      intro _ v h
      rcases h with ⟨honward, hadded⟩
      apply (ih honward.live fun n other hmem => hdata n other (List.mem_cons_of_mem _ hmem)).mono
      intro _ w' h'
      rcases h' with ⟨honward', regs, hentries, hloaded⟩
      have htime : w.reading env ≤ v.reading env := honward.later.reading hclock
      refine ⟨honward.trans hclock honward',
        t.entry service node (w.reading env) :: regs, ?_, ?_⟩
      · apply List.Forall₂.cons ⟨w.reading env, Nat.le_refl _, rfl⟩
        apply hentries.imp
        intro _ _ hentry
        rcases hentry with ⟨mtime, hlow, heq⟩
        exact ⟨mtime, Nat.le_trans htime hlow, heq⟩
      · rw [hloaded, hadded]
        rfl

omit hclock in
theorem listService_returns (hlive : Live c w) {service : String}
    (hsession : forall n, (env.zooWgetChildren n service).1 ≠ zinvalidstate)
    (hspared : gone (createKey service .getService) ∨
      forall n, (env.zooWgetChildren n service).1 ≠ znonode) :
    Returns (listService env c service) w fun a w' =>
      Onward env c gone w w' ∧ w'.reading env = w.reading env ∧
      (((env.zooWgetChildren w.trace.length service).1 = zok ∧
          a = (true, (env.zooWgetChildren w.trace.length service).2) ∧
          w'.cache = if (env.zooWgetChildren w.trace.length service).2 = [] then w.cache
            else w.cache.removeName service) ∨
        ((env.zooWgetChildren w.trace.length service).1 ≠ zok ∧ a = (false, []) ∧
          w'.cache = w.cache)) := by
  have hlost := hsession w.trace.length
  have hspared' := hspared.imp_right fun h => h w.trace.length
  rcases hanswer : env.zooWgetChildren w.trace.length service with ⟨rc, nodes⟩
  rw [hanswer] at hlost hspared'
  have hlost' : ¬ rc = zinvalidstate := hlost
  simp only [listService, zooWgetChildren, log, saveState, removeState, mapBag, mapPool, mapCache,
    bind_assoc, get_bind_run, modify_bind_run, pure_bind, hlive.right, if_true, hanswer,
    if_neg hlost', Returns]
  have hsaved : Later env w { w with
      pool := { w.pool with stateBag_ := w.pool.stateBag_.add {
        clientId := c, type := .getService, path := service } }
      trace := w.trace ++ [.children .getService service rc nodes] } :=
    Later.same rfl (Nat.le_refl _) (Nat.le_refl _)
  by_cases hok : rc = zok
  · rw [if_pos hok]
    by_cases hnil : nodes = []
    · rw [if_neg (by simp [hnil])]
      exact ⟨_, _, rfl, ⟨hlive, hsaved, fun _ _ hptr => StateBag.isSome_deref_add _ hptr⟩, rfl,
        Or.inl ⟨hok, rfl, (if_pos hnil).symm⟩⟩
    · rw [if_pos (List.length_pos_iff.mpr hnil)]
      exact ⟨_, _, rfl, ⟨hlive, Later.removed rfl (Nat.le_refl _) (Nat.le_refl _),
        fun _ _ hptr => StateBag.isSome_deref_add _ hptr⟩, rfl,
        Or.inl ⟨hok, rfl, (if_neg hnil).symm⟩⟩
  · rw [if_neg hok]
    by_cases hnode : rc = znonode
    · rw [if_pos hnode]
      have hkey := hspared'.resolve_right fun hnever => hnever hnode
      refine ⟨_, _, rfl, ⟨hlive, Later.same rfl (Nat.le_refl _) (Nat.le_refl _),
        fun ptr hptr hthere => ?_⟩, rfl, Or.inr ⟨hok, rfl, rfl⟩⟩
      exact StateBag.isSome_deref_remove.mpr ⟨fun heq => hptr (heq ▸ hkey),
        StateBag.isSome_deref_add _ hthere⟩
    · rw [if_neg hnode]
      exact ⟨_, _, rfl, ⟨hlive, hsaved, fun _ _ hptr => StateBag.isSome_deref_add _ hptr⟩, rfl,
        Or.inr ⟨hok, rfl, rfl⟩⟩

/-- A refresh of a service of the tree: its list is dropped and loaded again, unless nobody is left. -/
theorem getService_returns (hlive : Live c w) {service : String}
    (hoffered : Offered env t service) :
    Returns (getService env reconnect c service) w fun a w' => a = true ∧
      Onward env c gone w w' ∧ exists regs,
        t.Entries service (w.reading env) (t.children service) regs ∧
        w'.cache = if t.children service = [] then w.cache
          else (w.cache.removeName service).load regs := by
  have hok : zok ≠ zinvalidstate ∧ zok ≠ znonode := by decide
  apply Returns.bindOk (ready_live hlive)
  rw [if_pos rfl]
  apply Returns.bind (listService_returns gone hlive
    (fun n => by rw [hoffered.children]; exact hok.left)
    (Or.inr fun n => by rw [hoffered.children]; exact hok.right))
  intro a v h
  rcases h with ⟨honward, htime, hlisted⟩
  simp only [hoffered.children, ne_eq, not_true_eq_false, false_and, or_false, true_and] at hlisted
  rcases hlisted with ⟨rfl, hlisted⟩
  apply Returns.bind (readInstances_returns gone hclock honward.live _ hoffered.data)
  intro _ w' h
  rcases h with ⟨honward', regs, hentries, hloaded⟩
  refine Returns.pure ⟨rfl, honward.trans hclock honward', regs, htime ▸ hentries, ?_⟩
  rw [hloaded, hlisted]
  by_cases hnil : t.children service = []
  · rw [hnil] at hentries
    cases hentries
    rw [if_pos hnil, if_pos hnil]
    rfl
  · rw [if_neg hnil, if_neg hnil]

omit hclock in
theorem getService_absent (hlive : Live c w) {service : String}
    (hsession : forall n, (env.zooWgetChildren n service).1 ≠ zinvalidstate)
    (hspared : gone (createKey service .getService) ∨
      forall n, (env.zooWgetChildren n service).1 ≠ znonode)
    (hnone : forall n, (env.zooWgetChildren n service).1 = zok ->
      (env.zooWgetChildren n service).2 = []) :
    Returns (getService env reconnect c service) w fun _ w' =>
      Onward env c gone w w' ∧ w'.cache = w.cache := by
  apply Returns.bindOk (ready_live hlive)
  rw [if_pos rfl]
  apply Returns.bind (listService_returns gone hlive hsession hspared)
  intro a v h
  rcases h with ⟨honward, _, ⟨hok, rfl, hcache⟩ | ⟨_, rfl, hcache⟩⟩
  · rw [hnone _ hok, if_pos rfl] at hcache
    rw [hnone _ hok]
    exact Returns.pure ⟨honward, hcache⟩
  · exact Returns.pure ⟨honward, hcache⟩

/--
Where the instances that stay kept their data, a call of `get_service` is a
`Refresh` of the cache, with an entry for each child of the service.
-/
theorem getService_refreshes (hlive : Live c w) {service : String}
    (hoffered : Offered env t service) (hcached : w.cache.list service ≠ [])
    (hsame : forall reg, reg ∈ w.cache.list service -> reg.ephemeral ∈ t.children service ->
      reg.endpoint = t.endpoint service reg.ephemeral) :
    Returns (getService env reconnect c service) w fun _ w' =>
      exists r : Refresh, r.before = w.cache ∧ r.service = service ∧
        t.Entries service (w.reading env) (t.children service) r.regs ∧
        w'.cache = r.after := by
  apply (getService_returns (fun _ => False) hclock hlive hoffered).mono
  intro _ w' h
  rcases h with ⟨_, _, regs, hentries, hcache⟩
  let r : Refresh := {
    before := w.cache
    service := service
    regs := regs
    cached := hcached
    named := by
      intro reg hreg
      rcases hentries.exists_node hreg with ⟨_, _, _, _, rfl⟩
      rfl
    unchanged := by
      intro reg hreg old hold hephemeral
      rcases hentries.exists_node hreg with ⟨node, mtime, hnode, _, rfl⟩
      have hname : old.ephemeral = node := hephemeral
      rw [hsame old hold (hname ▸ hnode), hname]
      rfl }
  have hnil : regs = [] <-> t.children service = [] := by
    rw [<- List.length_eq_zero_iff, <- List.length_eq_zero_iff, hentries.length_eq]
  refine ⟨r, rfl, rfl, hentries, ?_⟩
  rw [hcache]
  unfold Refresh.after
  by_cases hchildren : t.children service = []
  · rw [if_pos hchildren, if_pos (hnil.mpr hchildren)]
  · rw [if_neg hchildren, if_neg fun h => hchildren (hnil.mp h)]

omit hclock in
theorem scanned_of_loaded {service : String} {regs : RVector} {w' : World}
    (hentries : t.Entries service (w.reading env) (t.children service) regs)
    (hcache : w'.cache = if t.children service = [] then w.cache
      else (w.cache.removeName service).load regs) : Scanned env t [service] w w' := by
  have hoffers : forall p, p.name = service ->
      (t.Offers p.name p <-> p ∈ (t.children service).map (t.endpoint service)) := by
    intro p hp
    rw [hp]
    exact List.mem_map.symm
  have hnot : forall p, ¬ t.Offers p.name p ->
      p ∉ (t.children service).map (t.endpoint service) := by
    intro p hp hmem
    have hname : p.name = service := by
      rcases List.mem_map.mp hmem with ⟨node, _, heq⟩
      exact (congrArg Endpoint.name heq).symm
    exact hp ((hoffers p hname).mpr hmem)
  constructor
  · intro p hp hname hoffered
    have hservice : p.name = service := List.mem_singleton.mp hp
    have hmem := (hoffers p hservice).mp hoffered
    have hne : t.children service ≠ [] := by
      intro hnil
      simp [hnil] at hmem
    rw [hcache, if_neg hne]
    exact hentries.stampOf_read _ (hservice ▸ hname) (t.named service) hmem
  · intro p hp
    rw [hcache]
    split
    · exact Or.inr rfl
    · rw [hentries.stampOf_other _ (hnot p hp), RegistryCache.stampOf_removeName]
      split
      · exact Or.inl rfl
      · exact Or.inr rfl
  · intro p hp
    have hname : p.name ≠ service := fun h => hp (List.mem_singleton.mpr h)
    have hmem : p ∉ (t.children service).map (t.endpoint service) := by
      intro hmem
      rcases List.mem_map.mp hmem with ⟨node, _, heq⟩
      exact hname (congrArg Endpoint.name heq).symm
    rw [hcache]
    split
    · rfl
    · rw [hentries.stampOf_other _ hmem, RegistryCache.stampOf_removeName,
        if_neg fun h => hname h.symm]

theorem scanServices_returns (hlive : Live c w) (services : List String)
    (hoffered : forall service, service ∈ services -> Offered env t service) :
    Returns (services.foldlM (fun ret zkpath => do
      if ret then getService env reconnect c zkpath else return false) true) w
      fun a w' => a = true ∧ Onward env c gone w w' ∧ Scanned env t services w w' := by
  induction services generalizing w with
  | nil => exact Returns.pure ⟨rfl, Onward.refl hlive, Scanned.nil env t w⟩
  | cons service rest ih =>
      rw [List.foldlM_cons]
      apply Returns.bind (getService_returns gone hclock hlive (hoffered service List.mem_cons_self))
      intro a v h
      rcases h with ⟨rfl, honward, regs, hentries, hcache⟩
      apply (ih honward.live fun other hmem => hoffered other (List.mem_cons_of_mem _ hmem)).mono
      intro a w' h
      rcases h with ⟨hret, honward', hrest⟩
      have hfirst : Scanned env t [service] w v := scanned_of_loaded hentries hcache
      exact ⟨hret, honward.trans hclock honward',
        hfirst.cons hrest (honward.later.reading hclock)⟩

end Services

section Calls

variable (gone : String -> Prop) (hprovides : Provides env t servicesRoot missing)

include hprovides

/-- A read of any znode.  Only `ZNONODE` deletes a state, which is that of the service. -/
theorem readInstance_goes (hlive : Live c w) {service node : String}
    (hspared : gone (createKey service .getServiceInstance) ∨
      forall n, (env.zooWget n (service ++ "/" ++ node)).1 ≠ znonode) :
    Returns (readInstance env c service node) w fun _ w' => Onward env c gone w w' := by
  have hlost := (hprovides.session w.trace.length (service ++ "/" ++ node)).right.left
  have hread := hprovides.readable w.trace.length (service ++ "/" ++ node)
  have hspared' := hspared.imp_right fun h => h w.trace.length
  rcases hanswer : env.zooWget w.trace.length (service ++ "/" ++ node) with ⟨rc, data⟩
  rw [hanswer] at hlost hread hspared'
  have hlost' : ¬ rc = zinvalidstate := hlost
  have hclock := hprovides.clock
  simp only [readInstance, zooWget, nowInMs, log, saveState, removeState, mapBag, mapPool, mapCache,
    bind_assoc, get_bind_run, modify_bind_run, pure_bind, hlive.right, if_true, hanswer,
    if_neg hlost', Returns]
  by_cases hok : rc = zok
  · rcases hread hok with ⟨⟨host, port⟩, hendpoint⟩
    have hendpoint' : env.readEndpoint data.data = Except.ok (host, port) := hendpoint
    rw [if_pos hok, hendpoint']
    refine ⟨true, _, rfl, ⟨hlive, ?_, fun _ _ hptr => StateBag.isSome_deref_add _ hptr⟩⟩
    let reg : Registry := {
      name := service
      host := host
      port := port
      ctime := data.ctime / 1000
      mtime := w.reading env
      ephemeral := node }
    exact Later.added hclock reg rfl rfl rfl rfl
  · rw [if_neg hok]
    by_cases hnode : rc = znonode
    · rw [if_pos hnode]
      have hkey := hspared'.resolve_right fun hnever => hnever hnode
      refine ⟨false, _, rfl, ⟨hlive, Later.same rfl (Nat.le_succ _) (Nat.le_refl _),
        fun ptr hptr hthere => ?_⟩⟩
      exact StateBag.isSome_deref_remove.mpr ⟨fun heq => hptr (heq ▸ hkey),
        StateBag.isSome_deref_add _ hthere⟩
    · rw [if_neg hnode]
      exact ⟨true, _, rfl, ⟨hlive, Later.same rfl (Nat.le_succ _) (Nat.le_refl _),
        fun _ _ hptr => StateBag.isSome_deref_add _ hptr⟩⟩

theorem getServiceInstance_goes (hlive : Live c w) {service node : String}
    (hspared : gone (createKey service .getServiceInstance) ∨
      forall n, (env.zooWget n (service ++ "/" ++ node)).1 ≠ znonode) :
    Returns (getServiceInstance env reconnect c service node) w fun _ w' =>
      Onward env c gone w w' :=
  Returns.bindOk (ready_live hlive) (readInstance_goes gone hprovides hlive hspared)

theorem getService_goes (hlive : Live c w) {service : String}
    (hspared : gone (createKey service .getService) ∨
      forall n, (env.zooWgetChildren n service).1 ≠ znonode) :
    Returns (getService env reconnect c service) w fun _ w' => Onward env c gone w w' := by
  apply Returns.bindOk (ready_live hlive)
  rw [if_pos rfl]
  apply Returns.bind (listService_returns gone hlive
    (fun n => (hprovides.session n service).left) hspared)
  intro a v h
  rcases h with ⟨honward, _, ⟨hok, rfl, _⟩ | ⟨_, rfl, _⟩⟩
  · apply Returns.discard
    refine Returns.forM _ (fun node u hnode hu => ?_) honward
    apply Returns.discard
    apply (getServiceInstance_goes gone hprovides hu.live (Or.inr fun m =>
      hprovides.listed _ m service node hok hnode)).mono
    exact fun _ _ h => hu.trans hprovides.clock h
  · exact Returns.pure honward

theorem listServices_returns (hlive : Live c w) (path : String) :
    Returns (listServices env c path) w fun a w' =>
      Onward env c gone w w' ∧ w'.cache = w.cache ∧ w'.reading env = w.reading env ∧
      (((env.zooWgetChildren w.trace.length path).1 = zok ∧
          a = (true, (env.zooWgetChildren w.trace.length path).2.map fun node =>
            path ++ "/" ++ node)) ∨
        ((env.zooWgetChildren w.trace.length path).1 ≠ zok ∧ a = (false, []))) := by
  have hlost := (hprovides.session w.trace.length path).left
  rcases hanswer : env.zooWgetChildren w.trace.length path with ⟨rc, nodes⟩
  rw [hanswer] at hlost
  have hlost' : ¬ rc = zinvalidstate := hlost
  simp only [listServices, zooWgetChildren, log, saveState, mapBag, mapPool, bind_assoc,
    get_bind_run, modify_bind_run, pure_bind, hlive.right, if_true, hanswer, if_neg hlost', Returns]
  have honward : Onward env c gone w { w with
      pool := { w.pool with stateBag_ := w.pool.stateBag_.add {
        clientId := c, type := .getRoot, path } }
      trace := w.trace ++ [.children .getRoot path rc nodes] } :=
    ⟨hlive, Later.same rfl (Nat.le_refl _) (Nat.le_refl _),
      fun _ _ hptr => StateBag.isSome_deref_add _ hptr⟩
  by_cases hok : rc = zok
  · rw [if_pos hok]
    exact ⟨_, _, rfl, honward, rfl, rfl, Or.inl ⟨hok, rfl⟩⟩
  · rw [if_neg hok]
    exact ⟨_, _, rfl, honward, rfl, rfl, Or.inr ⟨hok, rfl⟩⟩

theorem getAllServices_goes (hlive : Live c w) (path : String)
    (hspared : (forall service, gone (createKey service .getService)) ∨ ¬ missing) :
    Returns (getAllServices env reconnect c path) w fun _ w' => Onward env c gone w w' := by
  have hservice : forall service, gone (createKey service .getService) ∨
      forall n, (env.zooWgetChildren n service).1 ≠ znonode := fun service =>
    hspared.imp (fun h => h service) fun h n => (hprovides.there h n service).left
  apply Returns.bindOk (ready_live hlive)
  rw [if_pos rfl]
  apply Returns.bind (listServices_returns gone hprovides hlive path)
  intro a v h
  have hfold : forall (services : List String) (ret : Bool) (u : World), Onward env c gone w u ->
      Returns (services.foldlM (fun ret zkpath => do
        if ret then getService env reconnect c zkpath else return false) ret) u
        fun _ w' => Onward env c gone w w' := by
    intro services
    induction services with
    | nil => exact fun _ _ hu => Returns.pure hu
    | cons service rest ih =>
        intro ret u hu
        rw [List.foldlM_cons]
        cases ret with
        | false => exact Returns.bind (Returns.pure hu) fun a _ hu' => ih a _ hu'
        | true =>
            apply Returns.bind (getService_goes gone hprovides hu.live (hservice service))
            exact fun a _ hu' => ih a _ (hu.trans hprovides.clock hu')
  exact hfold a.2 a.1 v h.left

theorem getAllServices_returns (hlive : Live c w) :
    Returns (getAllServices env reconnect c servicesRoot) w fun _ w' =>
      Onward env c gone w w' ∧ Scanned env t
        ((t.children servicesRoot).map fun node => servicesRoot ++ "/" ++ node) w w' := by
  apply Returns.bindOk (ready_live hlive)
  rw [if_pos rfl]
  apply Returns.bind (listServices_returns gone hprovides hlive servicesRoot)
  intro a v h
  rcases h with ⟨honward, hcache, htime, hlisted⟩
  simp only [hprovides.root, ne_eq, not_true_eq_false, false_and, or_false, true_and] at hlisted
  subst hlisted
  have hoffered : forall service, service ∈ (t.children servicesRoot).map (fun node =>
      servicesRoot ++ "/" ++ node) -> Offered env t service := by
    intro service hservice
    rcases List.mem_map.mp hservice with ⟨node, hnode, rfl⟩
    exact hprovides.offered node hnode
  apply (scanServices_returns gone hprovides.clock honward.live _ hoffered).mono
  intro _ w' h
  rcases h with ⟨_, honward', hscanned⟩
  refine ⟨honward.trans hprovides.clock honward', ?_, ?_, ?_⟩
  · intro p hp hname hoffers
    rcases hscanned.offered p hp hname hoffers with ⟨mtime, hstamp, hlow⟩
    exact ⟨mtime, hstamp, htime ▸ hlow⟩
  · intro p hoffers
    rw [<- hcache]
    exact hscanned.dropped p hoffers
  · intro p hp
    rw [<- hcache]
    exact hscanned.others p hp

theorem createPnode_returns (hlive : Live c w) (absPath : String) :
    Returns (createPnode env reconnect c absPath) w fun _ w' =>
      Onward env c gone w w' ∧ w'.cache = w.cache := by
  have hlost := (hprovides.session w.trace.length absPath).right.right
  apply Returns.bindOk (ready_live hlive)
  simp only [if_true, makePnode, zooCreate, log, bind_assoc, pure_bind, get_bind_run,
    modify_bind_run, hlive.right, if_neg hlost, Returns]
  exact ⟨_, _, rfl, ⟨hlive, Later.same rfl (Nat.le_refl _) (Nat.le_refl _),
    fun _ _ hptr => hptr⟩, rfl⟩

theorem createEnode_returns (hlive : Live c w) (absPath data : String) :
    Returns (createEnode env reconnect c absPath data) w fun _ w' =>
      Onward env c gone w w' ∧ w'.cache = w.cache := by
  have hlost := (hprovides.session w.trace.length absPath).right.right
  apply Returns.bindOk (ready_live hlive)
  simp only [if_true, makeEnode, zooCreate, log, saveState, mapBag, mapPool, bind_assoc, pure_bind,
    get_bind_run, modify_bind_run, hlive.right, if_neg hlost, Returns]
  by_cases hexists : env.zooCreate w.trace.length absPath = znodeexists
  · rw [if_pos hexists]
    exact ⟨_, _, rfl, ⟨hlive, Later.same rfl (Nat.le_refl _) (Nat.le_refl _), fun _ _ hptr =>
      (StateBag.isSome_deref_replaceClientIdOf _ _).mpr (StateBag.isSome_deref_add _ hptr)⟩, rfl⟩
  · rw [if_neg hexists]
    exact ⟨_, _, rfl, ⟨hlive, Later.same rfl (Nat.le_refl _) (Nat.le_refl _),
      fun _ _ hptr => StateBag.isSome_deref_add _ hptr⟩, rfl⟩

end Calls

/-!
## Restoring
-/

theorem splitPath_append {path service node : String}
    (h : splitPath path = some (service, node)) :
    service ++ node = path ∧ 0 < node.length := by
  unfold splitPath at h
  dsimp only at h
  have hwhole := List.takeWhile_append_dropWhile (p := fun ch => ch != '/')
    (l := path.toList.reverse)
  cases hinit : path.toList.reverse.dropWhile fun ch => ch != '/' with
  | nil =>
      rw [hinit] at h
      cases h
  | cons slash rest =>
      rw [hinit] at h hwhole
      cases h
      have hpath : ((path.toList.reverse.takeWhile fun ch => ch != '/') ++ slash :: rest).reverse =
          path.toList := by
        rw [hwhole, List.reverse_reverse]
      constructor
      · apply String.toList_injective
        rw [String.toList_append, String.toList_ofList, String.toList_ofList]
        refine Eq.trans ?_ hpath
        rw [List.reverse_append, List.reverse_cons, List.append_assoc]
        rfl
      · rw [String.length_ofList]
        exact Nat.succ_pos _

section Restoring

variable (hprovides : Provides env t servicesRoot missing)

include hprovides

theorem restore_returns (hlive : Live c w) (state : ZkState) :
    Returns (restore env reconnect c state) w fun _ w' =>
      Onward env c (fun key => missing ∧ ¬ compare state.key key = .lt) w w' := by
  unfold restore
  cases htype : state.type with
  | createEphereral =>
      exact Returns.discard ((createEnode_returns _ hprovides hlive _ _).mono
        fun _ _ h => h.left)
  | getService =>
      refine Returns.discard (getService_goes _ hprovides hlive ?_)
      by_cases hmissing : missing
      · refine Or.inl ⟨hmissing, fun hlt => ?_⟩
        rw [ZkState.key, htype] at hlt
        simp at hlt
      · exact Or.inr fun n => (hprovides.there hmissing n state.path).left
  | getServiceInstance =>
      unfold getServiceInstanceAt
      cases hsplit : splitPath state.path with
      | none => exact Returns.discard (Returns.pure (Onward.refl hlive))
      | some parts =>
          refine Returns.discard (getServiceInstance_goes _ hprovides hlive ?_)
          by_cases hmissing : missing
          · refine Or.inl ⟨hmissing, ?_⟩
            rw [ZkState.key, htype, <- (splitPath_append hsplit).left]
            exact createKey_append_not_lt parts.1 parts.2 .getServiceInstance
          · exact Or.inr fun n => (hprovides.there hmissing n _).right
  | getRoot =>
      refine Returns.discard (getAllServices_goes _ hprovides hlive state.path ?_)
      by_cases hmissing : missing
      · refine Or.inl fun service => ⟨hmissing, fun hlt => ?_⟩
        rw [ZkState.key, htype] at hlt
        exact absurd (createKey_lt hlt) (by decide)
      · exact Or.inr hmissing

omit hprovides in
theorem takeOver_returns (gone : String -> Prop) (hlive : Live c w) {ptr : StatePtr}
    (hptr : (w.pool.stateBag_.deref ptr).isSome = true) :
    Returns (takeOver c ptr) w fun state w' => Onward env c gone w w' ∧ state.key = ptr.key := by
  rcases Option.isSome_iff_exists.mp hptr with ⟨state, hstate⟩
  unfold takeOver
  apply Returns.getBind
  rw [hstate]
  exact ⟨_, _, rfl, ⟨hlive, Later.same rfl (Nat.le_refl _) (Nat.le_refl _),
    fun _ _ h => (StateBag.isSome_deref_replaceClientIdOf _ _).mpr h⟩,
    StateBag.key_of_get (StateBag.get_of_deref hstate)⟩

theorem takeOverStates_returns (hlive : Live c w) {states : List StatePtr}
    (hordered : states.Pairwise fun ptr other => compare ptr.key other.key = .lt)
    (hthere : forall ptr, ptr ∈ states -> (w.pool.stateBag_.deref ptr).isSome = true) :
    Returns (takeOverStates env reconnect c states) w
      fun _ w' => Onward env c (fun _ => missing) w w' := by
  induction states generalizing w with
  | nil => exact Returns.pure (Onward.refl hlive)
  | cons ptr rest ih =>
      rcases List.pairwise_cons.mp hordered with ⟨hfirst, hrest⟩
      have hround : Returns (do
          let state <- takeOver c ptr
          restore env reconnect c state) w fun _ v =>
          Onward env c (fun key => missing ∧ ¬ compare ptr.key key = .lt) w v := by
        apply Returns.bind (takeOver_returns _ hlive (hthere ptr List.mem_cons_self))
        intro state u h
        rcases h with ⟨htaken, hkey⟩
        apply (restore_returns hprovides htaken.live state).mono
        intro _ v hrestored
        rw [hkey] at hrestored
        exact htaken.trans hprovides.clock hrestored
      apply Returns.bind hround
      intro _ v hv
      have hleft : forall other, other ∈ rest ->
          (v.pool.stateBag_.deref other).isSome = true := fun other hother =>
        hv.states other (fun hgone => hgone.right (hfirst other hother))
          (hthere other (List.mem_cons_of_mem _ hother))
      apply (ih hv.live hrest hleft).mono
      intro _ w' hw'
      exact (hv.mono fun _ h => h.left).trans hprovides.clock hw'

theorem takeOverList_returns (hlive : Live c w) (clientId : ClientId) :
    Returns (takeOverStates env reconnect c (w.pool.stateBag_.getList clientId)) w
      fun _ w' => Onward env c (fun _ => missing) w w' := by
  refine takeOverStates_returns hprovides hlive (StateBag.getList_ordered _ clientId) ?_
  intro ptr hptr
  rcases StateBag.deref_of_mem_getList hptr with ⟨state, hstate, _⟩
  rw [hstate]
  rfl

theorem restoreStates_returns (hlive : Live c w) :
    Returns (restoreStates env reconnect c) w
      fun _ w' => Onward env c (fun _ => missing) w w' := by
  apply Returns.getBind
  apply Returns.bind (takeOverList_returns hprovides hlive c)
  intro _ v h
  apply Returns.getBind
  apply (takeOverList_returns hprovides h.live 0).mono
  intro _ w' h'
  exact h.trans hprovides.clock h'

omit hprovides in
theorem live_connected : Live c {
    w with pool := (w.pool.setHandle c true).setConnected c true } := by
  simp [Live, ClientPool.getConnected, ClientPool.setConnected, ClientPool.setHandle,
    ClientPool.updateClient]

theorem connectZk_returns (depth : Nat)
    (hattached : w.pool.Attached c) :
    Returns (connectZk env (depth + 1) c) w
      fun _ w' => Onward env c (fun _ => missing) w w' := by
  unfold connectZk
  simp only [getConnected, bind_assoc, pure_bind]
  apply Returns.getBind
  cases hconn : w.pool.getConnected c with
  | true => exact Returns.pure (Onward.refl ⟨hconn, hattached hconn⟩)
  | false =>
      let v : World := {
        w with
        pool := ((w.pool.setHandle c false).setHandle c true).setConnected c true
        trace := w.trace ++ [.init true] }
      have hlive : Live c v := live_connected (w := { w with pool := w.pool.setHandle c false })
      have honward : Onward env c (fun _ => missing) w v :=
        ⟨hlive, Later.same rfl (Nat.le_refl _) (Nat.le_refl _), fun _ _ h => h⟩
      have hloop : Returns (do
          restoreStates env (connectZk env depth) c
          return true) v fun _ w' => Onward env c (fun _ => missing) w w' := by
        refine Returns.discard ((restoreStates_returns hprovides hlive).mono ?_)
        intro _ w' h
        exact honward.trans hprovides.clock h
      rcases hloop with ⟨a, w', hrun, hdone⟩
      refine ⟨a, w', ?_, hdone⟩
      simp only [connectLoop, log, mapPool, bind_assoc, hprovides.init, if_true, pure_bind]
      exact hrun

theorem open_returns (depth : Nat) (hattached : w.pool.Attached c) :
    Returns (open_ env (depth + 1) c) w fun _ w' => Onward env c (fun _ => missing) w w' := by
  unfold open_
  simp only [getConnected, bind_assoc, pure_bind]
  apply Returns.getBind
  cases hconn : w.pool.getConnected c with
  | true => exact Returns.pure (Onward.refl ⟨hconn, hattached hconn⟩)
  | false => exact connectZk_returns hprovides depth hattached

theorem check_returns (hlive : Live c w) :
    Returns (check env reconnect c servicesRoot) w fun a w' =>
      a = true ∧ Onward env c (fun _ => missing) w w' := by
  apply Returns.bindOk (ready_live hlive)
  rw [if_pos rfl]
  apply Returns.getBind
  apply Returns.bind (takeOverList_returns hprovides hlive 0)
  intro _ v h
  simp only [zooGet, log, bind_assoc, get_bind_run, modify_bind_run, pure_bind, h.live.right,
    if_true, hprovides.get, Returns]
  exact ⟨_, _, rfl, rfl, h.live, ⟨h.later.ticks, h.later.slept, h.later.stamps⟩, h.states⟩

end Restoring

end Serving

end ZkClient

end FrProxy
