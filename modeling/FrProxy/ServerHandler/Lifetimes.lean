import FrProxy.RegistryCache.Refresh
import FrProxy.ServerHandler.Runs
import FrProxy.ZkClient.InstanceData

/-!
# Endpoints over the lifetimes of the server

The file that one process saves is the one that the next process loads.
-/

namespace FrProxy

open Program

namespace ServerHandler

variable {host : Host} {env : Env} {depth : Nat} {file : Option String}

/-- The endpoint was read from ZooKeeper, or comes out of the first recovery file. -/
def Published (env : Env) (file : Option String) (events : List Event) (p : Endpoint) : Prop :=
  ReadIn env events p ∨ InFile env.parse file p

theorem Published.mono {events events' : List Event} {p : Endpoint}
    (h : Published env file events p) (hsub : forall e, e ∈ events -> e ∈ events') :
    Published env file events' p := by
  rcases h with hread | hfile
  · exact Or.inl (hread.mono hsub)
  · exact Or.inr hfile

def CacheSourced (env : Env) (file : Option String) (w : World) : Prop :=
  forall p, w.cache.Caches p -> Published env file w.trace p

structure Sourced (env : Env) (file : Option String) (w : World) (cacheFile : Option String) :
    Prop where
  cache : CacheSourced env file w
  saved : forall p, InFile env.parse cacheFile p -> Published env file w.trace p

theorem not_caches_empty (p : Endpoint) : ¬ RegistryCache.empty.Caches p := by
  rintro ⟨r, hr, _⟩
  rw [RegistryCache.list_empty] at hr
  cases hr

/-- What a task adds to the cache was read by it or loaded from the recovery file. -/
theorem stable_sourced (env : Env) (file : Option String) : Stable env (Sourced env file) where
  task := by
    intro w w' cacheFile hw hdone
    rcases hdone.fed with ⟨events, htrace, hnew⟩
    have hold : forall e, e ∈ w.trace -> e ∈ w'.trace := by
      intro e he
      rw [htrace]
      exact List.mem_append_left events he
    constructor
    · intro p hp
      rcases hnew p hp with hp | hread | hin
      · exact (hw.cache p hp).mono hold
      · left
        refine hread.mono fun e he => ?_
        rw [htrace]
        exact List.mem_append_right w.trace he
      · exact (hw.saved p hin).mono hold
    · exact fun p hp => (hw.saved p hp).mono hold
  boot := fun _ _ hw => ⟨fun p hp => absurd hp (not_caches_empty p), hw.saved⟩

theorem caches_of_inFile {c : RegistryCache} (h : c.Storable) (sec : Nat) {p : Endpoint}
    {write : String -> Option String -> Option String} {old : Option String}
    (hwrite : write = writeWhole ∨ exists written, write = writeCut written)
    (hp : InFile Rapidjson.parse (write (c.cache.save sec) old) p) : c.Caches p := by
  have hwhole : InFile Rapidjson.parse (some (c.cache.save sec)) p -> c.Caches p := by
    intro hin
    rcases hin with ⟨text, now, v, htext, hread, hmem⟩
    cases htext
    rw [h.unserialize_save sec now] at hread
    cases hread
    rw [List.map_map] at hmem
    rcases List.mem_map.mp hmem with ⟨r, hr, rfl⟩
    exact ⟨r, RegistryCache.mem_list_of_mem_entries hr, rfl⟩
  rcases hwrite with rfl | ⟨written, rfl⟩
  · exact hwhole hp
  · have hcut : writeCut written (c.cache.save sec) old =
        c.cache.saveInterrupted sec written old := rfl
    rw [hcut] at hp
    by_cases hall : (c.cache.save sec).length ≤ written
    · rw [RegistryCache.saveInterrupted_whole c sec hall] at hp
      exact hwhole hp
    · rw [RMap.saveInterrupted_eq] at hp
      rcases hp with ⟨text, now, v, htext, hread, hmem⟩
      cases htext
      rw [h.unserialize_cut sec now (Nat.lt_of_not_le hall)] at hread
      cases hread
      cases hmem

theorem sourced_of_saved {s : Server} {write : String -> Option String -> Option String}
    {old : Option String} {sec : Nat} (hold : Sourced env file s.world old)
    (hparse : env.parse = Rapidjson.parse)
    (hwrite : write = writeWhole ∨ exists written, write = writeCut written)
    (hsaved : s.cacheFile = write (s.world.cache.cache.save sec) old)
    (hclean : s.cacheFile ≠ old -> s.world.cache.Storable) :
    Holds (Sourced env file) s := by
  refine ⟨hold.cache, ?_⟩
  by_cases hsame : s.cacheFile = old
  · rw [hsame]
    exact hold.saved
  · intro p hp
    rw [hparse, hsaved] at hp
    exact hold.cache p (caches_of_inFile (hclean hsame) sec hwrite hp)

theorem step_sourced {s s' : Server} {a : ServerAction} (hparse : env.parse = Rapidjson.parse)
    (hstep : step host env depth s a = some s') (hs : Holds (Sourced env file) s)
    (hclean : s'.cacheFile ≠ s.cacheFile -> forall u, step host env depth s .work = some u ->
      u.world.cache.Storable) : Holds (Sourced env file) s' := by
  have hstable := stable_sourced env file
  rcases (hstable.pinned s.cacheFile).step_cases hstep ⟨hs, rfl⟩ with hkept | hsaving
  · exact hkept.left
  · cases hsaving with
    | whole hwork hsaved =>
        rcases hsaved with ⟨old, sec, ⟨hold, rfl⟩, hfile⟩
        exact sourced_of_saved hold hparse (Or.inl rfl) hfile fun hne => hclean hne _ hwork
    | cut hwork hworld hsaved =>
        rcases hsaved with ⟨old, sec, ⟨hold, rfl⟩, hfile⟩
        apply hstable.boot
        apply sourced_of_saved hold hparse (Or.inr ⟨_, rfl⟩) hfile
        intro hne
        rw [<- hworld]
        exact hclean hne _ hwork

/-!
## Runs
-/

theorem sourced_start (addr : ClientId -> Nat) : Holds (Sourced env file) (start addr file) :=
  ⟨fun p hp => absurd hp (not_caches_empty p), fun _ => Or.inr⟩

theorem sourced_run {addr : ClientId -> Nat} {actions : List ServerAction}
    (hparse : env.parse = Rapidjson.parse)
    (hclean : forall t a t', (t, a, t') ∈ runFrom host env depth addr file actions ->
      t'.cacheFile ≠ t.cacheFile -> forall u, step host env depth t .work = some u ->
        u.world.cache.Storable) :
    Holds (Sourced env file) (finalFrom host env depth addr file actions) := by
  apply Transition.final_of_kept (step host env depth) actions (sourced_start addr)
  intro t a t' hmem hstep ht
  exact step_sourced hparse hstep ht (hclean t a t' hmem)

theorem get_answers (env : Env) (serviceName : String) (s : Server) :
    exists sec s', get_ env serviceName s = Except.ok
      (if s.world.cache.list (servicePath serviceName) = [] then ""
        else Registry.serializeAll sec (s.world.cache.list (servicePath serviceName)), s') := by
  have hlist : (s.world.cache.get (servicePath serviceName)).getD [] =
      s.world.cache.list (servicePath serviceName) := rfl
  simp only [get_, get_bind_run, ite_run, hlist, List.length_eq_zero_iff]
  by_cases hempty : s.world.cache.list (servicePath serviceName) = []
  · rw [if_pos hempty]
    simp only [if_pos hempty]
    unfold skipInsert
    simp only [bind_assoc]
    rw [bind_run (x := onWorld env nowInMs) rfl]
    simp only [get_bind_run, modify_bind_run, pure_bind, ite_run]
    split
    · exact ⟨0, _, rfl⟩
    · exact ⟨0, _, rfl⟩
  · rw [if_neg hempty, bind_run (x := onWorld env nowInMs) rfl]
    simp only [if_neg hempty]
    exact ⟨_, _, rfl⟩

theorem get_alone_answers (env : Env) (serviceName : String) (s : Server) {r : Refresh}
    (hservice : r.service = servicePath serviceName) {u : RefreshState}
    (hcache : u.cache = s.world.cache) :
    exists sec n answer s' listed, get_ env serviceName s = .ok (answer, s') ∧
      r.getAlone u sec n .start = .returned answer listed := by
  rcases get_answers env serviceName s with ⟨sec, s', hget⟩
  have halone := r.get_alone u sec
  rw [hcache, hservice] at halone
  exact ⟨sec, _, _, s', _, hget, halone⟩

section Example

private def foundFile : String :=
  "[\x7b\"name\":\"/soa/services/b\",\"host\":\"h\",\"port\":1,\"weight\":3600 \x7d]"

/-- ZooKeeper serves one instance, and goes down after 24 events. -/
private def fallingEnv : Env where
  parse := Rapidjson.parse
  zookeeperInit := fun n => decide (n < 24)
  zooWgetChildren := fun n path =>
    if 24 ≤ n then (zconnectionloss, [])
    else if path = root then (zok, ["a"])
    else if path = servicePath "a" then (zok, ["m1"])
    else (znonode, [])
  zooWget := fun n path =>
    if 24 ≤ n then (zconnectionloss, {})
    else if path = servicePath "a" ++ "/m1" then (zok, { data := endpointText "h" "1" })
    else (znonode, {})
  zooCreate := fun n path =>
    if 24 ≤ n then zconnectionloss else if path = "/soa" then znodeexists else zok
  zooGet := fun n _ => if 24 ≤ n then zconnectionloss else zok
  clock := fun n => 5000 + n
  cacheFile := none

private def smallHost : Host where
  hostname := "p"
  port := 1
  workerCount := 3
  openWrite := fun _ => true

/--
The first autosave is cut by a crash.  The second one is whole, and it is what the third
process has, for ZooKeeper is down when it starts.
-/
private def threeLives : List ServerAction :=
  [.work, .work, .commit .autosave, .crash 9, .work, .work, .commit .autosave, .work, .restart,
    .work, .work]

private def readBackEntries (c : RegistryCache) : Bool :=
  c.cache.entries.all fun r => decide (r.CleanFields ∧ -2 ^ 31 ≤ r.port ∧ r.port < 2 ^ 31)

private theorem storable_of_entries {c : RegistryCache} (h : readBackEntries c = true) :
    c.Storable := by
  have hentry := RegistryCache.forall_list_of_entries fun r hr =>
    of_decide_eq_true (List.all_eq_true.mp h r hr)
  exact ⟨fun name r hr => (hentry name r hr).left, fun name r hr => (hentry name r hr).right⟩

private def checksOut (u : Server × ServerAction × Server) : Bool :=
  decide (u.2.2.cacheFile = u.1.cacheFile) ||
    ((step smallHost fallingEnv 1 u.1 .work).map fun v => readBackEntries v.world.cache) ==
      some true

example : (finalFrom smallHost fallingEnv 1 id (some foundFile) threeLives).world.cache.Caches
    { name := servicePath "a", host := "h", port := 1 } := by
  decide +kernel

end Example

end ServerHandler

end FrProxy
