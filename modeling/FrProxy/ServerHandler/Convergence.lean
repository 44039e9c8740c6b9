import FrProxy.ClientPool.System
import FrProxy.ServerHandler
import FrProxy.ZkClient.InstanceData

/-!
# A check against a fixed tree

When ZooKeeper answers every call, one check makes the cache equal to the tree,
whatever the cache held before.
-/

namespace FrProxy

open KeyedList

/-!
## Caches and their time stamps
-/

/-- The caches that the operations build while the clock reads at most `limit`. -/
inductive BuiltBy (limit : Nat) : RegistryCache -> Prop where
  | empty : BuiltBy limit RegistryCache.empty
  | add {c : RegistryCache} (h : BuiltBy limit c) (reg : Registry)
      (hmtime : reg.mtime ≤ limit) : BuiltBy limit (c.add reg)
  | removeRegistry {c : RegistryCache} (h : BuiltBy limit c) (reg : Registry) :
      BuiltBy limit (c.removeRegistry reg)
  | removeEphemeral {c : RegistryCache} (h : BuiltBy limit c) (name ephemeral : String) :
      BuiltBy limit (c.removeEphemeral name ephemeral)
  | removeName {c : RegistryCache} (h : BuiltBy limit c) (name : String) :
      BuiltBy limit (c.removeName name)
  | removeOverdue {c : RegistryCache} (h : BuiltBy limit c) (timestamp : Nat) :
      BuiltBy limit (c.removeOverdue timestamp)
  | clear {c : RegistryCache} (h : BuiltBy limit c) : BuiltBy limit c.clear
  | fromFile {c c' : RegistryCache} (h : BuiltBy limit c) (parse : String -> Option Json)
      (now : Nat -> Nat) (hnow : forall i, now i ≤ limit) (content : Option String)
      (hload : RegistryCache.fromFile parse now content c = .ok c') : BuiltBy limit c'

theorem mtime_of_mem_fileEntries {limit : Nat} {now : Nat -> Nat}
    (hnow : forall i, now i ≤ limit) {v : RVector} {r : Registry}
    (h : r ∈ RMap.fileEntries now v) : r.mtime ≤ limit := by
  induction v generalizing now with
  | nil => cases h
  | cons s rest ih =>
      cases h with
      | head => exact hnow 0
      | tail _ hrest => exact ih (fun i => hnow (i + 1)) hrest

def Dated (limit : Nat) (c : RegistryCache) : Prop :=
  forall name r, r ∈ c.list name -> r.mtime ≤ limit

theorem Dated.add {limit : Nat} {c : RegistryCache} (h : Dated limit c) {reg : Registry}
    (hmtime : reg.mtime ≤ limit) : Dated limit (c.add reg) := by
  intro name r hr
  rw [RegistryCache.list_add] at hr
  split at hr
  · rcases (mem_touch _).mp hr with hold | rfl
    · exact h name r hold.left
    · exact hmtime
  · exact h name r hr

theorem Dated.load {limit : Nat} {c : RegistryCache} (h : Dated limit c) {v : RVector}
    (hv : forall r, r ∈ v -> r.mtime ≤ limit) : Dated limit (c.load v) := by
  unfold RegistryCache.load
  induction v generalizing c with
  | nil => exact h
  | cons reg rest ih =>
      exact ih (h.add (hv reg List.mem_cons_self))
        fun r hr => hv r (List.mem_cons_of_mem _ hr)

theorem BuiltBy.dated {limit : Nat} {c : RegistryCache} (h : BuiltBy limit c) :
    Dated limit c := by
  induction h with
  | empty =>
      intro name r hr
      simp at hr
  | add _ reg hmtime ih => exact ih.add hmtime
  | removeRegistry _ reg ih =>
      intro name r hr
      rw [RegistryCache.list_removeRegistry] at hr
      exact ih name r (List.mem_of_mem_filter hr)
  | removeEphemeral _ name ephemeral ih =>
      intro a r hr
      rw [RegistryCache.list_removeEphemeral] at hr
      split at hr
      · exact ih a r (List.mem_of_mem_eraseP hr)
      · exact ih a r hr
  | removeName _ name ih =>
      intro a r hr
      rw [RegistryCache.list_removeName] at hr
      split at hr
      · cases hr
      · exact ih a r hr
  | removeOverdue _ timestamp ih =>
      intro name r hr
      rw [RegistryCache.list_removeOverdue] at hr
      exact ih name r (List.mem_of_mem_filter hr)
  | clear _ _ =>
      intro name r hr
      simp at hr
  | fromFile _ parse now hnow content hload ih =>
      cases content with
      | none =>
          cases hload
          exact ih
      | some text =>
          unfold RegistryCache.fromFile at hload
          dsimp only at hload
          cases hread : Registry.unserialize parse (now 0) text with
          | error stop =>
              rw [hread] at hload
              cases hload
          | ok v =>
              rw [hread] at hload
              cases hload
              exact ih.load fun r hr => mtime_of_mem_fileEntries hnow hr

theorem Dated.stampOf {limit : Nat} {c : RegistryCache} (h : Dated limit c) {p : Endpoint}
    {mtime : Nat} (hstamp : c.stampOf p = some mtime) : mtime ≤ limit := by
  rcases RegistryCache.stampOf_eq_some.mp hstamp with ⟨r, hr, _, rfl⟩
  exact h p.name r hr

/-!
## A client for the check
-/

/-- Whoever is handed out has a session handle, if connected. -/
def AllAttached (s : PoolSystem) : Prop :=
  forall c, c ∈ s.pool.idle_ ∨ c ∈ s.opening -> s.pool.Attached c

theorem AllAttached.openMove {s s' : PoolSystem} (hmove : PoolSystem.OpenMove s s')
    (h : AllAttached s) : AllAttached s' := by
  cases hmove with
  | @giveUp c rest hidle =>
      intro d hd
      rcases hd with hd | hd
      · exact h d (Or.inl (hidle ▸ List.mem_cons_of_mem c hd))
      · exact h d (Or.inr hd)
  | @reuse c rest hidle =>
      intro d hd
      apply (ClientPool.attached_setInUsing s.pool c d true).mpr
      rcases hd with hd | hd
      · exact h d (Or.inl (hidle ▸ List.mem_cons_of_mem c hd))
      · rcases List.mem_cons.mp hd with rfl | hd
        · exact h _ (Or.inl (hidle ▸ List.mem_cons_self))
        · exact h d (Or.inr hd)
  | create =>
      intro d hd
      by_cases hnew : d = s.pool.lastId_ + 1
      · intro hconn
        simp [ClientPool.create, ClientPool.setInUsing, ClientPool.updateClient,
          ClientPool.getConnected, hnew] at hconn
      · have hold : d ∈ s.pool.idle_ ∨ d ∈ s.opening := by
          rcases hd with hd | hd
          · exact Or.inl hd
          · exact Or.inr ((List.mem_cons.mp hd).resolve_left hnew)
        have hsame : s.pool.create.clients d = s.pool.clients d := by
          simp [ClientPool.create, ClientPool.setInUsing, ClientPool.updateClient, hnew]
        intro hconn
        have hconn' : s.pool.getConnected d = true := by
          rw [<- hconn]
          exact congrArg ZkClient.connected_ hsame.symm
        exact (congrArg ZkClient.zhandle_ hsame).trans (h d hold hconn')
  | @evict c _ =>
      intro d hd
      exact (ClientPool.attached_setInUsing _ c d false).mpr (h d hd)

namespace ServerHandler

open Program ZkClient

variable {env : Env} {t : ZkTree env.parse} {w : World} {missing : Prop}

theorem poolOpen_returns (hprovides : Provides env t root missing) (depth : Nat)
    (hroom : (w.pool.using_.length : Int) < w.pool.maxClient_)
    (hattached : forall c, c ∈ w.pool.idle_ -> w.pool.Attached c) :
    Returns (poolOpen env (depth + 1)) w fun r w' =>
      exists c, r = some c ∧ Live c w' ∧ Later env w w' := by
  let now := w.reading env
  let p := (w.pool.destroyClients false).openSection now
  rcases ClientPool.openSection_hands (p := w.pool.destroyClients false) now hroom with ⟨c, hc⟩
  have hhanded : p.1.Attached c := by
    have hstart : AllAttached (PoolSystem.alone (w.pool.destroyClients false) []) := by
      intro d hd
      rcases hd with hd | hd
      · exact hattached d hd
      · cases hd
    apply PoolSystem.openSection_alone AllAttached (fun _ _ => AllAttached.openMove) now hstart c
    right
    exact Option.mem_toList.mpr hc
  let v : World := {
    w with pool := p.1.stamp c (env.clock (w.ticks + 1) + w.slept), ticks := w.ticks + 2 }
  have hstamped : v.pool.Attached c := by
    intro hconn
    have hconn' : p.1.getConnected c = true := by
      simpa [v, ClientPool.getConnected, ClientPool.stamp, ClientPool.updateClient] using hconn
    simpa [v, ClientPool.stamp, ClientPool.updateClient] using hhanded hconn'
  rcases open_returns hprovides depth hstamped with ⟨b, w', hrun, honward⟩
  refine ⟨some c, w', ?_, c, rfl, honward.live, ?_⟩
  · simp only [poolOpen, mapPool, nowInMs, bind_assoc, get_bind_run, modify_bind_run,
      pure_bind]
    have hc' : ((w.pool.destroyClients false).openSection
        (env.clock w.ticks + w.slept)).2 = some c := hc
    rw [hc']
    simp only [get_bind_run, modify_bind_run]
    exact bind_ok.mpr ⟨b, w', hrun, rfl⟩
  · have hlater : Later env w v :=
      ⟨Nat.le_add_right _ 2, Nat.le_refl _, fun _ => Or.inl rfl⟩
    exact hlater.trans hprovides.clock honward.later

theorem stampOf_le_reading {u : World} (hclock : Monotone env.clock)
    (hdated : Dated (w.reading env) w.cache) (hlater : Later env w u) (p : Endpoint)
    (mtime : Nat) (hstamp : u.cache.stampOf p = some mtime) : mtime ≤ u.reading env := by
  rcases hlater.stamps p with hsame | hnone | ⟨fresh, hfresh, _, hhigh⟩
  · rw [hsame] at hstamp
    exact Nat.le_trans (hdated.stampOf hstamp) (hlater.reading hclock)
  · rw [hnone] at hstamp
    cases hstamp
  · rw [hfresh] at hstamp
    cases hstamp
    exact hhigh

/-- The scan registers what the tree offers; the purge drops everything else. -/
theorem scan_returns (hprovides : Provides env t root missing) (depth : Nat) {c : ClientId}
    (hlive : Live c w)
    (hdated : forall p mtime, w.cache.stampOf p = some mtime -> mtime ≤ w.reading env) :
    Returns (scan env depth c) w fun _ w' =>
      forall p, w'.cache.Caches p <-> t.Contains root p := by
  let now := env.clock w.ticks + (w.slept + 1)
  let v : World := {
    w with trace := w.trace ++ [.sleep], ticks := w.ticks + 1, slept := w.slept + 1 }
  have hlive' : Live c v := hlive
  have hnow : now ≤ v.reading env :=
    Nat.add_le_add_right (hprovides.clock (Nat.le_succ _)) _
  have hscan : Returns (getAllServices env (connectZk env depth) c root) v fun _ u =>
      Onward env c (fun _ => missing) v u ∧
        Scanned env t ((t.children root).map fun node => root ++ "/" ++ node) v u :=
    getAllServices_returns _ hprovides hlive'
  rcases hscan with ⟨b, u, hrun, _, hscanned⟩
  refine ⟨⟨⟩, { u with trace := u.trace ++ [.purge now], cache := u.cache.removeOverdue now },
    ?_, fun p => ?_⟩
  · exact bind_ok.mpr ⟨⟨⟩, _, rfl, bind_ok.mpr ⟨now, v, rfl, bind_ok.mpr ⟨b, u, hrun, rfl⟩⟩⟩
  · have hold : v.cache.stampOf p = w.cache.stampOf p := rfl
    have hpurged : forall mtime, w.cache.stampOf p = some mtime -> ¬ now ≤ mtime := by
      intro mtime hstamp hfresh
      have hle : mtime ≤ env.clock w.ticks + w.slept := hdated p mtime hstamp
      exact absurd (Nat.le_trans hfresh hle) (Nat.not_le_of_lt (Nat.lt_succ_self _))
    rw [RegistryCache.caches_iff_stampOf, RegistryCache.stampOf_removeOverdue,
      Option.isSome_iff_exists]
    simp only [Option.filter_eq_some_iff, decide_eq_true_eq]
    constructor
    · intro h
      rcases h with ⟨mtime, hstamp, hfresh⟩
      constructor
      · by_contra hnone
        have hservices : p.name ∉ (t.children root).map fun node => root ++ "/" ++ node := by
          intro hmem
          rcases List.mem_map.mp hmem with ⟨node, hnode, hname⟩
          exact hnone ⟨node, hnode, hname.symm⟩
        rw [hscanned.others p hservices] at hstamp
        exact hpurged mtime hstamp hfresh
      · by_contra hoffers
        rcases hscanned.dropped p hoffers with hgone | hsame
        · rw [hgone] at hstamp
          cases hstamp
        · rw [hsame] at hstamp
          exact hpurged mtime hstamp hfresh
    · intro h
      rcases h with ⟨⟨node, hnode, hname⟩, hoffers⟩
      have hservices : p.name ∈ (t.children root).map fun node => root ++ "/" ++ node :=
        List.mem_map.mpr ⟨node, hnode, hname.symm⟩
      have hne : p.name ≠ "" := by
        intro hempty
        have hlength := congrArg String.length (hname.symm.trans hempty)
        simp [root, String.length_append] at hlength
      rcases hscanned.offered p hservices hne hoffers with ⟨mtime, hstamp, hlow⟩
      exact ⟨mtime, hstamp, Nat.le_trans hnow hlow⟩

section Example

private def smallTree : ZkTree Rapidjson.parse where
  children := fun path =>
    if path = root then ["a"] else if path = "/soa/services/a" then ["m1"] else []
  data := fun _ => plainInstance
  named := by
    intro path
    split
    · decide
    · split
      · decide
      · decide

private def answering : Env where
  parse := Rapidjson.parse
  zookeeperInit := fun _ => true
  zooWgetChildren := fun _ path => (zok, smallTree.children path)
  zooWget := fun _ path => (zok, (smallTree.data path).node)
  zooCreate := fun _ _ => zok
  zooGet := fun _ _ => zok
  clock := fun n => 10 + n
  cacheFile := none

private theorem serves_smallTree : Serves answering smallTree where
  init := fun _ => rfl
  children := fun _ _ => rfl
  data := fun _ _ => rfl
  create := fun _ _ => rfl
  get := fun _ _ => rfl
  clock := fun _ _ h => Nat.add_le_add_left h 10

private def stale : Registry :=
  { name := "/soa/services/b", host := "h", port := 2, mtime := 5, ephemeral := "m1" }

/-- A fresh pool, and a cache with an instance of a service that is gone. -/
private def staleWorld : World where
  pool := ClientPool.start id
  cache := RegistryCache.empty.add stale
  trace := []
  ticks := 0
  slept := 0

end Example

end ServerHandler

end FrProxy
