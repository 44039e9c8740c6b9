import FrProxy.RegistryCache.Znodes
import FrProxy.ServerHandler.Losses
import FrProxy.Watcher

/-!
# Histories of the cache as the program makes them

A read of an instance, the start of a refresh, a load of the recovery file and the
deletion of a znode do to the cache what the actions of its histories do.  What a
client does on its own is a history of reads and refreshes.
-/

namespace FrProxy

open Program

/-- What a call of a client adds to the history. -/
def Event.znodeAction? (env : Env) : Event -> Option ZnodeAction
  | .children .getService path rc nodes =>
      if rc = zok ∧ nodes.length > 0 then some (.refresh path) else none
  | .instance_ service node rc data mtime =>
      if rc = zok then
        match env.readEndpoint data.data with
        | .error _ => none
        | .ok (host, port) => some (.read service node host port (data.ctime / 1000) mtime)
      else none
  | _ => none

namespace ZnodeCache

/-- Whatever was read before, the history leads from one cache to the other. -/
def Leads (history : List ZnodeAction) (c c' : RegistryCache) : Prop :=
  forall lastRead, (Transition.final step { cache := c, lastRead } history).cache = c'

theorem Leads.nil (c : RegistryCache) : Leads [] c c :=
  fun _ => rfl

theorem isSome_step (s : ZnodeCache) (a : ZnodeAction) : (step s a).isSome = true := by
  cases a with
  | deleted service node client => cases client <;> rfl
  | _ => rfl

theorem Leads.append {first second : List ZnodeAction} {c d e : RegistryCache}
    (hfirst : Leads first c d) (hsecond : Leads second d e) : Leads (first ++ second) c e := by
  intro lastRead
  rw [Transition.final_append step isSome_step]
  let s := Transition.final step { cache := c, lastRead } first
  have hs : s = { cache := d, lastRead := s.lastRead } := by
    rw [<- hfirst lastRead]
  rw [show Transition.final step { cache := c, lastRead } first = s from rfl, hs]
  exact hsecond s.lastRead

theorem leads_event (env : Env) (c : RegistryCache) {e : Event} (he : e.isCall = true) :
    Leads (e.znodeAction? env).toList c (e.onCache env c) := by
  cases e with
  | children type path rc nodes =>
      cases type with
      | getService =>
          simp only [Event.znodeAction?, Event.onCache]
          split
          · exact fun _ => rfl
          · exact Leads.nil c
      | _ => exact Leads.nil c
  | instance_ service node rc data mtime =>
      simp only [Event.znodeAction?, Event.onCache]
      split
      · cases env.readEndpoint data.data with
        | error stop => exact Leads.nil c
        | ok endpoint => exact fun _ => rfl
      · exact Leads.nil c
  | purge timestamp => cases he
  | load v => cases he
  | _ => exact Leads.nil c

theorem leads_replay (env : Env) (events : List Event) (c : RegistryCache)
    (hcalls : forall e, e ∈ events -> e.isCall = true) :
    Leads (events.filterMap (·.znodeAction? env)) c (Event.replay env events c) := by
  induction events generalizing c with
  | nil => exact Leads.nil c
  | cons e rest ih =>
      rcases List.forall_mem_cons.mp hcalls with ⟨he, hrest⟩
      have hall := (leads_event env c he).append (ih (e.onCache env c) hrest)
      cases haction : e.znodeAction? env with
      | none =>
          rw [haction] at hall
          rw [List.filterMap_cons_none haction]
          exact hall
      | some a =>
          rw [haction] at hall
          rw [List.filterMap_cons_some haction]
          exact hall

variable {env : Env} {c : ClientId} {depth : Nat} {w w' : World}

theorem leads_of_calls (hexplained : Explained env w w')
    (hcalls : forall e, e ∈ happened w w' -> e.isCall = true) :
    Leads ((happened w w').filterMap (·.znodeAction? env)) w.cache w'.cache := by
  rcases hexplained with ⟨events, htrace, hcache⟩
  rw [happened_of_append htrace] at hcalls ⊢
  rw [hcache]
  exact leads_replay env events w.cache hcalls

theorem client_leads {α : Type} {x : ZkM α} (hmoves : Steps (ClientMove env c) x)
    (hpaced : Steps Paced x) {a : α} (hrun : x w = .ok (a, w')) :
    Leads ((happened w w').filterMap (·.znodeAction? env)) w.cache w'.cache := by
  apply leads_of_calls (Explained.of_steps hmoves hrun)
  rcases paced_of_steps hpaced hrun with ⟨events, htrace, _, _, hcalls⟩
  rw [happened_of_append htrace]
  exact hcalls

theorem getService_leads {service : String} {b : Bool}
    (hrun : ZkClient.getService env (ZkClient.connectZk env depth) c service w = .ok (b, w')) :
    Leads ((happened w w').filterMap (·.znodeAction? env)) w.cache w'.cache := by
  have hmoves : Steps (ClientMove env c)
      (ZkClient.getService env (ZkClient.connectZk env depth) c service) :=
    ZkClient.getService_steps (ZkClient.connectZk_steps depth) service
  have hpaced : Steps Paced
      (ZkClient.getService env (ZkClient.connectZk env depth) c service) :=
    ZkClient.getService_steps (ZkClient.connectZk_steps depth) service
  exact client_leads hmoves hpaced hrun

/-!
## The single operations
-/

theorem readInstance_leads {service node : String} {b : Bool}
    (hrun : ZkClient.readInstance env c service node w = .ok (b, w')) :
    w'.cache = w.cache ∨ exists host port ctime mtime,
      Leads [.read service node host port ctime mtime] w.cache w'.cache := by
  rcases ZkClient.readInstance_records hrun with ⟨rc, data, mtime, hrecords⟩
  have hleads := leads_event env w.cache (e := .instance_ service node rc data mtime) rfl
  rw [<- hrecords.cache] at hleads
  simp only [Event.znodeAction?] at hleads
  split at hleads
  · cases hread : env.readEndpoint data.data with
    | error stop =>
        rw [hread] at hleads
        exact Or.inl (hleads fun _ => none).symm
    | ok endpoint =>
        rw [hread] at hleads
        exact Or.inr ⟨endpoint.1, endpoint.2, data.ctime / 1000, mtime, hleads⟩
  · exact Or.inl (hleads fun _ => none).symm

theorem listService_leads {service : String} {a : Bool × List String}
    (hrun : ZkClient.listService env c service w = .ok (a, w')) :
    w'.cache = w.cache ∨ Leads [.refresh service] w.cache w'.cache := by
  rcases ZkClient.listService_records hrun with ⟨rc, nodes, hrecords, _⟩
  have hleads := leads_event env w.cache (e := .children .getService service rc nodes) rfl
  rw [<- hrecords.cache] at hleads
  simp only [Event.znodeAction?] at hleads
  split at hleads
  · exact Or.inr hleads
  · exact Or.inl (hleads fun _ => none).symm

theorem fromFile_leads {u : PUnit} (hrun : ServerHandler.fromFile env w = .ok (u, w')) :
    w'.cache = w.cache ∨ exists now v, Leads [.load now v] w.cache w'.cache := by
  unfold ServerHandler.fromFile at hrun
  cases hfile : env.cacheFile with
  | none =>
      rw [hfile] at hrun
      cases hrun
      exact Or.inl rfl
  | some text =>
      rw [hfile] at hrun
      simp only [get_bind_run] at hrun
      cases hread : Registry.unserialize env.parse (env.clock (w.ticks + 0) + w.slept) text with
      | error stop =>
          rw [hread] at hrun
          cases hrun
      | ok v =>
          rw [hread] at hrun
          cases hrun
          exact Or.inr ⟨_, v, fun _ => rfl⟩

/-!
## The watcher of an instance
-/

theorem poolOpen_leads {result : Option ClientId}
    (hrun : ZkClient.poolOpen env depth w = .ok (result, w')) :
    Leads ((happened w w').filterMap (·.znodeAction? env)) w.cache w'.cache := by
  have hexplained : Explained env w w' :=
    ServerHandler.poolOpen_steps.relates (Explained.refl env) (fun _ _ _ => Explained.trans)
      (fun _ _ => CacheMove.explained) hrun
  apply leads_of_calls hexplained
  rcases ServerHandler.poolOpen_paced hrun with ⟨hnone, hsome⟩
  cases result with
  | none =>
      have hnil : happened w w' = [] := by
        apply happened_of_append
        rw [hnone rfl, List.append_nil]
      rw [hnil]
      exact fun e he => absurd he List.not_mem_nil
  | some c =>
      rcases hsome c rfl with ⟨events, htrace, _, _, hcalls⟩
      have hevents : happened w w' = events := happened_of_append htrace
      rw [hevents]
      exact hcalls

/--
A call of `service_instance_watcher` for a znode that was deleted is a history of
what its client read when it connected, and the deletion.
-/
theorem callback_leads {path : String} {u : PUnit}
    (hrun : Watcher.callback env depth .serviceInstance .deleted path w = .ok (u, w')) :
    Leads ((happened w w').filterMap (·.znodeAction? env) ++
      [.deleted (Watcher.splitNode path).1 (Watcher.splitNode path).2 (ZkClient.opened env w).2.isSome])
      w.cache w'.cache := by
  unfold Watcher.callback at hrun
  rcases bind_ok.mp hrun with ⟨result, v, hopen, hrest⟩
  have hresult := (ZkClient.poolOpen_run hopen).left
  rw [<- hresult]
  have hleads := poolOpen_leads hopen
  cases result with
  | none =>
      cases hrest
      exact hleads.append fun _ => rfl
  | some c =>
      cases hrest
      exact hleads.append fun _ => rfl

end ZnodeCache

end FrProxy
