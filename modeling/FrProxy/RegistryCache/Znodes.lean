import FrProxy.Library.Transition
import FrProxy.RegistryCache

/-!
# Entries and the znodes they come from

An entry is looked up by its endpoint when it is added and by the name of its
znode when that znode is deleted.  This module follows both through histories
of reads, refreshes, file loads and deletions.
-/

namespace FrProxy

open KeyedList
open RMap (fromFileMarker)

/-- The cache, and for each endpoint the znode of its most recent ZooKeeper read. -/
structure ZnodeCache where
  cache : RegistryCache
  lastRead : Endpoint -> Option String

inductive ZnodeAction where
  /-- `get_service_instance(service, node)` answered `ZOK`, giving this endpoint. -/
  | read (service node host : String) (port : Int) (ctime mtime : Nat)
  /-- The start of a refresh in `get_service`: the list of the service is dropped. -/
  | refresh (service : String)
  /-- `from_file`, with the entries that the file holds and the clock it reads. -/
  | load (now : Nat -> Nat) (v : RVector)
  /-- `service_instance_watcher` with a `DELETED` event; `client`: the pool had a client. -/
  | deleted (service node : String) (client : Bool)

namespace ZnodeAction

def entry (service node host : String) (port : Int) (ctime mtime : Nat) : Registry :=
  { name := service, host, port, ctime, mtime, ephemeral := node }

/-- Znodes are not called like the marker of `from_file`. -/
def Proper : ZnodeAction -> Prop
  | read _ node _ _ _ _ => node ≠ fromFileMarker
  | deleted _ node _ => node ≠ fromFileMarker
  | _ => True

instance (a : ZnodeAction) : Decidable a.Proper :=
  match a with
  | read _ node _ _ _ _ => inferInstanceAs (Decidable (node ≠ fromFileMarker))
  | deleted _ node _ => inferInstanceAs (Decidable (node ≠ fromFileMarker))
  | refresh _ => inferInstanceAs (Decidable True)
  | load _ _ => inferInstanceAs (Decidable True)

end ZnodeAction

namespace ZnodeCache

def start : ZnodeCache where
  cache := RegistryCache.empty
  lastRead := fun _ => none

def step (s : ZnodeCache) : ZnodeAction -> Option ZnodeCache
  | .read service node host port ctime mtime =>
      let reg := ZnodeAction.entry service node host port ctime mtime
      some {
        cache := s.cache.add reg
        lastRead := fun p => if p = reg.endpoint then some node else s.lastRead p }
  | .refresh service => some { s with cache := s.cache.removeName service }
  | .load now v => some { s with cache := s.cache.load (RMap.fileEntries now v) }
  | .deleted service node client =>
      if client then some { s with cache := s.cache.removeEphemeral service node }
      else some s

def OnePerZnode (c : RegistryCache) : Prop :=
  forall service r t, r ∈ c.list service -> t ∈ c.list service ->
    r.ephemeral = t.ephemeral -> r.ephemeral ≠ fromFileMarker -> r = t

def Gone (s : ZnodeCache) (service node : String) : Prop :=
  forall r, r ∈ s.cache.list service ->
    r.ephemeral ≠ node ∧ s.lastRead r.endpoint ≠ some node

def Clean (_s : ZnodeCache) (a : ZnodeAction) (s' : ZnodeCache) : Prop :=
  OnePerZnode s'.cache ∧
    match a with
    | .deleted service node _ => Gone s' service node
    | _ => True

def Guard (s : ZnodeCache) : ZnodeAction -> Prop
  | .read service node host port ctime mtime =>
      RMap.accepts (ZnodeAction.entry service node host port ctime mtime) = true ->
        forall r, r ∈ s.cache.list service -> r.ephemeral = node ->
          r.endpoint = { name := service, host, port }
  | .deleted service node client =>
      forall r, r ∈ s.cache.list service ->
        (r.ephemeral = node ∨ s.lastRead r.endpoint = some node) ->
        client = true ∧ r.ephemeral = node
  | _ => True

/-!
## One step
-/

theorem OnePerZnode.add {c : RegistryCache} (h : OnePerZnode c) {reg : Registry}
    (hother : RMap.accepts reg = true -> reg.ephemeral ≠ fromFileMarker ->
      forall r, r ∈ c.list reg.name -> r.ephemeral = reg.ephemeral ->
        r.endpoint = reg.endpoint) :
    OnePerZnode (c.add reg) := by
  intro service r t hr ht heph hmark
  rw [RegistryCache.list_add] at hr ht
  by_cases hcond : RMap.accepts reg = true ∧ reg.name = service
  · rw [if_pos hcond] at hr ht
    rcases hcond with ⟨hreg, rfl⟩
    rcases (mem_touch _).mp hr with ⟨hr, hrne⟩ | rfl
    · rcases (mem_touch _).mp ht with ⟨ht, _⟩ | rfl
      · exact h _ r t hr ht heph hmark
      · exact absurd (hother hreg (heph ▸ hmark) r hr heph) hrne
    · rcases (mem_touch _).mp ht with ⟨ht, htne⟩ | rfl
      · exact absurd (hother hreg hmark t ht heph.symm) htne
      · rfl
  · rw [if_neg hcond] at hr ht
    exact h service r t hr ht heph hmark

theorem OnePerZnode.load {c : RegistryCache} (h : OnePerZnode c) {v : RVector}
    (hv : forall r, r ∈ v -> r.ephemeral = fromFileMarker) : OnePerZnode (c.load v) := by
  induction v generalizing c with
  | nil => exact h
  | cons r rest ih =>
      have hr : OnePerZnode (c.add r) :=
        h.add fun _ hmark => absurd (hv r List.mem_cons_self) hmark
      exact ih hr fun t ht => hv t (List.mem_cons_of_mem r ht)

theorem OnePerZnode.of_subset {c d : RegistryCache} (h : OnePerZnode c)
    (hsub : forall service r, r ∈ d.list service -> r ∈ c.list service) :
    OnePerZnode d := by
  intro service r t hr ht
  exact h service r t (hsub service r hr) (hsub service t ht)

theorem mem_list_removeName {c : RegistryCache} {name service : String} {r : Registry}
    (hr : r ∈ (c.removeName name).list service) : r ∈ c.list service := by
  rw [RegistryCache.list_removeName] at hr
  split at hr
  · cases hr
  · exact hr

theorem mem_list_removeEphemeral {c : RegistryCache} {name ephemeral service : String}
    {r : Registry} (hr : r ∈ (c.removeEphemeral name ephemeral).list service) :
    r ∈ c.list service := by
  rw [RegistryCache.list_removeEphemeral] at hr
  split at hr
  · exact List.mem_of_mem_eraseP hr
  · exact hr

theorem mem_list_removeEphemeral_self {c : RegistryCache} (h : OnePerZnode c)
    {service node : String} (hnode : node ≠ fromFileMarker) {r : Registry} :
    r ∈ (c.removeEphemeral service node).list service <->
      r ∈ c.list service ∧ r.ephemeral ≠ node := by
  have hnodup : (c.list service).Nodup := List.Nodup.of_map _ (c.filed service).distinct
  rw [RegistryCache.list_removeEphemeral, if_pos rfl, mem_eraseP_of_unique hnodup]
  · simp
  · intro x hx y hy hpx hpy
    simp only [beq_iff_eq] at hpx hpy
    exact h service x y hx hy (hpx.trans hpy.symm) (hpx ▸ hnode)

theorem clean_of_guard {s s' : ZnodeCache} {a : ZnodeAction} (ha : a.Proper)
    (hstep : step s a = some s') (h : OnePerZnode s.cache) (hguard : Guard s a) :
    Clean s a s' := by
  cases a with
  | read service node host port ctime mtime =>
      cases hstep
      exact ⟨h.add fun hreg _ => hguard hreg, trivial⟩
  | refresh service =>
      cases hstep
      exact ⟨h.of_subset fun _ _ => mem_list_removeName, trivial⟩
  | load now v =>
      cases hstep
      exact ⟨h.load fun _ hr => RegistryCache.ephemeral_of_mem_fileEntries hr, trivial⟩
  | deleted service node client =>
      cases client with
      | false =>
          simp only [step, Bool.false_eq_true, if_false, Option.some.injEq] at hstep
          subst hstep
          refine ⟨h, fun r hr => ⟨fun heph => ?_, fun hread => ?_⟩⟩
          · cases (hguard r hr (Or.inl heph)).left
          · cases (hguard r hr (Or.inr hread)).left
      | true =>
          simp only [step, if_true, Option.some.injEq] at hstep
          subst hstep
          refine ⟨h.of_subset fun _ _ => mem_list_removeEphemeral, fun r hr => ?_⟩
          rcases (mem_list_removeEphemeral_self h ha).mp hr with ⟨hrc, hne⟩
          exact ⟨hne, fun hread => hne (hguard r hrc (Or.inr hread)).right⟩

theorem guard_of_clean {s s' : ZnodeCache} {a : ZnodeAction} (ha : a.Proper)
    (hstep : step s a = some s') (h : OnePerZnode s.cache) (hclean : Clean s a s') :
    Guard s a := by
  rcases hclean with ⟨hone, hgone⟩
  cases a with
  | read service node host port ctime mtime =>
      cases hstep
      intro hreg r hr heph
      by_contra hne
      let reg := ZnodeAction.entry service node host port ctime mtime
      have hnew : reg ∈ (s.cache.add reg).list service := by
        rw [RegistryCache.list_add, if_pos ⟨hreg, rfl⟩]
        exact (mem_touch _).mpr (Or.inr rfl)
      have hold : r ∈ (s.cache.add reg).list service := by
        rw [RegistryCache.list_add, if_pos ⟨hreg, rfl⟩]
        exact (mem_touch _).mpr (Or.inl ⟨hr, hne⟩)
      have hmark : r.ephemeral ≠ fromFileMarker := by
        rw [heph]
        exact ha
      exact hne (congrArg Registry.endpoint (hone service r reg hold hnew heph hmark))
  | refresh service => trivial
  | load now v => trivial
  | deleted service node client =>
      intro r hr hfrom
      cases client with
      | false =>
          simp only [step, Bool.false_eq_true, if_false, Option.some.injEq] at hstep
          subst hstep
          rcases hfrom with heph | hread
          · exact absurd heph (hgone r hr).left
          · exact absurd hread (hgone r hr).right
      | true =>
          simp only [step, if_true, Option.some.injEq] at hstep
          subst hstep
          refine ⟨rfl, ?_⟩
          by_contra hne
          have hleft := (mem_list_removeEphemeral_self h ha).mpr ⟨hr, hne⟩
          rcases hfrom with heph | hread
          · exact hne heph
          · exact (hgone r hleft).right hread

/-!
## Histories
-/

def properStep (s : ZnodeCache) (a : { a : ZnodeAction // a.Proper }) : Option ZnodeCache :=
  step s a.1

theorem onePerZnode_start : OnePerZnode start.cache := by
  intro service r t hr
  simp [start] at hr

/--
A history leaves nothing of a deleted znode behind, and never holds two entries
for one znode, exactly when no read gives a znode a second endpoint, and each
deletion has a client and finds the entries last read from its znode under the
name of that znode.
-/
theorem history_clean_iff (history : List { a : ZnodeAction // a.Proper }) :
    (forall s a s', (s, a, s') ∈ Transition.transitions properStep start history ->
      Clean s a.1 s') <->
    forall s a s', (s, a, s') ∈ Transition.transitions properStep start history ->
      Guard s a.1 :=
  Transition.good_iff_guarded properStep (fun s => OnePerZnode s.cache)
    (fun s a => Guard s a.1) (fun s a s' => Clean s a.1 s')
    (fun _ a _ hstep h hguard =>
      let hclean := clean_of_guard a.2 hstep h hguard
      ⟨hclean.left, hclean⟩)
    (fun _ a _ hstep h hclean => guard_of_clean a.2 hstep h hclean)
    history onePerZnode_start

section Example

/-- A read of `/soa/services/a/m1`; the data of the znode differs between reads. -/
private def readAt (host : String) : { a : ZnodeAction // a.Proper } :=
  ⟨.read "/soa/services/a" "m1" host 1 0 5, by simp [ZnodeAction.Proper, fromFileMarker]⟩

private def deleteM1 : { a : ZnodeAction // a.Proper } :=
  ⟨.deleted "/soa/services/a" "m1" true, by decide⟩

/-- A znode that moved from one host to another leaves an entry behind when it is deleted. -/
theorem history_leaves_entry :
    ¬ forall (history : List { a : ZnodeAction // a.Proper }) s a s',
      (s, a, s') ∈ Transition.transitions properStep start history -> Clean s a.1 s' := by
  intro h
  have hclean := h [readAt "h1", readAt "h2", deleteM1] _ _ _
    (List.mem_cons_of_mem _ (List.mem_cons_of_mem _ List.mem_cons_self))
  have hgone := hclean.right (ZnodeAction.entry "/soa/services/a" "m1" "h2" 1 0 5) (by decide)
  exact hgone.left rfl

end Example

end ZnodeCache

end FrProxy
