import FrProxy.Library.Transition
import FrProxy.RegistryCache

/-!
# A purge running beside registrations

`remove_overdue` collects the overdue entries under the lock and then removes
them one by one, taking the lock anew for each.  Registrations by other threads
fall between these steps.
-/

namespace FrProxy

open KeyedList

structure Purge where
  cache : RegistryCache
  /-- `v_del` without the entries already removed; `none` before the collecting pass. -/
  vDel : Option RVector

inductive PurgeAction where
  /-- The locked collecting pass. -/
  | collect
  /-- The next locked `remove(Registry)`. -/
  | delete
  /-- A registration by another thread. -/
  | add (reg : Registry)

namespace Purge

def start (c : RegistryCache) : Purge where
  cache := c
  vDel := none

def step (timestamp : Nat) (s : Purge) : PurgeAction -> Option Purge
  | .collect =>
      match s.vDel with
      | none => some { s with vDel := some (s.cache.cache.overdue timestamp) }
      | some _ => none
  | .delete =>
      match s.vDel with
      | some (reg :: rest) =>
          some { cache := s.cache.removeRegistry reg, vDel := some rest }
      | _ => none
  | .add reg => some { s with cache := s.cache.add reg }

def run (timestamp : Nat) (c : RegistryCache) (actions : List PurgeAction) : Purge :=
  Transition.final (step timestamp) (start c) actions

def Finished (s : Purge) : Prop :=
  s.vDel = some []

/-- The endpoint has been collected and its removal is still to come. -/
def Pending (s : Purge) (p : Endpoint) : Prop :=
  p ∈ (s.vDel.getD []).map Registry.endpoint

instance (s : Purge) : Decidable s.Finished :=
  inferInstanceAs (Decidable (s.vDel = some []))

instance (s : Purge) (p : Endpoint) : Decidable (s.Pending p) :=
  inferInstanceAs (Decidable (p ∈ (s.vDel.getD []).map Registry.endpoint))

def adds (p : Endpoint) : PurgeAction -> Bool
  | .add reg => RMap.accepts reg && decide (reg.endpoint = p)
  | _ => false

/-- The state in which a run makes its last registration of the endpoint. -/
def lastAdd (timestamp : Nat) (p : Endpoint) : Purge -> List PurgeAction -> Option Purge
  | _, [] => none
  | s, a :: rest =>
      match step timestamp s a with
      | none => none
      | some s' =>
          match lastAdd timestamp p s' rest with
          | some t => some t
          | none => if adds p a then some s else none

/-- The cache holds the endpoint with a time stamp that is not overdue. -/
def Fresh (timestamp : Nat) (c : RegistryCache) (p : Endpoint) : Prop :=
  exists r, r ∈ c.list p.name ∧ r.endpoint = p ∧ timestamp ≤ r.mtime

/-!
## The purge on its own

With nothing in between, the locked steps make up `remove_overdue`.
-/

theorem final_delete (timestamp : Nat) (v : RVector) (c : RegistryCache) :
    Transition.final (step timestamp) { cache := c, vDel := some v }
        (List.replicate v.length PurgeAction.delete) =
      { cache := v.foldl RegistryCache.removeRegistry c, vDel := some [] } := by
  induction v generalizing c with
  | nil => rfl
  | cons reg rest ih => exact ih (c.removeRegistry reg)

theorem run_alone (timestamp : Nat) (c : RegistryCache) :
    run timestamp c
        (.collect :: List.replicate (c.cache.overdue timestamp).length .delete) =
      { cache := c.removeOverdue timestamp, vDel := some [] } := by
  rw [RegistryCache.removeOverdue_eq_foldl]
  exact final_delete timestamp (c.cache.overdue timestamp) c

/-!
## One step, seen from one endpoint
-/

theorem caches_removeRegistry {c : RegistryCache} {reg : Registry} {p : Endpoint} :
    (c.removeRegistry reg).Caches p <-> c.Caches p ∧ p ≠ reg.endpoint := by
  unfold RegistryCache.Caches
  rw [RegistryCache.list_removeRegistry]
  constructor
  · intro h
    rcases h with ⟨r, hr, rfl⟩
    rcases (mem_drop _).mp hr with ⟨hr, hne⟩
    exact ⟨⟨r, hr, rfl⟩, hne⟩
  · intro h
    rcases h with ⟨⟨r, hr, rfl⟩, hne⟩
    exact ⟨r, (mem_drop _).mpr ⟨hr, hne⟩, rfl⟩

theorem fresh_removeRegistry {timestamp : Nat} {c : RegistryCache} {reg : Registry}
    {p : Endpoint} (h : Fresh timestamp c p) (hne : p ≠ reg.endpoint) :
    Fresh timestamp (c.removeRegistry reg) p := by
  rcases h with ⟨r, hr, rfl, hm⟩
  refine ⟨r, ?_, rfl, hm⟩
  rw [RegistryCache.list_removeRegistry]
  exact (mem_drop _).mpr ⟨hr, hne⟩

theorem fresh_add_self {timestamp : Nat} {c : RegistryCache} {reg : Registry}
    {p : Endpoint} (hadds : adds p (.add reg) = true) (hm : timestamp ≤ reg.mtime) :
    Fresh timestamp (c.add reg) p := by
  simp only [adds, Bool.and_eq_true, decide_eq_true_eq] at hadds
  rcases hadds with ⟨hreg, rfl⟩
  refine ⟨reg, ?_, rfl, hm⟩
  rw [RegistryCache.list_add, if_pos ⟨hreg, rfl⟩]
  exact (mem_touch _).mpr (Or.inr rfl)

theorem mem_list_add_other {c : RegistryCache} {reg r : Registry}
    (hother : adds r.endpoint (.add reg) = false) :
    r ∈ (c.add reg).list r.name <-> r ∈ c.list r.name := by
  rw [RegistryCache.list_add]
  by_cases hcond : RMap.accepts reg = true ∧ reg.name = r.name
  · have hne : reg.endpoint ≠ r.endpoint := by
      simpa [adds, hcond.left] using hother
    rw [if_pos hcond, mem_touch]
    constructor
    · intro h
      rcases h with hold | rfl
      · exact hold.left
      · exact absurd rfl hne
    · intro hr
      exact Or.inl ⟨hr, fun heq => hne heq.symm⟩
  · rw [if_neg hcond]

theorem fresh_add_other {timestamp : Nat} {c : RegistryCache} {reg : Registry}
    {p : Endpoint} (h : Fresh timestamp c p) (hother : adds p (.add reg) = false) :
    Fresh timestamp (c.add reg) p := by
  rcases h with ⟨r, hr, rfl, hm⟩
  exact ⟨r, (mem_list_add_other hother).mpr hr, rfl, hm⟩

theorem caches_add_other {c : RegistryCache} {reg : Registry} {p : Endpoint}
    (hother : adds p (.add reg) = false) : (c.add reg).Caches p <-> c.Caches p := by
  constructor
  · intro h
    rcases h with ⟨r, hr, rfl⟩
    exact ⟨r, (mem_list_add_other hother).mp hr, rfl⟩
  · intro h
    rcases h with ⟨r, hr, rfl⟩
    exact ⟨r, (mem_list_add_other hother).mpr hr, rfl⟩

theorem not_mem_overdue_of_fresh {timestamp : Nat} {c : RegistryCache} {p : Endpoint}
    (h : Fresh timestamp c p) :
    p ∉ (c.cache.overdue timestamp).map Registry.endpoint := by
  intro hmem
  rcases h with ⟨r, hr, rfl, hm⟩
  rcases List.mem_map.mp hmem with ⟨s, hs, heq⟩
  rcases RegistryCache.mem_overdue.mp hs with ⟨hsl, hsm⟩
  have hname : s.name = r.name := congrArg Endpoint.name heq
  rw [hname] at hsl
  have hsr : s = r := distinct_inj _ (c.filed r.name).distinct hsl hr heq
  rw [hsr] at hsm
  exact Nat.not_le_of_lt hsm hm

/-- The endpoint is in the cache for good, as far as this purge goes. -/
def Safe (timestamp : Nat) (s : Purge) (p : Endpoint) : Prop :=
  Fresh timestamp s.cache p ∧ ¬ s.Pending p

/-- The purge has removed the endpoint or is going to. -/
def Doomed (s : Purge) (p : Endpoint) : Prop :=
  s.Pending p ∨ ¬ s.cache.Caches p

theorem Safe.step {timestamp : Nat} {s s' : Purge} {a : PurgeAction} {p : Endpoint}
    (h : Safe timestamp s p) (hstep : step timestamp s a = some s')
    (hother : adds p a = false) : Safe timestamp s' p := by
  rcases h with ⟨hfresh, hpending⟩
  cases a with
  | collect =>
      cases hv : s.vDel with
      | some v => simp [Purge.step, hv] at hstep
      | none =>
          simp only [Purge.step, hv, Option.some.injEq] at hstep
          subst hstep
          exact ⟨hfresh, not_mem_overdue_of_fresh hfresh⟩
  | delete =>
      cases hv : s.vDel with
      | none => simp [Purge.step, hv] at hstep
      | some v =>
          cases v with
          | nil => simp [Purge.step, hv] at hstep
          | cons reg rest =>
              simp only [Purge.step, hv, Option.some.injEq] at hstep
              subst hstep
              simp only [Pending, hv, Option.getD_some, List.map_cons, List.mem_cons,
                not_or] at hpending
              refine ⟨fresh_removeRegistry hfresh hpending.left, ?_⟩
              simpa [Pending] using hpending.right
  | add reg =>
      simp only [Purge.step, Option.some.injEq] at hstep
      subst hstep
      exact ⟨fresh_add_other hfresh hother, hpending⟩

theorem Doomed.step {timestamp : Nat} {s s' : Purge} {a : PurgeAction} {p : Endpoint}
    (h : Doomed s p) (hstep : step timestamp s a = some s')
    (hother : adds p a = false) : Doomed s' p := by
  cases a with
  | collect =>
      cases hv : s.vDel with
      | some v => simp [Purge.step, hv] at hstep
      | none =>
          simp only [Purge.step, hv, Option.some.injEq] at hstep
          subst hstep
          rcases h with hpending | hgone
          · simp [Pending, hv] at hpending
          · exact Or.inr hgone
  | delete =>
      cases hv : s.vDel with
      | none => simp [Purge.step, hv] at hstep
      | some v =>
          cases v with
          | nil => simp [Purge.step, hv] at hstep
          | cons reg rest =>
              simp only [Purge.step, hv, Option.some.injEq] at hstep
              subst hstep
              rcases h with hpending | hgone
              · simp only [Pending, hv, Option.getD_some, List.map_cons,
                  List.mem_cons] at hpending
                rcases hpending with rfl | hrest
                · apply Or.inr
                  intro hcaches
                  exact (caches_removeRegistry.mp hcaches).right rfl
                · exact Or.inl (by simpa [Pending] using hrest)
              · apply Or.inr
                intro hcaches
                exact hgone (caches_removeRegistry.mp hcaches).left
  | add reg =>
      simp only [Purge.step, Option.some.injEq] at hstep
      subst hstep
      rcases h with hpending | hgone
      · exact Or.inl hpending
      · exact Or.inr fun hcaches => hgone ((caches_add_other hother).mp hcaches)

/-- What the registration itself decides: safe, unless a removal is under way. -/
theorem safe_or_doomed_of_add {timestamp : Nat} {s s' : Purge} {a : PurgeAction}
    {p : Endpoint} (hadds : adds p a = true)
    (hfresh : forall reg, a = .add reg -> timestamp ≤ reg.mtime)
    (hstep : step timestamp s a = some s') :
    (¬ s.Pending p -> Safe timestamp s' p) ∧ (s.Pending p -> Doomed s' p) := by
  cases a with
  | collect => simp [adds] at hadds
  | delete => simp [adds] at hadds
  | add reg =>
      simp only [Purge.step, Option.some.injEq] at hstep
      subst hstep
      constructor
      · intro hpending
        exact ⟨fresh_add_self hadds (hfresh reg rfl), hpending⟩
      · intro hpending
        exact Or.inl hpending

/-!
## Whole interleavings
-/

/-- Without a further registration, a safe endpoint stays and a doomed one goes. -/
theorem final_of_no_add {timestamp : Nat} {s : Purge} {p : Endpoint}
    {actions : List PurgeAction} (hlast : lastAdd timestamp p s actions = none) :
    (Safe timestamp s p ->
      Safe timestamp (Transition.final (step timestamp) s actions) p) ∧
    (Doomed s p -> Doomed (Transition.final (step timestamp) s actions) p) := by
  induction actions generalizing s with
  | nil => exact ⟨id, id⟩
  | cons a rest ih =>
      cases hstep : step timestamp s a with
      | none => simp [Transition.final, hstep]
      | some s' =>
          simp only [lastAdd, hstep] at hlast
          cases hrest : lastAdd timestamp p s' rest with
          | some t => simp [hrest] at hlast
          | none =>
              have hother : adds p a = false := by
                simpa [hrest] using hlast
              have htail := ih hrest
              simp only [Transition.final, hstep]
              constructor
              · intro h
                exact htail.left (h.step hstep hother)
              · intro h
                exact htail.right (h.step hstep hother)

theorem final_of_lastAdd {timestamp : Nat} {s t : Purge} {p : Endpoint}
    {actions : List PurgeAction}
    (hfresh : forall reg, PurgeAction.add reg ∈ actions -> timestamp ≤ reg.mtime)
    (hlast : lastAdd timestamp p s actions = some t) :
    (¬ t.Pending p ->
      Safe timestamp (Transition.final (step timestamp) s actions) p) ∧
    (t.Pending p -> Doomed (Transition.final (step timestamp) s actions) p) := by
  induction actions generalizing s with
  | nil => cases hlast
  | cons a rest ih =>
      cases hstep : step timestamp s a with
      | none => simp [lastAdd, hstep] at hlast
      | some s' =>
          simp only [lastAdd, hstep] at hlast
          simp only [Transition.final, hstep]
          cases hrest : lastAdd timestamp p s' rest with
          | some u =>
              simp only [hrest, Option.some.injEq] at hlast
              subst hlast
              refine ih (fun reg hreg => hfresh reg ?_) hrest
              exact List.mem_cons_of_mem _ hreg
          | none =>
              simp only [hrest, Option.ite_none_right_eq_some, Option.some.injEq] at hlast
              rcases hlast with ⟨hadds, rfl⟩
              have hadd := safe_or_doomed_of_add hadds
                (fun reg ha => hfresh reg (ha ▸ List.mem_cons_self)) hstep
              have htail := final_of_no_add hrest
              constructor
              · intro hpending
                exact htail.left (hadd.left hpending)
              · intro hpending
                exact htail.right (hadd.right hpending)

theorem Safe.caches {timestamp : Nat} {s : Purge} {p : Endpoint}
    (h : Safe timestamp s p) : s.cache.Caches p := by
  rcases h.left with ⟨r, hr, hp, _⟩
  exact ⟨r, hr, hp⟩

theorem Doomed.not_caches {s : Purge} {p : Endpoint} (h : Doomed s p)
    (hdone : s.Finished) : ¬ s.cache.Caches p := by
  rcases h with hpending | hgone
  · simp only [Finished] at hdone
    simp [Pending, hdone] at hpending
  · exact hgone

/-- The latest registration of the endpoint, in the run or before it, is not overdue. -/
def LatestFresh (timestamp : Nat) (c : RegistryCache) (actions : List PurgeAction)
    (p : Endpoint) : Prop :=
  match lastAdd timestamp p (start c) actions with
  | some _ => True
  | none => Fresh timestamp c p

/--
A finished purge has kept every endpoint whose latest registration is not
overdue exactly when no endpoint was registered for the last time while the
purge had collected it and not yet removed it.
-/
theorem purge_keeps_fresh_iff (timestamp : Nat) (c : RegistryCache)
    (actions : List PurgeAction)
    (hfresh : forall reg, PurgeAction.add reg ∈ actions -> timestamp ≤ reg.mtime)
    (hdone : (run timestamp c actions).Finished) :
    (forall p, LatestFresh timestamp c actions p ->
      (run timestamp c actions).cache.Caches p) <->
    forall p t, lastAdd timestamp p (start c) actions = some t -> ¬ t.Pending p := by
  constructor
  · intro hkept p t hlast hpending
    have hdoomed := (final_of_lastAdd hfresh hlast).right hpending
    have hlatest : LatestFresh timestamp c actions p := by
      simp [LatestFresh, hlast]
    exact hdoomed.not_caches hdone (hkept p hlatest)
  · intro hguard p hlatest
    cases hlast : lastAdd timestamp p (start c) actions with
    | some t => exact ((final_of_lastAdd hfresh hlast).left (hguard p t hlast)).caches
    | none =>
        have hc : Fresh timestamp c p := by
          simpa [LatestFresh, hlast] using hlatest
        have hsafe : Safe timestamp (start c) p := ⟨hc, by simp [Pending, start]⟩
        exact ((final_of_no_add hlast).left hsafe).caches

section Example

private def stale : Registry :=
  { name := "/soa/services/a", host := "h", port := 1, mtime := 5, ephemeral := "m1" }

private def refreshed : Registry :=
  { stale with mtime := 20 }

private def lateRefresh : List PurgeAction :=
  [.collect, .add refreshed, .delete]

/-- An instance that is refreshed between the collecting pass and its removal is lost. -/
theorem purge_undoes_refresh :
    ¬ forall (timestamp : Nat) (c : RegistryCache) (actions : List PurgeAction),
      (forall reg, PurgeAction.add reg ∈ actions -> timestamp ≤ reg.mtime) ->
      (run timestamp c actions).Finished ->
      forall p, LatestFresh timestamp c actions p ->
        (run timestamp c actions).cache.Caches p := by
  intro h
  have hcaches := h 10 (RegistryCache.empty.add stale) lateRefresh
    (by
      intro reg hreg
      simp only [lateRefresh, List.mem_cons, PurgeAction.add.injEq, reduceCtorEq,
        List.not_mem_nil, or_false, false_or] at hreg
      subst hreg
      decide)
    (by decide) stale.endpoint trivial
  revert hcaches
  decide

theorem purge_keeps_fresh_early :
    (forall p, LatestFresh 10 (RegistryCache.empty.add stale)
        [.add refreshed, .collect] p ->
      (run 10 (RegistryCache.empty.add stale) [.add refreshed, .collect]).cache.Caches p) <->
    forall p t, lastAdd 10 p (start (RegistryCache.empty.add stale))
      [.add refreshed, .collect] = some t -> ¬ t.Pending p :=
  purge_keeps_fresh_iff 10 (RegistryCache.empty.add stale) [.add refreshed, .collect]
    (by
      intro reg hreg
      simp only [List.mem_cons, PurgeAction.add.injEq, reduceCtorEq,
        List.not_mem_nil, or_false] at hreg
      subst hreg
      decide)
    (by decide)

end Example

end Purge

end FrProxy
