import FrProxy.RegistryCache
import Mathlib.Data.Finset.Card

/-!
# The directory that the cache implements

What the cache is for, without maps and positions: a collection of instances,
one for each endpoint, in the order of their last registration.  The cache
operations refine the operations on such a directory over every history.
-/

namespace FrProxy

open KeyedList

/-- Complete instances, one for each endpoint, ordered by their last registration. -/
structure Directory where
  entries : List Registry
  distinct : Distinct Registry.endpoint entries
  accepted : forall r, r ∈ entries -> RMap.accepts r = true

namespace Directory

def empty : Directory where
  entries := []
  distinct := distinct_nil _
  accepted := by simp

def keep (d : Directory) (p : Registry -> Bool) : Directory where
  entries := d.entries.filter p
  distinct := distinct_filter _ p d.distinct
  accepted := fun r hr => d.accepted r (List.mem_of_mem_filter hr)

/-- Register a complete instance as the latest one; ignore an incomplete one. -/
def add (d : Directory) (r : Registry) : Directory where
  entries := if RMap.accepts r then touch Registry.endpoint d.entries r else d.entries
  distinct := by
    split
    · exact distinct_touch _ r d.distinct
    · exact d.distinct
  accepted := by
    intro s hs
    split at hs
    · rename_i hr
      rcases (mem_touch _).mp hs with hold | rfl
      · exact d.accepted s hold.left
      · exact hr
    · exact d.accepted s hs

def removeRegistry (d : Directory) (r : Registry) : Directory :=
  d.keep fun s => decide (s.endpoint ≠ r.endpoint)

def removeName (d : Directory) (name : String) : Directory :=
  d.keep fun s => decide (s.name ≠ name)

def removeOverdue (d : Directory) (timestamp : Nat) : Directory :=
  d.keep fun s => decide (timestamp ≤ s.mtime)

def instances (d : Directory) (name : String) : List Registry :=
  d.entries.filter fun s => decide (s.name = name)

def services (d : Directory) : Finset String :=
  (d.entries.map Registry.name).toFinset

theorem mem_services {d : Directory} {name : String} :
    name ∈ d.services <-> d.instances name ≠ [] := by
  simp [services, instances, List.filter_eq_nil_iff]

theorem instances_keep (d : Directory) (p : Registry -> Bool) (name : String) :
    (d.keep p).instances name = (d.instances name).filter p := by
  simp [keep, instances, List.filter_filter, Bool.and_comm]

theorem instances_add (d : Directory) (r : Registry) (name : String) :
    (d.add r).instances name =
      if RMap.accepts r = true ∧ r.name = name then
        touch Registry.endpoint (d.instances name) r
      else d.instances name := by
  unfold instances add
  by_cases hr : RMap.accepts r = true
  · by_cases hname : r.name = name
    · simp only [hr, hname, if_true, and_self]
      exact filter_touch_of_pos _ _ d.entries r (by simpa using hname)
    · simp only [hr, hname, if_true, and_false, if_false]
      apply filter_touch_of_neg _ _ d.entries r (by simpa using hname)
      intro s _ heq
      have hsr : s.name = r.name := congrArg Endpoint.name heq
      rw [hsr]
  · simp [hr]

end Directory

/-!
## Refinement
-/

/-- The operations on the cache that the directory has a counterpart for. -/
inductive CacheOp where
  | add (reg : Registry)
  | removeRegistry (reg : Registry)
  | removeName (name : String)
  | removeOverdue (timestamp : Nat)
  | clear

def RegistryCache.perform (c : RegistryCache) : CacheOp -> RegistryCache
  | .add reg => c.add reg
  | .removeRegistry reg => c.removeRegistry reg
  | .removeName name => c.removeName name
  | .removeOverdue timestamp => c.removeOverdue timestamp
  | .clear => c.clear

def Directory.perform (d : Directory) : CacheOp -> Directory
  | .add reg => d.add reg
  | .removeRegistry reg => d.removeRegistry reg
  | .removeName name => d.removeName name
  | .removeOverdue timestamp => d.removeOverdue timestamp
  | .clear => Directory.empty

/-- No key of the map is left with an empty list. -/
def RegistryCache.Tight (c : RegistryCache) : Prop :=
  forall (name : String) (l : RVector), c.cache[name]? = some l -> l ≠ []

/-- The cache shows the directory: the same lists, and no key without one. -/
structure Shows (c : RegistryCache) (d : Directory) : Prop where
  lists : forall name, c.list name = d.instances name
  tight : c.Tight

namespace RegistryCache

theorem Tight.get_eq {c : RegistryCache} (h : c.Tight) (name : String) :
    c.get name = if c.list name = [] then none else some (c.list name) := by
  show c.cache[name]? = _
  unfold list
  cases hl : c.cache[name]? with
  | none => simp
  | some l => simp [h name l hl]

theorem tight_empty : empty.Tight :=
  RMap.populated_empty

theorem Tight.add {c : RegistryCache} (h : c.Tight) (reg : Registry) :
    (c.add reg).Tight :=
  RMap.Populated.add h reg

theorem Tight.removeRegistry {c : RegistryCache} (h : c.Tight) (reg : Registry) :
    (c.removeRegistry reg).Tight :=
  RMap.Populated.removeRegistry h reg

theorem Tight.removeName {c : RegistryCache} (h : c.Tight) (name : String) :
    (c.removeName name).Tight :=
  RMap.Populated.erase h name

theorem Tight.removeOverdue {c : RegistryCache} (h : c.Tight) (timestamp : Nat) :
    (c.removeOverdue timestamp).Tight :=
  RMap.Populated.removeOverdue h timestamp

end RegistryCache

theorem shows_empty : Shows RegistryCache.empty Directory.empty where
  lists := by simp [Directory.instances, Directory.empty]
  tight := RegistryCache.tight_empty

theorem Shows.perform {c : RegistryCache} {d : Directory} (h : Shows c d)
    (op : CacheOp) : Shows (c.perform op) (d.perform op) := by
  cases op with
  | add reg =>
      refine ⟨fun name => ?_, h.tight.add reg⟩
      show (c.add reg).list name = (d.add reg).instances name
      rw [RegistryCache.list_add, Directory.instances_add, h.lists]
  | removeRegistry reg =>
      refine ⟨fun name => ?_, h.tight.removeRegistry reg⟩
      show (c.removeRegistry reg).list name = (d.removeRegistry reg).instances name
      unfold Directory.removeRegistry
      rw [RegistryCache.list_removeRegistry, Directory.instances_keep, h.lists]
      rfl
  | removeName name =>
      refine ⟨fun a => ?_, h.tight.removeName name⟩
      show (c.removeName name).list a = (d.removeName name).instances a
      unfold Directory.removeName
      rw [RegistryCache.list_removeName, Directory.instances_keep, h.lists]
      by_cases ha : name = a
      · subst ha
        simp [Directory.instances, List.filter_filter]
      · rw [if_neg ha]
        apply Eq.symm
        apply List.filter_eq_self.mpr
        intro s hs
        have hsa : s.name = a := by
          simpa using List.of_mem_filter hs
        simpa [hsa] using fun hback => ha hback.symm
  | removeOverdue timestamp =>
      refine ⟨fun name => ?_, h.tight.removeOverdue timestamp⟩
      show (c.removeOverdue timestamp).list name = (d.removeOverdue timestamp).instances name
      unfold Directory.removeOverdue
      rw [RegistryCache.list_removeOverdue, Directory.instances_keep, h.lists]
  | clear =>
      refine ⟨fun name => ?_, ?_⟩
      · show c.clear.list name = Directory.empty.instances name
        simp [Directory.instances, Directory.empty]
      · exact RegistryCache.tight_empty

theorem Shows.foldl {c : RegistryCache} {d : Directory} (h : Shows c d)
    (ops : List CacheOp) :
    Shows (ops.foldl RegistryCache.perform c) (ops.foldl Directory.perform d) := by
  induction ops generalizing c d with
  | nil => exact h
  | cons op rest ih => exact ih (h.perform op)

theorem Shows.exists_iff {c : RegistryCache} {d : Directory} (h : Shows c d)
    (name : String) : c.exists_ name = true <-> name ∈ d.services := by
  have hget : c.exists_ name = (c.get name).isSome := by
    simp [RegistryCache.exists_, RegistryCache.get, RMap.exists_, RMap.get]
  rw [hget, h.tight.get_eq, h.lists, Directory.mem_services]
  by_cases hnil : d.instances name = []
  · simp [hnil]
  · simp [hnil]

theorem Shows.size_eq {c : RegistryCache} {d : Directory} (h : Shows c d) :
    c.size = d.services.card := by
  have hnodup : c.cache.keys.Nodup := by
    have hpair := Std.ExtTreeMap.distinct_keys (t := c.cache)
    apply hpair.imp
    intro a b hne heq
    exact hne (by simp [heq])
  have hset : d.services = c.cache.keys.toFinset := by
    ext name
    rw [<- h.exists_iff name, List.mem_toFinset]
    simp [RegistryCache.exists_, RMap.exists_]
  rw [hset, List.toFinset_card_of_nodup hnodup, Std.ExtTreeMap.length_keys]
  rfl

/--
Over every history of operations from the empty cache, `get` gives the
instances of the directory in their order, a key is present exactly when its
service has an instance, and `size` counts these services.
-/
theorem registryCache_refines_directory (ops : List CacheOp) :
    let c := ops.foldl RegistryCache.perform RegistryCache.empty
    let d := ops.foldl Directory.perform Directory.empty
    (forall name, c.get name =
      if d.instances name = [] then none else some (d.instances name)) ∧
    (forall name, c.exists_ name = true <-> d.instances name ≠ []) ∧
    c.size = d.services.card := by
  have h : Shows (ops.foldl RegistryCache.perform RegistryCache.empty)
      (ops.foldl Directory.perform Directory.empty) := shows_empty.foldl ops
  refine ⟨fun name => ?_, fun name => ?_, h.size_eq⟩
  · rw [h.tight.get_eq, h.lists]
  · rw [h.exists_iff, Directory.mem_services]

end FrProxy
