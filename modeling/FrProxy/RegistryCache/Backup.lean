import FrProxy.Registry.RoundTrip
import FrProxy.RegistryCache.Directory

/-!
# The recovery file

A cache that is saved and loaded into an empty one comes back with the same
services and endpoints, as long as the text of the file can be read at all.
-/

namespace FrProxy

open KeyedList

/-!
## The entries of a map
-/

section Flattened

structure Filing (pairs : List (String × RVector)) : Prop where
  keys : (pairs.map (·.1)).Nodup
  filed : forall p, p ∈ pairs -> RMap.Filed p.1 p.2

theorem Filing.tail {p : String × RVector} {rest : List (String × RVector)}
    (h : Filing (p :: rest)) : Filing rest where
  keys := (List.nodup_cons.mp h.keys).right
  filed := fun q hq => h.filed q (List.mem_cons_of_mem _ hq)

theorem Filing.filter_none {pairs : List (String × RVector)} (h : Filing pairs) {name : String}
    (hname : name ∉ pairs.map (·.1)) :
    (pairs.flatMap (·.2)).filter (fun r => decide (r.name = name)) = [] := by
  apply List.filter_eq_nil_iff.mpr
  intro r hr
  rcases List.mem_flatMap.mp hr with ⟨p, hp, hrp⟩
  have hrname := (h.filed p hp).named r hrp
  intro heq
  apply hname
  rw [<- of_decide_eq_true heq, hrname]
  exact List.mem_map.mpr ⟨p, hp, rfl⟩

theorem Filing.filter {pairs : List (String × RVector)} (h : Filing pairs) {name : String}
    {l : RVector} (hl : (name, l) ∈ pairs) :
    (pairs.flatMap (·.2)).filter (fun r => decide (r.name = name)) = l := by
  induction pairs with
  | nil => cases hl
  | cons p rest ih =>
      have hnodup := List.nodup_cons.mp h.keys
      have hnamed := (h.filed p List.mem_cons_self).named
      rw [List.flatMap_cons, List.filter_append]
      rcases List.mem_cons.mp hl with rfl | hrest
      · have hself : l.filter (fun r => decide (r.name = name)) = l := by
          apply List.filter_eq_self.mpr
          intro r hr
          exact decide_eq_true (hnamed r hr)
        rw [h.tail.filter_none hnodup.left, hself, List.append_nil]
      · have hne : p.1 ≠ name := by
          intro heq
          exact hnodup.left (List.mem_map.mpr ⟨(name, l), hrest, heq.symm⟩)
        have hnone : p.2.filter (fun r => decide (r.name = name)) = [] := by
          apply List.filter_eq_nil_iff.mpr
          intro r hr heq
          exact hne ((hnamed r hr).symm.trans (of_decide_eq_true heq))
        rw [hnone, List.nil_append]
        exact ih h.tail hrest

theorem Filing.distinct {pairs : List (String × RVector)} (h : Filing pairs) :
    Distinct Registry.endpoint (pairs.flatMap (·.2)) := by
  induction pairs with
  | nil => exact distinct_nil _
  | cons p rest ih =>
      have hnodup := List.nodup_cons.mp h.keys
      have hfiled := h.filed p List.mem_cons_self
      unfold Distinct
      rw [List.flatMap_cons, List.map_append]
      apply List.nodup_append.mpr
      refine ⟨hfiled.distinct, ih h.tail, ?_⟩
      intro x hx y hy hxy
      rcases List.mem_map.mp hx with ⟨r, hr, rfl⟩
      rcases List.mem_map.mp hy with ⟨s, hs, rfl⟩
      rcases List.mem_flatMap.mp hs with ⟨q, hq, hsq⟩
      have hrname := hfiled.named r hr
      have hsname := (h.tail.filed q hq).named s hsq
      have hname : r.name = s.name := congrArg Endpoint.name hxy
      rw [hrname, hsname] at hname
      exact hnodup.left (List.mem_map.mpr ⟨q, hq, hname.symm⟩)

end Flattened

namespace RegistryCache

theorem filing (c : RegistryCache) : Filing c.cache.toList where
  keys := by
    have hpair := Std.ExtTreeMap.distinct_keys_toList (t := c.cache)
    rw [List.Nodup, List.pairwise_map]
    apply hpair.imp
    intro a b hne heq
    exact hne (by simp [heq])
  filed := by
    intro p hp
    exact c.wellFormed p.1 p.2 (Std.ExtTreeMap.mem_toList_iff_getElem?_eq_some.mp hp)

theorem filter_entries (c : RegistryCache) (name : String) :
    c.cache.entries.filter (fun r => decide (r.name = name)) = c.list name := by
  unfold list
  cases hl : c.cache[name]? with
  | none =>
      apply c.filing.filter_none
      intro hname
      rcases List.mem_map.mp hname with ⟨p, hp, rfl⟩
      rw [Std.ExtTreeMap.mem_toList_iff_getElem?_eq_some.mp hp] at hl
      cases hl
  | some l => exact c.filing.filter (Std.ExtTreeMap.mem_toList_iff_getElem?_eq_some.mpr hl)

theorem forall_list_of_entries {c : RegistryCache} {P : Registry -> Prop}
    (h : forall r, r ∈ c.cache.entries -> P r) (name : String) (r : Registry)
    (hr : r ∈ c.list name) : P r := by
  rw [<- filter_entries] at hr
  exact h r (List.mem_of_mem_filter hr)

theorem mem_list_of_mem_entries {c : RegistryCache} {r : Registry}
    (hr : r ∈ c.cache.entries) : r ∈ c.list r.name := by
  rw [<- filter_entries]
  exact List.mem_filter.mpr ⟨hr, decide_eq_true rfl⟩

/-!
## Loading a list of entries
-/

theorem list_add_new {c : RegistryCache} {r : Registry} (haccepted : RMap.accepts r = true)
    (hnew : ¬ c.Caches r.endpoint) (name : String) :
    (c.add r).list name = c.list name ++ [r].filter fun r => decide (r.name = name) := by
  rw [list_add]
  by_cases hname : r.name = name
  · subst hname
    have hkeep : drop Registry.endpoint (c.list r.name) r.endpoint = c.list r.name := by
      apply drop_eq_self
      intro s hs heq
      exact hnew ⟨s, hs, heq⟩
    rw [if_pos ⟨haccepted, rfl⟩, touch, hkeep]
    simp
  · rw [if_neg fun h => hname h.right]
    simp [hname]

theorem list_load {v : RVector} (hdistinct : Distinct Registry.endpoint v)
    (haccepted : forall r, r ∈ v -> RMap.accepts r = true) (c : RegistryCache)
    (hnew : forall r, r ∈ v -> ¬ c.Caches r.endpoint) (name : String) :
    (c.load v).list name = c.list name ++ v.filter (fun r => decide (r.name = name)) := by
  induction v generalizing c with
  | nil => simp [load]
  | cons r rest ih =>
      have hnodup := List.nodup_cons.mp hdistinct
      have hr := haccepted r List.mem_cons_self
      have hrnew := hnew r List.mem_cons_self
      have hrest : forall s, s ∈ rest -> ¬ (c.add r).Caches s.endpoint := by
        intro s hs hcached
        rcases hcached with ⟨x, hx, hxs⟩
        rw [list_add_new hr hrnew] at hx
        rcases List.mem_append.mp hx with hx | hx
        · exact hnew s (List.mem_cons_of_mem _ hs) ⟨x, hx, hxs⟩
        · have hxr : x = r := List.mem_singleton.mp (List.mem_filter.mp hx).left
          rw [hxr] at hxs
          exact hnodup.left (List.mem_map.mpr ⟨s, hs, hxs.symm⟩)
      have htail := ih hnodup.right (fun s hs => haccepted s (List.mem_cons_of_mem _ hs))
        (c.add r) hrest
      have hload : c.load (r :: rest) = (c.add r).load rest := rfl
      rw [hload, htail, list_add_new hr hrnew, List.append_assoc, <- List.filter_append]
      rfl

theorem tight_load {c : RegistryCache} (h : c.Tight) (v : RVector) : (c.load v).Tight := by
  unfold load
  induction v generalizing c with
  | nil => exact h
  | cons r rest ih => exact ih (h.add r)

theorem shows_load {v : RVector} (hdistinct : Distinct Registry.endpoint v)
    (haccepted : forall r, r ∈ v -> RMap.accepts r = true) :
    Shows (empty.load v) { entries := v, distinct := hdistinct, accepted := haccepted } where
  lists := by
    intro name
    rw [list_load hdistinct haccepted empty (by simp [Caches]) name]
    simp [Directory.instances]
  tight := tight_load tight_empty v

/-!
## The entries of the file
-/

theorem endpoint_fileEntries (now : Nat -> Nat) (v : RVector) :
    (RMap.fileEntries now v).map Registry.endpoint = v.map Registry.endpoint := by
  induction v generalizing now with
  | nil => rfl
  | cons r rest ih =>
      rw [RMap.fileEntries, List.map_cons, List.map_cons, ih]
      rfl

theorem accepts_fileEntries {now : Nat -> Nat} {v : RVector}
    (h : forall r, r ∈ v -> r.name ≠ "" ∧ r.host ≠ "") :
    forall r, r ∈ RMap.fileEntries now v -> RMap.accepts r = true := by
  induction v generalizing now with
  | nil =>
      intro r hr
      cases hr
  | cons s rest ih =>
      intro r hr
      rcases List.mem_cons.mp hr with rfl | hr
      · have hs := h s List.mem_cons_self
        simp [RMap.accepts, RMap.fileEntry, RMap.fromFileMarker, hs]
      · exact ih (fun x hx => h x (List.mem_cons_of_mem _ hx)) r hr

theorem endpoint_filter (v : RVector) (name : String) :
    (v.filter fun r => decide (r.name = name)).map Registry.endpoint =
      (v.map Registry.endpoint).filter fun e => decide (e.name = name) := by
  rw [List.filter_map]
  rfl

structure Restores (c d : RegistryCache) : Prop where
  keys : forall name, d.exists_ name = true <-> c.list name ≠ []
  endpoints : forall name,
    (d.list name).map Registry.endpoint = (c.list name).map Registry.endpoint
  distinct : forall name, ((d.list name).map Registry.endpoint).Nodup
  marked : forall name r, r ∈ d.list name -> r.ephemeral = RMap.fromFileMarker

theorem restores_load {c : RegistryCache} {v : RVector}
    (hsame : v.map Registry.endpoint = c.cache.entries.map Registry.endpoint)
    (haccepted : forall r, r ∈ v -> RMap.accepts r = true)
    (hmarked : forall r, r ∈ v -> r.ephemeral = RMap.fromFileMarker) :
    Restores c (empty.load v) := by
  have hdistinct : Distinct Registry.endpoint v := by
    unfold Distinct
    rw [hsame]
    exact c.filing.distinct
  have hshows := shows_load hdistinct haccepted
  have hlist : forall name, (empty.load v).list name = v.filter fun r => decide (r.name = name) :=
    hshows.lists
  have hendpoints : forall name, ((empty.load v).list name).map Registry.endpoint =
      (c.list name).map Registry.endpoint := by
    intro name
    rw [hlist, endpoint_filter, hsame, <- endpoint_filter, filter_entries]
  constructor
  · intro name
    rw [hshows.exists_iff, Directory.mem_services, <- hshows.lists, ne_eq, ne_eq,
      <- List.map_eq_nil_iff (f := Registry.endpoint), hendpoints, List.map_eq_nil_iff]
  · exact hendpoints
  · intro name
    exact ((empty.load v).filed name).distinct
  · intro name r hr
    rw [hlist] at hr
    exact hmarked r (List.mem_of_mem_filter hr)

/--
A cache without quotes, backslashes and control characters is restored from the
file that it is saved to.
-/
theorem save_then_fromFile (c : RegistryCache) (sec : Nat) (now : Nat -> Nat)
    (hclean : forall name r, r ∈ c.list name -> r.CleanFields)
    (hport : forall name r, r ∈ c.list name -> -2 ^ 31 ≤ r.port ∧ r.port < 2 ^ 31) :
    exists d, fromFile Rapidjson.parse now (some (c.cache.save sec)) empty = .ok d ∧
      Restores c d := by
  have hentryClean : forall r, r ∈ c.cache.entries -> r.CleanFields :=
    fun r hr => hclean r.name r (mem_list_of_mem_entries hr)
  have hentryTyped : forall r, r ∈ c.cache.entries -> r.Typed :=
    fun r hr => (hentryClean r hr).typed (hport r.name r (mem_list_of_mem_entries hr))
  have hread := Registry.unserialize_serializeAll sec (now 0) hentryClean hentryTyped
  refine ⟨_, ?_, restores_load (c := c)
    (v := RMap.fileEntries now (c.cache.entries.map (Registry.readBack (now 0)))) ?_ ?_ ?_⟩
  · show (do
      let v <- Registry.unserialize Rapidjson.parse (now 0) (c.cache.save sec)
      return empty.load (RMap.fileEntries now v)) = _
    rw [RMap.save, hread]
    rfl
  · rw [endpoint_fileEntries, List.map_map]
    rfl
  · apply accepts_fileEntries
    intro r hr
    rcases List.mem_map.mp hr with ⟨s, hs, rfl⟩
    have haccepted := (c.filed s.name).accepted s (mem_list_of_mem_entries hs)
    simp only [RMap.accepts, Bool.not_eq_true', Bool.or_eq_false_iff, beq_eq_false_iff_ne]
      at haccepted
    exact haccepted.left
  · exact fun r hr => ephemeral_of_mem_fileEntries hr

section Example

private def savedEntry : Registry where
  name := "a"
  host := "h"
  port := 1
  mtime := 5
  ephemeral := "m1"

/-- Two endpoints of one service, one of another, and a service that lost its only endpoint. -/
private def savedCache : RegistryCache :=
  let c := (empty.add savedEntry).add { savedEntry with host := "k", ephemeral := "m2" }
  let c := (c.add { savedEntry with name := "b", port := 2 }).add { savedEntry with name := "c" }
  c.removeEphemeral "c" "m1"

theorem three_services_restored :
    exists d, fromFile Rapidjson.parse id (some (savedCache.cache.save 7)) empty = .ok d ∧
      Restores savedCache d := by
  apply save_then_fromFile
  · exact forall_list_of_entries (by decide +kernel)
  · exact forall_list_of_entries (by decide +kernel)

example : savedCache.exists_ "c" = true ∧ savedCache.list "c" = [] := by
  decide +kernel

end Example

end RegistryCache

end FrProxy
