import FrProxy.RegistryCache
import Mathlib.Data.List.Induction

/-!
# Time stamps

The cache as a function from endpoints to time stamps, and what each operation
does to it.  The purge looks at nothing else.
-/

namespace FrProxy

open KeyedList

namespace RegistryCache

def stampOf (c : RegistryCache) (p : Endpoint) : Option Nat :=
  ((c.list p.name).find? fun r => decide (r.endpoint = p)).map (·.mtime)

theorem stampOf_eq_some {c : RegistryCache} {p : Endpoint} {mtime : Nat} :
    c.stampOf p = some mtime <->
      exists r, r ∈ c.list p.name ∧ r.endpoint = p ∧ r.mtime = mtime := by
  unfold stampOf
  rw [Option.map_eq_some_iff]
  constructor
  · intro h
    rcases h with ⟨r, hfind, htime⟩
    exact ⟨r, List.mem_of_find?_eq_some hfind, by simpa using List.find?_some hfind, htime⟩
  · intro h
    rcases h with ⟨r, hr, hp, htime⟩
    cases hfind : (c.list p.name).find? fun r => decide (r.endpoint = p) with
    | none =>
        have hne := List.find?_eq_none.mp hfind r hr
        exact absurd hp (by simpa using hne)
    | some s =>
        have hs : s ∈ c.list p.name := List.mem_of_find?_eq_some hfind
        have hsp : s.endpoint = p := by simpa using List.find?_some hfind
        have hsr : s = r := distinct_inj _ (c.filed p.name).distinct hs hr (hsp.trans hp.symm)
        exact ⟨s, rfl, hsr ▸ htime⟩

theorem caches_iff_stampOf {c : RegistryCache} {p : Endpoint} :
    c.Caches p <-> (c.stampOf p).isSome = true := by
  rw [Option.isSome_iff_exists]
  constructor
  · intro h
    rcases h with ⟨r, hr, hp⟩
    exact ⟨r.mtime, stampOf_eq_some.mpr ⟨r, hr, hp, rfl⟩⟩
  · intro h
    rcases h with ⟨mtime, hstamp⟩
    rcases stampOf_eq_some.mp hstamp with ⟨r, hr, hp, _⟩
    exact ⟨r, hr, hp⟩

theorem stampOf_add (c : RegistryCache) (reg : Registry) (p : Endpoint) :
    (c.add reg).stampOf p =
      if RMap.accepts reg = true ∧ reg.endpoint = p then some reg.mtime
      else c.stampOf p := by
  apply Option.ext
  intro mtime
  rw [stampOf_eq_some, list_add]
  by_cases hreg : RMap.accepts reg = true ∧ reg.endpoint = p
  · have hname : reg.name = p.name := congrArg Endpoint.name hreg.right
    rw [if_pos hreg, if_pos ⟨hreg.left, hname⟩, Option.some.injEq]
    constructor
    · intro h
      rcases h with ⟨r, hr, hp, htime⟩
      rcases (mem_touch _).mp hr with hold | hnew
      · exact absurd (hp.trans hreg.right.symm) hold.right
      · exact hnew ▸ htime
    · intro htime
      exact ⟨reg, (mem_touch _).mpr (Or.inr rfl), hreg.right, htime⟩
  · rw [if_neg hreg, stampOf_eq_some]
    by_cases hcond : RMap.accepts reg = true ∧ reg.name = p.name
    · have hne : reg.endpoint ≠ p := fun h => hreg ⟨hcond.left, h⟩
      rw [if_pos hcond]
      constructor
      · intro h
        rcases h with ⟨r, hr, hp, htime⟩
        rcases (mem_touch _).mp hr with hold | hnew
        · exact ⟨r, hold.left, hp, htime⟩
        · exact absurd (hnew ▸ hp) hne
      · intro h
        rcases h with ⟨r, hr, hp, htime⟩
        refine ⟨r, (mem_touch _).mpr (Or.inl ⟨hr, ?_⟩), hp, htime⟩
        exact fun heq => hne (heq ▸ hp)
    · rw [if_neg hcond]

theorem stampOf_removeName (c : RegistryCache) (name : String) (p : Endpoint) :
    (c.removeName name).stampOf p = if name = p.name then none else c.stampOf p := by
  unfold stampOf
  rw [list_removeName]
  by_cases hname : name = p.name
  · simp [hname]
  · simp [hname]

theorem stampOf_removeOverdue (c : RegistryCache) (timestamp : Nat) (p : Endpoint) :
    (c.removeOverdue timestamp).stampOf p =
      (c.stampOf p).filter fun mtime => decide (timestamp ≤ mtime) := by
  apply Option.ext
  intro mtime
  rw [stampOf_eq_some, list_removeOverdue, Option.filter_eq_some_iff, stampOf_eq_some]
  constructor
  · intro h
    rcases h with ⟨r, hr, hp, htime⟩
    rcases List.mem_filter.mp hr with ⟨hr, hfresh⟩
    exact ⟨⟨r, hr, hp, htime⟩, htime ▸ hfresh⟩
  · intro h
    rcases h with ⟨⟨r, hr, hp, htime⟩, hfresh⟩
    exact ⟨r, List.mem_filter.mpr ⟨hr, htime ▸ hfresh⟩, hp, htime⟩

theorem stampOf_load (p : Endpoint) (v : RVector) (c : RegistryCache) :
    (c.load v).stampOf p =
      match v.reverse.find? fun r => RMap.accepts r && decide (r.endpoint = p) with
      | some r => some r.mtime
      | none => c.stampOf p := by
  unfold load
  induction v using List.reverseRecOn with
  | nil => rfl
  | append_singleton v r ih =>
      rw [List.foldl_append, List.foldl_cons, List.foldl_nil, stampOf_add, ih,
        List.reverse_append, List.reverse_singleton, List.singleton_append, List.find?_cons]
      by_cases hr : RMap.accepts r = true ∧ r.endpoint = p
      · simp [hr.left, hr.right]
      · have hnot : (RMap.accepts r && decide (r.endpoint = p)) = false := by
          simpa using hr
        rw [if_neg hr, hnot]

end RegistryCache

end FrProxy
