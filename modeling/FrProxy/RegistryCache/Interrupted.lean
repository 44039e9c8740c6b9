import FrProxy.RegistryCache.Backup
import FrProxy.Rapidjson.Prefix

/-!
# A save that is interrupted

The recovery file is opened for writing in place: the open drops what the file
held, and the new text comes into it piece by piece.  A part of the text is no
document, so that between the open and the last character there is nothing to
recover.
-/

namespace FrProxy

namespace FileCache

/-- `open_write`: the mode `fstream::out` drops what the file held. -/
def openWrite (_ : Option String) : Option String :=
  some ""

/-- `write` of `data`, when `written` characters of it have come into the file. -/
def writePart (written : Nat) (data : String) (content : Option String) : Option String :=
  content.map fun text => text ++ String.ofList (data.toList.take written)

end FileCache

/-- The file that held `content`, when a save of the map is interrupted. -/
def RMap.saveInterrupted (sec : Nat) (cache : RMap) (written : Nat) (content : Option String) :
    Option String :=
  FileCache.writePart written (cache.save sec) (FileCache.openWrite content)

@[simp] theorem RMap.saveInterrupted_eq (sec : Nat) (cache : RMap) (written : Nat)
    (content : Option String) :
    cache.saveInterrupted sec written content =
      some (String.ofList ((cache.save sec).toList.take written)) := by
  simp [saveInterrupted, FileCache.writePart, FileCache.openWrite]

namespace Registry

theorem serializeAll_ends (now : Nat) (v : List Registry) :
    exists s, (serializeAll now v).toList = s ++ [']'] :=
  ⟨(serializeFrom now "[" v).toList, String.toList_append⟩

theorem parse_cut (now : Nat) {v : List Registry} (hclean : forall r, r ∈ v -> r.CleanFields)
    (htyped : forall r, r ∈ v -> r.Typed) {written : Nat}
    (hcut : written < (serializeAll now v).length) :
    Rapidjson.parse (String.ofList ((serializeAll now v).toList.take written)) = none := by
  have hwhole := parse_serializeAll now hclean htyped
  have hnul : '\x00' ∉ (serializeAll now v).toList :=
    fun hmem => serializeAll_ne_nul now htyped hmem rfl
  rcases serializeAll_ends now v with ⟨s, hs⟩
  have hle : written ≤ s.length := by
    rw [<- String.length_toList, hs, List.length_append, List.length_singleton] at hcut
    exact Nat.le_of_lt_succ hcut
  have hparts : (serializeAll now v).toList = s.take written ++ (s.drop written ++ [']']) := by
    rw [hs, <- List.append_assoc, List.take_append_drop]
  rw [<- String.ofList_toList (s := serializeAll now v), hparts] at hwhole
  rw [hparts] at hnul
  rw [hs, List.take_append_of_le_length hle]
  cases hparse : Rapidjson.parse (String.ofList (s.take written)) with
  | none => rfl
  | some d =>
      have hblank := Rapidjson.parse_prefix hnul hparse hwhole
      have hbracket := List.dropWhile_eq_nil_iff.mp hblank ']' (by simp)
      cases hbracket

end Registry

namespace RegistryCache

/-- The entries of a cache whose strings and ports go through a file. -/
structure Storable (c : RegistryCache) : Prop where
  clean : forall name r, r ∈ c.list name -> r.CleanFields
  port : forall name r, r ∈ c.list name -> -2 ^ 31 ≤ r.port ∧ r.port < 2 ^ 31

theorem list_eq_nil_of_entries {c : RegistryCache} (h : c.cache.entries = []) (name : String) :
    c.list name = [] := by
  rw [<- filter_entries, h]
  rfl

theorem restores_empty_iff (c : RegistryCache) :
    Restores c empty <-> c.cache.entries = [] := by
  constructor
  · intro h
    apply List.eq_nil_iff_forall_not_mem.mpr
    intro r hr
    have hlist : (c.list r.name).map Registry.endpoint = [] := (h.endpoints r.name).symm
    have hmem := mem_list_of_mem_entries hr
    rw [List.map_eq_nil_iff.mp hlist] at hmem
    cases hmem
  · intro h
    have hnil := list_eq_nil_of_entries h
    constructor
    · intro name
      simp [hnil name, exists_, RMap.exists_, empty]
    · intro name
      simp [hnil name]
    · intro name
      simp
    · intro name r hr
      cases hr

theorem Storable.entries_clean {c : RegistryCache} (h : c.Storable) :
    forall r, r ∈ c.cache.entries -> r.CleanFields :=
  fun r hr => h.clean r.name r (mem_list_of_mem_entries hr)

theorem Storable.entries_typed {c : RegistryCache} (h : c.Storable) :
    forall r, r ∈ c.cache.entries -> r.Typed :=
  fun r hr => (h.entries_clean r hr).typed (h.port r.name r (mem_list_of_mem_entries hr))

theorem Storable.unserialize_save {c : RegistryCache} (h : c.Storable) (sec now : Nat) :
    Registry.unserialize Rapidjson.parse now (c.cache.save sec) =
      .ok (c.cache.entries.map (Registry.readBack now)) :=
  Registry.unserialize_serializeAll sec now h.entries_clean h.entries_typed

theorem Storable.unserialize_cut {c : RegistryCache} (h : c.Storable) (sec now : Nat)
    {written : Nat} (hcut : written < (c.cache.save sec).length) :
    Registry.unserialize Rapidjson.parse now
      (String.ofList ((c.cache.save sec).toList.take written)) = .ok [] := by
  have hnone := Registry.parse_cut sec h.entries_clean h.entries_typed hcut
  simp only [Registry.unserialize, RMap.save, hnone]

theorem fromFile_cut {c : RegistryCache} (h : c.Storable) (sec : Nat) (now : Nat -> Nat)
    {written : Nat} (hcut : written < (c.cache.save sec).length) (content : Option String) :
    fromFile Rapidjson.parse now (c.cache.saveInterrupted sec written content) empty =
      .ok empty := by
  rw [RMap.saveInterrupted_eq]
  simp only [fromFile, h.unserialize_cut sec _ hcut]
  rfl

theorem saveInterrupted_whole (c : RegistryCache) (sec : Nat) {written : Nat}
    (hall : (c.cache.save sec).length ≤ written) (content : Option String) :
    c.cache.saveInterrupted sec written content = some (c.cache.save sec) := by
  rw [RMap.saveInterrupted_eq, List.take_of_length_le (String.length_toList ▸ hall),
    String.ofList_toList]

/--
One of the two caches comes back if and only if all of the text was written,
unless one of them holds nothing.
-/
theorem interrupted_save_recovers_iff (old new : RegistryCache) (hnew : new.Storable)
    (oldSec sec : Nat) (now : Nat -> Nat) (written : Nat) :
    (exists d, fromFile Rapidjson.parse now
        (new.cache.saveInterrupted sec written (some (old.cache.save oldSec))) empty = .ok d ∧
        (Restores old d ∨ Restores new d)) <->
      (new.cache.save sec).length ≤ written ∨ old.cache.entries = [] ∨
        new.cache.entries = [] := by
  by_cases hall : (new.cache.save sec).length ≤ written
  · rcases save_then_fromFile new sec now hnew.clean hnew.port with ⟨d, hd, hrestores⟩
    rw [saveInterrupted_whole new sec hall]
    exact ⟨fun _ => Or.inl hall, fun _ => ⟨d, hd, Or.inr hrestores⟩⟩
  · rw [fromFile_cut hnew sec now (Nat.lt_of_not_le hall)]
    constructor
    · intro h
      rcases h with ⟨d, hd, hrestores⟩
      cases hd
      rw [restores_empty_iff, restores_empty_iff] at hrestores
      exact Or.inr hrestores
    · intro h
      rcases h with hwritten | hempty
      · exact absurd hwritten hall
      · refine ⟨empty, rfl, ?_⟩
        rw [restores_empty_iff, restores_empty_iff]
        exact hempty

section Example

private def earlierEntry : Registry where
  name := "a"
  host := "h"
  port := 1
  mtime := 5
  ephemeral := "m1"

private def laterEntry : Registry where
  name := "b"
  host := "k"
  port := 2
  mtime := 6
  ephemeral := "m2"

private def earlierCache : RegistryCache :=
  (empty.add earlierEntry).add { earlierEntry with host := "i", ephemeral := "m3" }

private def laterCache : RegistryCache :=
  (empty.add laterEntry).add { earlierEntry with port := 3 }

private theorem storable_earlierCache : earlierCache.Storable :=
  ⟨forall_list_of_entries (by decide +kernel), forall_list_of_entries (by decide +kernel)⟩

private theorem storable_laterCache : laterCache.Storable :=
  ⟨forall_list_of_entries (by decide +kernel), forall_list_of_entries (by decide +kernel)⟩

/-- The last character of the text was just written. -/
theorem whole_save_recovers :
    exists d, fromFile Rapidjson.parse id
        (laterCache.cache.saveInterrupted 8 (laterCache.cache.save 8).length
          (some (earlierCache.cache.save 7))) empty = .ok d ∧
        (Restores earlierCache d ∨ Restores laterCache d) :=
  (interrupted_save_recovers_iff earlierCache laterCache storable_laterCache 7 8 id _).mpr
    (Or.inl (Nat.le_refl _))

/-- Between the open and the first character both caches are lost. -/
theorem interrupted_save_loses_both :
    ¬ forall (old new : RegistryCache), old.Storable -> new.Storable ->
      forall (oldSec sec : Nat) (now : Nat -> Nat) (written : Nat),
        exists d, fromFile Rapidjson.parse now
          (new.cache.saveInterrupted sec written (some (old.cache.save oldSec))) empty = .ok d ∧
          (Restores old d ∨ Restores new d) := by
  intro h
  have hsaved : earlierCache.cache.entries ≠ [] := by
    decide +kernel
  have hunsaved : laterCache.cache.entries ≠ [] := by
    decide +kernel
  rcases h _ _ storable_earlierCache storable_laterCache 7 8 id 0 with ⟨d, hd, hrestores⟩
  have hempty : fromFile Rapidjson.parse id
      (laterCache.cache.saveInterrupted 8 0 (some (earlierCache.cache.save 7))) empty =
        .ok empty := by
    rw [RMap.saveInterrupted_eq]
    rfl
  rw [hempty] at hd
  cases hd
  rw [restores_empty_iff, restores_empty_iff] at hrestores
  exact hrestores.elim hsaved hunsaved

end Example

end RegistryCache

end FrProxy
