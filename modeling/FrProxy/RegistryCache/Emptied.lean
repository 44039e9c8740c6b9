import FrProxy.Library.Transition
import FrProxy.RegistryCache

/-!
# Lists that become empty

`size` counts keys.  It tells whether the cache can serve anything only as long
as no key is left with an empty list: `remove(reg)` takes care of that, and
`remove(name, ephemeral)` and `replace` do not.
-/

namespace FrProxy

namespace RMap

def ServesNone (cache : RMap) : Prop :=
  forall name, (cache.get name).getD [] = []

structure SizeTells (cache : RMap) : Prop where
  populated : cache.Populated
  zero : cache.size = 0 <-> cache.ServesNone

inductive Op where
  | add (reg : Registry)
  | removeRegistry (reg : Registry)
  | removeEphemeral (name ephemeral : String)
  | removeName (name : String)
  | replace (name : String) (l : { l : RVector // l ≠ [] })
  | removeOverdue (timestamp : Nat)
  | fromFile (now : Nat -> Nat) (content : Option String)
  | clear

section Operations

variable (parse : String -> Option Json)

/-- One operation; none when the loading of a file stops the process. -/
def perform (cache : RMap) : Op -> Option RMap
  | .add reg => some (cache.add reg)
  | .removeRegistry reg => some (cache.removeRegistry reg)
  | .removeEphemeral name ephemeral => some (cache.removeEphemeral name ephemeral)
  | .removeName name => some (cache.removeName name)
  | .replace name l => some (cache.replace name l)
  | .removeOverdue timestamp => some (cache.removeOverdue timestamp)
  | .fromFile now content => (fromFile parse now content cache).toOption
  | .clear => some cache.clear

def history (ops : List Op) : List (RMap × Op × RMap) :=
  Transition.transitions (perform parse) ∅ ops

end Operations

/--
`remove(name, ephemeral)` does not hit the only entry of a list, and `replace`
names no present key.
-/
def LeavesNoEmpty (cache : RMap) : Op -> Prop
  | .removeEphemeral name ephemeral =>
      name = "" ∨ ephemeral = "" ∨
        forall r, cache[name]? = some [r] -> r.ephemeral ≠ ephemeral
  | .replace name _ => cache[name]? = none
  | _ => True

/-!
## What each operation leaves behind
-/

theorem Populated.fromFile {parse : String -> Option Json} {now : Nat -> Nat}
    {content : Option String} {cache cache' : RMap} (h : cache.Populated)
    (hload : fromFile parse now content cache = .ok cache') : cache'.Populated := by
  cases content with
  | none =>
      cases hload
      exact h
  | some text =>
      simp only [RMap.fromFile] at hload
      cases hread : Registry.unserialize parse (now 0) text with
      | error e =>
          rw [hread] at hload
          cases hload
      | ok v =>
          rw [hread] at hload
          cases hload
          exact Populated.foldl (fun _ reg hc => hc.add reg) _ h

theorem eraseP_eq_nil_iff {l : RVector} {ephemeral : String} (hl : l ≠ []) :
    l.eraseP (fun r => r.ephemeral == ephemeral) = [] <->
      exists r, l = [r] ∧ r.ephemeral = ephemeral := by
  cases l with
  | nil => exact absurd rfl hl
  | cons r rest =>
      by_cases hr : r.ephemeral = ephemeral
      · simp [hr]
      · simp [hr]

theorem populated_insert_iff {cache : RMap} (h : cache.Populated) (name : String)
    (l : RVector) : Populated (cache.insert name l) <-> l ≠ [] := by
  constructor
  · intro hpop
    apply hpop name
    rw [getElem?_insert_ite, if_pos rfl]
  · exact h.insert

theorem removeEphemeral_populated {cache : RMap} (h : cache.Populated)
    (name ephemeral : String) :
    (cache.removeEphemeral name ephemeral).Populated <->
      name = "" ∨ ephemeral = "" ∨
        forall r, cache[name]? = some [r] -> r.ephemeral ≠ ephemeral := by
  unfold RMap.removeEphemeral
  by_cases hname : name = ""
  · simp [hname, h]
  · by_cases hephemeral : ephemeral = ""
    · simp [hephemeral, h]
    · rw [if_neg (by simp [hname, hephemeral])]
      simp only [hname, hephemeral, false_or]
      cases hl : cache[name]? with
      | none => simp [h]
      | some l =>
          have hne := h name l hl
          rw [populated_insert_iff h, ne_eq, eraseP_eq_nil_iff hne]
          simp only [Option.some.injEq, not_exists, not_and, ne_eq]

theorem replace_populated {cache : RMap} (h : cache.Populated) (name : String)
    (l : { l : RVector // l ≠ [] }) :
    (cache.replace name l).Populated <-> cache[name]? = none := by
  unfold RMap.replace
  cases hl : cache[name]? with
  | none => simp [h.insert l.property]
  | some m =>
      dsimp only
      rw [populated_insert_iff h]
      simp

/-- An operation leaves no key without an endpoint exactly when it meets the condition. -/
theorem populated_perform_iff {parse : String -> Option Json} {cache cache' : RMap} {op : Op}
    (hstep : perform parse cache op = some cache') (h : cache.Populated) :
    cache'.Populated <-> cache.LeavesNoEmpty op := by
  cases op with
  | add reg =>
      cases hstep
      exact iff_of_true (h.add reg) trivial
  | removeRegistry reg =>
      cases hstep
      exact iff_of_true (h.removeRegistry reg) trivial
  | removeEphemeral name ephemeral =>
      cases hstep
      exact removeEphemeral_populated h name ephemeral
  | removeName name =>
      cases hstep
      exact iff_of_true (h.erase name) trivial
  | replace name l =>
      cases hstep
      exact replace_populated h name l
  | removeOverdue timestamp =>
      cases hstep
      exact iff_of_true (h.removeOverdue timestamp) trivial
  | fromFile now content =>
      apply iff_of_true ?_ trivial
      simp only [perform] at hstep
      cases hload : fromFile parse now content cache with
      | error e =>
          rw [hload] at hstep
          cases hstep
      | ok loaded =>
          rw [hload] at hstep
          cases hstep
          exact h.fromFile hload
  | clear =>
      cases hstep
      exact iff_of_true populated_empty trivial

/-- With an endpoint under every key, the number of keys tells whether there is one at all. -/
theorem Populated.sizeTells {cache : RMap} (h : cache.Populated) : cache.SizeTells where
  populated := h
  zero := by
    rw [<- Std.ExtTreeMap.eq_empty_iff_size_eq_zero]
    constructor
    · intro hempty name
      simp [get, hempty]
    · intro hnone
      apply Std.ExtTreeMap.ext_getElem?
      intro name
      rw [Std.ExtTreeMap.getElem?_empty]
      cases hl : cache[name]? with
      | none => rfl
      | some l =>
          have hnil : (cache[name]?).getD [] = [] := hnone name
          rw [hl] at hnil
          exact absurd hnil (h name l hl)

/--
In a history of the cache every key has an endpoint and `size` tells whether
there is one, after every operation, exactly when no operation empties a list
that it keeps.
-/
theorem size_tells_iff (parse : String -> Option Json) (ops : List Op) :
    (forall cache op cache', (cache, op, cache') ∈ history parse ops -> cache'.SizeTells) <->
    forall cache op cache', (cache, op, cache') ∈ history parse ops ->
      cache.LeavesNoEmpty op :=
  Transition.good_iff_guarded (perform parse) Populated LeavesNoEmpty
    (fun _ _ cache' => cache'.SizeTells)
    (fun _ _ _ hstep h hguard =>
      let hpop := (populated_perform_iff hstep h).mpr hguard
      ⟨hpop, hpop.sizeTells⟩)
    (fun _ _ _ hstep h hgood => (populated_perform_iff hstep h).mp hgood.populated)
    ops populated_empty

section Example

private def onlyEntry : Registry where
  name := "/soa/services/a"
  host := "h"
  mtime := 5
  ephemeral := "m1"

/-- The only instance of the only service goes away. -/
theorem size_hides_emptiness :
    ¬ forall (parse : String -> Option Json) (ops : List Op) cache op cache',
      (cache, op, cache') ∈ history parse ops -> cache'.SizeTells := by
  intro h
  have hbuilt : (RMap.add ∅ onlyEntry)["/soa/services/a"]? = some [onlyEntry] := by
    simp [RMap.add, onlyEntry]
  have hpop : Populated (RMap.add ∅ onlyEntry) := populated_empty.add onlyEntry
  have hstep := h (fun _ => none) [.add onlyEntry, .removeEphemeral "/soa/services/a" "m1"]
    (RMap.add ∅ onlyEntry) (.removeEphemeral "/soa/services/a" "m1") _
    (List.mem_cons_of_mem _ List.mem_cons_self)
  rcases (removeEphemeral_populated hpop _ _).mp hstep.populated with hname | heph | hother
  · exact absurd hname (by decide)
  · exact absurd heph (by decide)
  · exact hother onlyEntry hbuilt rfl

end Example

end RMap

end FrProxy
