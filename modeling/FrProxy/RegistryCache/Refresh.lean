import FrProxy.Library.Transition
import FrProxy.RegistryCache

/-!
# Requests during a refresh

`get_service` drops the list of a service under the lock and then registers the
instances that it reads, one locked `add` after another.  A request looks its
list up under the lock, but reads the size and the entries through the pointer
without it, so that steps of the refresh fall between all of these.
-/

namespace FrProxy

open KeyedList

/-- A refresh of a service that had instances, with the entry that each of its reads gives. -/
structure Refresh where
  before : RegistryCache
  service : String
  regs : RVector
  cached : before.list service ≠ []
  named : forall r, r ∈ regs -> r.name = service
  unchanged : forall r, r ∈ regs -> forall t, t ∈ before.list service ->
    t.ephemeral = r.ephemeral -> t.endpoint = r.endpoint

/-- The vector that the map holds for the service before the removal, and the one after it. -/
inductive VectorId where
  | old
  | new
  deriving DecidableEq

inductive GetState where
  | start
  /-- `pvector` was looked up. -/
  | found (pvector : Option VectorId)
  /-- Whether the service is to be fetched was decided. -/
  | buffered (pvector : Option VectorId)
  /-- In the loop of `serialize`, at `it`; `none` when `it` is no longer valid. -/
  | serializing (pvector : VectorId) (it : Option Nat) (ret : String) (listed : RVector)
  /-- The answer, with the entries that were read for it. -/
  | returned (answer : String) (listed : RVector)
  /-- Freed memory was read. -/
  | undefined

structure RefreshState where
  cache : RegistryCache
  /-- The entries passed to `add` since the list was dropped; `none` before that. -/
  added : Option RVector
  left : RVector
  requests : Nat -> GetState

inductive RefreshAction where
  /-- The next locked step of the refresh; whether `push_back` moves the vector. -/
  | advance (moved : Bool)
  /-- The next step of a request, at that second. -/
  | get (i now : Nat)

/-- What is left of an iterator when `add` erases the equal entry of the vector and appends `reg`. -/
def GetState.afterAdd (l : RVector) (reg : Registry) (moved : Bool) : GetState -> GetState
  | .serializing pvector it ret listed =>
      let erased := l.findIdx fun t => t.equals reg
      let it := it.filter fun k => k < erased && !(moved && erased == l.length)
      .serializing pvector it ret listed
  | g => g

namespace RefreshState

def current (s : RefreshState) : VectorId :=
  if s.added.isSome then .new else .old

/-- What a pointer leads to; `none` when the vector was erased from the map. -/
def deref (s : RefreshState) (service : String) (pvector : VectorId) : Option RVector :=
  if pvector = s.current then s.cache.get service else none

end RefreshState

namespace Refresh

variable (r : Refresh)

def start : RefreshState where
  cache := r.before
  added := none
  left := r.regs
  requests := fun _ => .start

/-- The locked steps of `get_service`. -/
def advance (s : RefreshState) (moved : Bool) : Option RefreshState :=
  match s.added, s.left with
  | none, [] => none
  | none, _ :: _ => some { s with cache := s.cache.removeName r.service, added := some [] }
  | some _, [] => none
  | some l, reg :: rest =>
      let v := s.cache.list r.service
      some {
        cache := s.cache.add reg
        added := some (l ++ [reg])
        left := rest
        requests := fun i =>
          if RMap.accepts reg then (s.requests i).afterAdd v reg moved else s.requests i }

/-- The steps of `ServerHandler::get`: only the first of them is locked. -/
def get (s : RefreshState) (now : Nat) : GetState -> Option GetState
  | .start => some (.found (if (s.cache.get r.service).isSome then some s.current else none))
  | .found none => some (.buffered none)
  | .found (some pvector) =>
      match s.deref r.service pvector with
      | none => some .undefined
      | some _ => some (.buffered (some pvector))
  | .buffered none => some (.returned "" [])
  | .buffered (some pvector) =>
      match s.deref r.service pvector with
      | none => some .undefined
      | some l =>
          if l.length > 0 then some (.serializing pvector (some 0) "[" [])
          else some (.returned "" [])
  | .serializing pvector it ret listed =>
      match s.deref r.service pvector, it with
      | some l, some k =>
          match l[k]? with
          | none => some (.returned (ret ++ "]") listed)
          | some reg =>
              let ret := if ret.length > 2 then ret ++ ",\n" else ret
              some (.serializing pvector (some (k + 1)) (ret ++ reg.serialize now) (listed ++ [reg]))
      | _, _ => some .undefined
  | .returned _ _ => none
  | .undefined => none

def step (s : RefreshState) : RefreshAction -> Option RefreshState
  | .advance moved => r.advance s moved
  | .get i now => do
      let g <- r.get s now (s.requests i)
      return { s with requests := Function.update s.requests i g }

/-- The cache after a refresh with nothing in between. -/
def after : RegistryCache :=
  if r.regs = [] then r.before else (r.before.removeName r.service).load r.regs

/-- An instance of the service that is there before the refresh and after it. -/
def Stays (p : Endpoint) : Prop :=
  p.name = r.service ∧ r.before.Caches p ∧ r.after.Caches p

/-- What a request may have come to: an answer has every instance that stays. -/
def Complete : GetState -> Prop
  | .returned answer listed =>
      answer ≠ "" ∧ forall p, r.Stays p -> p ∈ listed.map Registry.endpoint
  | .undefined => False
  | _ => True

/-- A request is never left with an incomplete answer, or reading what was freed. -/
def Answered (_ : RefreshState) : RefreshAction -> RefreshState -> Prop
  | .get i _, s' => r.Complete (s'.requests i)
  | .advance _, _ => True

/-- The instances that stay were added again, if the list was dropped. -/
def Restored (s : RefreshState) : Prop :=
  forall l, s.added = some l ->
    forall p, r.Stays p -> p ∈ (l.filter RMap.accepts).map Registry.endpoint

/--
A request found a list, and that list was not dropped since; no `add` took its
iterator away; and it reaches the end of the list when all that stays is there.
-/
def OnTime (s : RefreshState) : GetState -> Prop
  | .found (some pvector) => pvector = s.current
  | .buffered none => False
  | .buffered (some pvector) => pvector = s.current
  | .serializing pvector it _ _ =>
      pvector = s.current ∧ exists k, it = some k ∧
        (k = (s.cache.list r.service).length -> r.Restored s)
  | _ => True

def Undisturbed (s : RefreshState) : RefreshAction -> Prop
  | .get i _ => r.OnTime s (s.requests i)
  | .advance _ => True

theorem step_remove {s : RefreshState} {reg : Registry} {rest : RVector} (moved : Bool)
    (hadded : s.added = none) (hleft : s.left = reg :: rest) :
    r.step s (.advance moved) =
      some { s with cache := s.cache.removeName r.service, added := some [] } := by
  simp only [step, advance, hadded, hleft]

theorem step_add {s : RefreshState} {l rest : RVector} {reg : Registry} (moved : Bool)
    (hadded : s.added = some l) (hleft : s.left = reg :: rest) :
    r.step s (.advance moved) =
      some {
        cache := s.cache.add reg
        added := some (l ++ [reg])
        left := rest
        requests := fun i =>
          if RMap.accepts reg then (s.requests i).afterAdd (s.cache.list r.service) reg moved
          else s.requests i } := by
  simp only [step, advance, hadded, hleft]

theorem final_added (moved : Bool) (left : RVector) {s : RefreshState} {l : RVector}
    (hadded : s.added = some l) (hleft : s.left = left) :
    (Transition.final r.step s (List.replicate left.length (.advance moved))).cache =
      s.cache.load left := by
  induction left generalizing s l with
  | nil => rfl
  | cons reg rest ih =>
      rw [List.length_cons, List.replicate_succ,
        Transition.final_cons_some _ _ (r.step_add moved hadded hleft)]
      exact ih rfl rfl

theorem run_alone (moved : Bool) :
    (Transition.final r.step r.start
      (List.replicate (r.regs.length + 1) (.advance moved))).cache = r.after := by
  unfold after
  cases hregs : r.regs with
  | nil => simp [Transition.final, step, advance, start, hregs]
  | cons reg rest =>
      rw [if_neg (List.cons_ne_nil reg rest), List.replicate_succ,
        Transition.final_cons_some _ _ (r.step_remove moved rfl hregs)]
      exact r.final_added moved (reg :: rest) rfl hregs

/-!
## A request with nothing in between
-/

def getAlone (s : RefreshState) (now n : Nat) (g : GetState) : GetState :=
  Transition.final (fun g now => r.get s now g) g (List.replicate n now)

theorem getAlone_succ {s : RefreshState} {now : Nat} {g g' : GetState} (n : Nat)
    (hget : r.get s now g = some g') : r.getAlone s now (n + 1) g = r.getAlone s now n g' :=
  Transition.final_cons_some _ _ hget

theorem serialize_alone {s : RefreshState} {v : RVector} (now : Nat) (rest : RVector)
    {k : Nat} {ret : String} {listed : RVector}
    (hderef : s.deref r.service s.current = some v) (hrest : v.drop k = rest) :
    r.getAlone s now (rest.length + 1) (.serializing s.current (some k) ret listed) =
      .returned (Registry.serializeFrom now ret rest ++ "]") (listed ++ rest) := by
  induction rest generalizing k ret listed with
  | nil =>
      have hnext : v[k]? = none := by rw [<- List.head?_drop, hrest, List.head?_nil]
      have hget : r.get s now (.serializing s.current (some k) ret listed) =
          some (.returned (ret ++ "]") listed) := by
        simp only [get, hderef, hnext]
      rw [List.length_nil, r.getAlone_succ 0 hget, List.append_nil]
      rfl
  | cons reg rest ih =>
      have hnext : v[k]? = some reg := by rw [<- List.head?_drop, hrest, List.head?_cons]
      have htail : v.drop (k + 1) = rest := by rw [<- List.tail_drop, hrest, List.tail_cons]
      let ret' := if ret.length > 2 then ret ++ ",\n" else ret
      have hget : r.get s now (.serializing s.current (some k) ret listed) =
          some (.serializing s.current (some (k + 1)) (ret' ++ reg.serialize now)
            (listed ++ [reg])) := by
        simp only [get, hderef, hnext, ret']
      rw [List.length_cons, r.getAlone_succ _ hget, ih htail, List.append_assoc,
        List.singleton_append]
      rfl

theorem get_alone (s : RefreshState) (now : Nat) :
    let v := s.cache.list r.service
    r.getAlone s now (v.length + 4) .start =
      .returned (if v = [] then "" else Registry.serializeAll now v) v := by
  intro v
  have hv : (s.cache.get r.service).getD [] = v := rfl
  cases hget : s.cache.get r.service with
  | none =>
      have hempty : v = [] := by rw [<- hv, hget, Option.getD_none]
      have hfound : r.get s now .start = some (.found none) := by simp [get, hget]
      rw [r.getAlone_succ _ hfound, hempty]
      rfl
  | some l =>
      have hl : l = v := by rw [<- hv, hget, Option.getD_some]
      rw [hl] at hget
      have hderef : s.deref r.service s.current = some v := (if_pos rfl).trans hget
      have hfound : r.get s now .start = some (.found (some s.current)) := by simp [get, hget]
      have hbuffered : r.get s now (.found (some s.current)) = some (.buffered (some s.current)) := by
        simp only [get, hderef]
      rw [r.getAlone_succ _ hfound, r.getAlone_succ _ hbuffered]
      by_cases hempty : v = []
      · have hnothing : r.get s now (.buffered (some s.current)) = some (.returned "" []) := by
          simp [get, hderef, hempty]
        rw [r.getAlone_succ _ hnothing, hempty]
        rfl
      · have hloop : r.get s now (.buffered (some s.current)) =
            some (.serializing s.current (some 0) "[" []) := by
          simp [get, hderef, List.length_pos_iff.mpr hempty]
        rw [r.getAlone_succ _ hloop, r.serialize_alone now v hderef List.drop_zero, if_neg hempty]
        rfl

/-!
## The list of the service during the refresh
-/

def Lists (c : RegistryCache) (service : String) (l : RVector) : Prop :=
  forall p, p ∈ (c.list service).map Registry.endpoint <-> p ∈ l.map Registry.endpoint

theorem lists_removeName (c : RegistryCache) (service : String) :
    Lists (c.removeName service) service [] := by
  intro p
  simp [RegistryCache.list_removeName]

theorem Lists.add {c : RegistryCache} {service : String} {l : RVector}
    (h : Lists c service (l.filter RMap.accepts)) {reg : Registry} (hname : reg.name = service) :
    Lists (c.add reg) service ((l ++ [reg]).filter RMap.accepts) := by
  intro p
  rw [RegistryCache.list_add, List.filter_append]
  by_cases hreg : RMap.accepts reg = true
  · rw [if_pos ⟨hreg, hname⟩, List.filter_cons_of_pos hreg, List.filter_nil, List.map_append,
      List.mem_append, <- h p]
    constructor
    · intro hp
      rcases List.mem_map.mp hp with ⟨t, ht, rfl⟩
      rcases (mem_touch _).mp ht with hold | rfl
      · exact Or.inl (List.mem_map_of_mem hold.left)
      · exact Or.inr (by simp)
    · intro hp
      by_cases heq : p = reg.endpoint
      · exact List.mem_map.mpr ⟨reg, (mem_touch _).mpr (Or.inr rfl), heq.symm⟩
      · rcases hp with hp | hp
        · rcases List.mem_map.mp hp with ⟨t, ht, rfl⟩
          exact List.mem_map_of_mem ((mem_touch _).mpr (Or.inl ⟨ht, heq⟩))
        · exact absurd (by simpa using hp) heq
  · rw [if_neg fun hboth => hreg hboth.left, List.filter_cons_of_neg hreg, List.filter_nil,
      List.append_nil]
    exact h p

theorem Lists.load {c : RegistryCache} {service : String} {l regs : RVector}
    (h : Lists c service (l.filter RMap.accepts))
    (hregs : forall reg, reg ∈ regs -> reg.name = service) :
    Lists (c.load regs) service ((l ++ regs).filter RMap.accepts) := by
  induction regs generalizing c l with
  | nil => simpa [RegistryCache.load] using h
  | cons reg rest ih =>
      rcases List.forall_mem_cons.mp hregs with ⟨hname, hrest⟩
      have htail := ih (h.add hname) hrest
      simpa [RegistryCache.load] using htail

theorem take_eraseP_append {α : Type} {p : α -> Bool} {k : Nat} (l m : List α)
    (hk : k ≤ l.findIdx p) : (l.eraseP p ++ m).take k = l.take k := by
  induction l generalizing k with
  | nil =>
      have hzero : k = 0 := Nat.le_zero.mp hk
      simp [hzero]
  | cons x rest ih =>
      by_cases hx : p x = true
      · have hzero : k = 0 := by simpa [List.findIdx_cons, hx] using hk
        simp [hzero]
      · cases k with
        | zero => simp
        | succ k =>
            have hrest : k ≤ rest.findIdx p := by simpa [List.findIdx_cons, hx] using hk
            simp [List.eraseP_cons_of_neg hx, ih hrest]

theorem take_list_add {c : RegistryCache} {service : String} {reg : Registry} {k : Nat}
    (hname : reg.name = service) (hk : k ≤ (c.list service).findIdx fun t => t.equals reg) :
    ((c.add reg).list service).take k = (c.list service).take k := by
  rw [RegistryCache.list_add]
  by_cases hreg : RMap.accepts reg = true
  · rw [if_pos ⟨hreg, hname⟩, touch, <- (c.filed service).eraseP_equals reg]
    exact take_eraseP_append _ _ hk
  · rw [if_neg fun hboth => hreg hboth.left]

/-!
## Requests beside the refresh
-/

/-- A pointer that is not dangling leads to a list with entries. -/
def Points (s : RefreshState) (pvector : VectorId) : Prop :=
  (pvector = .new -> s.added.isSome = true) ∧
    (pvector = s.current -> s.cache.list r.service ≠ [])

/-- What a request has read is the list as it is up to its iterator. -/
def Sound (s : RefreshState) : GetState -> Prop
  | .found (some pvector) => r.Points s pvector
  | .buffered (some pvector) => r.Points s pvector
  | .serializing pvector it _ listed =>
      r.Points s pvector ∧ forall k, pvector = s.current -> it = some k ->
        k ≤ (s.cache.list r.service).length ∧ listed = (s.cache.list r.service).take k
  | _ => True

structure InStep (s : RefreshState) : Prop where
  waiting : s.added = none -> s.cache = r.before ∧ s.left = r.regs
  adding : forall l, s.added = some l ->
    Lists s.cache r.service (l.filter RMap.accepts) ∧ l ++ s.left = r.regs
  filled : forall l, s.cache.get r.service = some l -> l ≠ []
  sound : forall i, r.Sound s (s.requests i)

theorem inStep_start : r.InStep r.start where
  waiting := fun _ => ⟨rfl, rfl⟩
  adding := by
    intro l hl
    cases hl
  filled := fun _ hl => RegistryCache.list_of_get hl ▸ r.cached
  sound := fun _ => trivial

theorem current_of_added {s : RefreshState} {l : RVector} (hadded : s.added = some l) :
    s.current = .new := by
  simp [RefreshState.current, hadded]

theorem sound_remove {s s' : RefreshState} (hbefore : s.added = none) (hafter : s'.added = some [])
    {g : GetState} (h : r.Sound s g) : r.Sound s' g := by
  have hcurrent := current_of_added hafter
  have hpoints : forall pvector, r.Points s pvector -> pvector ≠ s'.current ∧ r.Points s' pvector := by
    intro pvector hp
    have hne : pvector ≠ .new := by
      intro hnew
      simpa [hbefore] using hp.left hnew
    rw [Points, hcurrent]
    exact ⟨hne, fun hnew => absurd hnew hne, fun hnew => absurd hnew hne⟩
  cases g with
  | found pvector =>
      cases pvector with
      | none => trivial
      | some pvector => exact (hpoints pvector h).right
  | buffered pvector =>
      cases pvector with
      | none => trivial
      | some pvector => exact (hpoints pvector h).right
  | serializing pvector it ret listed =>
      rcases hpoints pvector h.left with ⟨hne, hp⟩
      exact ⟨hp, fun _ heq => absurd heq hne⟩
  | start => trivial
  | returned answer listed => trivial
  | undefined => trivial

theorem sound_add {s s' : RefreshState} {reg : Registry} (moved : Bool) (hname : reg.name = r.service)
    (hreg : RMap.accepts reg = true) (hcurrent : s'.current = s.current)
    (hadded : s'.added.isSome = s.added.isSome) (hcache : s'.cache = s.cache.add reg)
    {g : GetState} (h : r.Sound s g) :
    r.Sound s' (g.afterAdd (s.cache.list r.service) reg moved) := by
  have hlist : s'.cache.list r.service = touch Registry.endpoint (s.cache.list r.service) reg := by
    rw [hcache, RegistryCache.list_add, if_pos ⟨hreg, hname⟩]
  have hpoints : forall pvector, r.Points s pvector -> r.Points s' pvector := by
    intro pvector hp
    rw [Points, hadded, hlist]
    exact ⟨hp.left, fun _ => by simp [touch]⟩
  cases g with
  | found pvector =>
      cases pvector with
      | none => trivial
      | some pvector => exact hpoints pvector h
  | buffered pvector =>
      cases pvector with
      | none => trivial
      | some pvector => exact hpoints pvector h
  | serializing pvector it ret listed =>
      refine ⟨hpoints pvector h.left, ?_⟩
      intro k heq hit
      rw [Option.filter_eq_some_iff] at hit
      rcases hit with ⟨hit, hvalid⟩
      simp only [Bool.and_eq_true, decide_eq_true_eq] at hvalid
      rcases h.right k (heq.trans hcurrent) hit with ⟨hk, hlisted⟩
      have htake := take_list_add (c := s.cache) hname (Nat.le_of_lt hvalid.left)
      rw [<- hcache] at htake
      refine ⟨?_, hlisted.trans htake.symm⟩
      have hlength := congrArg List.length htake
      rw [List.length_take, List.length_take, Nat.min_eq_left hk] at hlength
      exact hlength ▸ Nat.min_le_right _ _
  | start => trivial
  | returned answer listed => trivial
  | undefined => trivial

theorem sound_same {s s' : RefreshState} (hadded : s'.added.isSome = s.added.isSome)
    (hcache : s'.cache = s.cache) {g : GetState} (h : r.Sound s g) : r.Sound s' g := by
  unfold Sound Points RefreshState.current at h ⊢
  rw [hadded, hcache]
  exact h

theorem InStep.advance {s s' : RefreshState} {moved : Bool} (h : r.InStep s)
    (hstep : r.step s (.advance moved) = some s') : r.InStep s' := by
  cases hadded : s.added with
  | none =>
      rcases h.waiting hadded with ⟨_, hregs⟩
      cases hleft : s.left with
      | nil => simp [step, Refresh.advance, hadded, hleft] at hstep
      | cons reg rest =>
          rw [r.step_remove moved hadded hleft] at hstep
          cases hstep
          constructor
          · intro hnone
            cases hnone
          · intro l hl
            cases hl
            exact ⟨lists_removeName s.cache r.service, hregs⟩
          · intro l hl
            have hnone : (s.cache.cache.erase r.service)[r.service]? = none := by simp
            exact absurd (hnone.symm.trans hl) (by simp)
          · exact fun i => r.sound_remove hadded rfl (h.sound i)
  | some l =>
      rcases h.adding l hadded with ⟨hlists, happend⟩
      cases hleft : s.left with
      | nil => simp [step, Refresh.advance, hadded, hleft] at hstep
      | cons reg rest =>
          rw [r.step_add moved hadded hleft] at hstep
          cases hstep
          have hname : reg.name = r.service := by
            apply r.named
            rw [<- happend, hleft]
            simp
          have hsome : (some (l ++ [reg])).isSome = s.added.isSome := by rw [hadded]; rfl
          have hrejected : RMap.accepts reg ≠ true -> s.cache.add reg = s.cache := fun hreg =>
            RegistryCache.ext_cache (RMap.add_of_not_accepts (by simpa using hreg))
          constructor
          · intro hnone
            cases hnone
          · intro m hm
            cases hm
            exact ⟨hlists.add hname, by simp [<- happend, hleft]⟩
          · intro m hm
            by_cases hreg : RMap.accepts reg = true
            · rw [<- RegistryCache.list_of_get hm, RegistryCache.list_add, if_pos ⟨hreg, hname⟩]
              simp [touch]
            · rw [hrejected hreg] at hm
              exact h.filled m hm
          · intro i
            dsimp only
            by_cases hreg : RMap.accepts reg = true
            · rw [if_pos hreg]
              refine r.sound_add moved hname hreg ?_ hsome rfl (h.sound i)
              unfold RefreshState.current
              rw [hsome]
            · rw [if_neg hreg]
              exact r.sound_same hsome (hrejected hreg) (h.sound i)

theorem deref_of_points {s : RefreshState} {pvector : VectorId} (h : r.Points s pvector)
    (hcurrent : pvector = s.current) :
    s.deref r.service pvector = some (s.cache.list r.service) := by
  unfold RefreshState.deref
  rw [if_pos hcurrent]
  cases hget : s.cache.get r.service with
  | none =>
      have hnone : s.cache.cache[r.service]? = none := hget
      exact absurd (by simp [RegistryCache.list, hnone]) (h.right hcurrent)
  | some l => rw [RegistryCache.list_of_get hget]

theorem deref_dangling {s : RefreshState} {pvector : VectorId} (hcurrent : pvector ≠ s.current) :
    s.deref r.service pvector = none :=
  if_neg hcurrent

theorem InStep.points_current {s : RefreshState} (h : r.InStep s) {l : RVector}
    (hget : s.cache.get r.service = some l) : r.Points s s.current := by
  constructor
  · intro hnew
    unfold RefreshState.current at hnew
    split at hnew
    · assumption
    · cases hnew
  · intro _
    rw [RegistryCache.list_of_get hget]
    exact h.filled l hget

/-- The list has every instance that stays exactly when those were added again. -/
theorem InStep.restored_iff {s : RefreshState} (h : r.InStep s) :
    (forall p, r.Stays p -> p ∈ (s.cache.list r.service).map Registry.endpoint) <->
      r.Restored s := by
  cases hadded : s.added with
  | none =>
      rcases h.waiting hadded with ⟨hcache, _⟩
      constructor
      · intro _ l hl
        rw [hadded] at hl
        cases hl
      · intro _ p hp
        rcases hp.right.left with ⟨t, ht, heq⟩
        rw [hcache, <- hp.left]
        exact List.mem_map.mpr ⟨t, ht, heq⟩
  | some l =>
      rcases h.adding l hadded with ⟨hlists, _⟩
      constructor
      · intro hall m hm p hp
        rw [hadded] at hm
        cases hm
        exact (hlists p).mp (hall p hp)
      · intro hrestored p hp
        exact (hlists p).mpr (hrestored l hadded p hp)

/-- One step of a request: what it read stays in step, and it ends well exactly if it was on time. -/
theorem InStep.get_step {s : RefreshState} {now : Nat} {g g' : GetState} (h : r.InStep s)
    (hg : r.Sound s g) (hstep : r.get s now g = some g') :
    r.Sound s g' ∧ (r.Complete g' <-> r.OnTime s g) := by
  cases g with
  | start =>
      cases hget : s.cache.get r.service with
      | none =>
          simp only [get, hget] at hstep
          cases hstep
          exact ⟨trivial, Iff.rfl⟩
      | some l =>
          simp only [get, hget] at hstep
          cases hstep
          exact ⟨h.points_current r hget, Iff.rfl⟩
  | found pvector =>
      cases pvector with
      | none =>
          cases hstep
          exact ⟨trivial, Iff.rfl⟩
      | some pvector =>
          by_cases hcurrent : pvector = s.current
          · simp only [get, r.deref_of_points hg hcurrent] at hstep
            cases hstep
            exact ⟨hg, iff_of_true trivial hcurrent⟩
          · simp only [get, r.deref_dangling hcurrent] at hstep
            cases hstep
            exact ⟨trivial, iff_of_false id hcurrent⟩
  | buffered pvector =>
      cases pvector with
      | none =>
          cases hstep
          exact ⟨trivial, iff_of_false (fun hcomplete => hcomplete.left rfl) id⟩
      | some pvector =>
          by_cases hcurrent : pvector = s.current
          · have hpos := List.length_pos_iff.mpr (hg.right hcurrent)
            simp only [get, r.deref_of_points hg hcurrent, if_pos hpos] at hstep
            cases hstep
            refine ⟨⟨hg, fun k _ hk => ?_⟩, iff_of_true trivial hcurrent⟩
            cases hk
            exact ⟨Nat.zero_le _, rfl⟩
          · simp only [get, r.deref_dangling hcurrent] at hstep
            cases hstep
            exact ⟨trivial, iff_of_false id hcurrent⟩
  | serializing pvector it ret listed =>
      by_cases hcurrent : pvector = s.current
      · cases it with
        | none =>
            simp only [get, r.deref_of_points hg.left hcurrent] at hstep
            cases hstep
            refine ⟨trivial, iff_of_false id ?_⟩
            intro honTime
            rcases honTime.right with ⟨k, hk, _⟩
            cases hk
        | some k =>
            rcases hg.right k hcurrent rfl with ⟨hk, hlisted⟩
            cases hreg : (s.cache.list r.service)[k]? with
            | none =>
                simp only [get, r.deref_of_points hg.left hcurrent, hreg] at hstep
                cases hstep
                have hend : k = (s.cache.list r.service).length :=
                  Nat.le_antisymm hk (List.getElem?_eq_none_iff.mp hreg)
                have hall : listed = s.cache.list r.service := by
                  rw [hlisted, hend, List.take_length]
                refine ⟨trivial, ?_⟩
                constructor
                · intro hcomplete
                  refine ⟨hcurrent, k, rfl, fun _ => (h.restored_iff r).mp ?_⟩
                  rw [<- hall]
                  exact hcomplete.right
                · intro honTime
                  rcases honTime.right with ⟨m, hm, hrestored⟩
                  cases hm
                  refine ⟨by simp [String.append_eq_empty_iff], ?_⟩
                  rw [hall]
                  exact (h.restored_iff r).mpr (hrestored hend)
            | some reg =>
                simp only [get, r.deref_of_points hg.left hcurrent, hreg] at hstep
                cases hstep
                rcases List.getElem?_eq_some_iff.mp hreg with ⟨hlt, heq⟩
                constructor
                · refine ⟨hg.left, fun m _ hm => ?_⟩
                  cases hm
                  refine ⟨hlt, ?_⟩
                  rw [hlisted, <- heq, List.take_append_getElem]
                · refine iff_of_true trivial ⟨hcurrent, k, rfl, fun hend => ?_⟩
                  exact absurd hend (Nat.ne_of_lt hlt)
      · simp only [get, r.deref_dangling hcurrent] at hstep
        cases hstep
        exact ⟨trivial, iff_of_false id fun honTime => hcurrent honTime.left⟩
  | returned answer listed => cases hstep
  | undefined => cases hstep

theorem step_get {s s' : RefreshState} {i now : Nat} (hstep : r.step s (.get i now) = some s') :
    exists g, r.get s now (s.requests i) = some g ∧
      s' = { s with requests := Function.update s.requests i g } := by
  cases hget : r.get s now (s.requests i) with
  | none => simp [step, hget] at hstep
  | some g =>
      simp only [step, hget] at hstep
      cases hstep
      exact ⟨g, rfl, rfl⟩

theorem InStep.step {s s' : RefreshState} {a : RefreshAction} (h : r.InStep s)
    (hstep : r.step s a = some s') :
    r.InStep s' ∧ (r.Answered s a s' <-> r.Undisturbed s a) := by
  cases a with
  | advance moved => exact ⟨h.advance r hstep, Iff.rfl⟩
  | get i now =>
      rcases r.step_get hstep with ⟨g, hget, rfl⟩
      rcases h.get_step r (h.sound i) hget with ⟨hsound, hiff⟩
      refine ⟨⟨h.waiting, h.adding, h.filled, ?_⟩, ?_⟩
      · intro j
        show r.Sound s (Function.update s.requests i g j)
        by_cases hj : j = i
        · rw [hj, Function.update_self]
          exact hsound
        · rw [Function.update_of_ne hj]
          exact h.sound j
      · show r.Complete (Function.update s.requests i g i) <-> r.OnTime s (s.requests i)
        rw [Function.update_self]
        exact hiff

/--
No request that runs beside a refresh reads what was freed or is left with an
incomplete answer exactly when each of them is on time: no list that it looked up
is dropped before it is done with it, it looks nothing up between the removal and
the first entry, no `add` takes its iterator away, and it reaches the end of the
list with every instance that stays added again.
-/
theorem gets_complete_iff (actions : List RefreshAction) :
    (forall s a s', (s, a, s') ∈ Transition.transitions r.step r.start actions ->
      r.Answered s a s') <->
    forall s a s', (s, a, s') ∈ Transition.transitions r.step r.start actions ->
      r.Undisturbed s a :=
  Transition.good_iff_guarded r.step r.InStep r.Undisturbed r.Answered
    (fun _ _ _ hstep h hon => ⟨(h.step r hstep).left, (h.step r hstep).right.mpr hon⟩)
    (fun _ _ _ hstep h hgood => (h.step r hstep).right.mp hgood)
    actions r.inStep_start

section Example

private def onlyInstance : Registry :=
  { name := "/soa/services/a", host := "h", port := 1, mtime := 5, ephemeral := "m1" }

/-- The only instance of a service is read again, with the same data. -/
private def readAgain : Refresh where
  before := RegistryCache.empty.add onlyInstance
  service := "/soa/services/a"
  regs := [{ onlyInstance with mtime := 20 }]
  cached := by decide
  named := by decide
  unchanged := by decide

/-- A request that looks up the list between the two steps finds nothing. -/
theorem get_during_refresh :
    ¬ forall (r : Refresh) (actions : List RefreshAction) s a s',
      (s, a, s') ∈ Transition.transitions r.step r.start actions -> r.Answered s a s' := by
  intro h
  have hget := h readAgain [.advance false, .get 0 0, .get 0 0, .get 0 0] _ _ _
    (List.mem_cons_of_mem _ (List.mem_cons_of_mem _ (List.mem_cons_of_mem _ List.mem_cons_self)))
  exact hget.left rfl

end Example

end Refresh

end FrProxy
