import FrProxy.Library.KeyedList
import FrProxy.Registry
import Std.Data.ExtTreeMap

/-!
# The registry cache

The map from a service name to the list of its instances, with the operations
that the cache offers under its lock.  `RMap` is the bare map; a
`RegistryCache` is a map together with the facts that every operation of the
proxy keeps: an entry is filed under its own name, is complete, and no list
holds an endpoint twice.
-/

namespace FrProxy

open KeyedList

abbrev RVector : Type :=
  List Registry

abbrev RMap : Type :=
  Std.ExtTreeMap String RVector compare

namespace RMap

theorem getElem?_insert_ite (cache : RMap) (k a : String) (l : RVector) :
    (cache.insert k l)[a]? = if k = a then some l else cache[a]? := by
  rw [Std.ExtTreeMap.getElem?_insert]
  simp

theorem getElem?_erase_ite (cache : RMap) (k a : String) :
    (cache.erase k)[a]? = if k = a then none else cache[a]? := by
  rw [Std.ExtTreeMap.getElem?_erase]
  simp

def accepts (reg : Registry) : Bool :=
  !(reg.name == "" || reg.host == "" || reg.ephemeral == "")

def add (cache : RMap) (reg : Registry) : RMap :=
  if reg.name == "" || reg.host == "" || reg.ephemeral == "" then cache
  else
    match cache[reg.name]? with
    | none => cache.insert reg.name [reg]
    | some l => cache.insert reg.name (l.eraseP (fun r => r.equals reg) ++ [reg])

/-- `remove(name, ephemeral)`: erases the first entry of that znode name. -/
def removeEphemeral (cache : RMap) (name ephemeral : String) : RMap :=
  if name == "" || ephemeral == "" then cache
  else
    match cache[name]? with
    | none => cache
    | some l => cache.insert name (l.eraseP fun r => r.ephemeral == ephemeral)

/-- `remove(reg)`: erases the entry equal to `reg`, and the key with its last entry. -/
def removeRegistry (cache : RMap) (reg : Registry) : RMap :=
  match cache[reg.name]? with
  | none => cache
  | some l =>
      let l' := l.eraseP fun r => r.equals reg
      if l'.length = 0 then cache.erase reg.name else cache.insert reg.name l'

/-- The collecting pass of `remove_overdue`: copies of the entries older than the time stamp. -/
def overdue (cache : RMap) (timestamp : Nat) : RVector :=
  cache.toList.flatMap fun entry => entry.2.filter fun r => r.mtime < timestamp

def removeOverdue (cache : RMap) (timestamp : Nat) : RMap :=
  (cache.overdue timestamp).foldl removeRegistry cache

def removeName (cache : RMap) (name : String) : RMap :=
  cache.erase name

/-- `replace`: a present list is cleared, and `map::insert` leaves a present key alone. -/
def replace (cache : RMap) (name : String) (l : RVector) : RMap :=
  match cache[name]? with
  | none => cache.insert name l
  | some _ => cache.insert name []

def clear (_cache : RMap) : RMap :=
  ∅

def exists_ (cache : RMap) (name : String) : Bool :=
  cache.contains name

def get (cache : RMap) (name : String) : Option RVector :=
  cache[name]?

def entries (cache : RMap) : RVector :=
  cache.toList.flatMap (·.2)

/-- The marker that `from_file` writes where other entries have a znode name. -/
def fromFileMarker : String :=
  "from_file"

/-- The entry that `from_file` makes of one that it read, with the clock at `now`. -/
def fileEntry (now : Nat) (r : Registry) : Registry :=
  { r with ephemeral := fromFileMarker, mtime := now, ctime := now }

/-- The entries that `from_file` adds; the clock is read for each of them. -/
def fileEntries (now : Nat -> Nat) : RVector -> RVector
  | [] => []
  | r :: rest => fileEntry (now 0) r :: fileEntries (fun i => now (i + 1)) rest

/-- `from_file`, when the file holds `content` (`none` when it cannot be opened). -/
def fromFile (parse : String -> Option Json) (now : Nat -> Nat) (content : Option String)
    (cache : RMap) : Except Stop RMap :=
  match content with
  | none => .ok cache
  | some text => do
      let v <- Registry.unserialize parse (now 0) text
      return (fileEntries now v).foldl add cache

/-- The text that `save` writes at second `now`. -/
def save (now : Nat) (cache : RMap) : String :=
  Registry.serializeAll now cache.entries

structure Filed (name : String) (l : RVector) : Prop where
  distinct : Distinct Registry.endpoint l
  named : forall r, r ∈ l -> r.name = name
  accepted : forall r, r ∈ l -> accepts r = true

def WellFormed (cache : RMap) : Prop :=
  forall name l, cache[name]? = some l -> Filed name l

theorem Filed.nil (name : String) : Filed name [] where
  distinct := distinct_nil _
  named := by simp
  accepted := by simp

theorem Filed.sublist {name : String} {l m : RVector} (hsub : List.Sublist m l)
    (h : Filed name l) : Filed name m where
  distinct := distinct_sublist _ hsub h.distinct
  named := fun r hr => h.named r (hsub.subset hr)
  accepted := fun r hr => h.accepted r (hsub.subset hr)

theorem Filed.eraseP_equals {name : String} {l : RVector} (h : Filed name l)
    (reg : Registry) :
    l.eraseP (fun r => r.equals reg) = drop Registry.endpoint l reg.endpoint := by
  rw [<- eraseP_eq_drop Registry.endpoint reg.endpoint h.distinct]
  congr
  funext r
  exact Registry.equals_eq_decide r reg

theorem Filed.touch {name : String} {l : RVector} (h : Filed name l)
    {reg : Registry} (hname : reg.name = name) (hreg : accepts reg = true) :
    Filed name (touch Registry.endpoint l reg) where
  distinct := distinct_touch _ reg h.distinct
  named := by
    intro r hr
    rcases (mem_touch _).mp hr with hold | rfl
    · exact h.named r hold.left
    · exact hname
  accepted := by
    intro r hr
    rcases (mem_touch _).mp hr with hold | rfl
    · exact h.accepted r hold.left
    · exact hreg

theorem WellFormed.insert {cache : RMap} (h : cache.WellFormed) {name : String}
    {l : RVector} (hl : Filed name l) : WellFormed (cache.insert name l) := by
  intro a m hm
  rw [getElem?_insert_ite] at hm
  by_cases ha : name = a
  · rw [if_pos ha] at hm
    cases hm
    exact ha ▸ hl
  · rw [if_neg ha] at hm
    exact h a m hm

theorem WellFormed.erase {cache : RMap} (h : cache.WellFormed) (name : String) :
    WellFormed (cache.erase name) := by
  intro a m hm
  rw [getElem?_erase_ite] at hm
  by_cases ha : name = a
  · rw [if_pos ha] at hm
    cases hm
  · rw [if_neg ha] at hm
    exact h a m hm

theorem wellFormed_empty : WellFormed (∅ : RMap) := by
  intro name l hl
  simp at hl

theorem add_of_accepts {cache : RMap} (h : cache.WellFormed) {reg : Registry}
    (hreg : accepts reg = true) :
    cache.add reg =
      cache.insert reg.name
        (touch Registry.endpoint (cache[reg.name]?.getD []) reg) := by
  have hcond : (reg.name == "" || reg.host == "" || reg.ephemeral == "") = false := by
    simpa [accepts] using hreg
  unfold add
  rw [hcond]
  cases hl : cache[reg.name]? with
  | none => simp [KeyedList.touch, drop]
  | some l =>
      have heq := (h reg.name l hl).eraseP_equals reg
      simp [heq, KeyedList.touch]

theorem add_of_not_accepts {cache : RMap} {reg : Registry}
    (hreg : accepts reg = false) : cache.add reg = cache := by
  have hcond : (reg.name == "" || reg.host == "" || reg.ephemeral == "") = true := by
    apply Bool.of_not_eq_false
    intro h
    simp [accepts, h] at hreg
  unfold add
  rw [hcond]
  simp

theorem WellFormed.filedAt {cache : RMap} (h : cache.WellFormed) (name : String) :
    Filed name (cache[name]?.getD []) := by
  cases hl : cache[name]? with
  | none => exact Filed.nil name
  | some l => exact h name l hl

theorem WellFormed.add {cache : RMap} (h : cache.WellFormed) (reg : Registry) :
    WellFormed (cache.add reg) := by
  by_cases hreg : accepts reg = true
  · rw [add_of_accepts h hreg]
    exact h.insert ((h.filedAt reg.name).touch rfl hreg)
  · rw [add_of_not_accepts (by simpa using hreg)]
    exact h

theorem WellFormed.removeEphemeral {cache : RMap} (h : cache.WellFormed)
    (name ephemeral : String) : WellFormed (cache.removeEphemeral name ephemeral) := by
  unfold RMap.removeEphemeral
  split
  · exact h
  · split
    · exact h
    · rename_i l hl
      exact h.insert ((h name l hl).sublist List.eraseP_sublist)

theorem WellFormed.removeRegistry {cache : RMap} (h : cache.WellFormed)
    (reg : Registry) : WellFormed (cache.removeRegistry reg) := by
  unfold RMap.removeRegistry
  split
  · exact h
  · rename_i l hl
    dsimp only
    split
    · exact h.erase reg.name
    · exact h.insert ((h reg.name l hl).sublist List.eraseP_sublist)

theorem WellFormed.foldl {α : Type} {f : RMap -> α -> RMap}
    (hf : forall cache a, WellFormed cache -> WellFormed (f cache a))
    (l : List α) {cache : RMap} (h : cache.WellFormed) :
    WellFormed (l.foldl f cache) := by
  induction l generalizing cache with
  | nil => exact h
  | cons a rest ih => exact ih (hf cache a h)

theorem WellFormed.removeOverdue {cache : RMap} (h : cache.WellFormed)
    (timestamp : Nat) : WellFormed (cache.removeOverdue timestamp) :=
  WellFormed.foldl (fun _ reg hc => hc.removeRegistry reg) _ h

/-!
## Keys without an endpoint
-/

/-- Every key has an endpoint. -/
def Populated (cache : RMap) : Prop :=
  forall (name : String) (l : RVector), cache[name]? = some l -> l ≠ []

theorem populated_empty : Populated (∅ : RMap) := by
  intro name l hl
  simp at hl

theorem Populated.insert {cache : RMap} (h : cache.Populated) {name : String} {l : RVector}
    (hl : l ≠ []) : Populated (cache.insert name l) := by
  intro a m hm
  rw [getElem?_insert_ite] at hm
  by_cases ha : name = a
  · rw [if_pos ha] at hm
    cases hm
    exact hl
  · rw [if_neg ha] at hm
    exact h a m hm

theorem Populated.erase {cache : RMap} (h : cache.Populated) (name : String) :
    Populated (cache.erase name) := by
  intro a m hm
  rw [getElem?_erase_ite] at hm
  by_cases ha : name = a
  · rw [if_pos ha] at hm
    cases hm
  · rw [if_neg ha] at hm
    exact h a m hm

theorem Populated.add {cache : RMap} (h : cache.Populated) (reg : Registry) :
    Populated (cache.add reg) := by
  unfold RMap.add
  split
  · exact h
  · split
    · exact h.insert (by simp)
    · exact h.insert (by simp)

theorem Populated.removeRegistry {cache : RMap} (h : cache.Populated) (reg : Registry) :
    Populated (cache.removeRegistry reg) := by
  unfold RMap.removeRegistry
  split
  · exact h
  · dsimp only
    split
    · exact h.erase reg.name
    · rename_i hlen
      exact h.insert fun hnil => hlen (List.length_eq_zero_iff.mpr hnil)

theorem Populated.foldl {α : Type} {f : RMap -> α -> RMap}
    (hf : forall cache a, Populated cache -> Populated (f cache a))
    (l : List α) {cache : RMap} (h : cache.Populated) : Populated (l.foldl f cache) := by
  induction l generalizing cache with
  | nil => exact h
  | cons a rest ih => exact ih (hf cache a h)

theorem Populated.removeOverdue {cache : RMap} (h : cache.Populated) (timestamp : Nat) :
    Populated (cache.removeOverdue timestamp) :=
  Populated.foldl (fun _ reg hc => hc.removeRegistry reg) _ h

end RMap

/-- A map that the operations of the proxy can build. -/
structure RegistryCache where
  cache : RMap
  wellFormed : cache.WellFormed

namespace RegistryCache

theorem ext_cache {c d : RegistryCache} (h : c.cache = d.cache) : c = d := by
  cases c
  cases d
  cases h
  rfl

def empty : RegistryCache where
  cache := ∅
  wellFormed := RMap.wellFormed_empty

def add (c : RegistryCache) (reg : Registry) : RegistryCache where
  cache := c.cache.add reg
  wellFormed := c.wellFormed.add reg

def removeEphemeral (c : RegistryCache) (name ephemeral : String) : RegistryCache where
  cache := c.cache.removeEphemeral name ephemeral
  wellFormed := c.wellFormed.removeEphemeral name ephemeral

def removeRegistry (c : RegistryCache) (reg : Registry) : RegistryCache where
  cache := c.cache.removeRegistry reg
  wellFormed := c.wellFormed.removeRegistry reg

def removeOverdue (c : RegistryCache) (timestamp : Nat) : RegistryCache where
  cache := c.cache.removeOverdue timestamp
  wellFormed := c.wellFormed.removeOverdue timestamp

def removeName (c : RegistryCache) (name : String) : RegistryCache where
  cache := c.cache.removeName name
  wellFormed := c.wellFormed.erase name

def clear (c : RegistryCache) : RegistryCache where
  cache := c.cache.clear
  wellFormed := RMap.wellFormed_empty

def get (c : RegistryCache) (name : String) : Option RVector :=
  c.cache.get name

def exists_ (c : RegistryCache) (name : String) : Bool :=
  c.cache.exists_ name

def size (c : RegistryCache) : Nat :=
  c.cache.size

def load (c : RegistryCache) (v : RVector) : RegistryCache :=
  v.foldl add c

def fromFile (parse : String -> Option Json) (now : Nat -> Nat) (content : Option String)
    (c : RegistryCache) : Except Stop RegistryCache :=
  match content with
  | none => .ok c
  | some text => do
      let v <- Registry.unserialize parse (now 0) text
      return c.load (RMap.fileEntries now v)

theorem load_cache (c : RegistryCache) (v : RVector) :
    (c.load v).cache = v.foldl RMap.add c.cache := by
  unfold load
  induction v generalizing c with
  | nil => rfl
  | cons r rest ih => exact ih (c.add r)

theorem fromFile_cache (parse : String -> Option Json) (now : Nat -> Nat)
    (content : Option String) (c : RegistryCache) :
    (fromFile parse now content c).map (·.cache) =
      RMap.fromFile parse now content c.cache := by
  cases content with
  | none => rfl
  | some text =>
      simp only [fromFile, RMap.fromFile]
      cases Registry.unserialize parse (now 0) text with
      | error e => rfl
      | ok v => exact congrArg Except.ok (load_cache c _)

theorem ephemeral_of_mem_fileEntries {now : Nat -> Nat} {v : RVector} {r : Registry}
    (h : r ∈ RMap.fileEntries now v) : r.ephemeral = RMap.fromFileMarker := by
  induction v generalizing now with
  | nil => cases h
  | cons s rest ih =>
      cases h with
      | head => rfl
      | tail _ hrest => exact ih hrest

/-!
## The list of a service

`list name` is the list that `get` points to, and the empty list where there is
none.  Each operation is described by what it does to these lists.
-/

def list (c : RegistryCache) (name : String) : RVector :=
  c.cache[name]?.getD []

theorem filed (c : RegistryCache) (name : String) : RMap.Filed name (c.list name) :=
  c.wellFormed.filedAt name

theorem list_of_get {c : RegistryCache} {name : String} {l : RVector}
    (h : c.get name = some l) : c.list name = l := by
  have hl : c.cache[name]? = some l := h
  simp [list, hl]

@[simp] theorem list_empty (name : String) : empty.list name = [] := by
  simp [list, empty]

theorem list_add (c : RegistryCache) (reg : Registry) (name : String) :
    (c.add reg).list name =
      if RMap.accepts reg = true ∧ reg.name = name then
        touch Registry.endpoint (c.list name) reg
      else c.list name := by
  by_cases hreg : RMap.accepts reg = true
  · have hadd : (c.add reg).cache =
        c.cache.insert reg.name (touch Registry.endpoint (c.list reg.name) reg) :=
      RMap.add_of_accepts c.wellFormed hreg
    unfold list at hadd ⊢
    rw [hadd, RMap.getElem?_insert_ite]
    by_cases hname : reg.name = name
    · simp [hreg, hname]
    · simp [hname]
  · have hadd : (c.add reg).cache = c.cache :=
      RMap.add_of_not_accepts (by simpa using hreg)
    simp [list, hadd, hreg]

theorem add_eq_self_iff {c : RegistryCache} {reg : Registry} (hreg : RMap.accepts reg = true) :
    c.add reg = c <-> (c.list reg.name).getLast? = some reg := by
  rw [<- touch_eq_self_iff Registry.endpoint (c.filed reg.name).distinct]
  constructor
  · intro heq
    have hlist := list_add c reg reg.name
    rw [heq, if_pos ⟨hreg, rfl⟩] at hlist
    exact hlist.symm
  · intro heq
    apply ext_cache
    have hadd : (c.add reg).cache =
        c.cache.insert reg.name (touch Registry.endpoint (c.list reg.name) reg) :=
      RMap.add_of_accepts c.wellFormed hreg
    have hpresent : c.cache[reg.name]? = some (c.list reg.name) := by
      unfold list at heq ⊢
      cases hl : c.cache[reg.name]? with
      | none =>
          rw [hl] at heq
          simp [touch] at heq
      | some l => rfl
    rw [hadd, heq]
    apply Std.ExtTreeMap.ext_getElem?
    intro name
    rw [RMap.getElem?_insert_ite]
    by_cases hname : reg.name = name
    · rw [if_pos hname, <- hname, hpresent]
    · rw [if_neg hname]

theorem list_removeName (c : RegistryCache) (name a : String) :
    (c.removeName name).list a = if name = a then [] else c.list a := by
  unfold list removeName RMap.removeName
  rw [RMap.getElem?_erase_ite]
  by_cases ha : name = a
  · simp [ha]
  · simp [ha]

theorem list_removeRegistry (c : RegistryCache) (reg : Registry) (name : String) :
    (c.removeRegistry reg).list name =
      drop Registry.endpoint (c.list name) reg.endpoint := by
  have hother : reg.name ≠ name ->
      drop Registry.endpoint (c.list name) reg.endpoint = c.list name := by
    intro hne
    apply drop_eq_self
    intro r hr heq
    apply hne
    rw [<- (c.filed name).named r hr]
    exact (congrArg Endpoint.name heq).symm
  unfold removeRegistry
  unfold list at hother ⊢
  unfold RMap.removeRegistry
  dsimp only
  cases hl : c.cache[reg.name]? with
  | none =>
      by_cases hname : reg.name = name
      · simp [<- hname, hl, drop]
      · exact (hother hname).symm
  | some l =>
      have heq := (c.wellFormed reg.name l hl).eraseP_equals reg
      dsimp only
      rw [heq]
      by_cases hname : reg.name = name
      · subst hname
        by_cases hlen : (drop Registry.endpoint l reg.endpoint).length = 0
        · rw [if_pos hlen, RMap.getElem?_erase_ite]
          simpa [hl] using (List.length_eq_zero_iff.mp hlen)
        · rw [if_neg hlen, RMap.getElem?_insert_ite]
          simp [hl]
      · rw [hother hname]
        by_cases hlen : (drop Registry.endpoint l reg.endpoint).length = 0
        · rw [if_pos hlen, RMap.getElem?_erase_ite, if_neg hname]
        · rw [if_neg hlen, RMap.getElem?_insert_ite, if_neg hname]

theorem list_removeEphemeral (c : RegistryCache) (name ephemeral a : String) :
    (c.removeEphemeral name ephemeral).list a =
      if name = a then (c.list a).eraseP (fun r => r.ephemeral == ephemeral)
      else c.list a := by
  have hlist : (c.removeEphemeral name ephemeral).list a =
      ((c.cache.removeEphemeral name ephemeral)[a]?).getD [] := rfl
  rw [hlist]
  unfold RMap.removeEphemeral
  by_cases hcond : (name == "" || ephemeral == "") = true
  · have hnone : forall r, r ∈ c.list name -> ¬ (r.ephemeral == ephemeral) = true := by
      intro r hr heph
      have hfiled := c.filed name
      have hacc := hfiled.accepted r hr
      have hname := hfiled.named r hr
      simp only [beq_iff_eq] at heph
      simp only [RMap.accepts, hname, heph] at hacc
      simp only [Bool.or_eq_true] at hcond
      rcases hcond with h | h <;> simp [h] at hacc
    rw [if_pos hcond]
    by_cases ha : name = a
    · rw [if_pos ha, <- ha, List.eraseP_of_forall_not hnone]
      rfl
    · rw [if_neg ha]
      rfl
  · rw [if_neg hcond]
    unfold list
    cases hl : c.cache[name]? with
    | none =>
        by_cases ha : name = a
        · simp [<- ha, hl]
        · simp [ha]
    | some l =>
        by_cases ha : name = a
        · simp [<- ha, hl]
        · simp [ha, RMap.getElem?_insert_ite]

@[simp] theorem list_clear (c : RegistryCache) (name : String) :
    c.clear.list name = [] := by
  simp [list, clear, RMap.clear]

/-!
## The purge

`remove_overdue` deletes copies of the overdue entries one by one, by endpoint.
As no list holds an endpoint twice, this keeps exactly the entries that are not
overdue.
-/

theorem mem_overdue {c : RegistryCache} {timestamp : Nat} {r : Registry} :
    r ∈ c.cache.overdue timestamp <-> r ∈ c.list r.name ∧ r.mtime < timestamp := by
  unfold RMap.overdue list
  simp only [List.mem_flatMap, List.mem_filter, decide_eq_true_eq, Prod.exists,
    Std.ExtTreeMap.mem_toList_iff_getElem?_eq_some]
  constructor
  · intro h
    rcases h with ⟨name, l, hl, hr, hm⟩
    have hname : r.name = name := (c.wellFormed name l hl).named r hr
    rw [hname, hl]
    exact ⟨hr, hm⟩
  · intro h
    rcases h with ⟨hr, hm⟩
    cases hl : c.cache[r.name]? with
    | none => simp [hl] at hr
    | some l =>
        rw [hl] at hr
        exact ⟨r.name, l, hl, hr, hm⟩

theorem list_foldl_removeRegistry (v : RVector) (c : RegistryCache) (name : String) :
    (v.foldl removeRegistry c).list name =
      (c.list name).filter fun r => decide (r.endpoint ∉ v.map Registry.endpoint) := by
  induction v generalizing c with
  | nil => simp
  | cons reg rest ih =>
      rw [List.foldl_cons, ih, list_removeRegistry]
      simp [drop, List.filter_filter, Bool.and_comm]

theorem foldl_removeRegistry_cache (v : RVector) (c : RegistryCache) :
    (v.foldl removeRegistry c).cache = v.foldl RMap.removeRegistry c.cache := by
  induction v generalizing c with
  | nil => rfl
  | cons reg rest ih => exact ih (c.removeRegistry reg)

theorem removeOverdue_eq_foldl (c : RegistryCache) (timestamp : Nat) :
    c.removeOverdue timestamp = (c.cache.overdue timestamp).foldl removeRegistry c :=
  ext_cache (foldl_removeRegistry_cache _ c).symm

theorem list_removeOverdue (c : RegistryCache) (timestamp : Nat) (name : String) :
    (c.removeOverdue timestamp).list name =
      (c.list name).filter fun r => decide (timestamp ≤ r.mtime) := by
  rw [removeOverdue_eq_foldl, list_foldl_removeRegistry]
  apply List.filter_congr
  intro r hr
  have hfiled := c.filed name
  have hname : r.name = name := hfiled.named r hr
  have hiff : r.endpoint ∈ (c.cache.overdue timestamp).map Registry.endpoint <->
      r.mtime < timestamp := by
    constructor
    · intro h
      rcases List.mem_map.mp h with ⟨s, hs, heq⟩
      rcases mem_overdue.mp hs with ⟨hsl, hsm⟩
      have hsname : s.name = name := by
        rw [<- hname]
        exact congrArg Endpoint.name heq
      rw [hsname] at hsl
      have hsr : s = r := distinct_inj _ hfiled.distinct hsl hr heq
      rw [<- hsr]
      exact hsm
    · intro h
      exact List.mem_map.mpr ⟨r, mem_overdue.mpr ⟨hname.symm ▸ hr, h⟩, rfl⟩
  by_cases hm : timestamp ≤ r.mtime
  · have hnot : ¬ r.mtime < timestamp := Nat.not_lt.mpr hm
    have : r.endpoint ∉ (c.cache.overdue timestamp).map Registry.endpoint :=
      fun h => hnot (hiff.mp h)
    simp only [this, hm, not_false_eq_true]
  · have : r.endpoint ∈ (c.cache.overdue timestamp).map Registry.endpoint :=
      hiff.mpr (Nat.lt_of_not_le hm)
    simp only [this, hm, not_true_eq_false]

/-!
## Endpoints
-/

/-- The cache holds an entry for the endpoint. -/
def Caches (c : RegistryCache) (p : Endpoint) : Prop :=
  exists r, r ∈ c.list p.name ∧ r.endpoint = p

instance (c : RegistryCache) (p : Endpoint) : Decidable (c.Caches p) :=
  inferInstanceAs (Decidable (exists r, r ∈ c.list p.name ∧ r.endpoint = p))

end RegistryCache

end FrProxy
