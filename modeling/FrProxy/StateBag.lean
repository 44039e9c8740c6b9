import Std.Data.ExtTreeMap

/-!
# The bag of watch states

What a client asked ZooKeeper to watch (or created) is recorded as a state
that names the client, so that another client can ask again when the first one
loses its session.  All clients of a pool share one bag.
-/

namespace FrProxy

/-- The number of a client, counted from one; a state with number zero has no client. -/
abbrev ClientId : Type :=
  Nat

inductive ZkStateType where
  | createEphereral
  | getService
  | getServiceInstance
  | getRoot
deriving DecidableEq, Repr

def ZkStateType.code : ZkStateType -> Char
  | createEphereral => '0'
  | getService => '1'
  | getServiceInstance => '2'
  | getRoot => '3'

structure ZkState where
  clientId : ClientId := 0
  type : ZkStateType
  path : String
  data : String := ""
deriving DecidableEq, Repr

/-- The key of a state: the number of its type, followed by its path. -/
def createKey (path : String) (type : ZkStateType) : String :=
  String.ofList (type.code :: path.toList)

def ZkState.key (s : ZkState) : String :=
  createKey s.path s.type

theorem createKey_inj {path path' : String} {type type' : ZkStateType}
    (h : createKey path type = createKey path' type') : path = path' ∧ type = type' := by
  have hlist : type.code :: path.toList = type'.code :: path'.toList :=
    String.ofList_injective h
  rcases List.cons.inj hlist with ⟨hcode, hpath⟩
  constructor
  · exact String.toList_injective hpath
  · revert hcode
    cases type <;> cases type' <;> decide

theorem createKey_ne {path path' : String} {type type' : ZkStateType} (h : type ≠ type') :
    createKey path type ≠ createKey path' type' :=
  fun heq => h (createKey_inj heq).right

theorem createKey_lt {path path' : String} {type type' : ZkStateType}
    (h : compare (createKey path type) (createKey path' type') = .lt) :
    type.code ≤ type'.code := by
  have hlt : createKey path type < createKey path' type' := compareOfLessAndEq_eq_lt.mp h
  rw [String.lt_iff, createKey, createKey, String.toList_ofList, String.toList_ofList,
    List.cons_lt_cons_iff] at hlt
  rcases hlt with hlt | heq
  · exact Nat.le_of_lt hlt
  · exact heq.left ▸ Char.le_refl _

theorem createKey_append_not_lt (path rest : String) (type : ZkStateType) :
    ¬ compare (createKey (path ++ rest) type) (createKey path type) = .lt := by
  intro h
  have hlt : createKey (path ++ rest) type < createKey path type := compareOfLessAndEq_eq_lt.mp h
  rw [String.lt_iff, createKey, createKey, String.toList_ofList, String.toList_ofList,
    String.toList_append, <- List.cons_append] at hlt
  exact List.not_lt.mpr (List.prefix_append _ _).le hlt

theorem createKey_below_ne (path node : String) (type : ZkStateType) :
    createKey path type ≠ createKey (path ++ "/" ++ node) type := by
  intro heq
  have hlength := congrArg String.length (createKey_inj heq).left
  have hslash : "/".length = 1 := rfl
  rw [String.length_append, String.length_append, hslash] at hlength
  omega

/-- A state object: where it was allocated, and its fields. -/
structure StateSlot where
  addr : Nat
  state : ZkState
deriving DecidableEq, Repr

/-- A pointer to a state object, as the lists of states hold it. -/
structure StatePtr where
  key : String
  addr : Nat
deriving DecidableEq, Repr

abbrev StateMap : Type :=
  Std.ExtTreeMap String StateSlot compare

/-- Every state is filed under its own key, at an address that was handed out. -/
def StateMap.WellFormed (map : StateMap) (next : Nat) : Prop :=
  forall (key : String) (slot : StateSlot), map[key]? = some slot ->
    slot.state.key = key ∧ slot.addr < next

structure StateBag where
  map_ : StateMap
  /-- The address of the next state object. -/
  next : Nat
  wellFormed : map_.WellFormed next

namespace StateBag

theorem wellFormed_empty : StateMap.WellFormed ∅ 0 := by
  intro key slot h
  simp at h

theorem wellFormed_insert {map : StateMap} {next next' : Nat}
    (h : map.WellFormed next) {slot : StateSlot} {key : String}
    (hkey : slot.state.key = key) (haddr : slot.addr < next') (hnext : next ≤ next') :
    StateMap.WellFormed (map.insert key slot) next' := by
  intro k t ht
  rw [Std.ExtTreeMap.getElem?_insert] at ht
  split at ht
  · rename_i heq
    have hk : key = k := by simpa using heq
    cases ht
    exact ⟨hkey.trans hk, haddr⟩
  · rcases h k t ht with ⟨hk, ha⟩
    exact ⟨hk, Nat.lt_of_lt_of_le ha hnext⟩

theorem wellFormed_map {map : StateMap} {next : Nat} (h : map.WellFormed next)
    (f : String -> StateSlot -> StateSlot)
    (hf : forall key slot, (f key slot).addr = slot.addr ∧
      (f key slot).state.key = slot.state.key) :
    StateMap.WellFormed (map.map f) next := by
  intro key slot hslot
  rw [Std.ExtTreeMap.getElem?_map] at hslot
  rcases Option.map_eq_some_iff.mp hslot with ⟨t, ht, rfl⟩
  rcases h key t ht with ⟨hk, ha⟩
  exact ⟨(hf key t).right.trans hk, (hf key t).left.symm ▸ ha⟩

def empty : StateBag where
  map_ := ∅
  next := 0
  wellFormed := wellFormed_empty

def size (bag : StateBag) : Nat :=
  bag.map_.size

/-- A new state is filed; of a known one only the client is updated. -/
def add (bag : StateBag) (state : ZkState) : StateBag :=
  match h : bag.map_[state.key]? with
  | none => {
      map_ := bag.map_.insert state.key { addr := bag.next, state }
      next := bag.next + 1
      wellFormed :=
        wellFormed_insert bag.wellFormed rfl (Nat.lt_succ_self _) (Nat.le_succ _) }
  | some slot => {
      map_ := bag.map_.insert state.key
        { slot with state := { slot.state with clientId := state.clientId } }
      next := bag.next + 1
      wellFormed :=
        have hslot := bag.wellFormed _ _ h
        wellFormed_insert bag.wellFormed hslot.left
          (Nat.lt_succ_of_lt hslot.right) (Nat.le_succ _) }

def remove (bag : StateBag) (key : String) : StateBag where
  map_ := bag.map_.erase key
  next := bag.next
  wellFormed := by
    intro k slot hslot
    rw [Std.ExtTreeMap.getElem?_erase] at hslot
    split at hslot
    · cases hslot
    · exact bag.wellFormed k slot hslot

/-- `get(key)`, as the state that the pointer leads to. -/
def get (bag : StateBag) (key : String) : Option ZkState :=
  bag.map_[key]?.map (·.state)

def giveTo (bag : StateBag) (p : ZkState -> Bool) (replaceTo : ClientId) : StateBag where
  map_ := bag.map_.map fun _ slot =>
    if p slot.state then { slot with state := { slot.state with clientId := replaceTo } }
    else slot
  next := bag.next
  wellFormed := by
    apply wellFormed_map bag.wellFormed
    intro key slot
    split
    · exact ⟨rfl, rfl⟩
    · exact ⟨rfl, rfl⟩

/-- `replace_client_id(key, replace_to)`. -/
def replaceClientIdOf (bag : StateBag) (key : String) (replaceTo : ClientId) : StateBag :=
  bag.giveTo (fun s => s.key == key) replaceTo

/-- `replace_client_id(client_id, replace_to)`. -/
def replaceClientId (bag : StateBag) (clientId replaceTo : ClientId) : StateBag :=
  bag.giveTo (fun s => s.clientId == clientId) replaceTo

def resetClientId (bag : StateBag) : StateBag :=
  bag.giveTo (fun _ => true) 0

/-- `get(client_id)`: pointers to the states of a client, in the order of their keys. -/
def getList (bag : StateBag) (clientId : ClientId) : List StatePtr :=
  (bag.map_.toList.filter fun entry => entry.2.state.clientId == clientId).map
    fun entry => { key := entry.1, addr := entry.2.addr }

/-- The state that a pointer leads to; `none` when it has been deleted. -/
def deref (bag : StateBag) (ptr : StatePtr) : Option ZkState :=
  match bag.map_[ptr.key]? with
  | none => none
  | some slot => if slot.addr = ptr.addr then some slot.state else none

/--
What a client does to the bag: it saves the state of a call, removes a state whose
znode is gone, takes states over and sets them free.  `saves` are the types and
paths of the states that it saves.
-/
inductive Changed (c : ClientId) (saves : ZkStateType -> String -> Prop) (bag : StateBag) :
    StateBag -> Prop where
  | same : Changed c saves bag bag
  | save (state : ZkState) (hclient : state.clientId = c) (hsaves : saves state.type state.path) :
      Changed c saves bag (bag.add state)
  | remove (key : String) : Changed c saves bag (bag.remove key)
  | give (p : ZkState -> Bool) (d : ClientId) (hclient : d = c ∨ d = 0) :
      Changed c saves bag (bag.giveTo p d)

def Joins (type : ZkStateType) (path : String) : Prop :=
  type = .getServiceInstance -> exists service node, path = service ++ "/" ++ node

inductive Built : StateBag -> Prop where
  | empty : Built StateBag.empty
  | change {c : ClientId} {bag bag' : StateBag} (h : Built bag) (hchange : Changed c Joins bag bag') :
      Built bag'

/-!
## What the operations do to the states
-/

theorem key_of_get {bag : StateBag} {key : String} {s : ZkState}
    (h : bag.get key = some s) : s.key = key := by
  rcases Option.map_eq_some_iff.mp h with ⟨slot, hslot, rfl⟩
  exact (bag.wellFormed key slot hslot).left

theorem get_eq_some {bag : StateBag} {key : String} {state : ZkState} :
    bag.get key = some state <-> exists addr, bag.map_[key]? = some { addr, state } := by
  unfold get
  rw [Option.map_eq_some_iff]
  constructor
  · intro h
    rcases h with ⟨slot, hslot, rfl⟩
    exact ⟨slot.addr, hslot⟩
  · intro h
    rcases h with ⟨addr, hslot⟩
    exact ⟨_, hslot, rfl⟩

@[simp] theorem get_empty (key : String) : empty.get key = none := by
  simp [get, empty]

theorem get_add (bag : StateBag) (state : ZkState) (key : String) :
    (bag.add state).get key =
      if state.key = key then
        match bag.get key with
        | none => some state
        | some s => some { s with clientId := state.clientId }
      else bag.get key := by
  unfold add
  split
  · rename_i h
    unfold get
    dsimp only
    rw [Std.ExtTreeMap.getElem?_insert]
    by_cases hkey : state.key = key
    · subst hkey
      simp [h]
    · simp [hkey]
  · rename_i slot h
    unfold get
    dsimp only
    rw [Std.ExtTreeMap.getElem?_insert]
    by_cases hkey : state.key = key
    · subst hkey
      simp [h]
    · simp [hkey]

theorem get_remove (bag : StateBag) (k key : String) :
    (bag.remove k).get key = if k = key then none else bag.get key := by
  unfold get remove
  dsimp only
  rw [Std.ExtTreeMap.getElem?_erase]
  by_cases hkey : k = key
  · simp [hkey]
  · simp [hkey]

theorem get_giveTo (bag : StateBag) (p : ZkState -> Bool) (replaceTo : ClientId)
    (key : String) :
    (bag.giveTo p replaceTo).get key =
      (bag.get key).map fun s =>
        if p s then { s with clientId := replaceTo } else s := by
  unfold get giveTo
  dsimp only
  rw [Std.ExtTreeMap.getElem?_map]
  cases bag.map_[key]? with
  | none => rfl
  | some slot =>
      simp only [Option.map_some, Option.some.injEq]
      split <;> rfl

theorem get_replaceClientIdOf (bag : StateBag) (k : String) (replaceTo : ClientId)
    (key : String) :
    (bag.replaceClientIdOf k replaceTo).get key =
      if k = key then (bag.get key).map fun s => { s with clientId := replaceTo }
      else bag.get key := by
  unfold replaceClientIdOf
  rw [get_giveTo]
  cases hs : bag.get key with
  | none => simp
  | some s =>
      have hkey := key_of_get hs
      by_cases hk : k = key
      · simp [hkey, hk]
      · have hne : ¬ key = k := fun h => hk h.symm
        simp [hkey, hk, hne]

theorem Changed.get_some {c : ClientId} {saves : ZkStateType -> String -> Prop}
    {bag bag' : StateBag} (h : bag.Changed c saves bag') {key : String} {s : ZkState}
    (hget : bag'.get key = some s) :
    (exists old, bag.get key = some old ∧ s.type = old.type ∧ s.path = old.path ∧
      (s.clientId = old.clientId ∨ s.clientId = c ∨ s.clientId = 0)) ∨
    (saves s.type s.path ∧ s.clientId = c) := by
  cases h with
  | same => exact Or.inl ⟨s, hget, rfl, rfl, Or.inl rfl⟩
  | save state hclient hsaves =>
      rw [get_add] at hget
      by_cases hkey : state.key = key
      · rw [if_pos hkey] at hget
        cases hold : bag.get key with
        | none =>
            rw [hold] at hget
            cases hget
            exact Or.inr ⟨hsaves, hclient⟩
        | some old =>
            rw [hold] at hget
            cases hget
            exact Or.inl ⟨old, rfl, rfl, rfl, Or.inr (Or.inl hclient)⟩
      · rw [if_neg hkey] at hget
        exact Or.inl ⟨s, hget, rfl, rfl, Or.inl rfl⟩
  | remove k =>
      rw [get_remove] at hget
      by_cases hkey : k = key
      · rw [if_pos hkey] at hget
        cases hget
      · rw [if_neg hkey] at hget
        exact Or.inl ⟨s, hget, rfl, rfl, Or.inl rfl⟩
  | give p d hclient =>
      rw [get_giveTo] at hget
      rcases Option.map_eq_some_iff.mp hget with ⟨old, hold, rfl⟩
      refine Or.inl ⟨old, hold, ?_⟩
      by_cases hp : p old = true
      · rw [if_pos hp]
        exact ⟨rfl, rfl, Or.inr hclient⟩
      · rw [if_neg hp]
        exact ⟨rfl, rfl, Or.inl rfl⟩

theorem Built.joins {bag : StateBag} (h : bag.Built) {key : String} {s : ZkState}
    (hget : bag.get key = some s) : Joins s.type s.path := by
  induction h generalizing s with
  | empty => cases hget
  | change _ hchange ih =>
      rcases hchange.get_some hget with ⟨old, hold, htype, hpath, _⟩ | ⟨hsaves, _⟩
      · rw [htype, hpath]
        exact ih hold
      · exact hsaves

theorem deref_of_mem_getList {bag : StateBag} {clientId : ClientId} {ptr : StatePtr}
    (h : ptr ∈ bag.getList clientId) :
    exists s, bag.deref ptr = some s ∧ s.clientId = clientId := by
  unfold getList at h
  rcases List.mem_map.mp h with ⟨⟨key, slot⟩, hmem, rfl⟩
  rcases List.mem_filter.mp hmem with ⟨hlist, hid⟩
  have hslot : bag.map_[key]? = some slot :=
    Std.ExtTreeMap.mem_toList_iff_getElem?_eq_some.mp hlist
  refine ⟨slot.state, ?_, by simpa using hid⟩
  simp [deref, hslot]

theorem exists_mem_getList {bag : StateBag} {key : String} {s : ZkState} {clientId : ClientId}
    (hget : bag.get key = some s) (hclient : s.clientId = clientId) :
    exists ptr, ptr ∈ bag.getList clientId ∧ ptr.key = key := by
  rcases get_eq_some.mp hget with ⟨addr, hslot⟩
  have hmem : (key, { addr, state := s }) ∈ bag.map_.toList.filter
      fun entry => entry.2.state.clientId == clientId := by
    rw [List.mem_filter]
    exact ⟨Std.ExtTreeMap.mem_toList_iff_getElem?_eq_some.mpr hslot, by simpa using hclient⟩
  exact ⟨_, List.mem_map_of_mem hmem, rfl⟩

theorem getList_ordered (bag : StateBag) (clientId : ClientId) :
    (bag.getList clientId).Pairwise fun ptr other => compare ptr.key other.key = .lt := by
  have hkeys : (bag.map_.toList.filter fun entry => entry.2.state.clientId == clientId).Pairwise
      fun a b => compare a.1 b.1 = .lt :=
    Std.ExtTreeMap.ordered_keys_toList.sublist List.filter_sublist
  exact List.pairwise_map.mpr (hkeys.imp fun hlt => hlt)

theorem getList_pairwise (bag : StateBag) (clientId : ClientId) :
    (bag.getList clientId).Pairwise fun ptr other => ptr.key ≠ other.key := by
  apply (bag.getList_ordered clientId).imp
  intro ptr other hlt heq
  rw [heq] at hlt
  simp at hlt

theorem get_of_deref {bag : StateBag} {ptr : StatePtr} {s : ZkState}
    (h : bag.deref ptr = some s) : bag.get ptr.key = some s := by
  unfold deref at h
  unfold get
  cases hslot : bag.map_[ptr.key]? with
  | none => simp [hslot] at h
  | some slot =>
      simp only [hslot] at h
      split at h
      · simpa using h
      · cases h

/-!
## Where the states are
-/

def addrOf (bag : StateBag) (key : String) : Option Nat :=
  bag.map_[key]?.map (·.addr)

theorem isSome_deref {bag : StateBag} {ptr : StatePtr} :
    (bag.deref ptr).isSome = true <-> bag.addrOf ptr.key = some ptr.addr := by
  unfold deref addrOf
  cases bag.map_[ptr.key]? with
  | none => simp
  | some slot =>
      by_cases haddr : slot.addr = ptr.addr
      · simp [haddr]
      · simp [haddr]

theorem addrOf_add (bag : StateBag) (state : ZkState) (key : String) :
    (bag.add state).addrOf key =
      if state.key = key then some ((bag.addrOf key).getD bag.next) else bag.addrOf key := by
  unfold add
  split
  · rename_i hnone
    unfold addrOf
    dsimp only
    rw [Std.ExtTreeMap.getElem?_insert]
    by_cases hkey : state.key = key
    · subst hkey
      simp [hnone]
    · simp [hkey]
  · rename_i slot hslot
    unfold addrOf
    dsimp only
    rw [Std.ExtTreeMap.getElem?_insert]
    by_cases hkey : state.key = key
    · subst hkey
      simp [hslot]
    · simp [hkey]

theorem addrOf_remove (bag : StateBag) (k key : String) :
    (bag.remove k).addrOf key = if k = key then none else bag.addrOf key := by
  unfold addrOf remove
  dsimp only
  rw [Std.ExtTreeMap.getElem?_erase]
  by_cases hkey : k = key
  · simp [hkey]
  · simp [hkey]

theorem addrOf_giveTo (bag : StateBag) (p : ZkState -> Bool) (replaceTo : ClientId)
    (key : String) : (bag.giveTo p replaceTo).addrOf key = bag.addrOf key := by
  unfold addrOf giveTo
  dsimp only
  rw [Std.ExtTreeMap.getElem?_map, Option.map_map]
  congr 1
  funext slot
  dsimp only [Function.comp]
  split
  · rfl
  · rfl

theorem addrOf_lt {bag : StateBag} {key : String} {addr : Nat} (h : bag.addrOf key = some addr) :
    addr < bag.next := by
  rcases Option.map_eq_some_iff.mp h with ⟨slot, hslot, rfl⟩
  exact (bag.wellFormed key slot hslot).right

theorem isSome_deref_add {bag : StateBag} {ptr : StatePtr} (state : ZkState)
    (h : (bag.deref ptr).isSome = true) : ((bag.add state).deref ptr).isSome = true := by
  rw [isSome_deref] at h ⊢
  rw [addrOf_add, h]
  split
  · rfl
  · rfl

theorem isSome_deref_of_add {bag : StateBag} {ptr : StatePtr} {state : ZkState}
    (haddr : ptr.addr < bag.next) (h : ((bag.add state).deref ptr).isSome = true) :
    (bag.deref ptr).isSome = true := by
  rw [isSome_deref] at h ⊢
  rw [addrOf_add] at h
  split at h
  · cases hold : bag.addrOf ptr.key with
    | none =>
        rw [hold] at h
        have hnext : bag.next = ptr.addr := Option.some.inj h
        exact absurd haddr (hnext ▸ Nat.lt_irrefl _)
    | some addr =>
        rw [hold] at h
        exact h
  · exact h

@[simp] theorem isSome_deref_giveTo {bag : StateBag} {ptr : StatePtr} (p : ZkState -> Bool)
    (replaceTo : ClientId) :
    ((bag.giveTo p replaceTo).deref ptr).isSome = true <-> (bag.deref ptr).isSome = true := by
  rw [isSome_deref, isSome_deref, addrOf_giveTo]

@[simp] theorem isSome_deref_replaceClientIdOf {bag : StateBag} {ptr : StatePtr} (key : String)
    (replaceTo : ClientId) :
    ((bag.replaceClientIdOf key replaceTo).deref ptr).isSome = true <->
      (bag.deref ptr).isSome = true :=
  isSome_deref_giveTo _ replaceTo

theorem isSome_deref_remove {bag : StateBag} {ptr : StatePtr} {key : String} :
    ((bag.remove key).deref ptr).isSome = true <->
      key ≠ ptr.key ∧ (bag.deref ptr).isSome = true := by
  rw [isSome_deref, isSome_deref, addrOf_remove]
  by_cases hkey : key = ptr.key
  · simp [hkey]
  · simp [hkey]

theorem next_add (bag : StateBag) (state : ZkState) : (bag.add state).next = bag.next + 1 := by
  unfold add
  split
  · rfl
  · rfl

end StateBag

end FrProxy
