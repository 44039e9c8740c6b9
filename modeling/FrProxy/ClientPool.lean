import FrProxy.StateBag
import Mathlib.Algebra.Group.Int.Defs
import Mathlib.Algebra.Group.Nat.Defs
import Mathlib.Data.List.Sort

/-!
# The client pool

The three containers of the pool and the sections that it runs under its
mutex.  A client is known by its number.  A deleted client keeps its last
contents in `clients`, as freed memory does until it is used again.
-/

namespace FrProxy

/-- The fields of `ClientBase` that change, and whether `ZkClient` has a session handle. -/
structure ZkClient where
  lastUse_ : Nat := 0
  useTimes_ : Nat := 0
  usingCounter : Int := 0
  connected_ : Bool := false
  zhandle_ : Bool := false
deriving DecidableEq, Repr

structure ClientPool where
  /-- A set of pointers, in the order of the addresses. -/
  using_ : List ClientId
  /-- A set of pointers, in the order of the addresses. -/
  idle_ : List ClientId
  toDestrory_ : List ClientId
  maxClient_ : Int
  usedTimeout_ : Int
  lastId_ : ClientId
  stateBag_ : StateBag
  clients : ClientId -> ZkClient
  /-- The clients that were deleted, the last one first. -/
  deleted : List ClientId
  /-- Where the allocator places each client. -/
  addr : ClientId -> Nat

namespace ClientPool

def start (addr : ClientId -> Nat) : ClientPool where
  using_ := []
  idle_ := []
  toDestrory_ := []
  maxClient_ := 50
  usedTimeout_ := 1000000
  lastId_ := 0
  stateBag_ := StateBag.empty
  clients := fun _ => {}
  deleted := []
  addr

/-- `set::insert`. -/
def insertClient (addr : ClientId -> Nat) (c : ClientId) (l : List ClientId) :
    List ClientId :=
  if c ∈ l then l else l.orderedInsert (fun a b => addr a ≤ addr b) c

def updateClient (p : ClientPool) (c : ClientId) (f : ZkClient -> ZkClient) : ClientPool :=
  { p with clients := fun d => if d = c then f (p.clients d) else p.clients d }

def getConnected (p : ClientPool) (c : ClientId) : Bool :=
  (p.clients c).connected_

/-- When connected, the client has a session handle. -/
def Attached (p : ClientPool) (c : ClientId) : Prop :=
  p.getConnected c = true -> (p.clients c).zhandle_ = true

def setInUsing (p : ClientPool) (c : ClientId) (inUsing : Bool) : ClientPool :=
  p.updateClient c fun client =>
    if inUsing then
      { client with usingCounter := client.usingCounter + 1, useTimes_ := client.useTimes_ + 1 }
    else { client with usingCounter := client.usingCounter - 1 }

def setConnected (p : ClientPool) (c : ClientId) (connected : Bool) : ClientPool :=
  p.updateClient c fun client => { client with connected_ := connected }

def setHandle (p : ClientPool) (c : ClientId) (handle : Bool) : ClientPool :=
  p.updateClient c fun client => { client with zhandle_ := handle }

/-- The write of `last_use_` in `open`. -/
def stamp (p : ClientPool) (c : ClientId) (now : Nat) : ClientPool :=
  p.updateClient c fun client => { client with lastUse_ := now }

def size (p : ClientPool) : Int :=
  p.using_.length + p.idle_.length

/-- To the destroy list; another client may take over the states. -/
def moveToDestroyList (p : ClientPool) (c : ClientId) : ClientPool :=
  { p with
    toDestrory_ := p.toDestrory_ ++ [c]
    stateBag_ := p.stateBag_.replaceClientId c 0 }

/-!
## Opening
-/

/-- The first loop of `open`, over the idle clients that are left. -/
def reuse (p : ClientPool) : List ClientId -> ClientPool × Option ClientId
  | [] => ({ p with idle_ := [] }, none)
  | c :: rest =>
      if p.getConnected c then
        let p := p.setInUsing c true
        ({ p with idle_ := rest, using_ := insertClient p.addr c p.using_ }, some c)
      else
        reuse (moveToDestroyList { p with idle_ := rest } c) rest

def create (p : ClientPool) : ClientPool :=
  let c := p.lastId_ + 1
  let p := { p with lastId_ := c }
  let p := (p.updateClient c fun _ => {}).setInUsing c true
  { p with using_ := insertClient p.addr c p.using_ }

/-- The test of the eviction, in unsigned 64-bit arithmetic. -/
def timedOut (p : ClientPool) (now : Nat) (c : ClientId) : Bool :=
  decide (p.usedTimeout_ % 2 ^ 64 < ((now : Int) - (p.clients c).lastUse_) % 2 ^ 64)

def evict (p : ClientPool) (c : ClientId) : ClientPool :=
  let p := { p with using_ := p.using_.erase c }
  (p.setInUsing c false).moveToDestroyList c

/-- The loop `while(!done)`: each round evicts the first client that has timed out. -/
def evictLoop (now : Nat) : Nat -> ClientPool -> ClientPool
  | 0, p => p
  | rounds + 1, p =>
      match p.using_.find? (p.timedOut now) with
      | none => p
      | some c => evictLoop now rounds (p.evict c)

def openSection (p : ClientPool) (now : Nat) : ClientPool × Option ClientId :=
  let (p, c) := p.reuse p.idle_
  if c = none ∧ p.idle_.length = 0 ∧ p.size < p.maxClient_ then
    (p.create, some (p.lastId_ + 1))
  else if p.size = p.maxClient_ then
    (evictLoop now p.using_.length p, c)
  else (p, c)

/-!
## Closing, resetting, destroying
-/

def onClientClosing (p : ClientPool) (c : ClientId) : ClientPool :=
  let p := { p with using_ := p.using_.erase c }
  if p.getConnected c then { p with idle_ := insertClient p.addr c p.idle_ }
  else p.moveToDestroyList c

def resetSection (p : ClientPool) : ClientPool :=
  { p with
    toDestrory_ := p.toDestrory_ ++ p.using_ ++ p.idle_
    using_ := []
    idle_ := []
    stateBag_ := p.stateBag_.resetClientId }

def destroys (p : ClientPool) (force : Bool) (c : ClientId) : Bool :=
  force || decide ((p.clients c).usingCounter < 1)

def destroyClients (p : ClientPool) (force : Bool) : ClientPool :=
  { p with
    toDestrory_ := p.toDestrory_.filter fun c => !p.destroys force c
    deleted := (p.toDestrory_.filter (p.destroys force)).reverse ++ p.deleted }

def setMaxClient (p : ClientPool) (max : Int) : ClientPool :=
  if p.maxClient_ > 0 then { p with maxClient_ := max } else p

def setUsedTimeout (p : ClientPool) (timeoutInMs : Int) : ClientPool :=
  if timeoutInMs > 0 then { p with usedTimeout_ := timeoutInMs } else p

theorem openSection_cases (p : ClientPool) (now : Nat) :
    let q := (p.reuse p.idle_).1
    let c := (p.reuse p.idle_).2
    (c = none ∧ q.size < q.maxClient_ ∧
      p.openSection now = (q.create, some (q.lastId_ + 1))) ∨
    (q.size = q.maxClient_ ∧ p.openSection now = (evictLoop now q.using_.length q, c)) ∨
    (q.size ≠ q.maxClient_ ∧ p.openSection now = (q, c)) := by
  unfold openSection
  cases p.reuse p.idle_ with
  | mk q c =>
      dsimp only
      by_cases hcreate : c = none ∧ q.idle_.length = 0 ∧ q.size < q.maxClient_
      · rw [if_pos hcreate]
        exact Or.inl ⟨hcreate.left, hcreate.right.right, rfl⟩
      · rw [if_neg hcreate]
        by_cases hfull : q.size = q.maxClient_
        · rw [if_pos hfull]
          exact Or.inr (Or.inl ⟨hfull, rfl⟩)
        · rw [if_neg hfull]
          exact Or.inr (Or.inr ⟨hfull, rfl⟩)

theorem onClientClosing_cases (p : ClientPool) (c : ClientId) :
    (p.getConnected c = true ∧ p.onClientClosing c = {
      p with
      using_ := p.using_.erase c
      idle_ := insertClient p.addr c p.idle_ }) ∨
    (p.getConnected c = false ∧
      p.onClientClosing c = moveToDestroyList { p with using_ := p.using_.erase c } c) := by
  cases hconn : p.getConnected c with
  | true => exact Or.inl ⟨rfl, if_pos hconn⟩
  | false => exact Or.inr ⟨rfl, if_neg (Bool.eq_false_iff.mp hconn)⟩

theorem setMaxClient_eq (p : ClientPool) (max : Int) :
    exists limit, p.setMaxClient max = { p with maxClient_ := limit } := by
  unfold setMaxClient
  split
  · exact ⟨max, rfl⟩
  · exact ⟨p.maxClient_, rfl⟩

theorem setUsedTimeout_eq (p : ClientPool) (timeoutInMs : Int) :
    exists timeout, p.setUsedTimeout timeoutInMs = { p with usedTimeout_ := timeout } := by
  unfold setUsedTimeout
  split
  · exact ⟨timeoutInMs, rfl⟩
  · exact ⟨p.usedTimeout_, rfl⟩

theorem reuse_none {p : ClientPool} {l : List ClientId} (h : (p.reuse l).2 = none) :
    (p.reuse l).1.idle_ = [] ∧ (p.reuse l).1.using_ = p.using_ ∧
      (p.reuse l).1.maxClient_ = p.maxClient_ := by
  induction l generalizing p with
  | nil => exact ⟨rfl, rfl, rfl⟩
  | cons c rest ih =>
      unfold reuse at h ⊢
      by_cases hconn : p.getConnected c = true
      · rw [if_pos hconn] at h
        cases h
      · rw [if_neg hconn] at h ⊢
        exact ih h

theorem openSection_hands {p : ClientPool} (now : Nat)
    (hroom : (p.using_.length : Int) < p.maxClient_) :
    exists c, (p.openSection now).2 = some c := by
  unfold openSection
  cases hreuse : p.reuse p.idle_ with
  | mk q c =>
      dsimp only
      cases c with
      | none =>
          have hnone := reuse_none (p := p) (l := p.idle_) (by rw [hreuse])
          rw [hreuse] at hnone
          dsimp only at hnone
          rcases hnone with ⟨hidle, husing, hmax⟩
          have hcreate : q.idle_.length = 0 ∧ q.size < q.maxClient_ := by
            simp [size, hidle, husing, hmax, hroom]
          rw [if_pos ⟨rfl, hcreate⟩]
          exact ⟨_, rfl⟩
      | some c =>
          rw [if_neg (by simp)]
          split
          · exact ⟨c, rfl⟩
          · exact ⟨c, rfl⟩

/-!
## Sets of clients
-/

@[simp] theorem mem_insertClient {addr : ClientId -> Nat} {c d : ClientId}
    {l : List ClientId} : d ∈ insertClient addr c l <-> d = c ∨ d ∈ l := by
  unfold insertClient
  split
  · rename_i hc
    constructor
    · exact Or.inr
    · intro h
      rcases h with rfl | hd
      · exact hc
      · exact hd
  · exact List.mem_orderedInsert _

theorem nodup_insertClient {addr : ClientId -> Nat} {c : ClientId} {l : List ClientId}
    (h : l.Nodup) : (insertClient addr c l).Nodup := by
  unfold insertClient
  split
  · exact h
  · rename_i hc
    exact (List.perm_orderedInsert _ c l).nodup_iff.mpr (List.nodup_cons.mpr ⟨hc, h⟩)

theorem length_insertClient {addr : ClientId -> Nat} {c : ClientId} {l : List ClientId}
    (hc : c ∉ l) : (insertClient addr c l).length = l.length + 1 := by
  unfold insertClient
  rw [if_neg hc, List.orderedInsert_length]

/-!
## What the operations leave alone
-/

section Fields

variable (p : ClientPool) (c d : ClientId)

@[simp] theorem setInUsing_using_ (b : Bool) : (p.setInUsing c b).using_ = p.using_ := rfl
@[simp] theorem setInUsing_idle_ (b : Bool) : (p.setInUsing c b).idle_ = p.idle_ := rfl
@[simp] theorem setInUsing_toDestrory_ (b : Bool) :
    (p.setInUsing c b).toDestrory_ = p.toDestrory_ := rfl
@[simp] theorem setInUsing_deleted (b : Bool) : (p.setInUsing c b).deleted = p.deleted := rfl
@[simp] theorem setInUsing_addr (b : Bool) : (p.setInUsing c b).addr = p.addr := rfl

@[simp] theorem onClientClosing_clients : (p.onClientClosing c).clients = p.clients := by
  rcases p.onClientClosing_cases c with ⟨_, hclose⟩ | ⟨_, hclose⟩
  · rw [hclose]
  · rw [hclose]
    rfl

@[simp] theorem onClientClosing_deleted : (p.onClientClosing c).deleted = p.deleted := by
  rcases p.onClientClosing_cases c with ⟨_, hclose⟩ | ⟨_, hclose⟩
  · rw [hclose]
  · rw [hclose]
    rfl

@[simp] theorem getConnected_setInUsing (b : Bool) :
    (p.setInUsing c b).getConnected d = p.getConnected d := by
  by_cases hd : d = c
  · cases b <;> simp [getConnected, setInUsing, updateClient, hd]
  · simp [getConnected, setInUsing, updateClient, hd]

theorem attached_setInUsing (b : Bool) :
    (p.setInUsing c b).Attached d <-> p.Attached d := by
  unfold Attached
  rw [getConnected_setInUsing]
  by_cases hd : d = c
  · cases b <;> simp [setInUsing, updateClient, hd]
  · simp [setInUsing, updateClient, hd]

theorem lastUse_setInUsing (b : Bool) :
    ((p.setInUsing c b).clients d).lastUse_ = (p.clients d).lastUse_ := by
  by_cases hd : d = c
  · cases b <;> simp [setInUsing, updateClient, hd]
  · simp [setInUsing, updateClient, hd]

theorem usingCounter_setInUsing (b : Bool) :
    ((p.setInUsing c b).clients d).usingCounter =
      (p.clients d).usingCounter + if d = c then (if b then 1 else -1) else 0 := by
  by_cases hd : d = c
  · cases b
    · simp [setInUsing, updateClient, hd, Int.sub_eq_add_neg]
    · simp [setInUsing, updateClient, hd]
  · simp [setInUsing, updateClient, hd]

end Fields

end ClientPool

end FrProxy
