import FrProxy.Library.Transition
import FrProxy.ClientPool
import Mathlib.Logic.Relation

/-!
# The pool and its callers

Any number of callers work on one pool.  Each step is one section under the
mutex of the pool, or one thing that a caller does with a client it holds.  The
three lists of borrows are not in the program: they record which callers are
between `open` and `close`.
-/

namespace FrProxy

structure PoolSystem where
  pool : ClientPool
  /-- Handed out by a section of `open` that has not returned yet. -/
  opening : List ClientId
  /-- Returned by `open`. -/
  held : List ClientId
  /-- In `close`, between `set_in_using(false)` and `on_client_closing`. -/
  closing : List ClientId

inductive PoolAction where
  | destroyClients (force : Bool)
  /-- The locked section of `open`. -/
  | openSection (now : Nat)
  /-- The write of `last_use_` after that section. -/
  | stamp (c : ClientId) (now : Nat)
  | setConnected (c : ClientId) (connected : Bool)
  /-- A session handle is opened or closed. -/
  | setHandle (c : ClientId) (handle : Bool)
  /-- The first half of `close`. -/
  | release (c : ClientId)
  /-- The second half of `close`. -/
  | onClientClosing (c : ClientId)
  | reset
  | setMaxClient (max : Int)
  | setUsedTimeout (timeoutInMs : Int)
  /-- A borrowed client records what it watches or created. -/
  | saveState (c : ClientId) (type : ZkStateType) (path data : String)
  /-- A borrowed client takes a state over. -/
  | takeOver (c : ClientId) (key : String)
  | removeState (key : String)
  /-- The state is released to whoever takes over next. -/
  | freeState (key : String)

namespace PoolSystem

def start (addr : ClientId -> Nat) : PoolSystem where
  pool := ClientPool.start addr
  opening := []
  held := []
  closing := []

/-- The borrows whose `set_in_using(false)` is still to come. -/
def outstanding (s : PoolSystem) : List ClientId :=
  s.opening ++ s.held

def borrowed (s : PoolSystem) : List ClientId :=
  s.outstanding ++ s.closing

def mapPool (s : PoolSystem) (f : ClientPool -> ClientPool) : PoolSystem :=
  { s with pool := f s.pool }

def mapBag (s : PoolSystem) (f : StateBag -> StateBag) : PoolSystem :=
  s.mapPool fun p => { p with stateBag_ := f p.stateBag_ }

def step (s : PoolSystem) : PoolAction -> Option PoolSystem
  | .destroyClients force => some (s.mapPool (·.destroyClients force))
  | .openSection now =>
      let (p, c) := s.pool.openSection now
      some { s with pool := p, opening := c.toList ++ s.opening }
  | .stamp c now =>
      if c ∈ s.opening then
        some {
          pool := s.pool.stamp c now
          opening := s.opening.erase c
          held := c :: s.held
          closing := s.closing }
      else none
  | .setConnected c connected => some (s.mapPool (·.setConnected c connected))
  | .setHandle c handle => some (s.mapPool (·.setHandle c handle))
  | .release c =>
      if c ∈ s.held then
        some {
          pool := s.pool.setInUsing c false
          opening := s.opening
          held := s.held.erase c
          closing := c :: s.closing }
      else none
  | .onClientClosing c =>
      if c ∈ s.closing then
        some { s with pool := s.pool.onClientClosing c, closing := s.closing.erase c }
      else none
  | .reset => some (s.mapPool (·.resetSection))
  | .setMaxClient max => some (s.mapPool (·.setMaxClient max))
  | .setUsedTimeout timeoutInMs => some (s.mapPool (·.setUsedTimeout timeoutInMs))
  | .saveState c type path data =>
      if c ∈ s.outstanding then some (s.mapBag (·.add { clientId := c, type, path, data }))
      else none
  | .takeOver c key =>
      if c ∈ s.outstanding then some (s.mapBag (·.replaceClientIdOf key c)) else none
  | .removeState key => some (s.mapBag (·.remove key))
  | .freeState key => some (s.mapBag (·.replaceClientIdOf key 0))

def runFrom (addr : ClientId -> Nat) (actions : List PoolAction) :
    List (PoolSystem × PoolAction × PoolSystem) :=
  Transition.transitions step (start addr) actions

def finalFrom (addr : ClientId -> Nat) (actions : List PoolAction) : PoolSystem :=
  Transition.final step (start addr) actions

def onPool : PoolAction -> ClientPool -> ClientPool
  | .destroyClients force, p => p.destroyClients force
  | .openSection now, p => (p.openSection now).1
  | .stamp c now, p => p.stamp c now
  | .setConnected c connected, p => p.setConnected c connected
  | .setHandle c handle, p => p.setHandle c handle
  | .release c, p => p.setInUsing c false
  | .onClientClosing c, p => p.onClientClosing c
  | .reset, p => p.resetSection
  | .setMaxClient max, p => p.setMaxClient max
  | .setUsedTimeout timeoutInMs, p => p.setUsedTimeout timeoutInMs
  | .saveState c type path data, p =>
      { p with stateBag_ := p.stateBag_.add { clientId := c, type, path, data } }
  | .takeOver c key, p => { p with stateBag_ := p.stateBag_.replaceClientIdOf key c }
  | .removeState key, p => { p with stateBag_ := p.stateBag_.remove key }
  | .freeState key, p => { p with stateBag_ := p.stateBag_.replaceClientIdOf key 0 }

theorem step_pool {s s' : PoolSystem} {a : PoolAction} (hstep : step s a = some s') :
    s'.pool = onPool a s.pool := by
  cases a with
  | stamp c now =>
      simp only [step, Option.ite_none_right_eq_some, Option.some.injEq] at hstep
      rw [<- hstep.right]
      rfl
  | release c =>
      simp only [step, Option.ite_none_right_eq_some, Option.some.injEq] at hstep
      rw [<- hstep.right]
      rfl
  | onClientClosing c =>
      simp only [step, Option.ite_none_right_eq_some, Option.some.injEq] at hstep
      rw [<- hstep.right]
      rfl
  | saveState c type path data =>
      simp only [step, Option.ite_none_right_eq_some, Option.some.injEq] at hstep
      rw [<- hstep.right]
      rfl
  | takeOver c key =>
      simp only [step, Option.ite_none_right_eq_some, Option.some.injEq] at hstep
      rw [<- hstep.right]
      rfl
  | _ =>
      cases hstep
      rfl

/-!
## Steps that move no client
-/

/-- The actions that leave the containers and the borrows as they are. -/
def Still : PoolAction -> Prop
  | .setConnected _ _ | .setHandle _ _ | .setMaxClient _ | .setUsedTimeout _
  | .saveState _ _ _ _ | .takeOver _ _ | .removeState _ | .freeState _ => True
  | _ => False

structure Unmoved (s t : PoolSystem) : Prop where
  using_ : t.pool.using_ = s.pool.using_
  idle_ : t.pool.idle_ = s.pool.idle_
  toDestrory_ : t.pool.toDestrory_ = s.pool.toDestrory_
  deleted : t.pool.deleted = s.pool.deleted
  lastId_ : t.pool.lastId_ = s.pool.lastId_
  outstanding : t.outstanding = s.outstanding
  borrowed : t.borrowed = s.borrowed
  counter : forall c, (t.pool.clients c).usingCounter = (s.pool.clients c).usingCounter

theorem unmoved_mapBag (s : PoolSystem) (f : StateBag -> StateBag) :
    Unmoved s (s.mapBag f) where
  using_ := rfl
  idle_ := rfl
  toDestrory_ := rfl
  deleted := rfl
  lastId_ := rfl
  outstanding := rfl
  borrowed := rfl
  counter := fun _ => rfl

theorem unmoved_updateClient (s : PoolSystem) (c : ClientId) {f : ZkClient -> ZkClient}
    (hf : forall client, (f client).usingCounter = client.usingCounter) :
    Unmoved s (s.mapPool (·.updateClient c f)) where
  using_ := rfl
  idle_ := rfl
  toDestrory_ := rfl
  deleted := rfl
  lastId_ := rfl
  outstanding := rfl
  borrowed := rfl
  counter := by
    intro d
    unfold mapPool ClientPool.updateClient
    dsimp only
    split
    · exact hf _
    · rfl

theorem unmoved_step {s s' : PoolSystem} {a : PoolAction} (hstep : step s a = some s')
    (hstill : Still a) : Unmoved s s' := by
  cases a with
  | setConnected c connected =>
      cases hstep
      exact unmoved_updateClient s c (f := fun client => { client with connected_ := connected })
        fun _ => rfl
  | setHandle c handle =>
      cases hstep
      exact unmoved_updateClient s c (f := fun client => { client with zhandle_ := handle })
        fun _ => rfl
  | setMaxClient max =>
      cases hstep
      show Unmoved s { s with pool := s.pool.setMaxClient max }
      rcases s.pool.setMaxClient_eq max with ⟨limit, heq⟩
      rw [heq]
      exact ⟨rfl, rfl, rfl, rfl, rfl, rfl, rfl, fun _ => rfl⟩
  | setUsedTimeout timeoutInMs =>
      cases hstep
      show Unmoved s { s with pool := s.pool.setUsedTimeout timeoutInMs }
      rcases s.pool.setUsedTimeout_eq timeoutInMs with ⟨timeout, heq⟩
      rw [heq]
      exact ⟨rfl, rfl, rfl, rfl, rfl, rfl, rfl, fun _ => rfl⟩
  | saveState c type path data =>
      simp only [step, Option.ite_none_right_eq_some, Option.some.injEq] at hstep
      rcases hstep with ⟨_, rfl⟩
      exact unmoved_mapBag s _
  | takeOver c key =>
      simp only [step, Option.ite_none_right_eq_some, Option.some.injEq] at hstep
      rcases hstep with ⟨_, rfl⟩
      exact unmoved_mapBag s _
  | removeState key =>
      cases hstep
      exact unmoved_mapBag s _
  | freeState key =>
      cases hstep
      exact unmoved_mapBag s _
  | _ => exact hstill.elim

theorem outstanding_stamp {s : PoolSystem} {c : ClientId} (hc : c ∈ s.opening) :
    (s.opening.erase c ++ c :: s.held).Perm s.outstanding :=
  List.perm_middle.trans (List.Perm.append_right s.held (List.perm_cons_erase hc)).symm

/-!
## The moves inside `open`

What one pass through the section of `open` does, client by client.
-/

inductive OpenMove : PoolSystem -> PoolSystem -> Prop where
  /-- An idle client without a connection is given up. -/
  | giveUp {s : PoolSystem} {c : ClientId} {rest : List ClientId}
      (hidle : s.pool.idle_ = c :: rest) :
      OpenMove s (s.mapPool fun p => ClientPool.moveToDestroyList { p with idle_ := rest } c)
  | reuse {s : PoolSystem} {c : ClientId} {rest : List ClientId}
      (hidle : s.pool.idle_ = c :: rest) :
      OpenMove s {
        s with
        pool := {
          s.pool.setInUsing c true with
          idle_ := rest
          using_ := ClientPool.insertClient s.pool.addr c s.pool.using_ }
        opening := c :: s.opening }
  | create {s : PoolSystem} :
      OpenMove s {
        s with
        pool := s.pool.create
        opening := (s.pool.lastId_ + 1) :: s.opening }
  | evict {s : PoolSystem} {c : ClientId} (hc : c ∈ s.pool.using_) :
      OpenMove s (s.mapPool (·.evict c))

open Relation in
theorem reuse_moves (l : List ClientId) (s : PoolSystem) (h : s.pool.idle_ = l) :
    ReflTransGen OpenMove s {
      s with
      pool := (s.pool.reuse l).1
      opening := (s.pool.reuse l).2.toList ++ s.opening } := by
  induction l generalizing s with
  | nil =>
      have hsame : { s.pool with idle_ := [] } = s.pool := by
        rw [<- h]
      simp only [ClientPool.reuse, hsame]
      exact ReflTransGen.refl
  | cons c rest ih =>
      by_cases hconn : s.pool.getConnected c = true
      · simp only [ClientPool.reuse, hconn, if_true]
        exact ReflTransGen.single (OpenMove.reuse h)
      · have hmove := OpenMove.giveUp h
        have htail := ih _ (rfl : (s.mapPool fun p =>
          ClientPool.moveToDestroyList { p with idle_ := rest } c).pool.idle_ = rest)
        simp only [ClientPool.reuse, hconn]
        exact ReflTransGen.head hmove htail

open Relation in
theorem evictLoop_moves (now rounds : Nat) (s : PoolSystem) :
    ReflTransGen OpenMove s (s.mapPool (ClientPool.evictLoop now rounds)) := by
  induction rounds generalizing s with
  | zero => exact ReflTransGen.refl
  | succ rounds ih =>
      unfold mapPool ClientPool.evictLoop
      cases hfind : s.pool.using_.find? (s.pool.timedOut now) with
      | none => exact ReflTransGen.refl
      | some c =>
          have hc : c ∈ s.pool.using_ := List.mem_of_find?_eq_some hfind
          exact ReflTransGen.head (OpenMove.evict hc) (ih (s.mapPool (·.evict c)))

open Relation in
theorem openSection_moves {s s' : PoolSystem} {now : Nat}
    (hstep : step s (.openSection now) = some s') : ReflTransGen OpenMove s s' := by
  simp only [step, Option.some.injEq] at hstep
  subst hstep
  have hreuse := reuse_moves s.pool.idle_ s rfl
  rcases s.pool.openSection_cases now with ⟨hnone, _, hopen⟩ | ⟨_, hopen⟩ | ⟨_, hopen⟩
  · rw [hopen]
    rw [hnone] at hreuse
    exact ReflTransGen.tail hreuse OpenMove.create
  · rw [hopen]
    exact hreuse.trans (evictLoop_moves now _ _)
  · rw [hopen]
    exact hreuse

theorem openSection_keeps (Inv : PoolSystem -> Prop)
    (hmove : forall s t, OpenMove s t -> Inv s -> Inv t) {s s' : PoolSystem} {now : Nat}
    (hstep : step s (.openSection now) = some s') (h : Inv s) : Inv s' := by
  have hmoves := openSection_moves hstep
  clear hstep
  induction hmoves with
  | refl => exact h
  | tail _ hlast ih => exact hmove _ _ hlast ih

def alone (p : ClientPool) (opening : List ClientId) : PoolSystem where
  pool := p
  opening
  held := []
  closing := []

theorem openSection_alone (Inv : PoolSystem -> Prop)
    (hmove : forall s t, OpenMove s t -> Inv s -> Inv t) {p : ClientPool} (now : Nat)
    (h : Inv (alone p [])) :
    Inv (alone (p.openSection now).1 (p.openSection now).2.toList) := by
  have hstep : step (alone p []) (.openSection now) =
      some (alone (p.openSection now).1 ((p.openSection now).2.toList ++ [])) := rfl
  rw [List.append_nil] at hstep
  exact openSection_keeps Inv hmove hstep h

theorem openSection_pool (P : ClientPool -> Prop)
    (hmove : forall s t, OpenMove s t -> P s.pool -> P t.pool) {p : ClientPool} (now : Nat)
    (h : P p) : P (p.openSection now).1 :=
  openSection_alone (fun s => P s.pool) hmove now h

/-!
## Clients and containers

What holds in every run, whatever the callers do.
-/

structure Sound (s : PoolSystem) : Prop where
  usingNodup : s.pool.using_.Nodup
  idleNodup : s.pool.idle_.Nodup
  usingNotIdle : forall c, c ∈ s.pool.using_ -> c ∉ s.pool.idle_
  borrowedNodup : s.borrowed.Nodup
  borrowedNotIdle : forall c, c ∈ s.borrowed -> c ∉ s.pool.idle_
  known : forall c,
    (c ∈ s.borrowed ∨ c ∈ s.pool.using_ ∨ c ∈ s.pool.idle_ ∨ c ∈ s.pool.toDestrory_ ∨
      c ∈ s.pool.deleted) -> 0 < c ∧ c ≤ s.pool.lastId_
  accounted : forall c, 0 < c -> c ≤ s.pool.lastId_ ->
    c ∈ s.pool.using_ ∨ c ∈ s.pool.idle_ ∨ c ∈ s.pool.toDestrory_ ∨ c ∈ s.pool.deleted

theorem sound_start (addr : ClientId -> Nat) : Sound (start addr) where
  usingNodup := List.nodup_nil
  idleNodup := List.nodup_nil
  usingNotIdle := by simp [start, ClientPool.start]
  borrowedNodup := List.nodup_nil
  borrowedNotIdle := by simp [start, borrowed, outstanding]
  known := by simp [start, ClientPool.start, borrowed, outstanding]
  accounted := by
    intro c hpos hle
    exact absurd hle (Nat.not_le_of_lt hpos)

theorem Sound.frame {s t : PoolSystem} (h : Sound s)
    (husing : t.pool.using_ = s.pool.using_) (hidle : t.pool.idle_ = s.pool.idle_)
    (hlast : t.pool.lastId_ = s.pool.lastId_)
    (hgone : forall c, c ∈ t.pool.toDestrory_ ∨ c ∈ t.pool.deleted <->
      c ∈ s.pool.toDestrory_ ∨ c ∈ s.pool.deleted)
    (hborrowed : t.borrowed.Perm s.borrowed) : Sound t where
  usingNodup := husing ▸ h.usingNodup
  idleNodup := hidle ▸ h.idleNodup
  usingNotIdle := by
    rw [husing, hidle]
    exact h.usingNotIdle
  borrowedNodup := hborrowed.nodup_iff.mpr h.borrowedNodup
  borrowedNotIdle := by
    intro c hc
    rw [hidle]
    exact h.borrowedNotIdle c (hborrowed.mem_iff.mp hc)
  known := by
    intro c hc
    rw [husing, hidle, hgone c, hborrowed.mem_iff] at hc
    rw [hlast]
    exact h.known c hc
  accounted := by
    intro c hpos hle
    rw [husing, hidle, hgone c]
    exact h.accounted c hpos (hlast ▸ hle)

theorem Sound.unmoved {s t : PoolSystem} (h : Sound s) (hsame : Unmoved s t) : Sound t := by
  apply h.frame hsame.using_ hsame.idle_ hsame.lastId_
  · intro c
    rw [hsame.toDestrory_, hsame.deleted]
  · rw [hsame.borrowed]

theorem Sound.giveUp {s t : PoolSystem} (h : Sound s)
    (husing : List.Sublist t.pool.using_ s.pool.using_)
    (hidle : List.Sublist t.pool.idle_ s.pool.idle_)
    (hlast : t.pool.lastId_ = s.pool.lastId_)
    (hgone : forall c,
      c ∈ t.pool.using_ ∨ c ∈ t.pool.idle_ ∨ c ∈ t.pool.toDestrory_ ∨ c ∈ t.pool.deleted <->
      c ∈ s.pool.using_ ∨ c ∈ s.pool.idle_ ∨ c ∈ s.pool.toDestrory_ ∨ c ∈ s.pool.deleted)
    (hborrowed : t.borrowed = s.borrowed) : Sound t where
  usingNodup := husing.nodup h.usingNodup
  idleNodup := hidle.nodup h.idleNodup
  usingNotIdle := fun c hc hci => h.usingNotIdle c (husing.subset hc) (hidle.subset hci)
  borrowedNodup := hborrowed ▸ h.borrowedNodup
  borrowedNotIdle := by
    intro c hc hci
    exact h.borrowedNotIdle c (hborrowed ▸ hc) (hidle.subset hci)
  known := by
    intro c hc
    rw [hborrowed, hgone c] at hc
    rw [hlast]
    exact h.known c hc
  accounted := by
    intro c hpos hle
    rw [hgone c]
    exact h.accounted c hpos (hlast ▸ hle)

theorem Sound.reuse {s : PoolSystem} {c : ClientId} {rest : List ClientId} (h : Sound s)
    (hidle : s.pool.idle_ = c :: rest) :
    Sound {
      s with
      pool := {
        s.pool.setInUsing c true with
        idle_ := rest
        using_ := ClientPool.insertClient s.pool.addr c s.pool.using_ }
      opening := c :: s.opening } := by
  have hc : c ∈ s.pool.idle_ := by
    rw [hidle]
    exact List.mem_cons_self
  have hnodup : c ∉ rest ∧ rest.Nodup := by
    have hall := h.idleNodup
    rw [hidle] at hall
    exact List.nodup_cons.mp hall
  have hrest : forall d, d ∈ rest -> d ∈ s.pool.idle_ := by
    intro d hd
    rw [hidle]
    exact List.mem_cons_of_mem _ hd
  have hfree : c ∉ s.borrowed := fun hcb => h.borrowedNotIdle c hcb hc
  exact {
    usingNodup := ClientPool.nodup_insertClient h.usingNodup
    idleNodup := hnodup.right
    usingNotIdle := by
      intro d hd hdrest
      rcases ClientPool.mem_insertClient.mp hd with rfl | hd
      · exact hnodup.left hdrest
      · exact h.usingNotIdle d hd (hrest d hdrest)
    borrowedNodup := List.nodup_cons.mpr ⟨hfree, h.borrowedNodup⟩
    borrowedNotIdle := by
      intro d hd hdrest
      rcases List.mem_cons.mp hd with rfl | hd
      · exact hnodup.left hdrest
      · exact h.borrowedNotIdle d hd (hrest d hdrest)
    known := by
      intro d hd
      apply h.known d
      simp only [borrowed, outstanding, ClientPool.mem_insertClient, List.cons_append,
        List.mem_cons] at hd ⊢
      rcases hd with (rfl | hd) | (rfl | hd) | hd | hd
      · exact Or.inr (Or.inr (Or.inl hc))
      · exact Or.inl hd
      · exact Or.inr (Or.inr (Or.inl hc))
      · exact Or.inr (Or.inl hd)
      · exact Or.inr (Or.inr (Or.inl (hrest d hd)))
      · exact Or.inr (Or.inr (Or.inr hd))
    accounted := by
      intro d hpos hle
      have hd := h.accounted d hpos hle
      simp only [ClientPool.mem_insertClient]
      rw [hidle, List.mem_cons] at hd
      tauto }

theorem Sound.new {s : PoolSystem} (h : Sound s) {d : ClientId}
    (hd : d ∈ s.borrowed ∨ d ∈ s.pool.using_ ∨ d ∈ s.pool.idle_ ∨ d ∈ s.pool.toDestrory_ ∨
      d ∈ s.pool.deleted) : d ≠ s.pool.lastId_ + 1 := by
  intro heq
  have hle := (h.known d hd).right
  rw [heq] at hle
  exact Nat.not_succ_le_self _ hle

theorem Sound.create {s : PoolSystem} (h : Sound s) :
    Sound {
      s with
      pool := s.pool.create
      opening := (s.pool.lastId_ + 1) :: s.opening } where
  usingNodup := ClientPool.nodup_insertClient h.usingNodup
  idleNodup := h.idleNodup
  usingNotIdle := by
    intro d hd hdi
    rcases ClientPool.mem_insertClient.mp hd with rfl | hd
    · exact h.new (Or.inr (Or.inr (Or.inl hdi))) rfl
    · exact h.usingNotIdle d hd hdi
  borrowedNodup := List.nodup_cons.mpr ⟨fun hmem => h.new (Or.inl hmem) rfl, h.borrowedNodup⟩
  borrowedNotIdle := by
    intro d hd hdi
    rcases List.mem_cons.mp hd with rfl | hd
    · exact h.new (Or.inr (Or.inr (Or.inl hdi))) rfl
    · exact h.borrowedNotIdle d hd hdi
  known := by
    intro d hd
    have hcases : d = s.pool.lastId_ + 1 ∨ (d ∈ s.borrowed ∨ d ∈ s.pool.using_ ∨
        d ∈ s.pool.idle_ ∨ d ∈ s.pool.toDestrory_ ∨ d ∈ s.pool.deleted) := by
      rcases hd with hd | hd | hd
      · rcases List.mem_cons.mp hd with rfl | hd
        · exact Or.inl rfl
        · exact Or.inr (Or.inl hd)
      · rcases ClientPool.mem_insertClient.mp hd with rfl | hd
        · exact Or.inl rfl
        · exact Or.inr (Or.inr (Or.inl hd))
      · exact Or.inr (Or.inr (Or.inr hd))
    rcases hcases with rfl | hd
    · exact ⟨Nat.succ_pos _, Nat.le_refl _⟩
    · rcases h.known d hd with ⟨hpos, hle⟩
      exact ⟨hpos, Nat.le_succ_of_le hle⟩
  accounted := by
    intro d hpos hle
    rcases Nat.le_succ_iff.mp hle with hle | rfl
    · rcases h.accounted d hpos hle with hd | hd
      · exact Or.inl (ClientPool.mem_insertClient.mpr (Or.inr hd))
      · exact Or.inr hd
    · exact Or.inl (ClientPool.mem_insertClient.mpr (Or.inl rfl))

theorem Sound.openMove {s t : PoolSystem} (h : Sound s) (hmove : OpenMove s t) :
    Sound t := by
  cases hmove with
  | @giveUp c rest hidle =>
      refine h.giveUp (List.Sublist.refl _) ?_ rfl ?_ rfl
      · rw [hidle]
        exact List.sublist_cons_self c rest
      · intro d
        simp only [mapPool, ClientPool.moveToDestroyList, hidle, List.mem_cons,
          List.mem_append, List.not_mem_nil, or_false]
        tauto
  | reuse hidle => exact h.reuse hidle
  | create => exact h.create
  | @evict c hc =>
      refine h.giveUp List.erase_sublist (List.Sublist.refl _) rfl ?_ rfl
      intro d
      simp only [mapPool, ClientPool.evict, ClientPool.moveToDestroyList,
        ClientPool.setInUsing_using_, ClientPool.setInUsing_idle_,
        ClientPool.setInUsing_toDestrory_, ClientPool.setInUsing_deleted,
        List.mem_append, List.mem_singleton, h.usingNodup.mem_erase_iff]
      by_cases hd : d = c
      · subst hd
        simp [hc]
      · simp [hd]

theorem borrowed_perm_close {s : PoolSystem} {c : ClientId} (hc : c ∈ s.closing) :
    s.borrowed.Perm (c :: (s.outstanding ++ s.closing.erase c)) :=
  (List.Perm.append_left _ (List.perm_cons_erase hc)).trans List.perm_middle

theorem Sound.closeIdle {s : PoolSystem} {c : ClientId} (h : Sound s) (hc : c ∈ s.closing) :
    Sound {
      s with
      pool := {
        s.pool with
        using_ := s.pool.using_.erase c
        idle_ := ClientPool.insertClient s.pool.addr c s.pool.idle_ }
      closing := s.closing.erase c } := by
  have hperm := borrowed_perm_close hc
  have hnodup := List.nodup_cons.mp (hperm.nodup_iff.mp h.borrowedNodup)
  have hsub : forall d, d ∈ s.outstanding ++ s.closing.erase c -> d ∈ s.borrowed :=
    fun d hd => hperm.mem_iff.mpr (List.mem_cons_of_mem _ hd)
  exact {
    usingNodup := h.usingNodup.erase c
    idleNodup := ClientPool.nodup_insertClient h.idleNodup
    usingNotIdle := by
      intro d hd hdi
      rcases h.usingNodup.mem_erase_iff.mp hd with ⟨hne, hd⟩
      rcases ClientPool.mem_insertClient.mp hdi with heq | hdi
      · exact hne heq
      · exact h.usingNotIdle d hd hdi
    borrowedNodup := hnodup.right
    borrowedNotIdle := by
      intro d hd hdi
      rcases ClientPool.mem_insertClient.mp hdi with rfl | hdi
      · exact hnodup.left hd
      · exact h.borrowedNotIdle d (hsub d hd) hdi
    known := by
      intro d hd
      rcases hd with hd | hd | hd | hd
      · exact h.known d (Or.inl (hsub d hd))
      · exact h.known d (Or.inr (Or.inl (List.mem_of_mem_erase hd)))
      · rcases ClientPool.mem_insertClient.mp hd with rfl | hd
        · exact h.known d (Or.inl (List.mem_append_right _ hc))
        · exact h.known d (Or.inr (Or.inr (Or.inl hd)))
      · exact h.known d (Or.inr (Or.inr (Or.inr hd)))
    accounted := by
      intro d hpos hle
      have hd := h.accounted d hpos hle
      simp only [ClientPool.mem_insertClient, h.usingNodup.mem_erase_iff]
      tauto }

theorem Sound.closeGone {s : PoolSystem} {c : ClientId} (h : Sound s) (hc : c ∈ s.closing) :
    Sound {
      s with
      pool := ClientPool.moveToDestroyList { s.pool with using_ := s.pool.using_.erase c } c
      closing := s.closing.erase c } := by
  have hperm := borrowed_perm_close hc
  have hnodup := List.nodup_cons.mp (hperm.nodup_iff.mp h.borrowedNodup)
  have hsub : forall d, d ∈ s.outstanding ++ s.closing.erase c -> d ∈ s.borrowed :=
    fun d hd => hperm.mem_iff.mpr (List.mem_cons_of_mem _ hd)
  exact {
    usingNodup := h.usingNodup.erase c
    idleNodup := h.idleNodup
    usingNotIdle := fun d hd => h.usingNotIdle d (List.mem_of_mem_erase hd)
    borrowedNodup := hnodup.right
    borrowedNotIdle := fun d hd => h.borrowedNotIdle d (hsub d hd)
    known := by
      intro d hd
      simp only [ClientPool.moveToDestroyList, List.mem_append, List.mem_singleton] at hd
      rcases hd with hd | hd | hd | (hd | rfl) | hd
      · exact h.known d (Or.inl (hsub d hd))
      · exact h.known d (Or.inr (Or.inl (List.mem_of_mem_erase hd)))
      · exact h.known d (Or.inr (Or.inr (Or.inl hd)))
      · exact h.known d (Or.inr (Or.inr (Or.inr (Or.inl hd))))
      · exact h.known d (Or.inl (List.mem_append_right _ hc))
      · exact h.known d (Or.inr (Or.inr (Or.inr (Or.inr hd))))
    accounted := by
      intro d hpos hle
      have hd := h.accounted d hpos hle
      simp only [ClientPool.moveToDestroyList, List.mem_append, List.mem_singleton,
        h.usingNodup.mem_erase_iff]
      tauto }

theorem Sound.onClientClosing {s : PoolSystem} {c : ClientId} (h : Sound s)
    (hc : c ∈ s.closing) :
    Sound { s with pool := s.pool.onClientClosing c, closing := s.closing.erase c } := by
  rcases s.pool.onClientClosing_cases c with ⟨_, hclose⟩ | ⟨_, hclose⟩
  · rw [hclose]
    exact h.closeIdle hc
  · rw [hclose]
    exact h.closeGone hc

theorem sound_step {s s' : PoolSystem} {a : PoolAction} (hstep : step s a = some s')
    (h : Sound s) : Sound s' := by
  cases a with
  | destroyClients force =>
      simp only [step, Option.some.injEq] at hstep
      subst hstep
      refine h.frame rfl rfl rfl ?_ (List.Perm.refl _)
      intro c
      simp only [mapPool, ClientPool.destroyClients, List.mem_filter, List.mem_append,
        List.mem_reverse]
      cases s.pool.destroys force c <;> simp
  | openSection now =>
      exact openSection_keeps Sound (fun _ _ hmove ht => ht.openMove hmove) hstep h
  | stamp c now =>
      simp only [step, Option.ite_none_right_eq_some, Option.some.injEq] at hstep
      rcases hstep with ⟨hc, rfl⟩
      refine h.frame rfl rfl rfl (fun _ => Iff.rfl) ?_
      exact List.Perm.append_right s.closing (outstanding_stamp hc)
  | release c =>
      simp only [step, Option.ite_none_right_eq_some, Option.some.injEq] at hstep
      rcases hstep with ⟨hc, rfl⟩
      refine h.frame rfl rfl rfl (fun _ => Iff.rfl) ?_
      show (s.opening ++ s.held.erase c ++ c :: s.closing).Perm
        (s.opening ++ s.held ++ s.closing)
      apply List.perm_middle.trans
      have hheld : s.held.Perm (c :: s.held.erase c) := List.perm_cons_erase hc
      have hout : (s.opening ++ s.held).Perm (c :: (s.opening ++ s.held.erase c)) :=
        (List.Perm.append_left s.opening hheld).trans List.perm_middle
      exact (hout.append_right s.closing).symm
  | onClientClosing c =>
      simp only [step, Option.ite_none_right_eq_some, Option.some.injEq] at hstep
      rcases hstep with ⟨hc, rfl⟩
      exact h.onClientClosing hc
  | reset =>
      cases hstep
      refine h.giveUp (List.nil_sublist _) (List.nil_sublist _) rfl ?_ rfl
      intro c
      simp only [mapPool, ClientPool.resetSection, List.not_mem_nil, List.mem_append]
      tauto
  | _ => exact h.unmoved (unmoved_step hstep trivial)

/-!
## The settings
-/

def Sets : PoolAction -> Prop
  | .setMaxClient _ | .setUsedTimeout _ => True
  | _ => False

theorem settings_step {s s' : PoolSystem} {a : PoolAction} (hstep : step s a = some s')
    (hnot : ¬ Sets a) :
    s'.pool.maxClient_ = s.pool.maxClient_ ∧ s'.pool.usedTimeout_ = s.pool.usedTimeout_ := by
  rw [step_pool hstep]
  cases a with
  | setMaxClient max => exact absurd trivial hnot
  | setUsedTimeout timeoutInMs => exact absurd trivial hnot
  | openSection now =>
      refine openSection_pool (fun p => p.maxClient_ = s.pool.maxClient_ ∧
        p.usedTimeout_ = s.pool.usedTimeout_) ?_ now ⟨rfl, rfl⟩
      intro t u hmove ht
      cases hmove with
      | _ => exact ht
  | onClientClosing c =>
      unfold onPool
      dsimp only
      rcases s.pool.onClientClosing_cases c with ⟨_, hclose⟩ | ⟨_, hclose⟩
      · rw [hclose]
        exact ⟨rfl, rfl⟩
      · rw [hclose]
        exact ⟨rfl, rfl⟩
  | _ => exact ⟨rfl, rfl⟩

theorem usedTimeout_step {s s' : PoolSystem} {a : PoolAction} (hstep : step s a = some s')
    (hint : forall timeoutInMs, a = .setUsedTimeout timeoutInMs -> timeoutInMs < 2 ^ 31)
    (h : 0 < s.pool.usedTimeout_ ∧ s.pool.usedTimeout_ < 2 ^ 31) :
    0 < s'.pool.usedTimeout_ ∧ s'.pool.usedTimeout_ < 2 ^ 31 := by
  cases a with
  | setUsedTimeout timeoutInMs =>
      cases hstep
      show 0 < (s.pool.setUsedTimeout timeoutInMs).usedTimeout_ ∧
        (s.pool.setUsedTimeout timeoutInMs).usedTimeout_ < 2 ^ 31
      unfold ClientPool.setUsedTimeout
      split
      · rename_i hpos
        exact ⟨hpos, hint timeoutInMs rfl⟩
      · exact h
  | setMaxClient max =>
      rcases s.pool.setMaxClient_eq max with ⟨limit, heq⟩
      rw [step_pool hstep]
      unfold onPool
      dsimp only
      rw [heq]
      exact h
  | _ =>
      rw [(settings_step hstep not_false).right]
      exact h

end PoolSystem

end FrProxy
