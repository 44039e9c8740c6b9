import FrProxy.ServerHandler.Tasks
import FrProxy.ZkClient.Invariants
import FrProxy.ZkClient.PoolRuns

/-!
# The pool between the tasks

Where one task runs after the other, a pool at rest lends its only client for a
task and takes it back at the end.  No session is lost sight of, and no state
stays with a client that is gone.
-/

namespace FrProxy

open Program

theorem StateBag.released {bag : StateBag} {c : ClientId} {key : String} {s : ZkState}
    (h : (bag.replaceClientId c 0).get key = some s) :
    s.clientId = 0 ∨ exists t, bag.get key = some t ∧ s.clientId = t.clientId ∧ t.clientId ≠ c := by
  unfold replaceClientId at h
  rw [get_giveTo] at h
  rcases Option.map_eq_some_iff.mp h with ⟨t, ht, rfl⟩
  by_cases hown : t.clientId = c
  · simp [hown]
  · simp only [beq_iff_eq, hown, if_false]
    exact Or.inr ⟨t, ht, rfl, hown⟩

namespace ClientPool

/-- No client is borrowed, and at most one waits to be borrowed. -/
structure AtRest (p : ClientPool) : Prop where
  unused : p.using_ = []
  single : p.idle_.length ≤ 1
  /-- Sessions that the next `open` closes. -/
  few : p.toDestrory_.length ≤ 2
  counters : forall c, (p.clients c).usingCounter = 0
  owners : forall key s, p.stateBag_.get key = some s -> s.clientId = 0 ∨ s.clientId ∈ p.idle_
  accounted : forall c, 0 < c -> c ≤ p.lastId_ ->
    c ∈ p.idle_ ∨ c ∈ p.toDestrory_ ∨ c ∈ p.deleted
  positive : 0 ∉ p.idle_
  attached : forall c, p.Attached c
  room : 1 < p.maxClient_

/-- The client `c` is borrowed, and there is no other one. -/
structure Lent (c : ClientId) (p : ClientPool) : Prop where
  only : p.using_ = [c]
  none : p.idle_ = []
  few : p.toDestrory_.length ≤ 1
  counters : forall d, (p.clients d).usingCounter = if d = c then 1 else 0
  owners : forall key s, p.stateBag_.get key = some s -> s.clientId = 0 ∨ s.clientId = c
  accounted : forall d, 0 < d -> d ≤ p.lastId_ -> d = c ∨ d ∈ p.toDestrory_ ∨ d ∈ p.deleted
  positive : 0 < c
  attached : forall d, p.Attached d
  room : 1 < p.maxClient_

theorem atRest_start (addr : ClientId -> Nat) : (start addr).AtRest where
  unused := rfl
  single := Nat.zero_le 1
  few := Nat.zero_le 2
  counters := fun _ => rfl
  owners := fun key s h => by simp [start] at h
  accounted := fun c hpos hle => absurd hpos (Nat.not_lt_of_le hle)
  positive := List.not_mem_nil
  attached := by
    intro c hconn
    cases hconn
  room := show (1 : Int) < 50 by decide

/-!
## Borrowing
-/

theorem counters_setInUsing {p : ClientPool} (h : forall d, (p.clients d).usingCounter = 0)
    (c d : ClientId) :
    ((p.setInUsing c true).clients d).usingCounter = if d = c then 1 else 0 := by
  rw [usingCounter_setInUsing, h d, Int.zero_add]
  rfl

theorem destroyClients_all {p : ClientPool} (h : forall c, (p.clients c).usingCounter = 0)
    (force : Bool) :
    (p.destroyClients force).toDestrory_ = [] ∧
      (p.destroyClients force).deleted = p.toDestrory_.reverse ++ p.deleted := by
  have hall : forall c, c ∈ p.toDestrory_ -> p.destroys force c = true := by
    intro c _
    unfold destroys
    rw [h c]
    simp
  constructor
  · apply List.filter_eq_nil_iff.mpr
    intro c hc
    simp [hall c hc]
  · unfold ClientPool.destroyClients
    rw [List.filter_eq_self.mpr hall]

theorem AtRest.destroyClients {p : ClientPool} (h : p.AtRest) (force : Bool) :
    (p.destroyClients force).AtRest ∧ (p.destroyClients force).toDestrory_ = [] := by
  rcases destroyClients_all h.counters force with ⟨hgone, hdeleted⟩
  refine ⟨{ h with few := ?_, accounted := ?_ }, hgone⟩
  · rw [hgone]
    exact Nat.zero_le 2
  · intro c hpos hle
    rw [hdeleted]
    rcases h.accounted c hpos hle with hidle | hwaits | hdel
    · exact Or.inl hidle
    · exact Or.inr (Or.inr (List.mem_append_left _ (List.mem_reverse.mpr hwaits)))
    · exact Or.inr (Or.inr (List.mem_append_right _ hdel))

theorem lent_create {p : ClientPool} (hunused : p.using_ = []) (hidle : p.idle_ = [])
    (hfew : p.toDestrory_.length ≤ 1) (hcounters : forall c, (p.clients c).usingCounter = 0)
    (howners : forall key s, p.stateBag_.get key = some s -> s.clientId = 0)
    (haccounted : forall c, 0 < c -> c ≤ p.lastId_ -> c ∈ p.toDestrory_ ∨ c ∈ p.deleted)
    (hattached : forall c, p.Attached c) (hroom : 1 < p.maxClient_) :
    Lent (p.lastId_ + 1) p.create where
  only := by simp [create, setInUsing, updateClient, insertClient, hunused]
  none := hidle
  few := hfew
  counters := by
    intro d
    apply counters_setInUsing (p := {
      p with
      lastId_ := p.lastId_ + 1
      clients := fun d => if d = p.lastId_ + 1 then {} else p.clients d })
    intro d
    dsimp only
    split
    · rfl
    · exact hcounters d
  owners := fun key s hs => Or.inl (howners key s hs)
  accounted := by
    intro d hpos hle
    rcases Nat.eq_or_lt_of_le hle with rfl | hlt
    · exact Or.inl rfl
    · exact Or.inr (haccounted d hpos (Nat.le_of_lt_succ hlt))
  positive := Nat.succ_pos _
  attached := by
    intro d
    apply (attached_setInUsing { p with
      lastId_ := p.lastId_ + 1
      clients := fun d => if d = p.lastId_ + 1 then {} else p.clients d } (p.lastId_ + 1) d true).mpr
    unfold Attached getConnected
    dsimp only
    split
    · intro hconn
      cases hconn
    · exact hattached d
  room := hroom

theorem openSection_create {p : ClientPool} (now : Nat) {q : ClientPool}
    (hreuse : p.reuse p.idle_ = (q, none)) (hunused : q.using_ = []) (hidle : q.idle_ = [])
    (hroom : 1 < q.maxClient_) : p.openSection now = (q.create, some (q.lastId_ + 1)) := by
  unfold openSection
  rw [hreuse]
  dsimp only
  have hsize : q.size = 0 := by simp [size, hunused, hidle]
  rw [if_pos]
  refine ⟨rfl, by simp [hidle], ?_⟩
  rw [hsize]
  exact Int.lt_trans (by decide) hroom

theorem AtRest.openSection {p : ClientPool} (h : p.AtRest) (hgone : p.toDestrory_ = [])
    (now : Nat) :
    exists c, (p.openSection now).2 = some c ∧ Lent c (p.openSection now).1 := by
  rcases hidle : p.idle_ with _ | ⟨c, rest⟩
  · have hsame : { p with idle_ := [] } = p := by rw [<- hidle]
    have hreuse : p.reuse p.idle_ = (p, none) := by rw [hidle, reuse, hsame]
    rw [openSection_create now hreuse h.unused hidle h.room]
    refine ⟨_, rfl, ?_⟩
    apply lent_create h.unused hidle (by rw [hgone]; exact Nat.zero_le 1) h.counters
    · intro key s hs
      rcases h.owners key s hs with hzero | hmem
      · exact hzero
      · rw [hidle] at hmem
        cases hmem
    · intro c hpos hle
      rcases h.accounted c hpos hle with hmem | hrest
      · rw [hidle] at hmem
        cases hmem
      · exact hrest
    · exact h.attached
    · exact h.room
  · have hrest : rest = [] := by
      have hlength := h.single
      rw [hidle, List.length_cons] at hlength
      exact List.length_eq_zero_iff.mp (Nat.le_zero.mp (Nat.le_of_succ_le_succ hlength))
    subst hrest
    have hpos : 0 < c := by
      apply Nat.pos_of_ne_zero
      rintro rfl
      apply h.positive
      rw [hidle]
      exact List.mem_singleton_self 0
    cases hconn : p.getConnected c with
    | true =>
        let q : ClientPool := { p.setInUsing c true with idle_ := [], using_ := [c] }
        have hreuse : p.reuse p.idle_ = (q, some c) := by
          simp [hidle, reuse, hconn, q, insertClient, h.unused]
        have hsize : q.size ≠ q.maxClient_ := by
          have hroom : 1 < q.maxClient_ := h.room
          have hone : q.size = 1 := rfl
          rw [hone]
          exact Int.ne_of_lt hroom
        have hopen : p.openSection now = (q, some c) := by
          unfold ClientPool.openSection
          rw [hreuse]
          simp [hsize]
        rw [hopen]
        refine ⟨c, rfl, ?_⟩
        constructor
        · rfl
        · rfl
        · show p.toDestrory_.length ≤ 1
          rw [hgone]
          exact Nat.zero_le 1
        · exact counters_setInUsing h.counters c
        · intro key s hs
          rcases h.owners key s hs with hzero | hmem
          · exact Or.inl hzero
          · rw [hidle] at hmem
            exact Or.inr (List.mem_singleton.mp hmem)
        · intro d hd hle
          rcases h.accounted d hd hle with hmem | hothers
          · rw [hidle] at hmem
            exact Or.inl (List.mem_singleton.mp hmem)
          · exact Or.inr hothers
        · exact hpos
        · exact fun d => (attached_setInUsing p c d true).mpr (h.attached d)
        · exact h.room
    | false =>
        let q := moveToDestroyList { p with idle_ := [] } c
        have hreuse : p.reuse p.idle_ = (q, none) := by
          simp [hidle, reuse, hconn, q, moveToDestroyList]
        rw [openSection_create now hreuse h.unused rfl h.room]
        refine ⟨_, rfl, ?_⟩
        apply lent_create (p := q) h.unused rfl ?_ h.counters ?_ ?_ h.attached h.room
        · simp [q, moveToDestroyList, hgone]
        · intro key s hs
          rcases StateBag.released hs with hzero | ⟨t, ht, heq, hown⟩
          · exact hzero
          · rw [heq]
            rcases h.owners key t ht with hzero | hmem
            · exact hzero
            · rw [hidle] at hmem
              exact absurd (List.mem_singleton.mp hmem) hown
        · intro d hd hle
          rcases h.accounted d hd hle with hmem | hwaits | hdel
          · rw [hidle] at hmem
            exact Or.inl (List.mem_append_right _ hmem)
          · exact Or.inl (List.mem_append_left _ hwaits)
          · exact Or.inr hdel

/-!
## While the client is borrowed
-/

section Lent

variable {c : ClientId} {p : ClientPool}

theorem Lent.updateClient (h : Lent c p) (d : ClientId) {f : ZkClient -> ZkClient}
    (hf : forall client, (f client).usingCounter = client.usingCounter)
    (hattached : forall e, (p.updateClient d f).Attached e) : Lent c (p.updateClient d f) where
  only := h.only
  none := h.none
  few := h.few
  counters := by
    intro e
    rw [<- h.counters e]
    unfold ClientPool.updateClient
    dsimp only
    split
    · exact hf _
    · rfl
  owners := h.owners
  accounted := h.accounted
  positive := h.positive
  attached := hattached
  room := h.room

theorem Lent.changed (h : Lent c p) {saves : ZkStateType -> String -> Prop} {bag : StateBag}
    (hbag : p.stateBag_.Changed c saves bag) : Lent c { p with stateBag_ := bag } where
  only := h.only
  none := h.none
  few := h.few
  counters := h.counters
  owners := by
    intro key s hs
    rcases hbag.get_some hs with ⟨old, hold, _, _, hsame | hown | hzero⟩ | ⟨_, hown⟩
    · rw [hsame]
      exact h.owners key old hold
    · exact Or.inr hown
    · exact Or.inl hzero
    · exact Or.inr hown
  accounted := h.accounted
  positive := h.positive
  attached := h.attached
  room := h.room

theorem onBag_changed (e : Event) (bag : StateBag) :
    exists bag', bag.Changed c (fun _ _ => True) bag' ∧
      bag'.Changed c (fun _ _ => True) (e.onBag c bag) := by
  cases e with
  | takeOver key =>
      refine ⟨bag, .same, ?_⟩
      unfold Event.onBag StateBag.replaceClientIdOf
      exact .give _ c (Or.inl rfl)
  | children type path rc nodes =>
      refine ⟨_, .save { clientId := c, type, path, data := "" } rfl trivial, ?_⟩
      unfold Event.onBag
      dsimp only
      split
      · exact .remove _
      · exact .same
  | instance_ service node rc data mtime =>
      refine ⟨_, .save {
        clientId := c
        type := .getServiceInstance
        path := service ++ "/" ++ node
        data := "" } rfl trivial, ?_⟩
      unfold Event.onBag
      dsimp only
      split
      · exact .remove _
      · exact .same
  | create path data rc =>
      refine ⟨_, .save { clientId := c, type := .createEphereral, path, data } rfl trivial, ?_⟩
      unfold Event.onBag
      dsimp only
      split
      · unfold StateBag.replaceClientIdOf
        exact .give _ 0 (Or.inr rfl)
      · exact .same
  | _ => exact ⟨bag, .same, .same⟩

theorem Lent.onPool (h : Lent c p) (e : Event) (hattached : forall d, (e.onPool c p).Attached d) :
    Lent c (e.onPool c p) := by
  rcases onBag_changed (c := c) e p.stateBag_ with ⟨bag, hfirst, hsecond⟩
  have hbag : Lent c { p with stateBag_ := e.onBag c p.stateBag_ } :=
    (h.changed hfirst).changed hsecond
  unfold Event.onPool at hattached ⊢
  dsimp only at hattached ⊢
  split
  · rename_i hlost
    rw [if_pos hlost] at hattached
    exact hbag.updateClient c (fun _ => rfl) hattached
  · exact hbag

theorem Lent.close (h : Lent c p) : ((p.setInUsing c false).onClientClosing c).AtRest := by
  have hcounters : forall d, ((p.setInUsing c false).clients d).usingCounter = 0 := by
    intro d
    rw [usingCounter_setInUsing, h.counters d]
    split <;> simp
  have hempty : (p.setInUsing c false).using_.erase c = [] := by
    simp [h.only]
  have hattached : forall d, (p.setInUsing c false).Attached d :=
    fun d => (attached_setInUsing p c d false).mpr (h.attached d)
  rcases (p.setInUsing c false).onClientClosing_cases c with ⟨_, hclose⟩ | ⟨_, hclose⟩
  · have hidle : insertClient p.addr c p.idle_ = [c] := by simp [insertClient, h.none]
    rw [hclose]
    constructor
    · exact hempty
    · show (insertClient p.addr c p.idle_).length ≤ 1
      rw [hidle]
      exact Nat.le_refl 1
    · exact Nat.le_succ_of_le h.few
    · exact hcounters
    · intro key s hs
      rcases h.owners key s hs with hzero | hown
      · exact Or.inl hzero
      · exact Or.inr (mem_insertClient.mpr (Or.inl hown))
    · intro d hd hle
      rcases h.accounted d hd hle with rfl | hothers
      · exact Or.inl (mem_insertClient.mpr (Or.inl rfl))
      · exact Or.inr hothers
    · show 0 ∉ insertClient p.addr c p.idle_
      rw [hidle, List.mem_singleton]
      exact Nat.ne_of_lt h.positive
    · exact hattached
    · exact h.room
  · rw [hclose]
    constructor
    · exact hempty
    · show p.idle_.length ≤ 1
      rw [h.none]
      exact Nat.zero_le 1
    · show (p.toDestrory_ ++ [c]).length ≤ 2
      rw [List.length_append]
      exact Nat.succ_le_succ h.few
    · exact hcounters
    · intro key s hs
      rcases StateBag.released hs with hzero | ⟨t, ht, heq, hown⟩
      · exact Or.inl hzero
      · rw [heq]
        exact Or.inl ((h.owners key t ht).resolve_right hown)
    · intro d hd hle
      rcases h.accounted d hd hle with rfl | hwaits | hdel
      · exact Or.inr (Or.inl (List.mem_append_right _ (List.mem_singleton_self _)))
      · exact Or.inr (Or.inl (List.mem_append_left _ hwaits))
      · exact Or.inr (Or.inr hdel)
    · show 0 ∉ p.idle_
      rw [h.none]
      exact List.not_mem_nil
    · exact hattached
    · exact h.room

end Lent

/-- All clients are going to be deleted, and no state has a client. -/
structure Drained (p : ClientPool) : Prop where
  unused : p.using_ = []
  none : p.idle_ = []
  counters : forall c, (p.clients c).usingCounter = 0
  free : forall key s, p.stateBag_.get key = some s -> s.clientId = 0
  accounted : forall c, 0 < c -> c ≤ p.lastId_ -> c ∈ p.toDestrory_ ∨ c ∈ p.deleted
  attached : forall c, p.Attached c
  room : 1 < p.maxClient_

theorem AtRest.resetSection {p : ClientPool} (h : p.AtRest) : Drained p.resetSection where
  unused := rfl
  none := rfl
  counters := h.counters
  free := by
    intro key s hs
    have hget : p.stateBag_.resetClientId.get key = some s := hs
    unfold StateBag.resetClientId at hget
    rw [StateBag.get_giveTo] at hget
    rcases Option.map_eq_some_iff.mp hget with ⟨t, _, rfl⟩
    rfl
  accounted := by
    intro c hpos hle
    rcases h.accounted c hpos hle with hmem | hwaits | hdel
    · exact Or.inl (List.mem_append_right _ hmem)
    · exact Or.inl (List.mem_append_left _ (List.mem_append_left _ hwaits))
    · exact Or.inr hdel
  attached := h.attached
  room := h.room

theorem Drained.destroyClients {p : ClientPool} (h : Drained p) (force : Bool) :
    Drained (p.destroyClients force) ∧ (p.destroyClients force).toDestrory_ = [] := by
  rcases destroyClients_all h.counters force with ⟨hgone, hdeleted⟩
  refine ⟨{ h with accounted := ?_ }, hgone⟩
  intro c hpos hle
  rw [hdeleted]
  rcases h.accounted c hpos hle with hwaits | hdel
  · exact Or.inr (List.mem_append_left _ (List.mem_reverse.mpr hwaits))
  · exact Or.inr (List.mem_append_right _ hdel)

theorem Drained.atRest {p : ClientPool} (h : Drained p) (hgone : p.toDestrory_ = []) :
    p.AtRest where
  unused := h.unused
  single := by
    rw [h.none]
    exact Nat.zero_le 1
  few := by
    rw [hgone]
    exact Nat.zero_le 2
  counters := h.counters
  owners := fun key s hs => Or.inl (h.free key s hs)
  accounted := fun c hpos hle => Or.inr (h.accounted c hpos hle)
  positive := by
    rw [h.none]
    exact List.not_mem_nil
  attached := h.attached
  room := h.room

end ClientPool

/-!
## The tasks and the callbacks
-/

open ClientPool

def Resting (w : World) : Prop :=
  w.pool.AtRest

def Lending (c : ClientId) (w : World) : Prop :=
  Lent c w.pool

def Rests {α : Type} (x : ZkM α) : Prop :=
  Avoids (fun _ => False) Resting x fun _ => Resting

def Lends {α : Type} (c : ClientId) (x : ZkM α) : Prop :=
  Avoids (fun _ => False) (Lending c) x fun _ => Lending c

section Moves

variable {env : Env} {c : ClientId} {w w' : World}

theorem ClientMove.clients_other (hmove : ClientMove env c w w') {d : ClientId} (hd : d ≠ c) :
    w'.pool.clients d = w.pool.clients d := by
  cases hmove with
  | event e he _ =>
      rw [he.pool]
      unfold Event.onPool
      dsimp only
      split
      · simp [ClientPool.setConnected, ClientPool.updateClient, hd]
      · rfl
  | hangUp _ => simp [ClientPool.setHandle, ClientPool.updateClient, hd]
  | attach => simp [ClientPool.setHandle, ClientPool.updateClient, hd]
  | connect _ => simp [ClientPool.setConnected, ClientPool.updateClient, hd]
  | disconnect => simp [ClientPool.setConnected, ClientPool.updateClient, hd]

theorem ClientMove.lending (hmove : ClientMove env c w w') (h : Lending c w) :
    Lending c w' := by
  have hattached : forall d, w'.pool.Attached d := by
    intro d
    by_cases hd : d = c
    · rw [hd]
      exact hmove.attached (Lent.attached h c)
    · unfold ClientPool.Attached ClientPool.getConnected
      rw [hmove.clients_other hd]
      exact Lent.attached h d
  cases hmove with
  | event e he _ =>
      unfold Lending
      rw [he.pool] at hattached ⊢
      exact Lent.onPool h e hattached
  | hangUp _ =>
      exact Lent.updateClient h c (f := fun client => { client with zhandle_ := false })
        (fun _ => rfl) hattached
  | attach =>
      exact Lent.updateClient h c (f := fun client => { client with zhandle_ := true })
        (fun _ => rfl) hattached
  | connect _ =>
      exact Lent.updateClient h c (f := fun client => { client with connected_ := true })
        (fun _ => rfl) hattached
  | disconnect =>
      exact Lent.updateClient h c (f := fun client => { client with connected_ := false })
        (fun _ => rfl) hattached

theorem TaskMove.lending (hmove : TaskMove env c w w') (h : Lending c w) : Lending c w' := by
  cases hmove with
  | client hmove => exact hmove.lending h
  | own hmove =>
      unfold Lending
      rw [hmove.pool_eq]
      exact h

end Moves

section Programs

variable {env : Env} {depth : Nat} {c : ClientId}

theorem lends_of_steps (env : Env) {α : Type} {x : ZkM α} (hx : Steps (ClientMove env c) x) :
    Lends c x :=
  hx.avoids fun _ _ => ClientMove.lending

theorem rests_of_own {α : Type} {x : ZkM α} (hx : Steps (OwnMove env) x) : Rests x := by
  apply hx.avoids
  intro s t hmove hs
  unfold Resting
  rw [hmove.pool_eq]
  exact hs

theorem rests_pure {α : Type} (a : α) : Rests (pure a : ZkM α) :=
  Avoids.pure fun _ hs => hs

theorem rests_get : Avoids (fun _ => False) Resting (get : ZkM World) fun _ => Resting :=
  Avoids.get fun _ hs => hs

theorem open_lends : Avoids (fun _ => False) Resting (ZkClient.poolOpen env depth)
    fun r w => exists c, r = some c ∧ Lending c w := by
  have hopened : forall w : World, Resting w -> exists c,
      (ZkClient.opened env w).2 = some c ∧ Lent c (ZkClient.opened env w).1 := by
    intro w hw
    rcases AtRest.destroyClients hw false with ⟨hrest, hgone⟩
    exact hrest.openSection hgone _
  apply ZkClient.poolOpen_avoids
  · intro w hw hnone
    rcases hopened w hw with ⟨c, hc, _⟩
    rw [hnone] at hc
    cases hc
  · intro w c hw hsome
    rcases hopened w hw with ⟨d, hd, hlent⟩
    rw [hsome] at hd
    cases hd
    have hstamped : Lending c (ZkClient.stamped env w c) := by
      apply Lent.updateClient hlent c (f := fun client => {
        client with lastUse_ := env.clock (w.ticks + 1) + w.slept }) fun _ => rfl
      intro d
      have hold := hlent.attached d
      unfold ClientPool.Attached ClientPool.getConnected at hold ⊢
      unfold ClientPool.updateClient
      dsimp only
      split
      · exact hold
      · exact hold
    have hopen : Lends c (ZkClient.open_ env depth c) :=
      lends_of_steps env (ZkClient.open_steps depth)
    apply hopen.mono
    · rintro v rfl
      exact hstamped
    · intro _ v hv
      exact ⟨c, rfl, hv⟩

theorem close_rests : Avoids (fun _ => False) (Lending c) (ZkClient.close c) fun _ => Resting :=
  fun _ hs => Lent.close hs

theorem borrow_rests {α : Type} {task : Option ClientId -> ZkM α}
    (htask : forall c, Avoids (fun _ => False) (Lending c) (task (some c)) fun _ => Resting) :
    Rests (ZkClient.poolOpen env depth >>= task) := by
  apply Avoids.bind open_lends
  intro r
  cases r with
  | none =>
      apply Avoids.never
      rintro w ⟨c, hc, _⟩
      cases hc
  | some c =>
      apply (htask c).mono ?_ fun _ _ h => h
      rintro w ⟨d, hd, hlent⟩
      cases hd
      exact hlent

end Programs

namespace ServerHandler

variable {env : Env} {depth : Nat}

theorem check_rests : Rests (check env depth) := by
  apply borrow_rests
  intro c
  have hcheck : Lends c (checkWith env depth c) :=
    checkWith_steps.avoids fun _ _ => TaskMove.lending
  exact Avoids.bind hcheck fun _ => close_rests

theorem warm_rests : Rests (warm env depth) :=
  Avoids.bind (rests_of_own fromFile_steps) fun _ => check_rests

theorem keepAwake_rests : Rests (keepAwake env depth) := by
  apply Avoids.bind rests_get
  intro w
  apply Avoids.ite
  · intro _
    exact borrow_rests fun c => close_rests
  · exact fun _ => rests_pure _

theorem connStatus_rests : Rests (connStatus env depth) := by
  apply Avoids.bind rests_get
  intro w
  apply Avoids.ite fun _ => rests_pure _
  intro _
  apply borrow_rests
  intro c
  have hasked : Lends c (ZkClient.getConnected c) := fun _ hs => hs
  apply Avoids.bind hasked
  intro up
  exact Avoids.bind close_rests fun _ => rests_pure _

theorem status_rests (host : Host) : Rests (status env depth host) := by
  apply Avoids.bind connStatus_rests
  intro ret
  exact Avoids.bind rests_get fun w => rests_pure _

theorem registerWith_lends {hostname : String} {port : Int} {c : ClientId} :
    Lends c (registerWith env depth hostname port c) := by
  have hreconnect : Steps (ClientMove env c) (ZkClient.connectZk env depth c) :=
    ZkClient.connectZk_steps depth
  apply lends_of_steps env
  apply Steps.bind ZkClient.getConnected_steps
  intro up
  apply Steps.ite
  · apply Steps.bind (ZkClient.createPnode_steps hreconnect _)
    intro _
    apply Steps.bind (ZkClient.createPnode_steps hreconnect _)
    intro _
    exact Steps.bind (ZkClient.createEnode_steps hreconnect _ _) fun _ => Steps.pure _
  · exact ZkClient.log_steps (fun _ => trivial) (fun _ => rfl) fun _ => rfl

theorem registerSelf_rests (hostname : String) (port : Int) :
    Rests (registerSelf env depth hostname port) :=
  borrow_rests fun _ => Avoids.bind registerWith_lends fun _ => close_rests

theorem fetchService_rests (zkpath : String) : Rests (fetchService env depth zkpath) := by
  apply borrow_rests
  intro c
  have hfetch : Lends c (ZkClient.getService env (ZkClient.connectZk env depth) c zkpath) :=
    lends_of_steps env (ZkClient.getService_steps (ZkClient.connectZk_steps depth) zkpath)
  exact Avoids.bind hfetch fun _ => close_rests

end ServerHandler

namespace Watcher

variable {env : Env} {depth : Nat}

theorem onEvent_lends (watcher : Watcher) (type : ZkEventType) (path : String) (c : ClientId) :
    Lends c (onEvent env depth watcher type path c) := by
  have hread : Lends c (reread env depth path c watcher >>= fun _ => pure PUnit.unit) :=
    lends_of_steps env (Steps.bind (watcher.reread_steps path c) fun _ => Steps.pure _)
  cases type with
  | created => exact hread
  | changed => exact hread
  | child => exact hread
  | deleted =>
      have hdrop : Lends c (mapCache (drop path watcher)) := Avoids.modify fun _ hs => hs
      apply Avoids.bind hdrop
      intro _
      refine Avoids.modify fun w hw => ?_
      have hremove : w.pool.stateBag_.Changed c (fun _ _ => True) _ :=
        .remove (createKey path watcher.stateType)
      exact Lent.changed hw hremove
  | session => exact Avoids.pure fun _ hs => hs
  | notWatching => exact Avoids.pure fun _ hs => hs

theorem callback_rests (watcher : Watcher) (type : ZkEventType) (path : String) :
    Rests (callback env depth watcher type path) :=
  borrow_rests fun c => Avoids.bind (onEvent_lends watcher type path c) fun _ => close_rests

end Watcher

namespace WatchCallback

variable {env : Env} {depth : Nat}

theorem recreate_rests (path : String) : Rests (recreate env depth path) := by
  apply borrow_rests
  intro c
  have hcreate : Lends c (ZkClient.createEnode env (ZkClient.connectZk env depth) c path "") :=
    lends_of_steps env (ZkClient.createEnode_steps (ZkClient.connectZk_steps depth) path "")
  exact Avoids.bind hcreate fun _ => close_rests

theorem call_rests (callback : WatchCallback) (type : ZkEventType) (state : Int)
    (path : Option String) : Rests (callback.call env depth type state path) := by
  cases callback with
  | createEnode =>
      cases path with
      | none => exact rests_pure _
      | some path => exact Avoids.ite (fun _ => recreate_rests path) fun _ => rests_pure _
  | reading watcher =>
      cases path with
      | none => exact rests_pure _
      | some path => exact Watcher.callback_rests watcher type path
  | global => exact rests_pure _

end WatchCallback

/-!
## The reset of the pool
-/

namespace ServerHandler

variable {env : Env}

def Draining (w u : World) : Prop :=
  Drained u.pool ∧ u.pool.stateBag_ = w.pool.stateBag_.resetClientId ∧
    u.pool.clients = w.pool.clients ∧ u.cache = w.cache

structure Emptied (w w' : World) : Prop where
  rests : Resting w'
  idle : w'.pool.idle_ = []
  destroyed : w'.pool.toDestrory_ = []
  bag : w'.pool.stateBag_ = w.pool.stateBag_.resetClientId
  clients : w'.pool.clients = w.pool.clients
  cache : w'.cache = w.cache

variable {w u : World}

theorem Draining.start (hw : Resting w) :
    Draining w { w with pool := w.pool.resetSection, ticks := w.ticks + 1 } :=
  ⟨AtRest.resetSection hw, rfl, rfl, rfl⟩

theorem Draining.destroys (h : Draining w u) :
    Draining w { u with pool := u.pool.destroyClients false } :=
  ⟨(h.left.destroyClients false).left, h.right⟩

theorem Draining.forces (h : Draining w u) :
    Emptied w { u with pool := u.pool.destroyClients true } := by
  rcases h.left.destroyClients true with ⟨hdrained, hgone⟩
  exact ⟨hdrained.atRest hgone, hdrained.none, hgone, h.right.left, h.right.right.left,
    h.right.right.right⟩

theorem destroyLoop_drains (start rounds : Nat) :
    Avoids (fun _ => False) (Draining w) (destroyLoop env start rounds) fun _ => Draining w := by
  induction rounds with
  | zero => exact Avoids.throw fun h => h
  | succ rounds ih =>
      have hnow : Avoids (fun _ => False) (Draining w) (nowInMs env) fun _ => Draining w :=
        fun _ hs => hs
      have hsleep : Avoids (fun _ => False) (Draining w) (sleepMs 1) fun _ => Draining w :=
        fun _ hs => hs
      apply Avoids.bind hnow
      intro now
      apply Avoids.bind (Avoids.get (Q := fun _ => Draining w) fun _ hs => hs)
      intro v
      apply Avoids.ite
      · intro _
        apply Avoids.bind (Q := fun _ => Draining w) (Avoids.modify fun s hs => hs.destroys)
        intro _
        exact Avoids.bind hsleep fun _ => ih
      · exact fun _ => Avoids.pure fun _ hs => hs

theorem resetPool_empties {w : World} (rounds : Nat) :
    Avoids (fun _ => False) (fun v => v = w ∧ Resting w) (resetPool env rounds)
      fun _ => Emptied w := by
  apply Avoids.bind (Q := fun _ v => Draining w v)
  · apply Avoids.modify
    rintro v ⟨rfl, hv⟩
    exact Draining.start hv
  intro _
  have hnow : Avoids (fun _ => False) (Draining w) (nowInMs env) fun _ => Draining w :=
    fun _ hs => hs
  apply Avoids.bind hnow
  intro start
  apply Avoids.bind (destroyLoop_drains start rounds)
  intro _
  exact Avoids.modify fun s hs => hs.forces

theorem destroyLoop_done (start rounds : Nat) (hgone : u.pool.toDestrory_ = []) :
    destroyLoop env start (rounds + 1) u = Except.ok (⟨⟩, { u with ticks := u.ticks + 1 }) := by
  have hnot : ¬ (((env.clock u.ticks + u.slept : Nat) : Int) - start) % 2 ^ 64 <
      destroyWaitTimeoutMs ∨ ¬ u.pool.toDestrory_.length > 0 := by
    right
    rw [hgone]
    exact Nat.lt_irrefl 0
  simp only [destroyLoop, nowInMs, bind_assoc, pure_bind, get_bind_run, modify_bind_run, ite_run]
  rw [if_neg (not_and_or.mpr hnot)]
  rfl

theorem resetPool_returns (hw : Resting w) (rounds : Nat) :
    Returns (resetPool env (rounds + 2)) w fun _ w' => Emptied w w' := by
  have hreturns : Returns (resetPool env (rounds + 2)) w fun _ _ => True := by
    refine Returns.bindOk (modify_run _ _) (Returns.bindOk (a := env.clock w.ticks + w.slept)
      (t := { w with pool := w.pool.resetSection, ticks := w.ticks + 1 }) rfl ?_)
    have hloop : Returns (destroyLoop env (env.clock w.ticks + w.slept) (rounds + 2))
        { w with pool := w.pool.resetSection, ticks := w.ticks + 1 } fun _ _ => True := by
      unfold destroyLoop
      refine Returns.bindOk rfl (Returns.getBind ?_)
      split
      · refine Returns.bindOk (modify_run _ _) (Returns.bindOk rfl ?_)
        have hgone := ((AtRest.resetSection hw).destroyClients false).right
        exact ⟨_, _, destroyLoop_done _ rounds hgone, trivial⟩
      · exact Returns.pure trivial
    apply Returns.bind hloop
    intro _ v _
    exact ⟨⟨⟩, _, rfl, trivial⟩
  rcases hreturns with ⟨a, v, hrun, _⟩
  exact ⟨a, v, hrun, (resetPool_empties (rounds + 2)).ok ⟨rfl, hw⟩ hrun⟩

end ServerHandler

end FrProxy
