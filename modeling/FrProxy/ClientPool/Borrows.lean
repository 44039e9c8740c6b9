import FrProxy.ClientPool.System
import Mathlib.Data.List.TakeWhile

/-!
# Counting borrows

`using_counter` against the borrows that are really outstanding.  The one place
where the two part is the eviction in `open`: it takes a borrow off the counter
of a client whose holder is still going to do the same.
-/

namespace FrProxy

namespace ClientPool

/-!
## What a pass through `open` does
-/

theorem timedOut_congr {p q : ClientPool} {c : ClientId}
    (huse : (q.clients c).lastUse_ = (p.clients c).lastUse_)
    (htimeout : q.usedTimeout_ = p.usedTimeout_) (now : Nat) :
    q.timedOut now c = p.timedOut now c := by
  unfold timedOut
  rw [huse, htimeout]

theorem reuse_snd (l : List ClientId) (p : ClientPool) :
    (p.reuse l).2 = l.find? p.getConnected := by
  induction l generalizing p with
  | nil => rfl
  | cons c rest ih =>
      by_cases hconn : p.getConnected c = true
      · simp [reuse, hconn]
      · simp only [reuse, hconn, if_false, Bool.false_eq_true, List.find?_cons]
        exact ih _

theorem reuse_using_ (l : List ClientId) (p : ClientPool) :
    (p.reuse l).1.using_ =
      match l.find? p.getConnected with
      | none => p.using_
      | some c => insertClient p.addr c p.using_ := by
  induction l generalizing p with
  | nil => rfl
  | cons c rest ih =>
      by_cases hconn : p.getConnected c = true
      · simp [reuse, hconn]
      · simp only [reuse, hconn, if_false, Bool.false_eq_true, List.find?_cons]
        exact ih _

theorem reuse_idle_ (l : List ClientId) (p : ClientPool) :
    (p.reuse l).1.idle_ = (l.dropWhile fun c => !p.getConnected c).tail := by
  induction l generalizing p with
  | nil => rfl
  | cons c rest ih =>
      by_cases hconn : p.getConnected c = true
      · simp [reuse, hconn]
      · simp only [reuse, hconn, if_false, Bool.false_eq_true, List.dropWhile_cons,
          Bool.not_false, if_true]
        exact ih _

theorem reuse_clients (l : List ClientId) (p : ClientPool) (c : ClientId) :
    (p.reuse l).1.clients c =
      match l.find? p.getConnected with
      | none => p.clients c
      | some d => (p.setInUsing d true).clients c := by
  induction l generalizing p with
  | nil => rfl
  | cons d rest ih =>
      by_cases hconn : p.getConnected d = true
      · simp [reuse, hconn]
      · simp only [reuse, hconn, if_false, Bool.false_eq_true, List.find?_cons]
        exact ih _

theorem reuse_limits (l : List ClientId) (p : ClientPool) :
    (p.reuse l).1.maxClient_ = p.maxClient_ ∧
      (p.reuse l).1.usedTimeout_ = p.usedTimeout_ ∧
      (p.reuse l).1.lastId_ = p.lastId_ := by
  induction l generalizing p with
  | nil => exact ⟨rfl, rfl, rfl⟩
  | cons d rest ih =>
      by_cases hconn : p.getConnected d = true
      · simp only [reuse, hconn, if_true]
        exact ⟨rfl, rfl, rfl⟩
      · simp only [reuse, hconn, if_false, Bool.false_eq_true]
        exact ih _

theorem reuse_usingCounter (l : List ClientId) (p : ClientPool) (c : ClientId) :
    ((p.reuse l).1.clients c).usingCounter =
      (p.clients c).usingCounter + if (p.reuse l).2 = some c then 1 else 0 := by
  rw [reuse_clients, reuse_snd]
  cases l.find? p.getConnected with
  | none => simp
  | some d =>
      rw [usingCounter_setInUsing]
      by_cases hd : c = d
      · simp [hd]
      · have hne : ¬ d = c := fun h => hd h.symm
        simp [hd, hne]

theorem reuse_timedOut (l : List ClientId) (p : ClientPool) (now : Nat) (c : ClientId) :
    (p.reuse l).1.timedOut now c = p.timedOut now c := by
  apply timedOut_congr
  · rw [reuse_clients]
    cases l.find? p.getConnected with
    | none => rfl
    | some d => exact lastUse_setInUsing p d c true
  · exact (reuse_limits l p).right.left

theorem timedOut_evict (p : ClientPool) (now : Nat) (c : ClientId) :
    (p.evict c).timedOut now = p.timedOut now :=
  funext fun d => timedOut_congr (lastUse_setInUsing _ c d false) rfl now

theorem length_evict_le {p : ClientPool} {test : ClientId -> Bool} {d : ClientId}
    (hfind : p.using_.find? test = some d) {rounds : Nat} (h : p.using_.length ≤ rounds + 1) :
    (p.evict d).using_.length ≤ rounds := by
  show (p.using_.erase d).length ≤ rounds
  rw [List.length_erase_of_mem (List.mem_of_find?_eq_some hfind)]
  omega

theorem evictLoop_usingCounter (now rounds : Nat) (p : ClientPool)
    (hnodup : p.using_.Nodup) (hrounds : p.using_.length ≤ rounds) (c : ClientId) :
    ((evictLoop now rounds p).clients c).usingCounter =
      (p.clients c).usingCounter -
        if c ∈ p.using_ ∧ p.timedOut now c = true then 1 else 0 := by
  induction rounds generalizing p with
  | zero =>
      have hnil : p.using_ = [] := List.length_eq_zero_iff.mp (Nat.le_zero.mp hrounds)
      simp [evictLoop, hnil]
  | succ rounds ih =>
      unfold evictLoop
      cases hfind : p.using_.find? (p.timedOut now) with
      | none =>
          have hnone : ¬ (c ∈ p.using_ ∧ p.timedOut now c = true) := by
            intro h
            rcases h with ⟨hc, htimed⟩
            exact List.find?_eq_none.mp hfind c hc htimed
          simp [hnone]
      | some d =>
          have hd : d ∈ p.using_ := List.mem_of_find?_eq_some hfind
          have htimed : p.timedOut now d = true := List.find?_some hfind
          have husing : (p.evict d).using_ = p.using_.erase d := rfl
          have hlen : (p.evict d).using_.length ≤ rounds := length_evict_le hfind hrounds
          have hcounter : ((p.evict d).clients c).usingCounter =
              (p.clients c).usingCounter + if c = d then -1 else 0 :=
            usingCounter_setInUsing _ d c false
          dsimp only
          rw [ih (p.evict d) (husing ▸ hnodup.erase d) hlen, timedOut_evict, husing, hcounter]
          simp only [hnodup.mem_erase_iff]
          by_cases hcd : c = d
          · subst hcd
            simp [hd, htimed, Int.sub_eq_add_neg]
          · simp [hcd]

theorem create_usingCounter (p : ClientPool) (c : ClientId) :
    (p.create.clients c).usingCounter =
      if c = p.lastId_ + 1 then 1 else (p.clients c).usingCounter := by
  by_cases hc : c = p.lastId_ + 1
  · simp [create, setInUsing, updateClient, hc]
  · simp [create, setInUsing, updateClient, hc]

/-- The section of `open` comes to its eviction: the pool is full once the idle
clients that lost their connection are given up. -/
def Exhausted (p : ClientPool) : Prop :=
  p.size - (p.idle_.takeWhile fun c => !p.getConnected c).length = p.maxClient_

/-- A client that `open` evicts: in use, or handed out by this very call, and timed out. -/
def Evictable (p : ClientPool) (now : Nat) (c : ClientId) : Prop :=
  p.Exhausted ∧ (c ∈ p.using_ ∨ p.idle_.find? p.getConnected = some c) ∧
    p.timedOut now c = true

instance (p : ClientPool) : Decidable p.Exhausted :=
  inferInstanceAs (Decidable (_ = _))

instance (p : ClientPool) (now : Nat) (c : ClientId) : Decidable (p.Evictable now c) :=
  inferInstanceAs (Decidable (_ ∧ _))

theorem takeWhile_of_find?_none {p : ClientPool} {l : List ClientId}
    (h : l.find? p.getConnected = none) :
    l.takeWhile (fun c => !p.getConnected c) = l := by
  apply List.takeWhile_eq_self_iff.mpr
  intro c hc
  simpa using List.find?_eq_none.mp h c hc

theorem reuse_size {p : ClientPool} (hdisjoint : forall c, c ∈ p.using_ -> c ∉ p.idle_) :
    (p.reuse p.idle_).1.size =
      p.size - (p.idle_.takeWhile fun c => !p.getConnected c).length := by
  have hlen := congrArg List.length
    (List.takeWhile_append_dropWhile (p := fun c => !p.getConnected c) (l := p.idle_))
  rw [List.length_append] at hlen
  unfold size
  rw [reuse_using_, reuse_idle_, List.length_tail]
  cases hfind : p.idle_.find? p.getConnected with
  | none =>
      rw [takeWhile_of_find?_none hfind] at hlen ⊢
      dsimp only
      omega
  | some c =>
      have hc : c ∈ p.idle_ := List.mem_of_find?_eq_some hfind
      have hout : c ∉ p.using_ := fun hcu => hdisjoint c hcu hc
      have hpos : 0 < (p.idle_.dropWhile fun c => !p.getConnected c).length := by
        rw [List.length_pos_iff]
        intro hnil
        have hnone := List.dropWhile_eq_nil_iff.mp hnil c hc
        have hconn : p.getConnected c = true := List.find?_some hfind
        simp [hconn] at hnone
      rw [length_insertClient hout]
      omega

section Section

variable {p : ClientPool} (hnodup : p.using_.Nodup)
  (hdisjoint : forall c, c ∈ p.using_ -> c ∉ p.idle_)

include hdisjoint in
theorem exhausted_iff : p.Exhausted <-> (p.reuse p.idle_).1.size = p.maxClient_ := by
  rw [reuse_size hdisjoint]
  exact Iff.rfl

include hnodup in
theorem nodup_reuse : (p.reuse p.idle_).1.using_.Nodup := by
  rw [reuse_using_]
  cases p.idle_.find? p.getConnected with
  | none => exact hnodup
  | some d => exact nodup_insertClient hnodup

theorem mem_reuse {c : ClientId} :
    c ∈ (p.reuse p.idle_).1.using_ <->
      c ∈ p.using_ ∨ p.idle_.find? p.getConnected = some c := by
  rw [reuse_using_]
  cases p.idle_.find? p.getConnected with
  | none => simp
  | some d =>
      rw [mem_insertClient, Option.some.injEq]
      constructor
      · intro h
        rcases h with rfl | hc
        · exact Or.inr rfl
        · exact Or.inl hc
      · intro h
        rcases h with hc | rfl
        · exact Or.inr hc
        · exact Or.inl rfl

include hdisjoint in
theorem evictable_iff (hfull : (p.reuse p.idle_).1.size = (p.reuse p.idle_).1.maxClient_)
    {now : Nat} {c : ClientId} :
    p.Evictable now c <-> c ∈ (p.reuse p.idle_).1.using_ ∧
      (p.reuse p.idle_).1.timedOut now c = true := by
  have hexhausted : p.Exhausted := by
    rw [exhausted_iff hdisjoint, hfull]
    exact (reuse_limits p.idle_ p).left
  rw [mem_reuse, reuse_timedOut]
  exact ⟨fun h => h.right, fun h => ⟨hexhausted, h⟩⟩

include hdisjoint in
theorem not_evictable (hfull : ¬ (p.reuse p.idle_).1.size = (p.reuse p.idle_).1.maxClient_)
    {now : Nat} {c : ClientId} : ¬ p.Evictable now c := by
  intro h
  apply hfull
  rw [(reuse_limits p.idle_ p).left]
  exact (exhausted_iff hdisjoint).mp h.left

include hnodup hdisjoint in
theorem openSection_usingCounter (hfresh : (p.clients (p.lastId_ + 1)).usingCounter = 0)
    (now : Nat) (c : ClientId) :
    ((p.openSection now).1.clients c).usingCounter =
      (p.clients c).usingCounter +
        (if (p.openSection now).2 = some c then 1 else 0) -
        (if p.Evictable now c then 1 else 0) := by
  have hcounter := reuse_usingCounter p.idle_ p c
  rcases p.openSection_cases now with ⟨hnone, hroom, hopen⟩ | ⟨hfull, hopen⟩ | ⟨hroom, hopen⟩
  · have hnot : ¬ p.Evictable now c := not_evictable hdisjoint (by omega)
    rw [hopen, if_neg hnot]
    dsimp only
    rw [create_usingCounter, (reuse_limits p.idle_ p).right.right, hcounter, hnone]
    by_cases hc : c = p.lastId_ + 1
    · simp [hc, hfresh]
    · have hne : ¬ p.lastId_ + 1 = c := fun h => hc h.symm
      simp [hc, hne]
  · rw [hopen]
    dsimp only
    rw [evictLoop_usingCounter now _ _ (nodup_reuse hnodup) (Nat.le_refl _) c, hcounter]
    simp only [evictable_iff hdisjoint hfull]
  · have hnot : ¬ p.Evictable now c := not_evictable hdisjoint hroom
    rw [hopen, if_neg hnot]
    simpa using hcounter

end Section

end ClientPool

namespace PoolSystem

/-!
## Runs
-/

/-- The counter of a client that is not deleted is the number of its outstanding borrows. -/
def Counted (s : PoolSystem) : Prop :=
  forall c, c ∉ s.pool.deleted ->
    (s.pool.clients c).usingCounter = s.outstanding.count c

structure CountsBorrows (s : PoolSystem) (a : PoolAction) (s' : PoolSystem) : Prop where
  counted : Counted s'
  neverNegative : forall c, c ∉ s'.pool.deleted -> 0 ≤ (s'.pool.clients c).usingCounter
  keepsBorrowed : a = .destroyClients false -> forall c, c ∈ s.outstanding ->
    c ∈ s'.pool.deleted -> c ∈ s.pool.deleted

def EvictsNone (s : PoolSystem) : PoolAction -> Prop
  | .openSection now => forall c, s.pool.Evictable now c -> c ∈ s.pool.deleted
  | _ => True

theorem counted_start (addr : ClientId -> Nat) : Counted (start addr) := by
  intro c _
  rfl

theorem Counted.frame {s t : PoolSystem} (h : Counted s)
    (hdeleted : forall c, c ∈ s.pool.deleted -> c ∈ t.pool.deleted)
    (hcounter : forall c, (t.pool.clients c).usingCounter = (s.pool.clients c).usingCounter)
    (hout : t.outstanding.Perm s.outstanding) : Counted t := by
  intro c hc
  rw [hcounter, hout.count_eq]
  exact h c fun hdel => hc (hdeleted c hdel)

theorem deleted_openSection {s s' : PoolSystem} {now : Nat}
    (hstep : step s (.openSection now) = some s') : s'.pool.deleted = s.pool.deleted := by
  refine openSection_keeps (fun t => t.pool.deleted = s.pool.deleted) ?_ hstep rfl
  intro t u hmove ht
  cases hmove with
  | giveUp _ => exact ht
  | reuse _ => exact ht
  | create => exact ht
  | evict _ => exact ht

theorem usingCounter_openSection {s s' : PoolSystem} {now : Nat}
    (hstep : step s (.openSection now) = some s') (hsound : Sound s) (h : Counted s)
    {c : ClientId} (hc : c ∉ s.pool.deleted) :
    (s'.pool.clients c).usingCounter =
      s'.outstanding.count c - if s.pool.Evictable now c then 1 else 0 := by
  have hnew : forall d, (d ∈ s.borrowed ∨ d ∈ s.pool.deleted) -> d ≠ s.pool.lastId_ + 1 := by
    intro d hd heq
    have hle := (hsound.known d (by tauto)).right
    rw [heq] at hle
    exact Nat.not_succ_le_self _ hle
  have hfresh : (s.pool.clients (s.pool.lastId_ + 1)).usingCounter = 0 := by
    rw [h _ fun hdel => hnew _ (Or.inr hdel) rfl]
    have hzero : s.outstanding.count (s.pool.lastId_ + 1) = 0 := by
      apply List.count_eq_zero.mpr
      intro hmem
      exact hnew _ (Or.inl (List.mem_append_left _ hmem)) rfl
    simp [hzero]
  have hcounter := ClientPool.openSection_usingCounter hsound.usingNodup
    hsound.usingNotIdle hfresh now c
  simp only [step, Option.some.injEq] at hstep
  subst hstep
  dsimp only
  rw [hcounter, h c hc]
  unfold outstanding
  dsimp only
  cases (s.pool.openSection now).2 with
  | none => simp
  | some d =>
      by_cases hd : d = c
      · simp [hd]
      · simp [hd]

theorem counted_step {s s' : PoolSystem} {a : PoolAction} (hstep : step s a = some s')
    (hsound : Sound s) (h : Counted s) (hguard : EvictsNone s a) : Counted s' := by
  cases a with
  | destroyClients force =>
      cases hstep
      refine h.frame ?_ (fun _ => rfl) (List.Perm.refl _)
      intro c hc
      exact List.mem_append_right _ hc
  | openSection now =>
      intro c hc
      rw [deleted_openSection hstep] at hc
      have hnot : ¬ s.pool.Evictable now c := fun hev => hc (hguard c hev)
      rw [usingCounter_openSection hstep hsound h hc, if_neg hnot]
      simp
  | stamp c now =>
      simp only [step, Option.ite_none_right_eq_some, Option.some.injEq] at hstep
      rcases hstep with ⟨hc, rfl⟩
      have hsame : Unmoved s (s.mapPool (·.stamp c now)) :=
        unmoved_updateClient s c (f := fun client => { client with lastUse_ := now })
          fun _ => rfl
      exact h.frame (fun _ hd => hd) hsame.counter (outstanding_stamp hc)
  | release c =>
      simp only [step, Option.ite_none_right_eq_some, Option.some.injEq] at hstep
      rcases hstep with ⟨hc, rfl⟩
      intro d hd
      have hpos : 0 < s.held.count c := List.count_pos_iff.mpr hc
      have hold := h d hd
      simp only [outstanding, List.count_append] at hold ⊢
      rw [ClientPool.usingCounter_setInUsing, hold]
      by_cases hdc : d = c
      · subst hdc
        rw [List.count_erase_self]
        simp only [if_true, Bool.false_eq_true, if_false]
        omega
      · rw [List.count_erase_of_ne hdc]
        simp [hdc]
  | onClientClosing c =>
      simp only [step, Option.ite_none_right_eq_some, Option.some.injEq] at hstep
      rcases hstep with ⟨_, rfl⟩
      refine h.frame ?_ ?_ (List.Perm.refl _)
      · intro d hd
        rwa [ClientPool.onClientClosing_deleted]
      · intro d
        rw [ClientPool.onClientClosing_clients]
  | reset =>
      cases hstep
      exact h.frame (fun _ hd => hd) (fun _ => rfl) (List.Perm.refl _)
  | _ =>
      have hsame : Unmoved s s' := unmoved_step hstep trivial
      apply h.frame ?_ hsame.counter
      · rw [hsame.outstanding]
      · rw [hsame.deleted]
        exact fun _ hd => hd

/-- A destruction that is not forced trusts the counter, and the counter is right. -/
theorem countsBorrows_of_counted {s s' : PoolSystem} {a : PoolAction}
    (hstep : step s a = some s') (h : Counted s) (h' : Counted s') :
    CountsBorrows s a s' where
  counted := h'
  neverNegative := by
    intro c hc
    rw [h' c hc]
    exact Int.natCast_nonneg _
  keepsBorrowed := by
    rintro rfl c hc hdel
    by_contra hlive
    simp only [step, Option.some.injEq] at hstep
    subst hstep
    have hpos : 0 < s.outstanding.count c := List.count_pos_iff.mpr hc
    have hcounter := h c hlive
    simp only [mapPool, ClientPool.destroyClients, List.mem_append, List.mem_reverse,
      List.mem_filter, ClientPool.destroys, Bool.false_or, decide_eq_true_eq] at hdel
    rcases hdel with ⟨_, hlow⟩ | hdel
    · omega
    · exact hlive hdel

theorem evictsNone_of_counted {s s' : PoolSystem} {a : PoolAction}
    (hstep : step s a = some s') (hsound : Sound s) (h : Counted s) (h' : Counted s') :
    EvictsNone s a := by
  cases a with
  | openSection now =>
      intro c hev
      by_contra hc
      have hcounter := usingCounter_openSection hstep hsound h hc
      rw [h' c (deleted_openSection hstep ▸ hc), if_pos hev] at hcounter
      omega
  | _ => trivial

/--
The counters are right in every state of a run, and only idle clients are
destroyed without force, exactly when no pass through `open` evicts a client.
-/
theorem borrows_counted_iff (addr : ClientId -> Nat) (actions : List PoolAction) :
    (forall s a s', (s, a, s') ∈ runFrom addr actions -> CountsBorrows s a s') <->
    forall s a s', (s, a, s') ∈ runFrom addr actions -> EvictsNone s a :=
  Transition.good_iff_guarded step (fun s => Sound s ∧ Counted s) EvictsNone CountsBorrows
    (fun _ _ _ hstep h hguard =>
      let hcounted := counted_step hstep h.left h.right hguard
      ⟨⟨sound_step hstep h.left, hcounted⟩, countsBorrows_of_counted hstep h.right hcounted⟩)
    (fun _ _ _ hstep h hgood => evictsNone_of_counted hstep h.left h.right hgood.counted)
    actions ⟨sound_start addr, counted_start addr⟩

section Example

/-- The only client of a pool of one is evicted while its holder is slow. -/
private def evictSlowHolder : List PoolAction :=
  [.setMaxClient 1, .openSection 5, .stamp 1 5, .openSection 2000000]

theorem eviction_miscounts :
    ¬ forall (addr : ClientId -> Nat) (actions : List PoolAction) s a s',
      (s, a, s') ∈ runFrom addr actions -> CountsBorrows s a s' := by
  intro h
  have hfinal : Counted (finalFrom id evictSlowHolder) :=
    Transition.final_of_transitions step evictSlowHolder (counted_start id)
      fun s a s' hmem => (h id evictSlowHolder s a s' hmem).counted
  have hone := hfinal 1 (by decide)
  revert hone
  decide

end Example

end PoolSystem

end FrProxy
