import FrProxy.ClientPool.System

/-!
# The limit of the pool

Only `open` compares the size with `max_client_`.  A client that was reset or
evicted while somebody held it is no longer counted, so that `open` may create
another one, and the close of the first brings it back.
-/

namespace FrProxy

namespace ClientPool

def WithinLimit (p : ClientPool) : Prop :=
  p.size ≤ p.maxClient_

instance (p : ClientPool) : Decidable p.WithinLimit :=
  inferInstanceAs (Decidable (p.size ≤ p.maxClient_))

theorem length_insertClient_le (addr : ClientId -> Nat) (c : ClientId) (l : List ClientId) :
    (insertClient addr c l).length ≤ l.length + 1 := by
  unfold insertClient
  split
  · exact Nat.le_succ _
  · rw [List.orderedInsert_length]

theorem size_nonneg (p : ClientPool) : 0 ≤ p.size := by
  unfold size
  omega

theorem size_reuse (l : List ClientId) (p : ClientPool) :
    (p.reuse l).1.size ≤ p.using_.length + l.length ∧
      (p.reuse l).1.maxClient_ = p.maxClient_ := by
  induction l generalizing p with
  | nil => exact ⟨Int.le_refl _, rfl⟩
  | cons c rest ih =>
      unfold reuse
      by_cases hconn : p.getConnected c = true
      · rw [if_pos hconn]
        have hlen := length_insertClient_le p.addr c p.using_
        refine ⟨?_, rfl⟩
        simp only [size, setInUsing_using_, setInUsing_addr, List.length_cons]
        omega
      · rw [if_neg hconn]
        have htail := ih (moveToDestroyList { p with idle_ := rest } c)
        refine ⟨Int.le_trans htail.left ?_, htail.right⟩
        simp only [moveToDestroyList, List.length_cons]
        omega

theorem size_create (p : ClientPool) :
    p.create.size ≤ p.size + 1 ∧ p.create.maxClient_ = p.maxClient_ := by
  have hlen := length_insertClient_le p.addr (p.lastId_ + 1) p.using_
  refine ⟨?_, rfl⟩
  show ((insertClient p.addr (p.lastId_ + 1) p.using_).length : Int) + p.idle_.length ≤
    p.using_.length + p.idle_.length + 1
  omega

theorem size_evictLoop (now rounds : Nat) (p : ClientPool) :
    (evictLoop now rounds p).size ≤ p.size ∧
      (evictLoop now rounds p).maxClient_ = p.maxClient_ := by
  induction rounds generalizing p with
  | zero => exact ⟨Int.le_refl _, rfl⟩
  | succ rounds ih =>
      unfold evictLoop
      cases p.using_.find? (p.timedOut now) with
      | none => exact ⟨Int.le_refl _, rfl⟩
      | some c =>
          have htail := ih (p.evict c)
          refine ⟨Int.le_trans htail.left ?_, htail.right⟩
          have hlen : (p.using_.erase c).length ≤ p.using_.length :=
            List.erase_sublist.length_le
          show ((p.using_.erase c).length : Int) + p.idle_.length ≤
            p.using_.length + p.idle_.length
          omega

theorem withinLimit_openSection {p : ClientPool} (h : p.WithinLimit) (now : Nat) :
    (p.openSection now).1.WithinLimit := by
  have hreuse := p.size_reuse p.idle_
  have hsize : (p.reuse p.idle_).1.size ≤ (p.reuse p.idle_).1.maxClient_ := by
    rw [hreuse.right]
    exact Int.le_trans hreuse.left h
  rcases p.openSection_cases now with ⟨_, hroom, hopen⟩ | ⟨_, hopen⟩ | ⟨_, hopen⟩
  · rw [hopen]
    have hcreate := (p.reuse p.idle_).1.size_create
    show (p.reuse p.idle_).1.create.size ≤ (p.reuse p.idle_).1.create.maxClient_
    omega
  · rw [hopen]
    have hevict := size_evictLoop now (p.reuse p.idle_).1.using_.length (p.reuse p.idle_).1
    show (evictLoop now _ (p.reuse p.idle_).1).size ≤ (evictLoop now _ _).maxClient_
    omega
  · rw [hopen]
    exact hsize

theorem size_onClientClosing {p : ClientPool} {c : ClientId} (hidle : c ∉ p.idle_) :
    (p.onClientClosing c).size = p.size - (if c ∈ p.using_ then 1 else 0) +
      if p.getConnected c = true then 1 else 0 := by
  have hlen : ((p.using_.erase c).length : Int) =
      p.using_.length - if c ∈ p.using_ then 1 else 0 := by
    by_cases hc : c ∈ p.using_
    · rw [List.length_erase_of_mem hc, if_pos hc]
      have hpos : 0 < p.using_.length := List.length_pos_of_mem hc
      omega
    · rw [List.erase_of_not_mem hc, if_neg hc]
      omega
  rcases p.onClientClosing_cases c with ⟨hconn, hclose⟩ | ⟨hconn, hclose⟩
  · rw [hclose, hconn, if_pos rfl]
    simp only [size, length_insertClient hidle, hlen]
    omega
  · rw [hclose, hconn, if_neg Bool.false_ne_true]
    simp only [size, moveToDestroyList, hlen]
    omega

end ClientPool

namespace PoolSystem

def startWith (addr : ClientId -> Nat) (max : Int) : PoolSystem :=
  (start addr).mapPool (·.setMaxClient max)

def runWith (addr : ClientId -> Nat) (max : Int) (actions : List PoolAction) :
    List (PoolSystem × PoolAction × PoolSystem) :=
  Transition.transitions step (startWith addr max) actions

def KeepsLimit (s : PoolSystem) (_ : PoolAction) (s' : PoolSystem) : Prop :=
  s'.pool.maxClient_ = s.pool.maxClient_

instance (s : PoolSystem) (a : PoolAction) (s' : PoolSystem) : Decidable (KeepsLimit s a s') :=
  inferInstanceAs (Decidable (s'.pool.maxClient_ = s.pool.maxClient_))

/--
The limit is not negative, and a connected client that is closed is still in
use, or finds room among the valid ones.
-/
def ReturnsWithinLimit (s : PoolSystem) (a : PoolAction) : Prop :=
  0 ≤ s.pool.maxClient_ ∧
    match a with
    | .onClientClosing c =>
        s.pool.getConnected c = true -> c ∈ s.pool.using_ ∨ s.pool.size < s.pool.maxClient_
    | _ => True

instance (s : PoolSystem) (a : PoolAction) : Decidable (ReturnsWithinLimit s a) := by
  cases a with
  | onClientClosing c =>
      exact inferInstanceAs (Decidable (0 ≤ s.pool.maxClient_ ∧
        (s.pool.getConnected c = true -> c ∈ s.pool.using_ ∨ s.pool.size < s.pool.maxClient_)))
  | _ => exact inferInstanceAs (Decidable (0 ≤ s.pool.maxClient_ ∧ True))

theorem sound_startWith (addr : ClientId -> Nat) (max : Int) : Sound (startWith addr max) :=
  (sound_start addr).unmoved (unmoved_step (a := .setMaxClient max) rfl trivial)

theorem withinLimit_step {s s' : PoolSystem} {a : PoolAction} (hstep : step s a = some s')
    (hkeeps : KeepsLimit s a s') (hsound : Sound s) (h : s.pool.WithinLimit)
    (hguard : ReturnsWithinLimit s a) : s'.pool.WithinLimit := by
  cases a with
  | destroyClients force =>
      cases hstep
      exact h
  | openSection now =>
      simp only [step, Option.some.injEq] at hstep
      subst hstep
      exact ClientPool.withinLimit_openSection h now
  | stamp c now =>
      simp only [step, Option.ite_none_right_eq_some, Option.some.injEq] at hstep
      rcases hstep with ⟨_, rfl⟩
      exact h
  | release c =>
      simp only [step, Option.ite_none_right_eq_some, Option.some.injEq] at hstep
      rcases hstep with ⟨_, rfl⟩
      exact h
  | onClientClosing c =>
      have hlimit : s'.pool.maxClient_ = s.pool.maxClient_ := hkeeps
      simp only [step, Option.ite_none_right_eq_some, Option.some.injEq] at hstep
      rcases hstep with ⟨hc, rfl⟩
      have hidle := hsound.borrowedNotIdle c (List.mem_append_right _ hc)
      have hsize := ClientPool.size_onClientClosing hidle
      have hroom := hguard.right
      show (s.pool.onClientClosing c).size ≤ (s.pool.onClientClosing c).maxClient_
      rw [hsize, hlimit]
      have hold : s.pool.size ≤ s.pool.maxClient_ := h
      by_cases hconn : s.pool.getConnected c = true
      · rw [if_pos hconn]
        rcases hroom hconn with huse | hless
        · rw [if_pos huse]
          omega
        · split <;> omega
      · rw [if_neg hconn]
        split <;> omega
  | reset =>
      cases hstep
      exact hguard.left
  | _ =>
      have hsame : Unmoved s s' := unmoved_step hstep trivial
      have hlimit : s'.pool.maxClient_ = s.pool.maxClient_ := hkeeps
      show (s'.pool.using_.length : Int) + s'.pool.idle_.length ≤ s'.pool.maxClient_
      rw [hsame.using_, hsame.idle_, hlimit]
      exact h

theorem returnsWithinLimit_of_within {s s' : PoolSystem} {a : PoolAction}
    (hstep : step s a = some s') (hkeeps : KeepsLimit s a s') (hsound : Sound s)
    (h' : s'.pool.WithinLimit) : ReturnsWithinLimit s a := by
  have hlimit : s'.pool.maxClient_ = s.pool.maxClient_ := hkeeps
  have hwithin : s'.pool.size ≤ s'.pool.maxClient_ := h'
  have hnonneg := s'.pool.size_nonneg
  refine ⟨by omega, ?_⟩
  cases a with
  | onClientClosing c =>
      intro hconn
      by_cases huse : c ∈ s.pool.using_
      · exact Or.inl huse
      · apply Or.inr
        simp only [step, Option.ite_none_right_eq_some, Option.some.injEq] at hstep
        rcases hstep with ⟨hc, rfl⟩
        have hidle := hsound.borrowedNotIdle c (List.mem_append_right _ hc)
        have hsize := ClientPool.size_onClientClosing hidle
        rw [if_neg huse, if_pos hconn] at hsize
        dsimp only at hwithin hlimit
        omega
  | _ => trivial

/--
In a run with a fixed limit the size stays within the limit in every state
exactly when every connected client that is closed is still in use or finds room.
-/
theorem size_within_limit_iff (addr : ClientId -> Nat) (max : Int) (actions : List PoolAction)
    (hfixed : forall s a s', (s, a, s') ∈ runWith addr max actions -> KeepsLimit s a s') :
    (forall s a s', (s, a, s') ∈ runWith addr max actions -> s'.pool.WithinLimit) <->
    forall s a s', (s, a, s') ∈ runWith addr max actions -> ReturnsWithinLimit s a :=
  Transition.good_iff_guarded_of_allowed step KeepsLimit
    (fun s => Sound s ∧ (0 ≤ s.pool.maxClient_ -> s.pool.WithinLimit)) ReturnsWithinLimit
    (fun _ _ s' => s'.pool.WithinLimit)
    (fun _ _ _ hstep hkeeps h hguard =>
      let hwithin := withinLimit_step hstep hkeeps h.left (h.right hguard.left) hguard
      ⟨⟨sound_step hstep h.left, fun _ => hwithin⟩, hwithin⟩)
    (fun _ _ _ hstep hkeeps h hgood => returnsWithinLimit_of_within hstep hkeeps h.left hgood)
    ⟨sound_startWith addr max, fun hnonneg => hnonneg⟩ hfixed

section Example

/-- The only client of a pool of one is closed after the reset has made room for another. -/
private def closeAfterReset : List PoolAction :=
  [.openSection 5, .stamp 1 5, .setConnected 1 true, .reset, .destroyClients false,
    .openSection 6, .stamp 2 6, .release 1, .onClientClosing 1]

theorem limit_exceeded :
    ¬ forall (addr : ClientId -> Nat) (max : Int) (actions : List PoolAction),
      (forall s a s', (s, a, s') ∈ runWith addr max actions -> KeepsLimit s a s') ->
      forall s a s', (s, a, s') ∈ runWith addr max actions -> s'.pool.WithinLimit := by
  intro h
  have hkeeps : forall x, x ∈ runWith id 1 closeAfterReset -> KeepsLimit x.1 x.2.1 x.2.2 := by
    decide
  have hfinal : (Transition.final step (startWith id 1) closeAfterReset).pool.WithinLimit :=
    Transition.final_of_transitions (P := fun s => s.pool.WithinLimit) step closeAfterReset
      (by decide) (h id 1 closeAfterReset fun s a s' hmem => hkeeps (s, a, s') hmem)
  revert hfinal
  decide

/-- The same client, closed before the next one is opened. -/
private def closeBeforeOpen : List PoolAction :=
  [.openSection 5, .stamp 1 5, .setConnected 1 true, .release 1, .onClientClosing 1,
    .openSection 6, .stamp 1 6]

theorem limit_kept :
    (Transition.final step (startWith id 1) closeBeforeOpen).pool.WithinLimit := by
  have hkeeps : forall x, x ∈ runWith id 1 closeBeforeOpen -> KeepsLimit x.1 x.2.1 x.2.2 := by
    decide
  have hguard : forall x, x ∈ runWith id 1 closeBeforeOpen -> ReturnsWithinLimit x.1 x.2.1 := by
    decide
  have hiff := size_within_limit_iff id 1 closeBeforeOpen
    fun s a s' hmem => hkeeps (s, a, s') hmem
  exact Transition.final_of_transitions (P := fun s => s.pool.WithinLimit) step closeBeforeOpen
    (by decide) (hiff.mpr fun s a s' hmem => hguard (s, a, s') hmem)

end Example

end PoolSystem

end FrProxy
