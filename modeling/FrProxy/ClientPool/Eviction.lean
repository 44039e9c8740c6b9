import FrProxy.ClientPool.Timed

/-!
# What the eviction takes

The test of `open` compares one reading of the clock with time stamps that other
callers write late.  A client without its time stamp shows the one of its last
use, or zero, and one that was stamped after the reading looks older than any.
-/

namespace FrProxy

namespace TimedPool

/-- The clients that were handed out since the reading of the clock. -/
def late (s : TimedPool) : List ClientId :=
  match s.scan with
  | some (.examining _ _ _ late) => late
  | _ => []

/-- Handed out before the reading, and more than `used_timeout_` ago. -/
def Overdue (s : TimedPool) (c : ClientId) : Prop :=
  c ∉ s.late ∧ (s.handedAt c : Int) + s.pool.usedTimeout_ < s.clock

instance (s : TimedPool) (c : ClientId) : Decidable (s.Overdue c) :=
  inferInstanceAs (Decidable (_ ∧ _))

/-- What the branch for a full pool takes out of `using_` is overdue. -/
def EvictsOverdue (s : TimedPool) (a : TimedAction) (s' : TimedPool) : Prop :=
  match a with
  | .examine => forall c, c ∈ s.pool.using_ -> c ∉ s'.pool.using_ -> s.Overdue c
  | _ => True

instance (s : TimedPool) (a : TimedAction) (s' : TimedPool) :
    Decidable (s.EvictsOverdue a s') := by
  cases a with
  | examine =>
      exact inferInstanceAs (Decidable
        (forall c, c ∈ s.pool.using_ -> c ∉ s'.pool.using_ -> s.Overdue c))
  | _ => exact inferInstanceAs (Decidable True)

/--
Before its time stamp is written, the one of the last use is recent enough.
Afterwards it is not later than the reading of the clock, unless by so much that
the difference is small again.
-/
def StampInTime (s : TimedPool) (now : Nat) (c : ClientId) : Prop :=
  if c ∈ s.system.opening then
    (now : Int) ≤ (s.pool.clients c).lastUse_ + s.pool.usedTimeout_
  else
    s.handedAt c ≤ now ∨ (now : Int) + 2 ^ 64 ≤ s.handedAt c + s.pool.usedTimeout_

instance (s : TimedPool) (now : Nat) (c : ClientId) : Decidable (s.StampInTime now c) := by
  unfold StampInTime
  infer_instance

def ExaminesInTime (s : TimedPool) (a : TimedAction) : Prop :=
  match a, s.scan with
  | .examine, some (.examining _ now (c :: _) _) => ¬ s.Overdue c -> s.StampInTime now c
  | _, _ => True

theorem Timed.timedOut_iff_not_inTime {s : TimedPool} (h : Timed s) {chosen : Option ClientId}
    {now : Nat} {c : ClientId} {rest late : List ClientId}
    (hscan : s.scan = some (.examining chosen now (c :: rest) late)) (hc : ¬ s.Overdue c) :
    s.pool.timedOut now c = true <-> ¬ s.StampInTime now c := by
  have hscanning := h.scanning chosen now (c :: rest) late hscan
  have hlate : s.late = late := by
    simp [TimedPool.late, hscan]
  have hclock := h.clock
  have hlast := h.lastUse c
  have hnow := hscanning.read
  have hpos := h.timeoutPos
  rw [timedOut_iff hpos h.timeoutInt (by omega) (by omega)]
  unfold StampInTime
  by_cases hopening : c ∈ s.system.opening
  · have hearly : c ∉ late := fun hmem => (hscanning.after c hmem).right hopening
    rw [if_pos (hscanning.before c hearly), if_pos hopening]
    omega
  · have huse : c ∈ s.pool.using_ := hscanning.inUse c List.mem_cons_self
    rw [if_neg hopening, h.stamped c huse hopening]
    have hrecent : c ∈ late ∨ (s.clock : Int) ≤ s.handedAt c + s.pool.usedTimeout_ := by
      by_contra hnot
      rw [not_or] at hnot
      exact hc ⟨hlate ▸ hnot.left, Int.not_le.mp hnot.right⟩
    split
    · rcases hrecent with hmem | hrecent
      · have hafter := (hscanning.after c hmem).left
        rw [h.stamped c huse hopening] at hafter
        omega
      · omega
    · omega

/-!
## Evictions
-/

theorem examine_removes_iff {s s' : TimedPool} (hstep : step s .examine = some s') (h : Timed s)
    {d : ClientId} (hd : d ∈ s.pool.using_) :
    d ∉ s'.pool.using_ <->
      exists chosen now rest late,
        s.scan = some (.examining chosen now (d :: rest) late) ∧ s.pool.timedOut now d = true := by
  rcases examine_cases hstep with ⟨_, _, _, hscan, rfl⟩ |
    ⟨chosen, now, c, rest, late, hscan, htimed, rfl⟩ | ⟨_, _, _, _, _, hscan, htimed, rfl⟩
  · constructor
    · exact fun hnot => absurd hd hnot
    · intro hexists
      rcases hexists with ⟨_, _, _, _, heq, _⟩
      rw [hscan] at heq
      cases heq
  · have hmem : d ∉ s.pool.using_.erase c <-> d = c := by
      rw [h.sound.usingNodup.mem_erase_iff]
      tauto
    refine hmem.trans ?_
    constructor
    · intro heq
      subst heq
      exact ⟨chosen, now, rest, late, hscan, htimed⟩
    · intro hexists
      rcases hexists with ⟨_, _, _, _, heq, _⟩
      rw [hscan] at heq
      cases heq
      rfl
  · constructor
    · exact fun hnot => absurd hd hnot
    · intro hexists
      rcases hexists with ⟨_, _, _, _, heq, hold⟩
      rw [hscan] at heq
      cases heq
      exact absurd hold htimed

/-- The examined client is evicted only when overdue, if its time stamp is in time. -/
theorem evictsOverdue_iff_examinesInTime {s s' : TimedPool} {a : TimedAction}
    (hstep : step s a = some s') (h : Timed s) : EvictsOverdue s a s' <-> ExaminesInTime s a := by
  cases a with
  | examine =>
      constructor
      · intro hgood
        unfold ExaminesInTime
        split
        · rename_i chosen now c rest late _ hscan
          intro hnot
          by_contra hlate
          have huse := (h.scanning _ _ _ _ hscan).inUse c List.mem_cons_self
          have htimed := (h.timedOut_iff_not_inTime hscan hnot).mpr hlate
          have hgone := (examine_removes_iff hstep h huse).mpr
            ⟨chosen, now, rest, late, hscan, htimed⟩
          exact hnot (hgood c huse hgone)
        · trivial
      · intro hguard c huse hgone
        rcases (examine_removes_iff hstep h huse).mp hgone with
          ⟨chosen, now, rest, late, hscan, htimed⟩
        by_contra hnot
        unfold ExaminesInTime at hguard
        rw [hscan] at hguard
        exact (h.timedOut_iff_not_inTime hscan hnot).mp htimed (hguard hnot)
  | _ => exact ⟨fun _ => trivial, fun _ => trivial⟩

/--
`open` evicts nothing but overdue clients exactly when the time stamp of every
examined client that is not overdue is in time.
-/
theorem evicts_overdue_iff (addr : ClientId -> Nat) (actions : List TimedAction) :
    (forall s a s', (s, a, s') ∈ runFrom addr actions -> EvictsOverdue s a s') <->
    forall s a s', (s, a, s') ∈ runFrom addr actions -> ExaminesInTime s a :=
  Transition.good_iff_guarded step Timed ExaminesInTime EvictsOverdue
    (fun _ _ _ hstep h hguard =>
      ⟨timed_step hstep h, (evictsOverdue_iff_examinesInTime hstep h).mpr hguard⟩)
    (fun _ _ _ hstep h hgood => (evictsOverdue_iff_examinesInTime hstep h).mp hgood)
    actions (timed_start addr)

section Example

/-- The only client of a pool of one has no time stamp yet when another caller comes. -/
private def evictUnstamped : List TimedAction :=
  [.other (.setMaxClient 1), .tick 2000000, .enter, .enter, .readClock, .examine]

theorem unstamped_evicted :
    ¬ forall (addr : ClientId -> Nat) (actions : List TimedAction) (s : TimedPool)
      (a : TimedAction) (s' : TimedPool),
      (s, a, s') ∈ runFrom addr actions -> EvictsOverdue s a s' := by
  intro h
  have hall : forall x, x ∈ runFrom id evictUnstamped -> EvictsOverdue x.1 x.2.1 x.2.2 :=
    fun x hx => h id evictUnstamped x.1 x.2.1 x.2.2 hx
  revert hall
  decide

end Example

end TimedPool

end FrProxy
