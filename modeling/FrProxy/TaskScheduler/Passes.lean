import FrProxy.TaskScheduler

/-!
# A pass of the scheduler

The loop over the tasks between two sleeps, in any interleaving with the workers.
It is never blocked, comes to each task once, and commits the overdue ones.
-/

namespace FrProxy

namespace SchedulerPhase

def inPass : SchedulerPhase -> Bool
  | asleep _ => false
  | ended => false
  | _ => true

def passed : SchedulerPhase -> Nat
  | atRunner i => i
  | clockRead i _ => i
  | due i _ _ => i
  | marked i => i + 1
  | _ => 0

def reading : SchedulerPhase -> Option UInt64
  | clockRead _ now => some now
  | due _ now _ => some now
  | _ => none

def Within (n : Nat) : SchedulerPhase -> Prop
  | atRunner i => i ≤ n
  | clockRead i _ => i < n
  | due i _ _ => i < n
  | marked i => i < n
  | _ => True

def stepsLeft (n : Nat) : SchedulerPhase -> Nat
  | atRunner i => 4 * (n - i)
  | clockRead i _ => 4 * (n - i) - 1
  | due i _ _ => 4 * (n - i) - 2
  | marked i => 4 * (n - i) - 3
  | _ => 0

end SchedulerPhase

namespace TaskScheduler

inductive Visit (s : TaskScheduler) : SchedulerAction -> TaskScheduler -> Prop where
  | elsewhere {a : SchedulerAction} {s' : TaskScheduler} (hadvance : a ≠ .advance)
      (hwrite : forall i now, a ≠ .write i now) (hclock : s.clock ≤ s'.clock)
      (hrunners : s'.runners = s.runners) (hcommits : s'.commits = s.commits)
      (hphase : s'.phase = s.phase) : Visit s a s'
  | wrote {i : Nat} {now : UInt64} {s' : TaskScheduler} (hclock : s'.clock = s.clock)
      (hrunners : s'.runners = s.runners.modify i (ScheduledTask.stamp now))
      (hcommits : s'.commits = s.commits) (hphase : s'.phase = s.phase) :
      Visit s (.write i now) s'
  | read {i : Nat} (hphase : s.phase = .atRunner i) (hi : i < s.runners.length) :
      Visit s .advance { s with phase := .clockRead i (UInt64.ofNat s.clock) }
  | overdue {i : Nat} {now : UInt64} {task : ScheduledTask} (hphase : s.phase = .clockRead i now)
      (htask : s.runners[i]? = some task) (hdue : task.isDue now = true) :
      Visit s .advance { s with phase := .due i now (decide (i ∈ s.disturbed)) }
  | fresh {i : Nat} {now : UInt64} {task : ScheduledTask} (hphase : s.phase = .clockRead i now)
      (htask : s.runners[i]? = some task) (hdue : task.isDue now = false) :
      Visit s .advance { s with phase := .atRunner (i + 1) }
  | stamped {i : Nat} {now : UInt64} {disturbed : Bool} (hphase : s.phase = .due i now disturbed) :
      Visit s .advance {
        s with
        runners := s.runners.modify i (ScheduledTask.stamp now)
        commits := { runner := i, now := now.toNat, disturbed } :: s.commits
        disturbed := s.disturbed.filter fun j => j != i
        phase := .marked i }
  | committed {i : Nat} {pending : List (Option Nat)} (hphase : s.phase = .marked i) :
      Visit s .advance { s with pending := pending, phase := .atRunner (i + 1) }

section Steps

variable {s s' : TaskScheduler} {a : SchedulerAction}

theorem visit_of_advance (hstep : s.advance = some s') (hs : s.phase.inPass = true)
    (hs' : s'.phase.inPass = true) : Visit s .advance s' := by
  unfold advance at hstep
  cases hphase : s.phase with
  | asleep wakesAt =>
      rw [hphase] at hs
      cases hs
  | atRunner i =>
      rw [hphase] at hstep
      dsimp only at hstep
      split at hstep
      · rename_i hi
        cases hstep
        exact .read hphase hi
      · cases hstep
        cases hs'
  | clockRead i now =>
      rw [hphase] at hstep
      dsimp only at hstep
      cases htask : s.runners[i]? with
      | none =>
          rw [htask] at hstep
          cases hstep
      | some task =>
          rw [htask] at hstep
          dsimp only at hstep
          split at hstep
          · rename_i hdue
            cases hstep
            exact .overdue hphase htask hdue
          · rename_i hdue
            cases hstep
            exact .fresh hphase htask (Bool.eq_false_iff.mpr hdue)
  | due i now disturbed =>
      rw [hphase] at hstep
      cases hstep
      exact .stamped hphase
  | marked i =>
      rw [hphase] at hstep
      dsimp only at hstep
      rcases commitTask_fields s (some i) with ⟨pending, hcommit⟩
      rw [hcommit] at hstep
      cases hstep
      exact .committed hphase
  | ended =>
      rw [hphase] at hs
      cases hs

theorem visit_of_step (hstep : step s a = some s') (hs : s.phase.inPass = true)
    (hs' : s'.phase.inPass = true) : Visit s a s' := by
  cases a with
  | advance => exact visit_of_advance hstep hs hs'
  | fetch =>
      rcases commitTask_fields s none with ⟨pending, hcommit⟩
      have heq : s.commitTask none = s' := Option.some.inj hstep
      rw [<- heq, hcommit]
      exact .elsewhere (by simp) (by simp) (Nat.le_refl _) rfl rfl rfl
  | take =>
      unfold step at hstep
      dsimp only at hstep
      split at hstep
      · cases hstep
      · cases hstep
        exact .elsewhere (by simp) (by simp) (Nat.le_refl _) rfl rfl rfl
      · cases hstep
        exact .elsewhere (by simp) (by simp) (Nat.le_refl _) rfl rfl rfl
  | read i =>
      unfold step at hstep
      dsimp only at hstep
      split at hstep
      · cases hstep
        exact .elsewhere (by simp) (by simp) (Nat.le_refl _) rfl rfl rfl
      · cases hstep
  | write i now =>
      unfold step at hstep
      dsimp only at hstep
      split at hstep
      · cases hstep
        exact .wrote rfl rfl rfl rfl
      · cases hstep
  | tick ms =>
      cases hstep
      exact .elsewhere (by simp) (by simp) (Nat.le_add_right _ _) rfl rfl rfl
  | stop =>
      cases hstep
      exact .elsewhere (by simp) (by simp) (Nat.le_refl _) rfl rfl rfl

/-!
## How long a pass takes
-/

theorem advance_enabled (hs : s.phase.inPass = true) (hplace : s.phase.Within s.runners.length) :
    (step s .advance).isSome = true := by
  show s.advance.isSome = true
  unfold advance
  cases hphase : s.phase with
  | asleep wakesAt =>
      rw [hphase] at hs
      cases hs
  | atRunner i =>
      dsimp only
      split <;> rfl
  | clockRead i now =>
      rw [hphase] at hplace
      have hi : i < s.runners.length := hplace
      dsimp only
      rw [List.getElem?_eq_getElem hi]
      dsimp only
      split <;> rfl
  | due i now disturbed => rfl
  | marked i => rfl
  | ended =>
      rw [hphase] at hs
      cases hs

theorem Visit.stepsLeft_le (h : Visit s a s') (hplace : s.phase.Within s.runners.length) :
    (s'.runners.length = s.runners.length ∧ s'.phase.Within s'.runners.length) ∧
      s'.phase.stepsLeft s'.runners.length + (a == .advance).toNat ≤
        s.phase.stepsLeft s.runners.length := by
  cases h with
  | elsewhere hadvance _ _ hrunners _ hphase =>
      have hother : (a == .advance) = false := beq_eq_false_iff_ne.mpr hadvance
      rw [hrunners, hphase, hother]
      exact ⟨⟨rfl, hplace⟩, Nat.le_refl _⟩
  | wrote _ hrunners _ hphase =>
      rw [hrunners, hphase, List.length_modify]
      exact ⟨⟨rfl, hplace⟩, Nat.le_refl _⟩
  | @read i hphase hi =>
      rw [hphase]
      refine ⟨⟨rfl, hi⟩, ?_⟩
      show 4 * (s.runners.length - i) - 1 + 1 ≤ 4 * (s.runners.length - i)
      omega
  | @overdue i _ _ hphase =>
      rw [hphase] at hplace ⊢
      have hi : i < s.runners.length := hplace
      refine ⟨⟨rfl, hi⟩, ?_⟩
      show 4 * (s.runners.length - i) - 2 + 1 ≤ 4 * (s.runners.length - i) - 1
      omega
  | @fresh i _ _ hphase =>
      rw [hphase] at hplace ⊢
      have hi : i < s.runners.length := hplace
      refine ⟨⟨rfl, hi⟩, ?_⟩
      show 4 * (s.runners.length - (i + 1)) + 1 ≤ 4 * (s.runners.length - i) - 1
      omega
  | @stamped i now _ hphase =>
      rw [hphase] at hplace ⊢
      have hi : i < s.runners.length := hplace
      dsimp only
      rw [List.length_modify]
      refine ⟨⟨rfl, hi⟩, ?_⟩
      show 4 * (s.runners.length - i) - 3 + 1 ≤ 4 * (s.runners.length - i) - 2
      omega
  | @committed i _ hphase =>
      rw [hphase] at hplace ⊢
      have hi : i < s.runners.length := hplace
      refine ⟨⟨rfl, hi⟩, ?_⟩
      show 4 * (s.runners.length - (i + 1)) + 1 ≤ 4 * (s.runners.length - i) - 3
      omega

/-!
## What a pass commits
-/

/-- By the clock `now` the task has not been started for longer than its interval. -/
def Overdue (task : ScheduledTask) (now : Nat) : Prop :=
  task.lastRunMs.toNat + task.intervalInMs.toNat < now

/--
What holds in a pass that began in `s`, when it has made the commits `made`, of the tasks
that no worker starts meanwhile.
-/
structure Passing (started : Nat -> Prop) (s t : TaskScheduler) (made : List Commit) : Prop where
  inPass : t.phase.inPass = true
  since : s.clock ≤ t.clock
  commits : t.commits = made ++ s.commits
  ordered : made.Pairwise fun e f => f.runner < e.runner
  known : forall e, e ∈ made -> e.runner < t.phase.passed ∧ s.clock ≤ e.now ∧ e.now ≤ t.clock
  reading : forall now, t.phase.reading = some now -> s.clock ≤ now.toNat ∧ now.toNat ≤ t.clock
  ahead : forall i task, s.runners[i]? = some task -> ¬ started i -> t.phase.passed ≤ i ->
    t.runners[i]? = some task
  found : forall i now disturbed task, t.phase = .due i now disturbed -> s.runners[i]? = some task ->
    ¬ started i -> Overdue task now.toNat
  behind : forall i task, s.runners[i]? = some task -> ¬ started i -> i < t.phase.passed ->
    (Overdue task s.clock -> i ∈ made.map (·.runner)) ∧
      (i ∈ made.map (·.runner) -> Overdue task t.clock)

variable {started : Nat -> Prop} {t t' : TaskScheduler} {made : List Commit}

theorem passing_start (hphase : s.phase = .atRunner 0) : Passing started s s [] where
  inPass := by rw [hphase]; rfl
  since := Nat.le_refl _
  commits := rfl
  ordered := .nil
  known := fun _ h => absurd h List.not_mem_nil
  reading := by
    intro now hnow
    rw [hphase] at hnow
    cases hnow
  ahead := fun _ _ htask _ _ => htask
  found := by
    intro i now disturbed task hdue
    rw [hphase] at hdue
    cases hdue
  behind := by
    intro i task _ _ hi
    rw [hphase] at hi
    exact absurd hi (Nat.not_lt_zero i)

theorem Passing.same (h : Passing started s t made) (hclock : t.clock ≤ t'.clock)
    (hcommits : t'.commits = t.commits) (hphase : t'.phase = t.phase)
    (hrunners : forall i, ¬ started i -> t'.runners[i]? = t.runners[i]?) :
    Passing started s t' made where
  inPass := hphase ▸ h.inPass
  since := Nat.le_trans h.since hclock
  commits := hcommits.trans h.commits
  ordered := h.ordered
  known := by
    intro e he
    rcases h.known e he with ⟨hplace, hfirst, hlast⟩
    rw [hphase]
    exact ⟨hplace, hfirst, Nat.le_trans hlast hclock⟩
  reading := by
    intro now hnow
    rcases h.reading now (hphase ▸ hnow) with ⟨hfirst, hlast⟩
    exact ⟨hfirst, Nat.le_trans hlast hclock⟩
  ahead := by
    intro i task htask hquiet hi
    rw [hrunners i hquiet]
    exact h.ahead i task htask hquiet (hphase ▸ hi)
  found := fun i now disturbed task hdue => h.found i now disturbed task (hphase ▸ hdue)
  behind := by
    intro i task htask hquiet hi
    rcases h.behind i task htask hquiet (hphase ▸ hi) with ⟨hin, hout⟩
    exact ⟨hin, fun hmem => Nat.lt_of_lt_of_le (hout hmem) hclock⟩

theorem Passing.not_made (h : Passing started s t made) {i : Nat} (hi : t.phase.passed ≤ i) :
    i ∉ made.map (·.runner) := by
  intro hmem
  rcases List.mem_map.mp hmem with ⟨e, he, heq⟩
  have hplace := (h.known e he).left
  rw [heq] at hplace
  exact absurd hplace (Nat.not_lt.mpr hi)

theorem Passing.move (h : Passing started s t made) (hclock : t'.clock = t.clock)
    (hcommits : t'.commits = t.commits) (hrunners : t'.runners = t.runners)
    (hpass : t'.phase.inPass = true) (hpassed : t.phase.passed ≤ t'.phase.passed)
    (hreading : forall now, t'.phase.reading = some now ->
      t.phase.reading = some now ∨ now.toNat = t.clock)
    (hfound : forall i now disturbed task, t'.phase = .due i now disturbed ->
      s.runners[i]? = some task -> ¬ started i -> Overdue task now.toNat)
    (hleft : forall i task, s.runners[i]? = some task -> ¬ started i -> t.phase.passed ≤ i ->
      i < t'.phase.passed -> ¬ Overdue task s.clock) :
    Passing started s t' made where
  inPass := hpass
  since := hclock ▸ h.since
  commits := hcommits.trans h.commits
  ordered := h.ordered
  known := by
    intro e he
    rcases h.known e he with ⟨hplace, hwithin⟩
    exact ⟨Nat.lt_of_lt_of_le hplace hpassed, hclock ▸ hwithin⟩
  reading := by
    intro now hnow
    rw [hclock]
    rcases hreading now hnow with hsame | hnew
    · exact h.reading now hsame
    · exact ⟨hnew ▸ h.since, Nat.le_of_eq hnew⟩
  ahead := by
    intro i task htask hquiet hi
    rw [hrunners]
    exact h.ahead i task htask hquiet (Nat.le_trans hpassed hi)
  found := hfound
  behind := by
    intro i task htask hquiet hi
    rw [hclock]
    by_cases hold : i < t.phase.passed
    · exact h.behind i task htask hquiet hold
    · have hahead : t.phase.passed ≤ i := Nat.le_of_not_lt hold
      exact ⟨fun hdue => absurd hdue (hleft i task htask hquiet hahead hi),
        fun hmem => absurd hmem (h.not_made hahead)⟩

theorem Passing.isDue (h : Passing started s t made)
    (hlast : forall (i : Nat) (task : ScheduledTask), s.runners[i]? = some task ->
      task.lastRunMs.toNat ≤ s.clock)
    {i : Nat} {now : UInt64} {task other : ScheduledTask} (hphase : t.phase = .clockRead i now)
    (htask : t.runners[i]? = some task) (hother : s.runners[i]? = some other)
    (hquiet : ¬ started i) : task.isDue now = true <-> Overdue other now.toNat := by
  have hsame : t.runners[i]? = some other :=
    h.ahead i other hother hquiet (by rw [hphase]; exact Nat.le_refl i)
  rw [htask] at hsame
  cases hsame
  have hread := h.reading now (by rw [hphase]; rfl)
  exact ScheduledTask.isDue_iff (Nat.le_trans (hlast i task hother) hread.left)

theorem Passing.visit (h : Passing started s t made) {a : SchedulerAction} (hvisit : Visit t a t')
    (hlast : forall (i : Nat) (task : ScheduledTask), s.runners[i]? = some task ->
      task.lastRunMs.toNat ≤ s.clock)
    (hstarted : forall i now, a = .write i now -> started i) (hclock : t.clock < 2 ^ 64) :
    exists made', Passing started s t' made' := by
  cases hvisit with
  | elsewhere _ _ hlater hrunners hcommits hphase =>
      exact ⟨made, h.same hlater hcommits hphase fun _ _ => by rw [hrunners]⟩
  | @wrote i now _ hsame hrunners hcommits hphase =>
      refine ⟨made, h.same (Nat.le_of_eq hsame.symm) hcommits hphase fun j hquiet => ?_⟩
      have hij : i ≠ j := fun heq => hquiet (heq ▸ hstarted i now rfl)
      rw [hrunners, List.getElem?_modify]
      simp [hij]
  | @read i hphase hi =>
      refine ⟨made, h.move rfl rfl rfl rfl ?_ ?_ (fun _ _ _ _ hdue => by cases hdue) ?_⟩
      · rw [hphase]
        exact Nat.le_refl i
      · intro now hnow
        cases hnow
        exact Or.inr (toNat_clock hclock)
      · intro j task _ _ hahead hbehind
        rw [hphase] at hahead
        exact absurd hbehind (Nat.not_lt.mpr hahead)
  | @overdue i now task hphase htask hdue =>
      refine ⟨made, h.move rfl rfl rfl rfl ?_ ?_ ?_ ?_⟩
      · rw [hphase]
        exact Nat.le_refl i
      · intro now' hnow
        rw [hphase]
        exact Or.inl hnow
      · intro j now' disturbed other heq hother hquiet
        cases heq
        exact (h.isDue hlast hphase htask hother hquiet).mp hdue
      · intro j other _ _ hahead hbehind
        rw [hphase] at hahead
        exact absurd hbehind (Nat.not_lt.mpr hahead)
  | @fresh i now task hphase htask hdue =>
      refine ⟨made, h.move rfl rfl rfl rfl ?_ (fun _ hnow => by cases hnow)
        (fun _ _ _ _ heq => by cases heq) ?_⟩
      · rw [hphase]
        exact Nat.le_succ i
      · intro j other hother hquiet hahead hbehind hover
        rw [hphase] at hahead
        have hij : j = i := Nat.le_antisymm (Nat.le_of_lt_succ hbehind) hahead
        subst hij
        have hread := h.reading now (by rw [hphase]; rfl)
        have hnow : Overdue other now.toNat := Nat.lt_of_lt_of_le hover hread.left
        rw [(h.isDue hlast hphase htask hother hquiet).mpr hnow] at hdue
        cases hdue
  | @stamped i now disturbed hphase =>
      have hread := h.reading now (by rw [hphase]; rfl)
      have hpassed : t.phase.passed = i := by
        rw [hphase]
        rfl
      refine ⟨{ runner := i, now := now.toNat, disturbed } :: made, rfl, h.since,
        congrArg (_ :: ·) h.commits, ?_, ?_, (fun _ hnow => by cases hnow), ?_,
        (fun _ _ _ _ heq => by cases heq), ?_⟩
      · refine .cons (fun e he => ?_) h.ordered
        exact hpassed ▸ (h.known e he).left
      · intro e he
        rcases List.mem_cons.mp he with rfl | hold
        · exact ⟨Nat.lt_succ_self i, hread⟩
        · rcases h.known e hold with ⟨hplace, hwithin⟩
          exact ⟨Nat.lt_succ_of_lt (hpassed ▸ hplace), hwithin⟩
      · intro j task htask hquiet hj
        have hlater : i < j := hj
        have hij : i ≠ j := Nat.ne_of_lt hlater
        dsimp only
        rw [List.getElem?_modify, h.ahead j task htask hquiet (hpassed ▸ Nat.le_of_lt hlater)]
        simp [hij]
      · intro j task htask hquiet hj
        rcases Nat.lt_succ_iff_lt_or_eq.mp hj with hold | rfl
        · rcases h.behind j task htask hquiet (hpassed ▸ hold) with ⟨hin, hout⟩
          refine ⟨fun hover => List.mem_cons_of_mem _ (hin hover), fun hmem => ?_⟩
          rcases List.mem_cons.mp hmem with heq | hmem
          · exact absurd heq (Nat.ne_of_lt hold)
          · exact hout hmem
        · have hover := h.found j now disturbed task hphase htask hquiet
          exact ⟨fun _ => List.mem_cons_self, fun _ => Nat.lt_of_lt_of_le hover hread.right⟩
  | @committed i pending hphase =>
      have hpassed : t.phase.passed = i + 1 := by
        rw [hphase]
        rfl
      refine ⟨made, h.move rfl rfl rfl rfl (Nat.le_of_eq hpassed) (fun _ hnow => by cases hnow)
        (fun _ _ _ _ heq => by cases heq) ?_⟩
      intro j task _ _ hahead hbehind
      rw [hpassed] at hahead
      exact absurd hbehind (Nat.not_lt.mpr hahead)

end Steps

/-!
## Whole passes
-/

/-- A pass over some tasks takes at most four steps of the scheduler for each of them. -/
theorem advances_le {s : TaskScheduler} {actions : List SchedulerAction}
    (hphase : s.phase = .atRunner 0)
    (hpass : forall u a v, (u, a, v) ∈ Transition.transitions step s actions ->
      v.phase.inPass = true) :
    (Transition.transitions step s actions).countP (fun x => x.2.1 == .advance) ≤
      4 * s.runners.length := by
  let InPass : TaskScheduler -> SchedulerAction -> TaskScheduler -> Prop :=
    fun _ _ v => v.phase.inPass = true
  have hstart : s.phase.inPass = true ∧ s.phase.Within s.runners.length := by
    rw [hphase]
    exact ⟨rfl, Nat.zero_le _⟩
  have hspent := Transition.spent_le (Transition.restrict step InPass)
    (fun s => s.phase.inPass = true ∧ s.phase.Within s.runners.length)
    (fun s => s.phase.stepsLeft s.runners.length) (· == .advance) (fun _ => false) 0
    (by
      intro s a s' hstep hs
      rcases (Transition.restrict_eq_some step InPass).mp hstep with ⟨hstep, hs'⟩
      rcases (visit_of_step hstep hs.left hs').stepsLeft_le hs.right with ⟨⟨_, hplace⟩, hle⟩
      exact ⟨⟨hs', hplace⟩, hle⟩)
    actions hstart
  rw [Transition.transitions_restrict step InPass hpass, hphase] at hspent
  have hall : SchedulerPhase.stepsLeft s.runners.length (.atRunner 0) = 4 * s.runners.length := rfl
  omega

theorem within_run {s : TaskScheduler} {actions : List SchedulerAction}
    (hphase : s.phase = .atRunner 0)
    (hpass : forall u a v, (u, a, v) ∈ Transition.transitions step s actions ->
      v.phase.inPass = true) :
    let t := Transition.final step s actions
    t.phase.inPass = true ∧ t.phase.Within t.runners.length := by
  apply Transition.final_of_kept step
    (P := fun t => t.phase.inPass = true ∧ t.phase.Within t.runners.length) actions
  · rw [hphase]
    exact ⟨rfl, Nat.zero_le _⟩
  · intro u a v hmem hstep hu
    have hv := hpass u a v hmem
    exact ⟨hv, ((visit_of_step hstep hu.left hv).stepsLeft_le hu.right).left.right⟩

theorem passing_run {s : TaskScheduler} {actions : List SchedulerAction}
    (hphase : s.phase = .atRunner 0)
    (hlast : forall (i : Nat) (task : ScheduledTask), s.runners[i]? = some task ->
      task.lastRunMs.toNat ≤ s.clock)
    (hpass : forall u a v, (u, a, v) ∈ Transition.transitions step s actions ->
      v.phase.inPass = true)
    (hclock : (Transition.final step s actions).clock < 2 ^ 64) :
    exists made, Passing (fun i => exists now, SchedulerAction.write i now ∈ actions) s
      (Transition.final step s actions) made := by
  let started : Nat -> Prop := fun i => exists now, SchedulerAction.write i now ∈ actions
  have hrun : (Transition.final step s actions).clock < 2 ^ 64 ->
      exists made, Passing started s (Transition.final step s actions) made := by
    apply Transition.final_of_kept step
      (P := fun t => t.clock < 2 ^ 64 -> exists made, Passing started s t made) actions
      (fun _ => ⟨[], passing_start hphase⟩)
    intro u a v hmem hstep hu hclock'
    have hbefore : u.clock < 2 ^ 64 := Nat.lt_of_le_of_lt (clock_step hstep) hclock'
    rcases hu hbefore with ⟨made, hmade⟩
    have hvisit := visit_of_step hstep hmade.inPass (hpass u a v hmem)
    exact hmade.visit hvisit hlast
      (fun i now heq => ⟨now, heq ▸ Transition.label_mem step hmem⟩) hbefore
  exact hrun hclock

/--
Whatever the workers do meanwhile, a pass of the scheduler is never blocked and takes
at most four steps for each task.  It commits tasks in the order of the vector, each
at most once; and a task that no worker starts during the pass is committed
if it was overdue when the pass began, and only if it is overdue by the end.
-/
theorem pass_commits (tasks : List (String × UInt64)) (clock : Nat)
    (past actions : List SchedulerAction) (s : TaskScheduler)
    (hs : s = Transition.final step (start tasks clock) past) (hphase : s.phase = .atRunner 0)
    (hpass : forall u a v, (u, a, v) ∈ Transition.transitions step s actions ->
      v.phase.inPass = true)
    (hclock : (Transition.final step s actions).clock < 2 ^ 64) :
    let t := Transition.final step s actions
    ((Transition.transitions step s actions).countP (fun x => x.2.1 == .advance) ≤
        4 * tasks.length ∧ (step t .advance).isSome = true) ∧
    exists made, t.commits = made ++ s.commits ∧
      made.Pairwise (fun e f => f.runner < e.runner) ∧
      (forall e, e ∈ made -> s.clock ≤ e.now ∧ e.now ≤ t.clock) ∧
      forall i task, s.runners[i]? = some task ->
        (forall now, SchedulerAction.write i now ∉ actions) -> i < t.phase.passed ->
        (Overdue task s.clock -> i ∈ made.map (·.runner)) ∧
          (i ∈ made.map (·.runner) -> Overdue task t.clock) := by
  intro t
  have hgrows : s.clock ≤ t.clock := by
    apply Transition.final_of_kept step (P := fun t => s.clock ≤ t.clock) actions (Nat.le_refl _)
    exact fun _ _ _ _ hstep hle => Nat.le_trans hle (clock_step hstep)
  have hpaced : Paced tasks clock s := by
    rw [hs]
    exact paced_run tasks clock past (hs ▸ Nat.lt_of_le_of_lt hgrows hclock)
  have hlength : s.runners.length = tasks.length := by
    simpa using congrArg List.length hpaced.intervals
  rcases within_run hphase hpass with ⟨hin, hplace⟩
  rcases passing_run hphase hpaced.stamped hpass hclock with ⟨made, hmade⟩
  refine ⟨⟨hlength ▸ advances_le hphase hpass, advance_enabled hin hplace⟩, made, hmade.commits,
    hmade.ordered, fun e he => (hmade.known e he).right, ?_⟩
  intro i task htask hquiet hi
  exact hmade.behind i task htask (fun hstarted => hstarted.elim hquiet) hi

section Example

private def passAdvances (n : Nat) : List SchedulerAction :=
  List.replicate n .advance

/-- The first pass, and the sleep behind it. -/
private def firstPass : List SchedulerAction :=
  .tick 1000 :: passAdvances 14 ++ [.tick 60100, .advance]

/-- In the second one a worker starts the check. -/
private def secondPass : List SchedulerAction :=
  [.take, .advance, .take, .advance, .tick 3, .read 1, .advance, .advance, .write 1 5061103] ++
    passAdvances 4

theorem pass_commits_second :
    let s := Transition.final step (start scheduledTasks 5000000) firstPass
    let t := Transition.final step s secondPass
    exists made, t.commits = made ++ s.commits ∧ 0 ∈ made.map (·.runner) := by
  intro s t
  have hphase : s.phase = .atRunner 0 := by decide +kernel
  have hall : (Transition.transitions step s secondPass).all (fun x => x.2.2.phase.inPass) = true := by
    decide +kernel
  have hpass : forall u a v, (u, a, v) ∈ Transition.transitions step s secondPass ->
      v.phase.inPass = true :=
    fun u a v hmem => List.all_eq_true.mp hall (u, a, v) hmem
  rcases pass_commits scheduledTasks 5000000 firstPass secondPass s rfl hphase hpass
    (by decide +kernel) with ⟨_, made, hcommits, _, _, hmade⟩
  have htask : s.runners[0]? =
      some { name := "wake", intervalInMs := 60000, lastRunMs := 5001000 } := by
    decide +kernel
  have hpassed : 0 < t.phase.passed := by decide +kernel
  have hquiet : forall now, SchedulerAction.write 0 now ∉ secondPass := by
    intro now hmem
    simp [secondPass, passAdvances] at hmem
  have hover : Overdue { name := "wake", intervalInMs := 60000, lastRunMs := 5001000 } s.clock := by
    unfold Overdue
    decide +kernel
  exact ⟨made, hcommits, (hmade 0 _ htask hquiet hpassed).left hover⟩

end Example

end TaskScheduler

end FrProxy
