import FrProxy.Library.Transition
import FrProxy.ServerHandler.Tasks

/-!
# The task scheduler

One thread commits the scheduled tasks that are due to the thread manager, whose
workers start them.  Both write `last_run_ms` of a task without a lock, so each
access is a step of its own.  The clock does not go back.
-/

namespace FrProxy

structure ScheduledTask where
  name : String
  intervalInMs : UInt64
  lastRunMs : UInt64
deriving DecidableEq, Repr

namespace ScheduledTask

/-- The test of the scheduler, in unsigned 64-bit arithmetic. -/
def isDue (task : ScheduledTask) (now : UInt64) : Bool :=
  decide (now - task.lastRunMs > task.intervalInMs)

def stamp (now : UInt64) (task : ScheduledTask) : ScheduledTask :=
  { task with lastRunMs := now }

/-- A task whose time stamp is not ahead of the clock is due after more than its interval. -/
theorem isDue_iff {task : ScheduledTask} {now : UInt64}
    (h : task.lastRunMs.toNat ≤ now.toNat) :
    task.isDue now = true <-> task.lastRunMs.toNat + task.intervalInMs.toNat < now.toNat := by
  have hsub : (now - task.lastRunMs).toNat = now.toNat - task.lastRunMs.toNat :=
    UInt64.toNat_sub_of_le now task.lastRunMs h
  unfold isDue
  rw [decide_eq_true_iff, gt_iff_lt, UInt64.lt_iff_toNat_lt, hsub]
  omega

end ScheduledTask

inductive SchedulerPhase where
  | asleep (wakesAt : Nat)
  /-- Before the body of the loop, at that place of the vector. -/
  | atRunner (i : Nat)
  /-- Between `now_in_ms` and the test. -/
  | clockRead (i : Nat) (now : UInt64)
  /-- After the test, before the write of `last_run_ms`. -/
  | due (i : Nat) (now : UInt64) (disturbed : Bool)
  /-- Before `commit_task`. -/
  | marked (i : Nat)
  | ended
deriving DecidableEq, Repr

structure Commit where
  runner : Nat
  now : Nat
  /-- The time stamp of the task had been disturbed. -/
  disturbed : Bool
deriving DecidableEq, Repr

structure TaskScheduler where
  clock : Nat
  runners : List ScheduledTask
  phase : SchedulerPhase
  stopFlag : Bool
  /-- The tasks that wait for a worker, the oldest first; `none` stands for a fetch. -/
  pending : List (Option Nat)
  /-- The tasks that a worker took, before it reads the clock. -/
  taken : List Nat
  /-- The tasks that a worker starts, with its reading of the clock. -/
  starting : List (Nat × UInt64)
  /-- All commits so far, the latest first. -/
  commits : List Commit
  /--
  The tasks whose time stamp a worker wrote since their last commit, with a reading
  older than that commit or newer than the present reading of the scheduler.
  -/
  disturbed : List Nat
deriving DecidableEq, Repr

inductive SchedulerAction where
  /-- The scheduler goes on to its next access of the shared data. -/
  | advance
  /-- A remote call asks for a fetch. -/
  | fetch
  /-- A worker takes the oldest task. -/
  | take
  /-- A worker reads the clock in `ScheduledTask::run`. -/
  | read (i : Nat)
  /-- A worker writes its reading to `last_run_ms`. -/
  | write (i : Nat) (now : UInt64)
  | tick (ms : Nat)
  | stop
deriving DecidableEq, Repr

namespace TaskScheduler

def intervalInUs : Nat :=
  100 * 1000

def firstDelaySec : Nat :=
  1

/-- `commit_task`, or the `add` of a fetch: a task is refused when too many wait. -/
def commitTask (s : TaskScheduler) (task : Option Nat) : TaskScheduler :=
  if s.pending.length < ServerHandler.pendingTaskCountMax then
    { s with pending := s.pending ++ [task] }
  else s

/-- `run`, up to the next access of the shared data. -/
def advance (s : TaskScheduler) : Option TaskScheduler :=
  match s.phase with
  | .asleep wakesAt =>
      if s.clock < wakesAt then none
      else some { s with phase := if s.stopFlag then .ended else .atRunner 0 }
  | .atRunner i =>
      if i < s.runners.length then some { s with phase := .clockRead i (UInt64.ofNat s.clock) }
      else some { s with phase := .asleep (s.clock + intervalInUs / 1000) }
  | .clockRead i now =>
      match s.runners[i]? with
      | none => none
      | some task =>
          if task.isDue now then some { s with phase := .due i now (decide (i ∈ s.disturbed)) }
          else some { s with phase := .atRunner (i + 1) }
  | .due i now disturbed =>
      some {
        s with
        runners := s.runners.modify i (ScheduledTask.stamp now)
        commits := { runner := i, now := now.toNat, disturbed } :: s.commits
        disturbed := s.disturbed.filter fun j => j != i
        phase := .marked i }
  | .marked i => some { s.commitTask (some i) with phase := .atRunner (i + 1) }
  | .ended => none

def disturbs (s : TaskScheduler) (i : Nat) (now : UInt64) : Bool :=
  (s.commits.any fun e => e.runner == i && decide (now.toNat < e.now)) ||
    match s.phase with
    | .clockRead j reading => i == j && decide (reading < now)
    | _ => false

def step (s : TaskScheduler) : SchedulerAction -> Option TaskScheduler
  | .advance => s.advance
  | .fetch => some (s.commitTask none)
  | .take =>
      match s.pending with
      | [] => none
      | none :: rest => some { s with pending := rest }
      | some i :: rest => some { s with pending := rest, taken := i :: s.taken }
  | .read i =>
      if i ∈ s.taken then
        some {
          s with
          taken := s.taken.erase i
          starting := (i, UInt64.ofNat s.clock) :: s.starting }
      else none
  | .write i now =>
      if (i, now) ∈ s.starting then
        some {
          s with
          starting := s.starting.erase (i, now)
          runners := s.runners.modify i (ScheduledTask.stamp now)
          disturbed := if s.disturbs i now then i :: s.disturbed else s.disturbed }
      else none
  | .tick ms => some { s with clock := s.clock + ms }
  | .stop => some { s with stopFlag := true }

def start (tasks : List (String × UInt64)) (clock : Nat) : TaskScheduler where
  clock := clock
  runners := tasks.map fun task => { name := task.1, intervalInMs := task.2, lastRunMs := 0 }
  phase := .asleep (clock + 1000 * firstDelaySec)
  stopFlag := false
  pending := []
  taken := []
  starting := []
  commits := []
  disturbed := []

def scheduledTasks : List (String × UInt64) :=
  [("wake", 1 * 60 * 1000), ("check", 10 * 60 * 1000), ("autosave", 3600 * 1000)]

/-!
## Time stamps
-/

/-- The interval of a runner; 0 when there is none at that place. -/
def interval (tasks : List (String × UInt64)) (i : Nat) : Nat :=
  match tasks[i]? with
  | none => 0
  | some task => task.2.toNat

def Apart (tasks : List (String × UInt64)) (e f : Commit) : Prop :=
  e.runner = f.runner -> e.disturbed = true ∨ f.now + interval tasks f.runner < e.now

def PhaseHolds (tasks : List (String × UInt64)) (first : Nat) (s : TaskScheduler) : Prop :=
  match s.phase with
  | .clockRead i now =>
      (first ≤ now.toNat ∧ now.toNat ≤ s.clock) ∧ (forall e, e ∈ s.commits -> e.now ≤ now.toNat) ∧
        forall task : ScheduledTask, s.runners[i]? = some task -> i ∉ s.disturbed ->
          task.lastRunMs.toNat ≤ now.toNat
  | .due i now disturbed =>
      (first ≤ now.toNat ∧ now.toNat ≤ s.clock) ∧ (forall e, e ∈ s.commits -> e.now ≤ now.toNat) ∧
        forall e, e ∈ s.commits -> Apart tasks { runner := i, now := now.toNat, disturbed } e
  | _ => True

structure Paced (tasks : List (String × UInt64)) (first : Nat) (s : TaskScheduler) : Prop where
  since : first ≤ s.clock
  intervals : s.runners.map (·.intervalInMs) = tasks.map (·.2)
  stamped : forall (i : Nat) (task : ScheduledTask), s.runners[i]? = some task ->
    task.lastRunMs.toNat ≤ s.clock
  readings : forall (i : Nat) (now : UInt64), (i, now) ∈ s.starting -> now.toNat ≤ s.clock
  known : forall e, e ∈ s.commits -> first ≤ e.now ∧ e.now ≤ s.clock
  ordered : forall (i : Nat) (task : ScheduledTask), s.runners[i]? = some task -> i ∉ s.disturbed ->
    forall e, e ∈ s.commits -> e.runner = i -> e.now ≤ task.lastRunMs.toNat
  phase : PhaseHolds tasks first s
  apart : s.commits.Pairwise (Apart tasks)

theorem paced_start (tasks : List (String × UInt64)) (clock : Nat) :
    Paced tasks clock (start tasks clock) where
  since := Nat.le_refl clock
  intervals := by
    show (tasks.map _).map _ = _
    rw [List.map_map]
    rfl
  stamped := by
    intro i task htask
    rcases List.mem_map.mp (List.mem_of_getElem? htask) with ⟨_, _, rfl⟩
    exact Nat.zero_le _
  readings := fun _ _ h => absurd h List.not_mem_nil
  known := fun _ h => absurd h List.not_mem_nil
  ordered := fun _ _ _ _ _ h => absurd h List.not_mem_nil
  phase := trivial
  apart := List.Pairwise.nil

section Steps

variable {tasks : List (String × UInt64)} {first : Nat} {s s' : TaskScheduler}

theorem toNat_clock (h : s.clock < 2 ^ 64) : (UInt64.ofNat s.clock).toNat = s.clock :=
  UInt64.toNat_ofNat_of_lt h

theorem interval_eq (h : Paced tasks first s) {i : Nat} {task : ScheduledTask}
    (htask : s.runners[i]? = some task) : interval tasks i = task.intervalInMs.toNat := by
  have hsame : (tasks.map (·.2))[i]? = some task.intervalInMs := by
    rw [<- h.intervals, List.getElem?_map, htask]
    rfl
  rw [List.getElem?_map] at hsame
  unfold interval
  cases hplace : tasks[i]? with
  | none =>
      rw [hplace] at hsame
      cases hsame
  | some named =>
      rw [hplace] at hsame
      exact congrArg UInt64.toNat (Option.some.inj hsame)

theorem Paced.same (h : Paced tasks first s) (hclock : s.clock ≤ s'.clock)
    (hrunners : s'.runners = s.runners) (hcommits : s'.commits = s.commits)
    (hdisturbed : s'.disturbed = s.disturbed)
    (hreadings : forall i now, (i, now) ∈ s'.starting -> now.toNat ≤ s'.clock)
    (hphase : PhaseHolds tasks first s') : Paced tasks first s' where
  since := Nat.le_trans h.since hclock
  intervals := hrunners ▸ h.intervals
  stamped := fun i task htask => Nat.le_trans (h.stamped i task (hrunners ▸ htask)) hclock
  readings := hreadings
  known := fun e he =>
    have hold := h.known e (hcommits ▸ he)
    ⟨hold.left, Nat.le_trans hold.right hclock⟩
  ordered := by
    rw [hrunners, hcommits, hdisturbed]
    exact h.ordered
  phase := hphase
  apart := hcommits ▸ h.apart

theorem PhaseHolds.same (h : PhaseHolds tasks first s) (hclock : s.clock ≤ s'.clock)
    (hrunners : s'.runners = s.runners) (hcommits : s'.commits = s.commits)
    (hdisturbed : s'.disturbed = s.disturbed) (hphase : s'.phase = s.phase) :
    PhaseHolds tasks first s' := by
  unfold PhaseHolds at h ⊢
  rw [hphase, hrunners, hcommits, hdisturbed]
  cases hs : s.phase with
  | clockRead i now =>
      rw [hs] at h
      exact ⟨⟨h.left.left, Nat.le_trans h.left.right hclock⟩, h.right⟩
  | due i now disturbed =>
      rw [hs] at h
      exact ⟨⟨h.left.left, Nat.le_trans h.left.right hclock⟩, h.right⟩
  | asleep wakesAt => trivial
  | atRunner i => trivial
  | marked i => trivial
  | ended => trivial

theorem commitTask_fields (s : TaskScheduler) (task : Option Nat) : exists pending,
    s.commitTask task = { s with pending := pending } := by
  unfold commitTask
  split
  · exact ⟨_, rfl⟩
  · exact ⟨s.pending, rfl⟩

theorem getElem?_stamp {l : List ScheduledTask} {i j : Nat} {now : UInt64} {task : ScheduledTask}
    (h : (l.modify i (ScheduledTask.stamp now))[j]? = some task) :
    (i = j ∧ task.lastRunMs = now) ∨ (i ≠ j ∧ l[j]? = some task) := by
  rw [List.getElem?_modify] at h
  rcases Option.map_eq_some_iff.mp h with ⟨old, hold, rfl⟩
  by_cases hij : i = j
  · exact Or.inl ⟨hij, by simp [hij, ScheduledTask.stamp]⟩
  · exact Or.inr ⟨hij, by simpa [hij] using hold⟩

theorem map_interval_stamp (l : List ScheduledTask) (i : Nat) (now : UInt64) :
    (l.modify i (ScheduledTask.stamp now)).map (·.intervalInMs) = l.map (·.intervalInMs) := by
  apply List.ext_getElem?
  intro j
  rw [List.getElem?_map, List.getElem?_map, List.getElem?_modify, Option.map_eq_map,
    Option.map_map]
  cases l[j]? with
  | none => rfl
  | some task =>
      by_cases hij : i = j
      · simp [hij, ScheduledTask.stamp]
      · simp [hij]

theorem due_apart (h : Paced tasks first s) {i : Nat} {now : UInt64} {task : ScheduledTask}
    (hphase : s.phase = .clockRead i now) (htask : s.runners[i]? = some task)
    (hdue : task.isDue now = true) (e : Commit) (he : e ∈ s.commits) :
    Apart tasks { runner := i, now := now.toNat, disturbed := decide (i ∈ s.disturbed) } e := by
  intro hrunner
  by_cases hdisturbed : i ∈ s.disturbed
  · exact Or.inl (decide_eq_true hdisturbed)
  · right
    have hread := h.phase
    unfold PhaseHolds at hread
    rw [hphase] at hread
    have hpast : task.lastRunMs.toNat ≤ now.toNat := hread.right.right task htask hdisturbed
    have hlast : e.now ≤ task.lastRunMs.toNat := h.ordered i task htask hdisturbed e he hrunner.symm
    have hlong := (ScheduledTask.isDue_iff hpast).mp hdue
    dsimp only at hrunner ⊢
    rw [<- hrunner, interval_eq h htask]
    omega

theorem paced_mark (h : Paced tasks first s) {i : Nat} {now : UInt64} {disturbed : Bool}
    (hphase : s.phase = .due i now disturbed) :
    Paced tasks first {
      s with
      runners := s.runners.modify i (ScheduledTask.stamp now)
      commits := { runner := i, now := now.toNat, disturbed } :: s.commits
      disturbed := s.disturbed.filter fun j => j != i
      phase := .marked i } := by
  have hdue := h.phase
  unfold PhaseHolds at hdue
  rw [hphase] at hdue
  rcases hdue with ⟨⟨hfirst, hpast⟩, hlatest, hapart⟩
  constructor
  · exact h.since
  · rw [map_interval_stamp]
    exact h.intervals
  · intro j task htask
    rcases getElem?_stamp htask with ⟨_, hlast⟩ | ⟨_, hold⟩
    · rw [hlast]
      exact hpast
    · exact h.stamped j task hold
  · exact h.readings
  · intro e he
    rcases List.mem_cons.mp he with rfl | hold
    · exact ⟨hfirst, hpast⟩
    · exact h.known e hold
  · intro j task htask hnot e he hrunner
    rcases getElem?_stamp htask with ⟨_, hlast⟩ | ⟨hne, hold⟩
    · rw [hlast]
      rcases List.mem_cons.mp he with rfl | hmem
      · exact Nat.le_refl _
      · exact hlatest e hmem
    · rcases List.mem_cons.mp he with rfl | hmem
      · exact absurd hrunner hne
      · refine h.ordered j task hold (fun hin => hnot ?_) e hmem hrunner
        exact List.mem_filter.mpr ⟨hin, bne_iff_ne.mpr fun heq => hne heq.symm⟩
  · trivial
  · exact List.Pairwise.cons hapart h.apart

theorem paced_advance (h : Paced tasks first s) (hclock : s.clock < 2 ^ 64)
    (hstep : s.advance = some s') : Paced tasks first s' := by
  unfold advance at hstep
  cases hphase : s.phase with
  | asleep wakesAt =>
      rw [hphase] at hstep
      dsimp only at hstep
      split at hstep
      · cases hstep
      · cases hstep
        refine h.same (Nat.le_refl _) rfl rfl rfl h.readings ?_
        unfold PhaseHolds
        cases s.stopFlag <;> trivial
  | atRunner i =>
      rw [hphase] at hstep
      dsimp only at hstep
      split at hstep
      · cases hstep
        refine h.same (Nat.le_refl _) rfl rfl rfl h.readings ?_
        unfold PhaseHolds
        dsimp only
        rw [toNat_clock hclock]
        exact ⟨⟨h.since, Nat.le_refl _⟩, fun e he => (h.known e he).right,
          fun task htask _ => h.stamped i task htask⟩
      · cases hstep
        exact h.same (Nat.le_refl _) rfl rfl rfl h.readings trivial
  | clockRead i now =>
      rw [hphase] at hstep
      dsimp only at hstep
      cases htask : s.runners[i]? with
      | none =>
          rw [htask] at hstep
          cases hstep
      | some task =>
          rw [htask] at hstep
          dsimp only at hstep
          split at hstep
          · rename_i hdue
            cases hstep
            have hread := h.phase
            unfold PhaseHolds at hread
            rw [hphase] at hread
            exact h.same (Nat.le_refl _) rfl rfl rfl h.readings
              ⟨hread.left, hread.right.left, due_apart h hphase htask hdue⟩
          · cases hstep
            exact h.same (Nat.le_refl _) rfl rfl rfl h.readings trivial
  | due i now disturbed =>
      rw [hphase] at hstep
      cases hstep
      exact paced_mark h hphase
  | marked i =>
      rw [hphase] at hstep
      dsimp only at hstep
      rcases commitTask_fields s (some i) with ⟨pending, hcommit⟩
      rw [hcommit] at hstep
      cases hstep
      exact h.same (Nat.le_refl _) rfl rfl rfl h.readings trivial
  | ended =>
      rw [hphase] at hstep
      cases hstep

theorem paced_write (h : Paced tasks first s) {i : Nat} {now : UInt64} (hin : (i, now) ∈ s.starting) :
    Paced tasks first {
      s with
      starting := s.starting.erase (i, now)
      runners := s.runners.modify i (ScheduledTask.stamp now)
      disturbed := if s.disturbs i now then i :: s.disturbed else s.disturbed } := by
  have hkept : forall j, j ∉ (if s.disturbs i now then i :: s.disturbed else s.disturbed) ->
      j ∉ s.disturbed ∧ (i = j -> s.disturbs i now = false) := by
    intro j hj
    split at hj
    · exact ⟨fun hmem => hj (List.mem_cons_of_mem _ hmem),
        fun hij => absurd (hij ▸ List.mem_cons_self) hj⟩
    · rename_i hquiet
      exact ⟨hj, fun _ => Bool.eq_false_iff.mpr hquiet⟩
  constructor
  · exact h.since
  · rw [map_interval_stamp]
    exact h.intervals
  · intro j task htask
    rcases getElem?_stamp htask with ⟨_, hlast⟩ | ⟨_, hold⟩
    · rw [hlast]
      exact h.readings i now hin
    · exact h.stamped j task hold
  · exact fun j reading hmem => h.readings j reading (List.mem_of_mem_erase hmem)
  · exact h.known
  · intro j task htask hnot e he hrunner
    rcases hkept j hnot with ⟨hold, hquiet⟩
    rcases getElem?_stamp htask with ⟨hij, hlast⟩ | ⟨_, hsame⟩
    · have hq := hquiet hij
      unfold disturbs at hq
      rw [Bool.or_eq_false_iff, List.any_eq_false] at hq
      have hle := hq.left e he
      rw [hlast]
      simp only [hrunner, hij, beq_self_eq_true, Bool.true_and, decide_eq_true_eq] at hle
      exact Nat.le_of_not_lt hle
    · exact h.ordered j task hsame hold e he hrunner
  · have hphase := h.phase
    unfold PhaseHolds at hphase ⊢
    dsimp only
    cases hs : s.phase with
    | clockRead j reading =>
        rw [hs] at hphase
        refine ⟨hphase.left, hphase.right.left, fun task htask hnot => ?_⟩
        rcases hkept j hnot with ⟨hold, hquiet⟩
        rcases getElem?_stamp htask with ⟨hij, hlast⟩ | ⟨_, hsame⟩
        · have hq := hquiet hij
          unfold disturbs at hq
          rw [hs, Bool.or_eq_false_iff] at hq
          have hlt := hq.right
          simp only [hij, beq_self_eq_true, Bool.true_and, decide_eq_false_iff_not,
            UInt64.lt_iff_toNat_lt] at hlt
          rw [hlast]
          exact Nat.le_of_not_lt hlt
        · exact hphase.right.right task hsame hold
    | due j reading disturbed =>
        rw [hs] at hphase
        exact hphase
    | asleep wakesAt => trivial
    | atRunner j => trivial
    | marked j => trivial
    | ended => trivial
  · exact h.apart

theorem clock_step {a : SchedulerAction} (hstep : step s a = some s') : s.clock ≤ s'.clock := by
  cases a with
  | tick ms =>
      cases hstep
      exact Nat.le_add_right _ _
  | advance =>
      have hadvance : s.advance = some s' := hstep
      unfold advance commitTask at hadvance
      grind
  | _ =>
      unfold step commitTask at hstep
      grind

theorem paced_step (h : Paced tasks first s) (hclock : s.clock < 2 ^ 64) {a : SchedulerAction}
    (hstep : step s a = some s') : Paced tasks first s' := by
  cases a with
  | advance => exact paced_advance h hclock hstep
  | fetch =>
      rcases commitTask_fields s none with ⟨pending, hcommit⟩
      have heq : s.commitTask none = s' := Option.some.inj hstep
      rw [<- heq, hcommit]
      exact h.same (Nat.le_refl _) rfl rfl rfl h.readings
        (h.phase.same (Nat.le_refl _) rfl rfl rfl rfl)
  | take =>
      unfold step at hstep
      dsimp only at hstep
      split at hstep
      · cases hstep
      · cases hstep
        exact h.same (Nat.le_refl _) rfl rfl rfl h.readings
          (h.phase.same (Nat.le_refl _) rfl rfl rfl rfl)
      · cases hstep
        exact h.same (Nat.le_refl _) rfl rfl rfl h.readings
          (h.phase.same (Nat.le_refl _) rfl rfl rfl rfl)
  | read i =>
      unfold step at hstep
      dsimp only at hstep
      split at hstep
      · cases hstep
        refine h.same (Nat.le_refl _) rfl rfl rfl ?_ (h.phase.same (Nat.le_refl _) rfl rfl rfl rfl)
        intro j now hmem
        rcases List.mem_cons.mp hmem with heq | hold
        · cases heq
          rw [toNat_clock hclock]
        · exact h.readings j now hold
      · cases hstep
  | write i now =>
      unfold step at hstep
      dsimp only at hstep
      split at hstep
      · rename_i hin
        cases hstep
        exact paced_write h hin
      · cases hstep
  | tick ms =>
      cases hstep
      have hlater : s.clock ≤ s.clock + ms := Nat.le_add_right _ _
      exact h.same hlater rfl rfl rfl
        (fun i now hmem => Nat.le_trans (h.readings i now hmem) hlater)
        (h.phase.same hlater rfl rfl rfl rfl)
  | stop =>
      cases hstep
      exact h.same (Nat.le_refl _) rfl rfl rfl h.readings
        (h.phase.same (Nat.le_refl _) rfl rfl rfl rfl)

end Steps

/-!
## Runs
-/

/-- Numbers that are more than `gap` apart, the largest first, fill the range that they are in. -/
theorem length_of_apart {gap : Nat} {l : List Nat} (h : l.Pairwise fun a b => b + gap < a)
    {low high : Nat} (hl : forall a, a ∈ l -> low ≤ a ∧ a ≤ high) :
    l.length * (gap + 1) ≤ high - low + (gap + 1) := by
  induction l generalizing high with
  | nil => simp
  | cons a rest ih =>
      rcases List.pairwise_cons.mp h with ⟨hfirst, hrest⟩
      have ha := hl a List.mem_cons_self
      cases rest with
      | nil => simp
      | cons b rest =>
          have hb := hl b (List.mem_cons_of_mem _ List.mem_cons_self)
          have hgap := hfirst b List.mem_cons_self
          have hwithin : forall d, d ∈ b :: rest -> low ≤ d ∧ d ≤ a - (gap + 1) := by
            intro d hd
            have hlow := hl d (List.mem_cons_of_mem _ hd)
            have hbelow := hfirst d hd
            omega
          have htail := ih hrest hwithin
          rw [List.length_cons, Nat.add_mul, Nat.one_mul]
          omega

theorem paced_run (tasks : List (String × UInt64)) (clock : Nat)
    (actions : List SchedulerAction)
    (hclock : (Transition.final step (start tasks clock) actions).clock < 2 ^ 64) :
    Paced tasks clock (Transition.final step (start tasks clock) actions) := by
  have hrun : (Transition.final step (start tasks clock) actions).clock < 2 ^ 64 ->
      Paced tasks clock (Transition.final step (start tasks clock) actions) := by
    apply Transition.final_of_kept step
      (P := fun s => s.clock < 2 ^ 64 -> Paced tasks clock s) actions
      (fun _ => paced_start tasks clock)
    intro s a s' _ hstep hs hclock'
    have hbefore : s.clock < 2 ^ 64 := Nat.lt_of_le_of_lt (clock_step hstep) hclock'
    exact paced_step (hs hbefore) hbefore hstep
  exact hrun hclock

/--
Whatever the workers do while the clock goes on, two commits of a task are more than its
interval apart, unless a worker disturbed its time stamp in between; so a task is
not committed undisturbed more often than its interval fits into the time.
-/
theorem commits_apart (tasks : List (String × UInt64)) (clock : Nat)
    (actions : List SchedulerAction)
    (hclock : (Transition.final step (start tasks clock) actions).clock < 2 ^ 64) :
    let s := Transition.final step (start tasks clock) actions
    s.commits.Pairwise (fun e f => e.runner = f.runner ->
      e.disturbed = true ∨ f.now + interval tasks f.runner < e.now) ∧
    forall i, (s.commits.filter fun e => e.runner == i && !e.disturbed).length *
      (interval tasks i + 1) ≤ s.clock - clock + (interval tasks i + 1) := by
  intro s
  have hs : Paced tasks clock s := paced_run tasks clock actions hclock
  refine ⟨hs.apart, fun i => ?_⟩
  let undisturbed := s.commits.filter fun e => e.runner == i && !e.disturbed
  have hmem : forall e, e ∈ undisturbed -> e ∈ s.commits ∧ e.runner = i ∧ e.disturbed = false := by
    intro e he
    rcases List.mem_filter.mp he with ⟨hin, hkind⟩
    rw [Bool.and_eq_true, beq_iff_eq, Bool.not_eq_true'] at hkind
    exact ⟨hin, hkind⟩
  have hpairs : (undisturbed.map Commit.now).Pairwise fun a b => b + interval tasks i < a := by
    rw [List.pairwise_map]
    apply (hs.apart.filter _).imp_of_mem
    intro e f he hf hef
    rcases hmem e he with ⟨_, herunner, hequiet⟩
    rcases hmem f hf with ⟨_, hfrunner, _⟩
    rcases hef (herunner.trans hfrunner.symm) with hdisturbed | hgap
    · rw [hequiet] at hdisturbed
      cases hdisturbed
    · rw [hfrunner] at hgap
      exact hgap
  have hwithin : forall a, a ∈ undisturbed.map Commit.now -> clock ≤ a ∧ a ≤ s.clock := by
    intro a ha
    rcases List.mem_map.mp ha with ⟨e, he, rfl⟩
    exact hs.known e (hmem e he).left
  have hcount := length_of_apart hpairs hwithin
  rw [List.length_map] at hcount
  exact hcount

section Example

private def advances (n : Nat) : List SchedulerAction :=
  List.replicate n .advance

/-- A worker starts a task while the scheduler is between its reading and its test. -/
private def overtaken : List SchedulerAction :=
  .tick 1000 :: advances 14 ++ .tick 100 :: advances 2 ++
    [.take, .tick 1, .read 0, .write 0 5001101] ++ advances 2

theorem commits_apart_overtaken :
    let s := Transition.final step (start scheduledTasks 5000000) overtaken
    s.commits.Pairwise (fun e f => e.runner = f.runner ->
      e.disturbed = true ∨ f.now + interval scheduledTasks f.runner < e.now) ∧
    forall i, (s.commits.filter fun e => e.runner == i && !e.disturbed).length *
      (interval scheduledTasks i + 1) ≤ s.clock - 5000000 + (interval scheduledTasks i + 1) :=
  commits_apart scheduledTasks 5000000 overtaken (by decide +kernel)

/-- The difference wraps around, and the task is committed again after a tenth of a second. -/
example : (Transition.final step (start scheduledTasks 5000000) overtaken).commits =
    [{ runner := 0, now := 5001100, disturbed := true },
      { runner := 2, now := 5001000, disturbed := false },
      { runner := 1, now := 5001000, disturbed := false },
      { runner := 0, now := 5001000, disturbed := false }] := by
  decide +kernel

end Example

end TaskScheduler

end FrProxy
