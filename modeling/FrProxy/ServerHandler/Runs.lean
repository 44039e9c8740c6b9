import FrProxy.ServerHandler.Borrowing
import FrProxy.ServerHandler.Provenance

/-!
# Runs of the server

What holds of the world after each of its tasks holds of the server after every
run.  First of all the pool: between two actions it is at rest.
-/

namespace FrProxy

open Program

namespace ServerHandler

/-!
## What a task does to the world
-/

structure Done (env : Env) (w w' : World) : Prop where
  rests : Resting w -> Resting w'
  fed : Fed env w w'

def Does {α : Type} (env : Env) (x : ZkM α) : Prop :=
  forall w a w', x w = Except.ok (a, w') -> Done env w w'

section World

variable {env : Env} {depth : Nat}

theorem does_of {α : Type} {x : ZkM α} (hrests : Rests x) (hfed : Steps (Fed env) x) :
    Does env x := fun _ _ _ hrun =>
  { rests := fun hw => hrests.ok hw hrun, fed := fed_of_steps hfed hrun }

theorem nowInMs_does (env : Env) : Does env (nowInMs env) :=
  does_of (rests_of_own nowInMs_steps) nowInMs_fed

theorem resetPool_rests (rounds : Nat) : Rests (resetPool env rounds) := by
  intro w hw
  have hempties : Avoids _ _ (resetPool env rounds) fun _ => Emptied w := resetPool_empties rounds
  have hrun := hempties w ⟨rfl, hw⟩
  cases hreset : resetPool env rounds w with
  | error stop => exact fun h => h
  | ok v =>
      rw [hreset] at hrun
      exact hrun.rests

theorem clear_does (env : Env) : Does env (mapCache (·.clear)) := by
  apply does_of
  · exact Avoids.modify fun _ hw => hw
  · apply fed_mapCache
    intro c p hp
    rcases hp with ⟨r, hr, _⟩
    rw [RegistryCache.list_clear] at hr
    cases hr

theorem status_does (env : Env) (depth : Nat) (host : Host) :
    Does env (status env depth host) :=
  does_of (status_rests host) (status_fed host)

end World

/-!
## From the world to the server
-/

/-- A property of the world and the recovery file that the tasks keep, and a restart. -/
structure Stable (env : Env) (I : World -> Option String -> Prop) : Prop where
  task : forall w w' file, I w file -> Done { env with cacheFile := file } w w' -> I w' file
  boot : forall w file, I w file -> I (boot w file).world file

def Holds (I : World -> Option String -> Prop) (s : Server) : Prop :=
  I s.world s.cacheFile

def Keeps {α : Type} (I : World -> Option String -> Prop) (x : ServerM α) : Prop :=
  Avoids (fun _ => False) (Holds I) x fun _ => Holds I

/-- The recovery file was just opened, and written in that way. -/
def JustSaved (I : World -> Option String -> Prop)
    (write : String -> Option String -> Option String) (s : Server) : Prop :=
  exists old sec, I s.world old ∧ s.cacheFile = write (s.world.cache.cache.save sec) old

section Server

variable {host : Host} {env : Env} {depth : Nat} {I : World -> Option String -> Prop}

theorem return_keeps {α : Type} (a : α) : Keeps I (pure a : ServerM α) :=
  Avoids.pure fun _ hs => hs

theorem get_keeps : Keeps I (get : ServerM Server) :=
  Avoids.get fun _ hs => hs

theorem modify_keeps {f : Server -> Server} (hworld : forall s, (f s).world = s.world)
    (hfile : forall s, (f s).cacheFile = s.cacheFile) : Keeps I (modify f : ServerM PUnit) := by
  apply Avoids.modify
  intro s hs
  unfold Holds
  rw [hworld s, hfile s]
  exact hs

theorem addTask_keeps (task : Task) : Keeps I (addTask task) := by
  apply modify_keeps
  · intro s
    split <;> rfl
  · intro s
    split <;> rfl

theorem discard_keeps {α β : Type} {x : ServerM α} (f : α -> β) (hx : Keeps I x) :
    Keeps I (do return f (<- x)) :=
  Avoids.bind hx fun _ => return_keeps _

variable (h : Stable env I)

include h

theorem Stable.onWorld_keeps {α : Type} {x : Env -> ZkM α} (hx : forall env, Does env (x env)) :
    Keeps I (onWorld env x) := by
  intro s hs
  unfold onWorld
  cases hrun : x (envOf env s) s.world with
  | error stop => exact fun h => h
  | ok v => exact h.task s.world v.2 s.cacheFile hs (hx _ _ _ _ hrun)

theorem Stable.skipInsert_keeps (path : String) : Keeps I (skipInsert env path) := by
  apply Avoids.bind (h.onWorld_keeps nowInMs_does)
  intro now
  apply Avoids.bind get_keeps
  intro s
  refine Avoids.bind (modify_keeps ?_ ?_) fun _ => return_keeps _
  · exact fun _ => rfl
  · exact fun _ => rfl

theorem Stable.answer_keeps (serviceName : String) : Keeps I (get_ env serviceName) := by
  apply Avoids.bind get_keeps
  intro s
  apply Avoids.ite
  · intro _
    apply Avoids.bind (h.skipInsert_keeps _)
    intro inserted
    apply Avoids.ite
    · intro _
      exact Avoids.bind (addTask_keeps _) fun _ => return_keeps _
    · exact fun _ => return_keeps _
  · intro _
    exact Avoids.bind (h.onWorld_keeps nowInMs_does) fun _ => return_keeps _

theorem Stable.reset_keeps (rounds : Nat) : Keeps I (reset host env depth rounds) := by
  apply Avoids.bind get_keeps
  intro s
  apply Avoids.ite fun _ => return_keeps _
  intro _
  refine Avoids.bind (modify_keeps ?_ ?_) fun _ => ?_
  · exact fun _ => rfl
  · exact fun _ => rfl
  refine Avoids.bind (h.onWorld_keeps fun _ =>
    does_of (resetPool_rests rounds) (resetPool_fed rounds)) fun _ => ?_
  refine Avoids.bind (h.onWorld_keeps clear_does) fun _ => ?_
  refine Avoids.bind (h.onWorld_keeps fun _ => does_of warm_rests warm_fed) fun _ => ?_
  refine Avoids.bind (h.onWorld_keeps fun env => status_does env depth host) fun res => ?_
  refine Avoids.bind (modify_keeps ?_ ?_) fun _ => return_keeps _
  · exact fun _ => rfl
  · exact fun _ => rfl

theorem Stable.autosave_saves (write : String -> Option String -> Option String) :
    Avoids (fun _ => False) (Holds I) (autosave host env depth write)
      fun _ s => Holds I s ∨ JustSaved I write s := by
  apply Avoids.bind (h.onWorld_keeps fun env => status_does env depth host)
  intro ret
  apply Avoids.ite
  · intro _
    apply Avoids.bind (h.onWorld_keeps nowInMs_does)
    intro now
    apply Avoids.modify
    intro s hs
    split
    · exact Or.inr ⟨s.cacheFile, now / 1000, hs, rfl⟩
    · exact Or.inl hs
  · exact fun _ => Avoids.pure fun _ hs => Or.inl hs

theorem Stable.runTask_keeps {task : Task} (htask : task ≠ .autosave) :
    Keeps I (runTask host env depth task) := by
  unfold runTask
  cases task with
  | wake =>
      apply h.onWorld_keeps
      exact fun _ => does_of keepAwake_rests keepAwake_fed
  | check =>
      apply h.onWorld_keeps
      exact fun _ => does_of check_rests check_fed
  | autosave => exact absurd rfl htask
  | warm =>
      apply h.onWorld_keeps
      exact fun _ => does_of warm_rests warm_fed
  | registerSelf =>
      apply h.onWorld_keeps
      exact fun _ => does_of (registerSelf_rests _ _) (registerSelf_fed _ _)
  | getService zkpath =>
      refine Avoids.bind (h.onWorld_keeps fun _ =>
        does_of (fetchService_rests zkpath) (fetchService_fed zkpath)) fun _ => ?_
      exact modify_keeps (fun _ => rfl) fun _ => rfl

theorem Stable.work_keeps {s : Server} (ha : s.pending.head? ≠ some .autosave) :
    Avoids (fun _ => False) (fun t => t = s ∧ Holds I t) (work host env depth)
      fun _ => Holds I := by
  refine Avoids.bind (Q := fun r t => r = s ∧ Holds I t)
    (Avoids.get fun _ ht => ht) fun r => ?_
  rintro t ⟨rfl, ht⟩
  cases hpending : r.pending with
  | nil => exact ht
  | cons task rest =>
      have htask : task ≠ .autosave := by
        rintro rfl
        exact ha (by rw [hpending]; rfl)
      have hrest : Keeps I (do
          modify fun s => { s with pending := rest }
          runTask host env depth task : ServerM PUnit) := by
        refine Avoids.bind (modify_keeps ?_ ?_) fun _ => h.runTask_keeps htask
        · exact fun _ => rfl
        · exact fun _ => rfl
      exact hrest t ht

theorem Stable.work_saves {s : Server} (ha : s.pending.head? = some .autosave) :
    Avoids (fun _ => False) (fun t => t = s ∧ Holds I t) (work host env depth)
      fun _ t => Holds I t ∨ JustSaved I writeWhole t := by
  rcases List.head?_eq_some_iff.mp ha with ⟨rest, hpending⟩
  refine Avoids.bind (Q := fun r t => r = s ∧ Holds I t)
    (Avoids.get fun _ ht => ht) fun r => ?_
  rintro t ⟨rfl, ht⟩
  rw [hpending]
  have hrest : Avoids (fun _ => False) (Holds I) (do
      modify fun s => { s with pending := rest }
      runTask host env depth .autosave : ServerM PUnit)
      fun _ t => Holds I t ∨ JustSaved I writeWhole t := by
    refine Avoids.bind (modify_keeps ?_ ?_) fun _ => h.autosave_saves writeWhole
    · exact fun _ => rfl
    · exact fun _ => rfl
  exact hrest t ht

theorem Stable.act_keeps {s : Server} {a : ServerAction}
    (hsave : a = .work -> s.pending.head? ≠ some .autosave)
    (hcrash : forall written, a ≠ .crash written) :
    Avoids (fun _ => False) (fun t => t = s ∧ Holds I t) (act host env depth a)
      fun _ => Holds I := by
  have hkeeps : forall {x : ServerM (Option RegistryProxy.Answer)}, Keeps I x ->
      Avoids (fun _ => False) (fun t => t = s ∧ Holds I t) x fun _ => Holds I :=
    fun hx => hx.mono (fun _ ht => ht.right) fun _ _ h => h
  cases a with
  | get serviceName => exact hkeeps (discard_keeps _ (h.answer_keeps serviceName))
  | remove serviceName host port => exact hkeeps (return_keeps _)
  | reset rounds => exact hkeeps (discard_keeps _ (h.reset_keeps rounds))
  | status => exact hkeeps (discard_keeps _ (h.onWorld_keeps fun env => status_does env depth host))
  | commit task => exact hkeeps (Avoids.bind (addTask_keeps task) fun _ => return_keeps _)
  | work => exact Avoids.bind (h.work_keeps (hsave rfl)) fun _ => return_keeps _
  | expire zkpath =>
      apply hkeeps
      refine Avoids.bind (modify_keeps ?_ ?_) fun _ => return_keeps _
      · exact fun _ => rfl
      · exact fun _ => rfl
  | watch callback type state path =>
      apply hkeeps
      refine Avoids.bind (h.onWorld_keeps fun _ => does_of (callback.call_rests type state path)
        (callback.call_fed type state path)) fun _ => return_keeps _
  | restart =>
      apply hkeeps
      exact Avoids.bind (Avoids.modify fun s hs => h.boot s.world s.cacheFile hs)
        fun _ => return_keeps _
  | crash written => exact absurd rfl (hcrash written)

omit h

theorem step_of_avoids {P : Server -> Prop} {a : ServerAction} {s s' : Server}
    (hact : Avoids (fun _ => False) (fun t => t = s ∧ Holds I t) (act host env depth a)
      fun _ => P)
    (hs : Holds I s) (hstep : step host env depth s a = some s') : P s' := by
  have hrun := hact s ⟨rfl, hs⟩
  unfold step at hstep
  cases hacts : act host env depth a s with
  | error stop =>
      rw [hacts] at hstep
      cases hstep
  | ok v =>
      rw [hacts] at hrun hstep
      cases hstep
      exact hrun

theorem save_world {write : String -> Option String -> Option String}
    (write' : String -> Option String -> Option String) {s v : Server}
    (hrun : save host env write s = .ok (⟨⟩, v)) :
    exists u, save host env write' s = .ok (⟨⟩, u) ∧ u.world = v.world := by
  rcases bind_ok.mp hrun with ⟨now, t, hnow, hwrite⟩
  cases hwrite
  refine ⟨_, bind_ok.mpr ⟨now, t, hnow, rfl⟩, ?_⟩
  dsimp only
  split <;> rfl

theorem autosave_world {write : String -> Option String -> Option String}
    (write' : String -> Option String -> Option String) {s v : Server}
    (hrun : autosave host env depth write s = .ok (⟨⟩, v)) :
    exists u, autosave host env depth write' s = .ok (⟨⟩, u) ∧ u.world = v.world := by
  rcases bind_ok.mp hrun with ⟨status, r, hstatus, hrest⟩
  by_cases hzero : status = 0
  · rw [if_pos hzero] at hrest
    rcases save_world write' hrest with ⟨u, hsave, hworld⟩
    refine ⟨u, bind_ok.mpr ⟨status, r, hstatus, ?_⟩, hworld⟩
    rw [if_pos hzero]
    exact hsave
  · rw [if_neg hzero] at hrest
    refine ⟨v, bind_ok.mpr ⟨status, r, hstatus, ?_⟩, rfl⟩
    rw [if_neg hzero]
    exact hrest

theorem work_autosave {s : Server} {rest : List Task} (hpending : s.pending = .autosave :: rest) :
    work host env depth s = autosave host env depth writeWhole { s with pending := rest } := by
  simp only [work, get_bind_run, hpending, modify_bind_run]
  rfl

theorem workCut_autosave {s : Server} {rest : List Task} (written : Nat)
    (hpending : s.pending = .autosave :: rest) :
    workCut host env depth written s =
      autosave host env depth (writeCut written) { s with pending := rest } := by
  simp only [workCut, get_bind_run, hpending, modify_bind_run]

theorem workCut_other {s : Server} (written : Nat)
    (hhead : s.pending.head? ≠ some .autosave) :
    workCut host env depth written s = .ok (⟨⟩, s) := by
  simp only [workCut, get_bind_run]
  cases hpending : s.pending with
  | nil => rfl
  | cons task rest =>
      rw [hpending] at hhead
      cases task with
      | autosave => exact absurd rfl hhead
      | wake => rfl
      | check => rfl
      | warm => rfl
      | registerSelf => rfl
      | getService zkpath => rfl

/-- The step saves, or it crashes in a save; `u` is the state after a whole save. -/
inductive Saving (host : Host) (env : Env) (depth : Nat) (I : World -> Option String -> Prop)
    (s : Server) : ServerAction -> Server -> Prop where
  | whole {u : Server} (hstep : step host env depth s .work = some u)
      (hsaved : JustSaved I writeWhole u) : Saving host env depth I s .work u
  | cut {u v : Server} {written : Nat} (hstep : step host env depth s .work = some u)
      (hworld : u.world = v.world) (hsaved : JustSaved I (writeCut written) v) :
      Saving host env depth I s (.crash written) (boot v.world v.cacheFile)

theorem Stable.crash_cases (h : Stable env I) {s s' : Server} {written : Nat}
    (hstep : step host env depth s (.crash written) = some s') (hs : Holds I s) :
    Holds I s' ∨ Saving host env depth I s (.crash written) s' := by
  unfold step at hstep
  cases hact : act host env depth (.crash written) s with
  | error stop =>
      rw [hact] at hstep
      cases hstep
  | ok r =>
      rw [hact] at hstep
      rcases bind_ok.mp hact with ⟨⟨⟩, v, hcut, hboot⟩
      have hnext : r.2 = ServerHandler.boot v.world v.cacheFile :=
        (congrArg Prod.snd (Except.ok.inj hboot)).symm
      have hbooted : s' = ServerHandler.boot v.world v.cacheFile :=
        (Option.some.inj hstep).symm.trans hnext
      subst hbooted
      by_cases hhead : s.pending.head? = some .autosave
      · rcases List.head?_eq_some_iff.mp hhead with ⟨rest, hpending⟩
        rw [workCut_autosave written hpending] at hcut
        rcases autosave_world writeWhole hcut with ⟨u, hwhole, hworld⟩
        have hwork : step host env depth s .work = some u := by
          simp only [step, act, bind_run ((work_autosave hpending).trans hwhole)]
          rfl
        rcases (h.autosave_saves (writeCut written)).ok
          (show Holds I { s with pending := rest } from hs) hcut with hkept | hsaved
        · exact Or.inl (h.boot _ _ hkept)
        · exact Or.inr (.cut hwork hworld hsaved)
      · rw [workCut_other written hhead] at hcut
        cases hcut
        exact Or.inl (h.boot _ _ hs)

theorem Stable.step_cases (h : Stable env I) {s s' : Server} {a : ServerAction}
    (hstep : step host env depth s a = some s') (hs : Holds I s) :
    Holds I s' ∨ Saving host env depth I s a s' := by
  by_cases hcrash : exists written, a = .crash written
  · rcases hcrash with ⟨written, rfl⟩
    exact h.crash_cases hstep hs
  by_cases hsave : a = .work ∧ s.pending.head? = some .autosave
  · rcases hsave with ⟨rfl, hhead⟩
    have hcases : Holds I s' ∨ JustSaved I writeWhole s' := by
      apply step_of_avoids (P := fun t => Holds I t ∨ JustSaved I writeWhole t) ?_ hs hstep
      refine Avoids.bind (h.work_saves hhead) fun _ => ?_
      exact Avoids.pure fun _ ht => ht
    exact hcases.imp id fun hsaved => .whole hstep hsaved
  · have hother : a = .work -> s.pending.head? ≠ some .autosave :=
      fun ha hhead => hsave ⟨ha, hhead⟩
    refine Or.inl (step_of_avoids (h.act_keeps hother ?_) hs hstep)
    exact fun written ha => hcrash ⟨written, ha⟩

theorem Stable.pinned (h : Stable env I) (kept : Option String) :
    Stable env fun w file => I w file ∧ file = kept where
  task := fun w w' file hw hdone => ⟨h.task w w' file hw.left hdone, hw.right⟩
  boot := fun w file hw => ⟨h.boot w file hw.left, hw.right⟩

end Server

/-!
## The pool
-/

theorem stable_resting (env : Env) : Stable env fun w _ => Resting w where
  task := fun _ _ _ hw hdone => hdone.rests hw
  boot := fun w _ _ => ClientPool.atRest_start w.pool.addr

theorem step_rests {host : Host} {env : Env} {depth : Nat} {s s' : Server} {a : ServerAction}
    (hstep : step host env depth s a = some s') (hs : Resting s.world) : Resting s'.world := by
  rcases (stable_resting env).step_cases hstep hs with hrests | hsaving
  · exact hrests
  · cases hsaving with
    | whole _ hsaved =>
        rcases hsaved with ⟨_, _, hrests, _⟩
        exact hrests
    | cut _ _ _ => exact ClientPool.atRest_start _

/--
After every run of actions one after the other no client is borrowed, at most one
is kept for the next borrower, at most two wait to be deleted, all others are
deleted, and every state has no client or the one that is kept.
-/
theorem pool_at_rest (host : Host) (env : Env) (depth : Nat) (addr : ClientId -> Nat)
    (cacheFile : Option String) (actions : List ServerAction) :
    (finalFrom host env depth addr cacheFile actions).world.pool.AtRest :=
  Transition.final_of_kept (step host env depth) actions (ClientPool.atRest_start addr)
    fun _ _ _ _ hstep hs => step_rests hstep hs

end ServerHandler

end FrProxy
