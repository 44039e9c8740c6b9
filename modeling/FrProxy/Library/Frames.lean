import FrProxy.Library.Program

/-!
# Programs on an explicit stack

A program with loops and nested calls can be run frame by frame.  The body of a
frame is a program without calls; it ends with the frames that take its place
on the stack.  A register hands a value from one frame to the next.
-/

namespace Frames

open Program

variable {σ ε β φ : Type}

/-- The bodies of the frames: from the register to the new register and the frames to put in place. -/
abbrev Bodies (σ ε β φ : Type) : Type :=
  φ -> β -> Program σ ε (β × List φ)

structure Config (σ β φ : Type) where
  state : σ
  stack : List φ
  register : β

/-- The top frame is executed. -/
inductive Step (body : Bodies σ ε β φ) : Config σ β φ -> Config σ β φ -> Prop where
  | frame {f : φ} {stack frames : List φ} {s s' : σ} {r r' : β}
      (h : body f r s = Except.ok ((r', frames), s')) :
      Step body ⟨s, f :: stack, r⟩ ⟨s', frames ++ stack, r'⟩

abbrev Reaches (body : Bodies σ ε β φ) : Config σ β φ -> Config σ β φ -> Prop :=
  Relation.ReflTransGen (Step body)

/-- The top frame stops. -/
def Stops (body : Bodies σ ε β φ) (c : Config σ β φ) (stop : ε) : Prop :=
  exists f stack, c.stack = f :: stack ∧ body f c.register c.state = Except.error stop

variable {body : Bodies σ ε β φ}

/-!
## One run only
-/

theorem Step.unique {c d d' : Config σ β φ} (h : Step body c d) (h' : Step body c d') : d = d' := by
  cases h with
  | frame h =>
      cases h' with
      | frame h' =>
          rw [h] at h'
          cases h'
          rfl

theorem Reaches.before_end {c d e : Config σ β φ} (hd : Reaches body c d) (he : Reaches body c e)
    (hend : forall f, ¬ Step body e f) : Reaches body d e := by
  induction hd with
  | refl => exact he
  | tail _ hstep ih =>
      rcases Relation.ReflTransGen.cases_head ih with heq | ⟨f, hf, hrest⟩
      · exact absurd (heq ▸ hstep) (hend _)
      · rw [hstep.unique hf]
        exact hrest

theorem Reaches.keeps {P : Config σ β φ -> Prop} {c d : Config σ β φ} (h : Reaches body c d)
    (hstep : forall e f, Reaches body c e -> Step body e f -> P e -> P f) (hc : P c) : P d := by
  induction h with
  | refl => exact hc
  | tail hreach hlast ih => exact hstep _ _ hreach hlast ih

/-!
## Frames that run a program
-/

section Rules

variable {α γ : Type} {bad : ε -> Prop}

/--
The frames do what the program does, whatever lies below them on the stack: they
are popped with its state, and with a register that `R` relates to its value, or
they stop for the same `bad` reason.
-/
def Runs (body : Bodies σ ε β φ) (bad : ε -> Prop) (r : β) (frames : List φ)
    (x : Program σ ε α) (R : α -> β -> Prop) : Prop :=
  forall s stack,
    match x s with
    | Except.ok (a, s') => exists r', R a r' ∧
        Reaches body ⟨s, frames ++ stack, r⟩ ⟨s', stack, r'⟩
    | Except.error stop => bad stop -> exists d,
        Reaches body ⟨s, frames ++ stack, r⟩ d ∧ Stops body d stop

/-- A body does the first part of a program, and the frames that it leaves do the rest. -/
def Begins (body : Bodies σ ε β φ) (bad : ε -> Prop) (b : Program σ ε (β × List φ))
    (x : Program σ ε α) (R : α -> β -> Prop) : Prop :=
  forall s,
    match b s with
    | Except.ok ((r, frames), s') => forall stack,
        match x s with
        | Except.ok (a, s'') => exists r', R a r' ∧
            Reaches body ⟨s', frames ++ stack, r⟩ ⟨s'', stack, r'⟩
        | Except.error stop => bad stop -> exists d,
            Reaches body ⟨s', frames ++ stack, r⟩ d ∧ Stops body d stop
    | Except.error stop => x s = Except.error stop

variable {R : α -> β -> Prop} {Q : γ -> β -> Prop}

theorem Runs.nil {r : β} {a : α} (h : R a r) :
    Runs body bad r [] (pure a : Program σ ε α) R :=
  fun _ _ => ⟨r, h, Relation.ReflTransGen.refl⟩

theorem Runs.seq {r : β} (first second : List φ) {x : Program σ ε α} {f : α -> Program σ ε γ}
    (hx : Runs body bad r first x R) (hf : forall a r', R a r' -> Runs body bad r' second (f a) Q) :
    Runs body bad r (first ++ second) (x >>= f) Q := by
  intro s stack
  have hrun := hx s (second ++ stack)
  rw [<- List.append_assoc] at hrun
  cases hxs : x s with
  | error stop =>
      rw [hxs] at hrun
      rw [stops_bind hxs]
      exact hrun
  | ok v =>
      rw [hxs] at hrun
      rcases hrun with ⟨r', hR, hreach⟩
      rw [bind_run hxs]
      have hrest := hf v.1 r' hR v.2 stack
      cases hfs : f v.1 v.2 with
      | error stop =>
          rw [hfs] at hrest
          intro hbad
          rcases hrest hbad with ⟨d, hd, hstops⟩
          exact ⟨d, hreach.trans hd, hstops⟩
      | ok u =>
          rw [hfs] at hrest
          rcases hrest with ⟨r'', hQ, hlast⟩
          exact ⟨r'', hQ, hreach.trans hlast⟩

theorem Runs.ignore {r : β} {frames : List φ} {x : Program σ ε α}
    (hx : Runs body bad r frames x R) :
    Runs body bad r frames (x >>= fun _ => pure ⟨⟩ : Program σ ε PUnit) fun _ _ => True := by
  rw [<- List.append_nil frames]
  exact Runs.seq frames [] hx fun _ _ _ => Runs.nil trivial

theorem Runs.frame {r : β} {f : φ} {x : Program σ ε α} (h : Begins body bad (body f r) x R) :
    Runs body bad r [f] x R := by
  intro s stack
  have hbegins := h s
  cases hbody : body f r s with
  | error stop =>
      rw [hbody] at hbegins
      rw [hbegins]
      intro _
      exact ⟨_, Relation.ReflTransGen.refl, f, stack, rfl, hbody⟩
  | ok v =>
      rw [hbody] at hbegins
      have hrest := hbegins stack
      have hstep : Step body ⟨s, f :: stack, r⟩ ⟨v.2, v.1.2 ++ stack, v.1.1⟩ := Step.frame hbody
      cases hx : x s with
      | error stop =>
          rw [hx] at hrest
          intro hbad
          rcases hrest hbad with ⟨d, hd, hstops⟩
          exact ⟨d, Relation.ReflTransGen.head hstep hd, hstops⟩
      | ok u =>
          rw [hx] at hrest
          rcases hrest with ⟨r', hR, hreach⟩
          exact ⟨r', hR, Relation.ReflTransGen.head hstep hreach⟩

theorem Begins.frames {r : β} {frames : List φ} {x : Program σ ε α}
    (h : Runs body bad r frames x R) : Begins body bad (pure (r, frames)) x R :=
  fun s stack => h s stack

theorem Begins.done {r : β} {a : α} (h : R a r) :
    Begins body bad (pure (r, [])) (pure a : Program σ ε α) R :=
  Begins.frames (Runs.nil h)

theorem Begins.bind {y : Program σ ε γ} {b : γ -> Program σ ε (β × List φ)}
    {x : γ -> Program σ ε α} (h : forall v, Begins body bad (b v) (x v) R) :
    Begins body bad (y >>= b) (y >>= x) R := by
  intro s
  cases hy : y s with
  | error stop =>
      rw [stops_bind hy, stops_bind hy]
  | ok v =>
      rw [bind_run hy, bind_run hy]
      exact h v.1 v.2

theorem Begins.ite {p : Prop} [Decidable p] {b b' : Program σ ε (β × List φ)}
    {x x' : Program σ ε α} (h : p -> Begins body bad b x R) (h' : ¬ p -> Begins body bad b' x' R) :
    Begins body bad (if p then b else b') (if p then x else x') R := by
  by_cases hp : p
  · rw [if_pos hp, if_pos hp]
    exact h hp
  · rw [if_neg hp, if_neg hp]
    exact h' hp

theorem Runs.stops {r : β} {frames : List φ} {x : Program σ ε α} {s : σ} {stop : ε}
    (h : Runs body bad r frames x R) (hrun : x s = Except.error stop) (hbad : bad stop) :
    exists d, Reaches body ⟨s, frames, r⟩ d ∧ Stops body d stop := by
  have hstops := h s []
  rw [hrun, List.append_nil] at hstops
  exact hstops hbad

theorem Runs.returns {r : β} {frames : List φ} {x : Program σ ε α} {s s' : σ} {a : α}
    (h : Runs body bad r frames x R) (hrun : x s = Except.ok (a, s')) :
    exists r', R a r' ∧ Reaches body ⟨s, frames, r⟩ ⟨s', [], r'⟩ := by
  have hreturns := h s []
  rw [hrun, List.append_nil] at hreturns
  exact hreturns

theorem Runs.steps {M : σ -> σ -> Prop} {r : β} {frames : List φ} {x : Program σ ε α}
    (h : Runs body bad r frames x R) (hbody : forall f r, Steps M (body f r)) : Steps M x := by
  intro s a s' hrun
  rcases h.returns hrun with ⟨r', _, hreach⟩
  have hmoves : forall d : Config σ β φ, Reaches body ⟨s, frames, r⟩ d ->
      Relation.ReflTransGen M s d.state := by
    intro d hd
    induction hd with
    | refl => exact Relation.ReflTransGen.refl
    | tail _ hstep ih =>
        cases hstep with
        | frame hbodyrun => exact ih.trans (hbody _ _ _ _ _ hbodyrun)
  exact hmoves _ hreach

end Rules

end Frames
