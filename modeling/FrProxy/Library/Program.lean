import Mathlib.Logic.Relation

/-!
# Programs with a state that may stop short

A program reads and writes a state and either returns a value or stops with a
reason.  The rules below are the ones a proof about such a program uses: what a
returning run does to the state (`Steps`), and that a run returns
(`Returns`).
-/

/-- Programs over a state `σ` that return an `α` or stop with an `ε`. -/
abbrev Program (σ ε α : Type) : Type :=
  StateT σ (Except ε) α

namespace Program

variable {σ ε α β : Type}

theorem pure_ok {a b : α} {s s' : σ} :
    (pure a : Program σ ε α) s = Except.ok (b, s') <-> b = a ∧ s' = s := by
  constructor
  · intro h
    cases h
    exact ⟨rfl, rfl⟩
  · intro h
    rcases h with ⟨rfl, rfl⟩
    rfl

theorem bind_ok {x : Program σ ε α} {f : α -> Program σ ε β} {s s' : σ} {b : β} :
    (x >>= f) s = Except.ok (b, s') <->
      exists a t, x s = Except.ok (a, t) ∧ f a t = Except.ok (b, s') := by
  have hbind : (x >>= f) s = Except.bind (x s) (fun v => f v.1 v.2) := rfl
  rw [hbind]
  cases hx : x s with
  | error e =>
      constructor
      · intro h
        cases h
      · intro h
        rcases h with ⟨a, t, hat, _⟩
        cases hat
  | ok v =>
      constructor
      · intro h
        exact ⟨v.1, v.2, rfl, h⟩
      · intro h
        rcases h with ⟨a, t, hat, h⟩
        cases hat
        exact h

theorem bind_run {x : Program σ ε α} {f : α -> Program σ ε β} {s t : σ} {a : α}
    (hx : x s = Except.ok (a, t)) : (x >>= f) s = f a t := by
  have hbind : (x >>= f) s = Except.bind (x s) (fun v => f v.1 v.2) := rfl
  rw [hbind, hx]
  rfl

theorem modify_ok {f : σ -> σ} {s s' : σ} {u : PUnit} :
    (modify f : Program σ ε PUnit) s = Except.ok (u, s') <-> s' = f s := by
  constructor
  · intro h
    cases h
    rfl
  · rintro rfl
    rfl

theorem get_ok {s s' t : σ} :
    (get : Program σ ε σ) s = Except.ok (t, s') <-> t = s ∧ s' = s := by
  constructor
  · intro h
    cases h
    exact ⟨rfl, rfl⟩
  · intro h
    rcases h with ⟨rfl, rfl⟩
    rfl

theorem throw_ok {e : ε} {s s' : σ} {a : α} :
    ¬ (throw e : Program σ ε α) s = Except.ok (a, s') := by
  intro h
  cases h

/-!
## Running a straight line

These equations run a program that has no loop on a state.
-/

@[simp] theorem get_bind_run (f : σ -> Program σ ε α) (s : σ) :
    ((get : Program σ ε σ) >>= f) s = f s s := rfl

@[simp] theorem modify_bind_run (g : σ -> σ) (f : PUnit -> Program σ ε α) (s : σ) :
    ((modify g : Program σ ε PUnit) >>= f) s = f ⟨⟩ (g s) := rfl

@[simp] theorem modify_run (g : σ -> σ) (s : σ) :
    (modify g : Program σ ε PUnit) s = Except.ok (⟨⟩, g s) := rfl

@[simp] theorem pure_run (a : α) (s : σ) :
    (pure a : Program σ ε α) s = Except.ok (a, s) := rfl

theorem ite_run {c : Prop} [Decidable c] (x y : Program σ ε α) (s : σ) :
    (if c then x else y) s = if c then x s else y s := by
  split <;> rfl

/-!
## What a returning run does to the state

`M` lists the moves that the primitive operations of a program make; a program
built from them makes a sequence of such moves.
-/

/-- Every returning run of `x` is a sequence of moves. -/
def Steps (M : σ -> σ -> Prop) (x : Program σ ε α) : Prop :=
  forall s a s', x s = Except.ok (a, s') -> Relation.ReflTransGen M s s'

section Steps

variable {M : σ -> σ -> Prop}

theorem Steps.pure (a : α) : Steps M (pure a : Program σ ε α) := by
  intro s b s' h
  rw [(pure_ok.mp h).right]

theorem Steps.bind {x : Program σ ε α} {f : α -> Program σ ε β}
    (hx : Steps M x) (hf : forall a, Steps M (f a)) : Steps M (x >>= f) := by
  intro s b s' h
  rcases bind_ok.mp h with ⟨a, t, hxt, hft⟩
  exact (hx s a t hxt).trans (hf a t b s' hft)

theorem Steps.get : Steps M (get : Program σ ε σ) := by
  intro s a s' h
  rw [(get_ok.mp h).right]

theorem Steps.modify {f : σ -> σ} (hf : forall s, M s (f s)) :
    Steps M (modify f : Program σ ε PUnit) := by
  intro s a s' h
  rw [modify_ok.mp h]
  exact Relation.ReflTransGen.single (hf s)

theorem Steps.throw (e : ε) : Steps M (throw e : Program σ ε α) := by
  intro s a s' h
  exact absurd h throw_ok

theorem Steps.ite {c : Prop} [Decidable c] {x y : Program σ ε α}
    (hx : Steps M x) (hy : Steps M y) : Steps M (if c then x else y) := by
  by_cases h : c
  · rw [if_pos h]
    exact hx
  · rw [if_neg h]
    exact hy

theorem Steps.forM {f : α -> Program σ ε PUnit} (l : List α)
    (hf : forall a, a ∈ l -> Steps M (f a)) : Steps M (l.forM f) := by
  induction l with
  | nil => exact Steps.pure _
  | cons a rest ih =>
      have hrest : Steps M (rest.forM f) :=
        ih fun b hb => hf b (List.mem_cons_of_mem _ hb)
      exact Steps.bind (hf a List.mem_cons_self) (fun _ => hrest)

theorem Steps.foldlM {f : β -> α -> Program σ ε β} (l : List α)
    (hf : forall b a, a ∈ l -> Steps M (f b a)) (b : β) :
    Steps M (l.foldlM f b) := by
  induction l generalizing b with
  | nil => exact Steps.pure _
  | cons a rest ih =>
      have hrest : forall c, Steps M (rest.foldlM f c) :=
        ih fun d e he => hf d e (List.mem_cons_of_mem _ he)
      exact Steps.bind (hf b a List.mem_cons_self) hrest

theorem Steps.mono {N : σ -> σ -> Prop} {x : Program σ ε α} (hx : Steps M x)
    (hMN : forall s t, M s t -> N s t) : Steps N x := by
  intro s a s' hrun
  exact Relation.ReflTransGen.mono hMN _ _ (hx s a s' hrun)

theorem Steps.keeps {I : σ -> Prop} {x : Program σ ε α} (hx : Steps M x)
    (hM : forall s t, M s t -> I s -> I t) {s s' : σ} {a : α}
    (hrun : x s = Except.ok (a, s')) (hs : I s) : I s' := by
  have hmoves : Relation.ReflTransGen M s s' := hx s a s' hrun
  clear hrun
  induction hmoves with
  | refl => exact hs
  | tail _ hstep ih => exact hM _ _ hstep ih

/-- A reflexive and transitive relation that contains every move contains every returning run. -/
theorem Steps.relates {R : σ -> σ -> Prop} {x : Program σ ε α} (hx : Steps M x)
    (hrefl : forall s, R s s) (htrans : forall s t u, R s t -> R t u -> R s u)
    (hM : forall s t, M s t -> R s t) {s s' : σ} {a : α}
    (hrun : x s = Except.ok (a, s')) : R s s' := by
  have hmoves : Relation.ReflTransGen M s s' := hx s a s' hrun
  clear hrun
  induction hmoves with
  | refl => exact hrefl _
  | tail _ hstep ih => exact htrans _ _ _ ih (hM _ _ hstep)

end Steps

/-!
## Runs that return
-/

/-- From `s` the program returns, with a value and a state that satisfy `Q`. -/
def Returns (x : Program σ ε α) (s : σ) (Q : α -> σ -> Prop) : Prop :=
  exists a s', x s = Except.ok (a, s') ∧ Q a s'

theorem Returns.pure {a : α} {s : σ} {Q : α -> σ -> Prop} (h : Q a s) :
    Returns (pure a : Program σ ε α) s Q :=
  ⟨a, s, rfl, h⟩

theorem Returns.bind {x : Program σ ε α} {f : α -> Program σ ε β} {s : σ}
    {P : α -> σ -> Prop} {Q : β -> σ -> Prop} (hx : Returns x s P)
    (hf : forall a t, P a t -> Returns (f a) t Q) : Returns (x >>= f) s Q := by
  rcases hx with ⟨a, t, hxt, hP⟩
  rcases hf a t hP with ⟨b, u, hfu, hQ⟩
  exact ⟨b, u, bind_ok.mpr ⟨a, t, hxt, hfu⟩, hQ⟩

theorem Returns.bindOk {x : Program σ ε α} {f : α -> Program σ ε β} {s t : σ} {a : α}
    {Q : β -> σ -> Prop} (hx : x s = Except.ok (a, t)) (hf : Returns (f a) t Q) :
    Returns (x >>= f) s Q := by
  rcases hf with ⟨b, u, hfu, hQ⟩
  exact ⟨b, u, bind_ok.mpr ⟨a, t, hx, hfu⟩, hQ⟩

theorem Returns.discard {x : Program σ ε α} {s : σ} {b : β} {P : σ -> Prop}
    (hx : Returns x s fun _ t => P t) :
    Returns (x >>= fun _ => Pure.pure b) s fun _ t => P t := by
  rcases hx with ⟨a, t, hxt, hP⟩
  exact ⟨b, t, bind_ok.mpr ⟨a, t, hxt, rfl⟩, hP⟩

theorem Returns.mono {x : Program σ ε α} {s : σ} {P Q : α -> σ -> Prop}
    (hx : Returns x s P) (h : forall a t, P a t -> Q a t) : Returns x s Q := by
  rcases hx with ⟨a, t, hxt, hP⟩
  exact ⟨a, t, hxt, h a t hP⟩

theorem Returns.getBind {f : σ -> Program σ ε β} {s : σ} {Q : β -> σ -> Prop}
    (h : Returns (f s) s Q) : Returns (get >>= f) s Q :=
  Returns.bind (P := fun a t => a = s ∧ t = s) ⟨s, s, rfl, rfl, rfl⟩
    (by
      rintro a t ⟨rfl, rfl⟩
      exact h)

theorem Returns.and {x : Program σ ε α} {s : σ} {P Q : α -> σ -> Prop} (hP : Returns x s P)
    (hQ : Returns x s Q) : Returns x s fun a t => P a t ∧ Q a t := by
  rcases hP with ⟨a, t, hrun, ha⟩
  rcases hQ with ⟨b, u, hrun', hb⟩
  rw [hrun] at hrun'
  cases hrun'
  exact ⟨a, t, hrun, ha, hb⟩

theorem Returns.forM {f : α -> Program σ ε PUnit} {I : σ -> Prop} (l : List α)
    (hf : forall a s, a ∈ l -> I s -> Returns (f a) s (fun _ t => I t))
    {s : σ} (hs : I s) : Returns (l.forM f) s (fun _ t => I t) := by
  induction l generalizing s with
  | nil => exact Returns.pure hs
  | cons a rest ih =>
      refine Returns.bind (hf a s List.mem_cons_self hs) (fun _ t ht => ih ?_ ht)
      intro b u hb
      exact hf b u (List.mem_cons_of_mem _ hb)

/-!
## Runs that stop
-/

theorem stops_bind {x : Program σ ε α} {f : α -> Program σ ε β} {s : σ} {stop : ε}
    (hx : x s = Except.error stop) : (x >>= f) s = Except.error stop := by
  have hbind : (x >>= f) s = Except.bind (x s) (fun v => f v.1 v.2) := rfl
  rw [hbind, hx]
  rfl

theorem stops_bindOk {x : Program σ ε α} {f : α -> Program σ ε β} {s t : σ} {a : α} {stop : ε}
    (hx : x s = Except.ok (a, t)) (hf : f a t = Except.error stop) :
    (x >>= f) s = Except.error stop := by
  rw [bind_run hx]
  exact hf

/-- A sequence stops when its second half does, after the first half returned. -/
theorem stops_after {x : Program σ ε α} {f : α -> Program σ ε β} {s : σ} {stop : ε}
    {P : α -> σ -> Prop} (hx : Returns x s P)
    (hf : forall a t, P a t -> f a t = Except.error stop) :
    (x >>= f) s = Except.error stop := by
  rcases hx with ⟨a, t, hxt, hP⟩
  exact stops_bindOk hxt (hf a t hP)

/-!
## Runs that do not stop for bad reasons

From a state that satisfies `P` the program does not stop for a `bad` reason; when
it returns, value and state satisfy `Q`.
-/

def Avoids (bad : ε -> Prop) (P : σ -> Prop) (x : Program σ ε α) (Q : α -> σ -> Prop) : Prop :=
  forall s, P s ->
    match x s with
    | Except.error stop => ¬ bad stop
    | Except.ok (a, t) => Q a t

section Avoids

variable {bad : ε -> Prop} {P I : σ -> Prop}

theorem Avoids.pure {a : α} {Q : α -> σ -> Prop} (h : forall s, P s -> Q a s) :
    Avoids bad P (pure a : Program σ ε α) Q :=
  h

theorem Avoids.get {Q : σ -> σ -> Prop} (h : forall s, P s -> Q s s) :
    Avoids bad P (get : Program σ ε σ) Q :=
  h

theorem Avoids.modify {f : σ -> σ} {Q : PUnit -> σ -> Prop} (h : forall s, P s -> Q ⟨⟩ (f s)) :
    Avoids bad P (modify f : Program σ ε PUnit) Q :=
  h

theorem Avoids.throw {stop : ε} {Q : α -> σ -> Prop} (h : ¬ bad stop) :
    Avoids bad P (throw stop : Program σ ε α) Q :=
  fun _ _ => h

theorem Avoids.bind {x : Program σ ε α} {f : α -> Program σ ε β} {Q : α -> σ -> Prop}
    {R : β -> σ -> Prop} (hx : Avoids bad P x Q) (hf : forall a, Avoids bad (Q a) (f a) R) :
    Avoids bad P (x >>= f) R := by
  intro s hs
  have hbind : (x >>= f) s = Except.bind (x s) (fun v => f v.1 v.2) := rfl
  have hrun := hx s hs
  rw [hbind]
  cases hxs : x s with
  | error stop =>
      rw [hxs] at hrun
      exact hrun
  | ok v =>
      rw [hxs] at hrun
      exact hf v.1 v.2 hrun

theorem Avoids.ite {c : Prop} [Decidable c] {x y : Program σ ε α} {Q : α -> σ -> Prop}
    (hx : c -> Avoids bad P x Q) (hy : ¬ c -> Avoids bad P y Q) :
    Avoids bad P (if c then x else y) Q := by
  by_cases h : c
  · rw [if_pos h]
    exact hx h
  · rw [if_neg h]
    exact hy h

theorem Avoids.mono {P' : σ -> Prop} {x : Program σ ε α} {Q Q' : α -> σ -> Prop}
    (hx : Avoids bad P x Q) (hP : forall s, P' s -> P s) (hQ : forall a s, Q a s -> Q' a s) :
    Avoids bad P' x Q' := by
  intro s hs
  have hrun := hx s (hP s hs)
  cases hxs : x s with
  | error stop =>
      rw [hxs] at hrun
      exact hrun
  | ok v =>
      rw [hxs] at hrun
      exact hQ v.1 v.2 hrun

theorem Avoids.carry {x : Program σ ε α} {Q : α -> σ -> Prop} (hx : Avoids bad P x Q) (K : Prop) :
    Avoids bad (fun s => P s ∧ K) x fun a s => Q a s ∧ K := by
  intro s hs
  have hrun := hx s hs.left
  cases hxs : x s with
  | error stop =>
      rw [hxs] at hrun
      exact hrun
  | ok v =>
      rw [hxs] at hrun
      exact ⟨hrun, hs.right⟩

theorem Avoids.carried {x : Program σ ε α} {Q : α -> σ -> Prop} {K : Prop}
    (hx : K -> Avoids bad P x Q) : Avoids bad (fun s => P s ∧ K) x Q :=
  fun s hs => hx hs.right s hs.left

theorem Avoids.forM {f : α -> Program σ ε PUnit} (l : List α)
    (hf : forall a, a ∈ l -> Avoids bad I (f a) fun _ => I) :
    Avoids bad I (l.forM f) fun _ => I := by
  induction l with
  | nil => exact Avoids.pure fun _ hs => hs
  | cons a rest ih =>
      have hrest : Avoids bad I (rest.forM f) fun _ => I :=
        ih fun b hb => hf b (List.mem_cons_of_mem _ hb)
      exact Avoids.bind (hf a List.mem_cons_self) fun _ => hrest

theorem Avoids.foldlM {f : β -> α -> Program σ ε β} (l : List α)
    (hf : forall b a, a ∈ l -> Avoids bad I (f b a) fun _ => I) (b : β) :
    Avoids bad I (l.foldlM f b) fun _ => I := by
  induction l generalizing b with
  | nil => exact Avoids.pure fun _ hs => hs
  | cons a rest ih =>
      have hrest : forall c, Avoids bad I (rest.foldlM f c) fun _ => I :=
        ih fun c d hd => hf c d (List.mem_cons_of_mem _ hd)
      exact Avoids.bind (hf b a List.mem_cons_self) hrest

theorem Avoids.of_ok {x : Program σ ε α} {Q : α -> σ -> Prop} {s t : σ} {a : α}
    (hx : x s = Except.ok (a, t)) (hQ : Q a t) : Avoids bad (fun u => u = s) x Q := by
  intro u hu
  rw [hu, hx]
  exact hQ

theorem Avoids.ok {x : Program σ ε α} {Q : α -> σ -> Prop} (hx : Avoids bad P x Q) {s t : σ}
    {a : α} (hs : P s) (hrun : x s = Except.ok (a, t)) : Q a t := by
  have h := hx s hs
  rw [hrun] at h
  exact h

theorem Avoids.of_returns {x : Program σ ε α} {Q : α -> σ -> Prop}
    (h : forall s, P s -> Returns x s Q) : Avoids bad P x Q := by
  intro s hs
  rcases h s hs with ⟨a, t, hrun, hQ⟩
  rw [hrun]
  exact hQ

theorem Returns.avoids {x : Program σ ε α} {Q R : α -> σ -> Prop} {s : σ} (h : Returns x s R)
    (hx : Avoids bad P x Q) (hs : P s) : Returns x s fun a t => R a t ∧ Q a t := by
  rcases h with ⟨a, t, hrun, hR⟩
  exact ⟨a, t, hrun, hR, hx.ok hs hrun⟩

theorem Avoids.returns {x : Program σ ε α} {Q : α -> σ -> Prop}
    (hx : Avoids (fun _ => True) P x Q) {s : σ} (hs : P s) : Returns x s Q := by
  have h := hx s hs
  cases hrun : x s with
  | error stop =>
      rw [hrun] at h
      exact absurd trivial h
  | ok v =>
      rw [hrun] at h
      exact ⟨v.1, v.2, hrun, h⟩

theorem Steps.avoids {M : σ -> σ -> Prop} {x : Program σ ε α} (hx : Steps M x)
    (hM : forall s t, M s t -> I s -> I t) : Avoids (fun _ => False) I x fun _ => I := by
  intro s hs
  cases hrun : x s with
  | error stop => exact fun h => h
  | ok v => exact hx.keeps hM hrun hs

theorem Avoids.never {x : Program σ ε α} {Q : α -> σ -> Prop} (hP : forall s, ¬ P s) :
    Avoids bad P x Q :=
  fun s hs => absurd hs (hP s)

theorem Avoids.run {x : Program σ ε α} {Q : α -> σ -> Prop} (hx : Avoids bad P x Q) {s : σ}
    {stop : ε} (hs : P s) (hbad : bad stop) : x s ≠ Except.error stop := by
  intro hrun
  have h := hx s hs
  rw [hrun] at h
  exact h hbad

end Avoids

end Program
