/-!
# Runs of a labelled transition function

A component whose steps are given by a partial function of a state and a
label.  A run performs a list of labels one after the other and ends early at a
label that is not enabled.
-/

namespace Transition

variable {σ α : Type _} (step : σ -> α -> Option σ)

/-- The steps that a list of labels performs: state before, label, state after. -/
def transitions : σ -> List α -> List (σ × α × σ)
  | _, [] => []
  | s, a :: rest =>
      match step s a with
      | none => []
      | some s' => (s, a, s') :: transitions s' rest

def final : σ -> List α -> σ
  | s, [] => s
  | s, a :: rest =>
      match step s a with
      | none => s
      | some s' => final s' rest

theorem transitions_cons_some {s s' : σ} {a : α} (rest : List α)
    (h : step s a = some s') :
    transitions step s (a :: rest) = (s, a, s') :: transitions step s' rest := by
  simp [transitions, h]

theorem transitions_cons_none {s : σ} {a : α} (rest : List α)
    (h : step s a = none) : transitions step s (a :: rest) = [] := by
  simp [transitions, h]

theorem final_cons_some {s s' : σ} {a : α} (rest : List α) (h : step s a = some s') :
    final step s (a :: rest) = final step s' rest := by
  simp [final, h]

theorem label_mem {s t t' : σ} {a : α} {as : List α} (h : (t, a, t') ∈ transitions step s as) :
    a ∈ as := by
  induction as generalizing s with
  | nil => cases h
  | cons b rest ih =>
      cases hstep : step s b with
      | none =>
          rw [transitions_cons_none step rest hstep] at h
          cases h
      | some u =>
          rw [transitions_cons_some step rest hstep] at h
          rcases List.mem_cons.mp h with heq | hmem
          · cases heq
            exact List.mem_cons_self
          · exact List.mem_cons_of_mem _ (ih hmem)

theorem final_append (henabled : forall s a, (step s a).isSome = true) (s : σ) (as bs : List α) :
    final step s (as ++ bs) = final step (final step s as) bs := by
  induction as generalizing s with
  | nil => rfl
  | cons a rest ih =>
      rcases Option.isSome_iff_exists.mp (henabled s a) with ⟨u, hstep⟩
      rw [List.cons_append, final_cons_some step _ hstep, final_cons_some step _ hstep]
      exact ih u

/-!
## The end of a run
-/

/-- What holds after every step of a run, and at its start, holds at its end. -/
theorem final_of_transitions {P : σ -> Prop} {s : σ} (as : List α) (hs : P s)
    (h : forall t a t', (t, a, t') ∈ transitions step s as -> P t') :
    P (final step s as) := by
  induction as generalizing s with
  | nil => exact hs
  | cons b rest ih =>
      cases hstep : step s b with
      | none => simpa [final, hstep] using hs
      | some u =>
          rw [transitions_cons_some step rest hstep] at h
          have hu : P u := h s b u List.mem_cons_self
          have htail := ih hu fun t a t' hmem => h t a t' (List.mem_cons_of_mem _ hmem)
          simpa [final, hstep] using htail

theorem final_of_kept {P : σ -> Prop} {s : σ} (as : List α) (hs : P s)
    (h : forall t a t', (t, a, t') ∈ transitions step s as -> step t a = some t' -> P t -> P t') :
    P (final step s as) := by
  induction as generalizing s with
  | nil => exact hs
  | cons b rest ih =>
      cases hstep : step s b with
      | none => simpa [final, hstep] using hs
      | some u =>
          rw [transitions_cons_some step rest hstep] at h
          have hu : P u := h s b u List.mem_cons_self hstep hs
          have htail := ih hu fun t a t' hmem => h t a t' (List.mem_cons_of_mem _ hmem)
          simpa [final, hstep] using htail

theorem final_keeps {P : σ -> Prop} {Guard : α -> Prop}
    (hkeep : forall s a s', step s a = some s' -> P s -> Guard a -> P s') {s : σ}
    (as : List α) (hs : P s) (hguard : forall a, a ∈ as -> Guard a) : P (final step s as) := by
  induction as generalizing s with
  | nil => exact hs
  | cons b rest ih =>
      cases hstep : step s b with
      | none => simpa [final, hstep] using hs
      | some u =>
          have hu : P u := hkeep s b u hstep hs (hguard b List.mem_cons_self)
          have htail := ih hu fun a ha => hguard a (List.mem_cons_of_mem _ ha)
          simpa [final, hstep] using htail

/-- Where every allowed label is enabled and keeps a property, a run takes all its labels. -/
theorem runs_through {P : σ -> Prop} {Guard : α -> Prop}
    (hnext : forall s a, P s -> Guard a -> exists s', step s a = some s' ∧ P s') {s : σ}
    (as : List α) (hs : P s) (hguard : forall a, a ∈ as -> Guard a) :
    P (final step s as) ∧ (transitions step s as).length = as.length := by
  induction as generalizing s with
  | nil => exact ⟨hs, rfl⟩
  | cons b rest ih =>
      rcases hnext s b hs (hguard b List.mem_cons_self) with ⟨u, hstep, hu⟩
      have htail := ih hu fun a ha => hguard a (List.mem_cons_of_mem _ ha)
      simpa [final, transitions, hstep] using htail

theorem final_appends {β : Type _} (record : σ -> List β) (entry : α -> List β)
    (happend : forall s a s', step s a = some s' -> record s' = record s ++ entry a)
    (s : σ) (as : List α) :
    record (final step s as) =
      record s ++ (transitions step s as).flatMap fun t => entry t.2.1 := by
  induction as generalizing s with
  | nil => simp [final, transitions]
  | cons b rest ih =>
      cases hstep : step s b with
      | none => simp [final, transitions, hstep]
      | some u =>
          have htail := ih u
          rw [happend s b u hstep] at htail
          simpa [final, transitions, hstep] using htail

/-- A run makes no more steps that cost something than its stock and its gains pay for. -/
theorem spent_le (Inv : σ -> Prop) (stock : σ -> Nat) (costs gains : α -> Bool) (k : Nat)
    (hpay : forall s a s', step s a = some s' -> Inv s ->
      Inv s' ∧ stock s' + (costs a).toNat ≤ stock s + k * (gains a).toNat)
    {s : σ} (as : List α) (hs : Inv s) :
    (transitions step s as).countP (fun t => costs t.2.1) ≤
      stock s + k * (transitions step s as).countP fun t => gains t.2.1 := by
  induction as generalizing s with
  | nil => exact Nat.zero_le _
  | cons b rest ih =>
      cases hstep : step s b with
      | none =>
          rw [transitions_cons_none step rest hstep]
          exact Nat.zero_le _
      | some u =>
          rcases hpay s b u hstep hs with ⟨hu, hle⟩
          have htail := ih hu
          have htoNat : forall x : Bool, x.toNat = if x = true then 1 else 0 := by decide
          rw [htoNat, htoNat] at hle
          rw [transitions_cons_some step rest hstep, List.countP_cons, List.countP_cons, Nat.mul_add]
          dsimp only
          omega

/-!
## Guarded runs

Two readings of a run: what holds of its steps, and what its steps were allowed
to do.  `Inv` is an invariant of the runs whose steps all meet the guard.
-/

section Guarded

variable (Inv : σ -> Prop) (Guard : σ -> α -> Prop) (Good : σ -> α -> σ -> Prop)

theorem good_of_guarded
    (hkeep : forall s a s', step s a = some s' -> Inv s -> Guard s a ->
      Inv s' ∧ Good s a s')
    {s : σ} {as : List α} (hs : Inv s)
    (hguard : forall t a t', (t, a, t') ∈ transitions step s as -> Guard t a) :
    forall t a t', (t, a, t') ∈ transitions step s as -> Inv t ∧ Good t a t' := by
  induction as generalizing s with
  | nil =>
      intro t a t' h
      cases h
  | cons b rest ih =>
      intro t a t' h
      cases hstep : step s b with
      | none =>
          rw [transitions_cons_none step rest hstep] at h
          cases h
      | some u =>
          have hcons := transitions_cons_some step rest hstep
          rw [hcons] at h hguard
          have hb : Guard s b := hguard s b u List.mem_cons_self
          have hu := hkeep s b u hstep hs hb
          rcases List.mem_cons.mp h with heq | hmem
          · cases heq
            exact ⟨hs, hu.right⟩
          · refine ih hu.left ?_ t a t' hmem
            intro t a t' hmem'
            exact hguard t a t' (List.mem_cons_of_mem _ hmem')

/--
If a step is good exactly when it meets the guard, a run is good throughout
exactly when all its steps meet the guard.
-/
theorem good_iff_guarded
    (hkeep : forall s a s', step s a = some s' -> Inv s -> Guard s a ->
      Inv s' ∧ Good s a s')
    (hbreak : forall s a s', step s a = some s' -> Inv s -> Good s a s' ->
      Guard s a)
    {s : σ} (as : List α) (hs : Inv s) :
    (forall t a t', (t, a, t') ∈ transitions step s as -> Good t a t') <->
      forall t a t', (t, a, t') ∈ transitions step s as -> Guard t a := by
  constructor
  · intro hgood
    induction as generalizing s with
    | nil =>
        intro t a t' h
        cases h
    | cons b rest ih =>
        intro t a t' h
        cases hstep : step s b with
        | none =>
            rw [transitions_cons_none step rest hstep] at h
            cases h
        | some u =>
            have hcons := transitions_cons_some step rest hstep
            rw [hcons] at h hgood
            have hb : Guard s b :=
              hbreak s b u hstep hs (hgood s b u List.mem_cons_self)
            have hu := hkeep s b u hstep hs hb
            rcases List.mem_cons.mp h with heq | hmem
            · cases heq
              exact hb
            · refine ih hu.left ?_ t a t' hmem
              intro t a t' hmem'
              exact hgood t a t' (List.mem_cons_of_mem _ hmem')
  · intro hguard t a t' h
    exact (good_of_guarded step Inv Guard Good hkeep hs hguard t a t' h).right

end Guarded

/-!
## Runs whose steps all meet a condition
-/

section Restricted

variable (Allowed : σ -> α -> σ -> Prop) [forall s a s', Decidable (Allowed s a s')]

def restrict (s : σ) (a : α) : Option σ :=
  (step s a).filter fun s' => decide (Allowed s a s')

theorem restrict_eq_some {s s' : σ} {a : α} :
    restrict step Allowed s a = some s' <-> step s a = some s' ∧ Allowed s a s' := by
  simp [restrict, Option.filter_eq_some_iff]

theorem transitions_restrict {s : σ} {as : List α}
    (h : forall t a t', (t, a, t') ∈ transitions step s as -> Allowed t a t') :
    transitions (restrict step Allowed) s as = transitions step s as := by
  induction as generalizing s with
  | nil => rfl
  | cons b rest ih =>
      cases hstep : step s b with
      | none =>
          have hnone : restrict step Allowed s b = none := by
            simp [restrict, hstep]
          rw [transitions_cons_none step rest hstep, transitions_cons_none _ rest hnone]
      | some u =>
          have hcons := transitions_cons_some step rest hstep
          rw [hcons] at h
          have hsome : restrict step Allowed s b = some u :=
            (restrict_eq_some step Allowed).mpr ⟨hstep, h s b u List.mem_cons_self⟩
          have htail := ih fun t a t' hmem => h t a t' (List.mem_cons_of_mem _ hmem)
          rw [hcons, transitions_cons_some _ rest hsome, htail]

theorem good_iff_guarded_of_allowed (Inv : σ -> Prop) (Guard : σ -> α -> Prop)
    (Good : σ -> α -> σ -> Prop)
    (hkeep : forall s a s', step s a = some s' -> Allowed s a s' -> Inv s -> Guard s a ->
      Inv s' ∧ Good s a s')
    (hbreak : forall s a s', step s a = some s' -> Allowed s a s' -> Inv s ->
      Good s a s' -> Guard s a)
    {s : σ} {as : List α} (hs : Inv s)
    (hall : forall t a t', (t, a, t') ∈ transitions step s as -> Allowed t a t') :
    (forall t a t', (t, a, t') ∈ transitions step s as -> Good t a t') <->
      forall t a t', (t, a, t') ∈ transitions step s as -> Guard t a := by
  rw [<- transitions_restrict step Allowed hall]
  apply good_iff_guarded (restrict step Allowed) Inv Guard Good ?_ ?_ as hs
  · intro t a t' hstep
    rcases (restrict_eq_some step Allowed).mp hstep with ⟨hstep, hallowed⟩
    exact hkeep t a t' hstep hallowed
  · intro t a t' hstep
    rcases (restrict_eq_some step Allowed).mp hstep with ⟨hstep, hallowed⟩
    exact hbreak t a t' hstep hallowed

end Restricted

end Transition
