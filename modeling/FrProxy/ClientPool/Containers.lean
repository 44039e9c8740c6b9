import FrProxy.ClientPool.System

/-!
# The three containers

When do `using_`, `idle_` and `toDestrory_` stay apart?  A client that was
evicted or reset while somebody held it is in `toDestrory_` already when its
holder closes it, and the close files it a second time.
-/

namespace FrProxy

/-- Each client that is not deleted is in one container, once, and a deleted one in none. -/
structure ClientPool.Separated (p : ClientPool) : Prop where
  usingNotIdle : forall c, c ∈ p.using_ -> c ∉ p.idle_
  usingNotDestrory : forall c, c ∈ p.using_ -> c ∉ p.toDestrory_
  idleNotDestrory : forall c, c ∈ p.idle_ -> c ∉ p.toDestrory_
  destroryNodup : p.toDestrory_.Nodup
  deletedOut : forall c, c ∈ p.deleted ->
    c ∉ p.using_ ∧ c ∉ p.idle_ ∧ c ∉ p.toDestrory_

namespace PoolSystem

/-- A close finds its client where `open` put it. -/
def ClosesInUse (s : PoolSystem) : PoolAction -> Prop
  | .onClientClosing c => c ∈ s.pool.using_
  | _ => True

def Separated (s : PoolSystem) : Prop :=
  s.pool.Separated

theorem separated_start (addr : ClientId -> Nat) : Separated (start addr) where
  usingNotIdle := by simp [start, ClientPool.start]
  usingNotDestrory := by simp [start, ClientPool.start]
  idleNotDestrory := by simp [start, ClientPool.start]
  destroryNodup := List.nodup_nil
  deletedOut := by simp [start, ClientPool.start]

theorem Separated.frame {s t : PoolSystem} (h : Separated s)
    (husing : t.pool.using_ = s.pool.using_) (hidle : t.pool.idle_ = s.pool.idle_)
    (hdestrory : t.pool.toDestrory_ = s.pool.toDestrory_)
    (hdeleted : t.pool.deleted = s.pool.deleted) : Separated t where
  usingNotIdle := by
    rw [husing, hidle]
    exact h.usingNotIdle
  usingNotDestrory := by
    rw [husing, hdestrory]
    exact h.usingNotDestrory
  idleNotDestrory := by
    rw [hidle, hdestrory]
    exact h.idleNotDestrory
  destroryNodup := hdestrory ▸ h.destroryNodup
  deletedOut := by
    rw [husing, hidle, hdestrory, hdeleted]
    exact h.deletedOut

theorem Separated.giveUp {s t : PoolSystem} {c : ClientId} (h : Separated s)
    (hc : c ∈ s.pool.using_ ∨ c ∈ s.pool.idle_)
    (husing : forall d, d ∈ t.pool.using_ -> d ∈ s.pool.using_ ∧ d ≠ c)
    (hidle : forall d, d ∈ t.pool.idle_ -> d ∈ s.pool.idle_ ∧ d ≠ c)
    (hdestrory : t.pool.toDestrory_ = s.pool.toDestrory_ ++ [c])
    (hdeleted : t.pool.deleted = s.pool.deleted) : Separated t := by
  have hout : c ∉ s.pool.toDestrory_ := by
    rcases hc with hc | hc
    · exact h.usingNotDestrory c hc
    · exact h.idleNotDestrory c hc
  have hmem : forall d, d ∈ t.pool.toDestrory_ <-> d ∈ s.pool.toDestrory_ ∨ d = c := by
    intro d
    rw [hdestrory]
    simp
  constructor
  · exact fun d hd hdi => h.usingNotIdle d (husing d hd).left (hidle d hdi).left
  · intro d hd hdd
    rcases (hmem d).mp hdd with hdd | heq
    · exact h.usingNotDestrory d (husing d hd).left hdd
    · exact (husing d hd).right heq
  · intro d hd hdd
    rcases (hmem d).mp hdd with hdd | heq
    · exact h.idleNotDestrory d (hidle d hd).left hdd
    · exact (hidle d hd).right heq
  · rw [hdestrory, List.nodup_append]
    refine ⟨h.destroryNodup, List.nodup_singleton c, ?_⟩
    intro a ha b hb hab
    rw [List.mem_singleton.mp hb] at hab
    exact hout (hab ▸ ha)
  · intro d hd
    rw [hdeleted] at hd
    rcases h.deletedOut d hd with ⟨hdu, hdi, hdd⟩
    refine ⟨fun hmem' => hdu (husing d hmem').left, fun hmem' => hdi (hidle d hmem').left, ?_⟩
    intro hmem'
    rcases (hmem d).mp hmem' with hdd' | rfl
    · exact hdd hdd'
    · rcases hc with hc | hc
      · exact hdu hc
      · exact hdi hc

theorem Separated.reuse {s : PoolSystem} {c : ClientId} {rest : List ClientId}
    (hsound : Sound s) (h : Separated s) (hidle : s.pool.idle_ = c :: rest) :
    Separated {
      s with
      pool := {
        s.pool.setInUsing c true with
        idle_ := rest
        using_ := ClientPool.insertClient s.pool.addr c s.pool.using_ }
      opening := c :: s.opening } := by
  have hnodup : c ∉ rest ∧ rest.Nodup := List.nodup_cons.mp (hidle ▸ hsound.idleNodup)
  have hc : c ∈ s.pool.idle_ := by simp [hidle]
  have hrest : forall d, d ∈ rest -> d ∈ s.pool.idle_ := by
    intro d hd
    simp [hidle, hd]
  constructor
  · intro d hd hdr
    rcases ClientPool.mem_insertClient.mp hd with rfl | hd
    · exact hnodup.left hdr
    · exact h.usingNotIdle d hd (hrest d hdr)
  · intro d hd
    rcases ClientPool.mem_insertClient.mp hd with rfl | hd
    · exact h.idleNotDestrory _ hc
    · exact h.usingNotDestrory d hd
  · exact fun d hd => h.idleNotDestrory d (hrest d hd)
  · exact h.destroryNodup
  · intro d hd
    rcases h.deletedOut d hd with ⟨hdu, hdi, hdd⟩
    refine ⟨fun hmem => ?_, fun hmem => hdi (hrest d hmem), hdd⟩
    rcases ClientPool.mem_insertClient.mp hmem with rfl | hmem
    · exact hdi hc
    · exact hdu hmem

theorem Separated.create {s : PoolSystem} (hsound : Sound s) (h : Separated s) :
    Separated {
      s with
      pool := s.pool.create
      opening := (s.pool.lastId_ + 1) :: s.opening } := by
  constructor
  · intro d hd hdi
    rcases ClientPool.mem_insertClient.mp hd with heq | hd
    · exact hsound.new (Or.inr (Or.inr (Or.inl hdi))) heq
    · exact h.usingNotIdle d hd hdi
  · intro d hd hdd
    rcases ClientPool.mem_insertClient.mp hd with heq | hd
    · exact hsound.new (Or.inr (Or.inr (Or.inr (Or.inl hdd)))) heq
    · exact h.usingNotDestrory d hd hdd
  · exact h.idleNotDestrory
  · exact h.destroryNodup
  · intro d hd
    rcases h.deletedOut d hd with ⟨hdu, hdi, hdd⟩
    refine ⟨fun hmem => ?_, hdi, hdd⟩
    rcases ClientPool.mem_insertClient.mp hmem with heq | hmem
    · exact hsound.new (Or.inr (Or.inr (Or.inr (Or.inr hd)))) heq
    · exact hdu hmem

theorem Separated.openMove {s t : PoolSystem} (hsound : Sound s) (h : Separated s)
    (hmove : OpenMove s t) : Separated t := by
  cases hmove with
  | @giveUp c rest hidle =>
      have hnodup : c ∉ rest ∧ rest.Nodup := List.nodup_cons.mp (hidle ▸ hsound.idleNodup)
      have hc : c ∈ s.pool.idle_ := by simp [hidle]
      refine h.giveUp (Or.inr hc) ?_ ?_ rfl rfl
      · intro d hd
        exact ⟨hd, fun heq => hsound.usingNotIdle d hd (heq ▸ hc)⟩
      · intro d hd
        have hdr : d ∈ rest := hd
        refine ⟨?_, fun heq => hnodup.left (heq ▸ hdr)⟩
        rw [hidle]
        exact List.mem_cons_of_mem _ hdr
  | reuse hidle => exact h.reuse hsound hidle
  | create => exact h.create hsound
  | @evict c hc =>
      refine h.giveUp (Or.inl hc) ?_ ?_ rfl rfl
      · intro d hd
        rcases hsound.usingNodup.mem_erase_iff.mp hd with ⟨hne, hd⟩
        exact ⟨hd, hne⟩
      · intro d hd
        exact ⟨hd, fun heq => hsound.usingNotIdle c hc (heq ▸ hd)⟩

theorem Separated.onClientClosing {s : PoolSystem} {c : ClientId} (hsound : Sound s)
    (h : Separated s) (hc : c ∈ s.pool.using_) :
    Separated (s.mapPool (·.onClientClosing c)) := by
  have herase : forall d, d ∈ s.pool.using_.erase c -> d ∈ s.pool.using_ ∧ d ≠ c := by
    intro d hd
    rcases hsound.usingNodup.mem_erase_iff.mp hd with ⟨hne, hd⟩
    exact ⟨hd, hne⟩
  have hpool : s.mapPool (·.onClientClosing c) =
      { s with pool := s.pool.onClientClosing c } := rfl
  rw [hpool]
  rcases s.pool.onClientClosing_cases c with ⟨_, hclose⟩ | ⟨_, hclose⟩
  · rw [hclose]
    constructor
    · intro d hd hdi
      rcases ClientPool.mem_insertClient.mp hdi with heq | hdi
      · exact (herase d hd).right heq
      · exact h.usingNotIdle d (herase d hd).left hdi
    · exact fun d hd => h.usingNotDestrory d (herase d hd).left
    · intro d hd
      rcases ClientPool.mem_insertClient.mp hd with rfl | hd
      · exact h.usingNotDestrory _ hc
      · exact h.idleNotDestrory d hd
    · exact h.destroryNodup
    · intro d hd
      rcases h.deletedOut d hd with ⟨hdu, hdi, hdd⟩
      refine ⟨fun hmem => hdu (herase d hmem).left, fun hmem => ?_, hdd⟩
      rcases ClientPool.mem_insertClient.mp hmem with rfl | hmem
      · exact hdu hc
      · exact hdi hmem
  · rw [hclose]
    refine h.giveUp (Or.inl hc) herase ?_ rfl rfl
    intro d hd
    exact ⟨hd, fun heq => hsound.usingNotIdle c hc (heq ▸ hd)⟩

theorem Separated.destroyClients {s : PoolSystem} (h : Separated s) (force : Bool) :
    Separated (s.mapPool (·.destroyClients force)) where
  usingNotIdle := h.usingNotIdle
  usingNotDestrory := fun d hd hdd => h.usingNotDestrory d hd (List.mem_of_mem_filter hdd)
  idleNotDestrory := fun d hd hdd => h.idleNotDestrory d hd (List.mem_of_mem_filter hdd)
  destroryNodup := h.destroryNodup.filter _
  deletedOut := by
    intro d hd
    simp only [mapPool, ClientPool.destroyClients, List.mem_append, List.mem_reverse,
      List.mem_filter] at hd ⊢
    rcases hd with ⟨hdd, hdestroys⟩ | hd
    · refine ⟨fun hmem => h.usingNotDestrory d hmem hdd,
        fun hmem => h.idleNotDestrory d hmem hdd, ?_⟩
      intro h
      rcases h with ⟨_, hkept⟩
      rw [hdestroys] at hkept
      cases hkept
    · rcases h.deletedOut d hd with ⟨hdu, hdi, hdd⟩
      exact ⟨hdu, hdi, fun hmem => hdd hmem.left⟩

theorem Separated.resetSection {s : PoolSystem} (hsound : Sound s) (h : Separated s) :
    Separated (s.mapPool (·.resetSection)) where
  usingNotIdle := by simp [mapPool, ClientPool.resetSection]
  usingNotDestrory := by simp [mapPool, ClientPool.resetSection]
  idleNotDestrory := by simp [mapPool, ClientPool.resetSection]
  destroryNodup := by
    show (s.pool.toDestrory_ ++ s.pool.using_ ++ s.pool.idle_).Nodup
    rw [List.append_assoc]
    refine List.nodup_append'.mpr ⟨h.destroryNodup, ?_, ?_⟩
    · exact List.nodup_append'.mpr ⟨hsound.usingNodup, hsound.idleNodup, hsound.usingNotIdle⟩
    · intro d hdd hd
      rcases List.mem_append.mp hd with hd | hd
      · exact h.usingNotDestrory d hd hdd
      · exact h.idleNotDestrory d hd hdd
  deletedOut := by
    intro d hd
    rcases h.deletedOut d hd with ⟨hdu, hdi, hdd⟩
    simp [mapPool, ClientPool.resetSection, hdu, hdi, hdd]

theorem separated_step {s s' : PoolSystem} {a : PoolAction} (hstep : step s a = some s')
    (hsound : Sound s) (h : Separated s) (hguard : ClosesInUse s a) : Separated s' := by
  cases a with
  | destroyClients force =>
      cases hstep
      exact h.destroyClients force
  | openSection now =>
      have hkeep := openSection_keeps (fun t => Sound t ∧ Separated t)
        (fun _ _ hmove ht => ⟨ht.left.openMove hmove, ht.right.openMove ht.left hmove⟩)
        hstep ⟨hsound, h⟩
      exact hkeep.right
  | stamp c now =>
      simp only [step, Option.ite_none_right_eq_some, Option.some.injEq] at hstep
      rcases hstep with ⟨_, rfl⟩
      exact h.frame rfl rfl rfl rfl
  | release c =>
      simp only [step, Option.ite_none_right_eq_some, Option.some.injEq] at hstep
      rcases hstep with ⟨_, rfl⟩
      exact h.frame rfl rfl rfl rfl
  | onClientClosing c =>
      simp only [step, Option.ite_none_right_eq_some, Option.some.injEq] at hstep
      rcases hstep with ⟨_, rfl⟩
      exact h.onClientClosing hsound hguard
  | reset =>
      cases hstep
      exact h.resetSection hsound
  | _ =>
      have hsame : Unmoved s s' := unmoved_step hstep trivial
      exact h.frame hsame.using_ hsame.idle_ hsame.toDestrory_ hsame.deleted

theorem closesInUse_of_separated {s s' : PoolSystem} {a : PoolAction}
    (hstep : step s a = some s') (hsound : Sound s) (h' : Separated s') :
    ClosesInUse s a := by
  cases a with
  | onClientClosing c =>
      simp only [step, Option.ite_none_right_eq_some, Option.some.injEq] at hstep
      rcases hstep with ⟨hc, rfl⟩
      have hcb : c ∈ s.borrowed := List.mem_append_right _ hc
      rcases hsound.known c (Or.inl hcb) with ⟨hpos, hle⟩
      have hnotIdle := hsound.borrowedNotIdle c hcb
      have hfiled : c ∈ (s.pool.onClientClosing c).idle_ ∧
            (s.pool.onClientClosing c).toDestrory_ = s.pool.toDestrory_ ∨
          (s.pool.onClientClosing c).toDestrory_ = s.pool.toDestrory_ ++ [c] := by
        rcases s.pool.onClientClosing_cases c with ⟨_, hclose⟩ | ⟨_, hclose⟩
        · rw [hclose]
          exact Or.inl ⟨ClientPool.mem_insertClient.mpr (Or.inl rfl), rfl⟩
        · rw [hclose]
          exact Or.inr rfl
      have hdeleted := s.pool.onClientClosing_deleted c
      rcases hsound.accounted c hpos hle with hin | hin | hin | hin
      · exact hin
      · exact absurd hin hnotIdle
      · rcases hfiled with ⟨hidle, hdestrory⟩ | hdestrory
        · exact absurd (hdestrory ▸ hin) (h'.idleNotDestrory c hidle)
        · have hnodup : (s.pool.onClientClosing c).toDestrory_.Nodup := h'.destroryNodup
          rw [hdestrory] at hnodup
          exact absurd rfl ((List.nodup_append.mp hnodup).right.right c hin c (by simp))
      · rcases h'.deletedOut c (hdeleted ▸ hin) with ⟨_, houtIdle, houtDestrory⟩
        rcases hfiled with ⟨hidle, _⟩ | hdestrory
        · exact absurd hidle houtIdle
        · refine absurd ?_ houtDestrory
          show c ∈ (s.pool.onClientClosing c).toDestrory_
          rw [hdestrory]
          simp
  | _ => trivial

/--
In a run of the pool the containers stay apart in every state exactly when
every close finds its client still in use.
-/
theorem containers_apart_iff (addr : ClientId -> Nat) (actions : List PoolAction) :
    (forall s a s', (s, a, s') ∈ runFrom addr actions -> Separated s') <->
    forall s a s', (s, a, s') ∈ runFrom addr actions -> ClosesInUse s a :=
  Transition.good_iff_guarded step (fun s => Sound s ∧ Separated s) ClosesInUse
    (fun _ _ s' => Separated s')
    (fun _ _ _ hstep h hguard =>
      let hsep := separated_step hstep h.left h.right hguard
      ⟨⟨sound_step hstep h.left, hsep⟩, hsep⟩)
    (fun _ _ _ hstep h hgood => closesInUse_of_separated hstep h.left hgood)
    actions ⟨sound_start addr, separated_start addr⟩

section Example

/-- A client is reset while a caller holds it, and then the caller closes it. -/
private def resetWhileHeld : List PoolAction :=
  [.openSection 5, .stamp 1 5, .setConnected 1 true, .reset, .release 1, .onClientClosing 1]

/-- The containers of the pool overlap when a client is closed after a reset. -/
theorem containers_overlap :
    ¬ forall (addr : ClientId -> Nat) (actions : List PoolAction) s a s',
      (s, a, s') ∈ runFrom addr actions -> Separated s' := by
  intro h
  have hfinal : Separated (finalFrom id resetWhileHeld) :=
    Transition.final_of_transitions step resetWhileHeld (separated_start id)
      (h id resetWhileHeld)
  exact hfinal.idleNotDestrory 1 (by decide) (by decide)

end Example

end PoolSystem

end FrProxy
