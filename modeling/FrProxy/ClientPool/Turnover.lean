import FrProxy.ClientPool.Opening
import FrProxy.ClientPool.Timed

/-!
# The turnover of a full pool

A pool without an idle client and without room gives up the borrowed clients
whose time is over, and the next caller is served again.  `open` does so only
when the size equals the limit, which may have been lowered below the size.
-/

namespace FrProxy

namespace ClientPool

/-- Last used more than `used_timeout_` ago. -/
def Expired (p : ClientPool) (now : Nat) (c : ClientId) : Prop :=
  ((p.clients c).lastUse_ : Int) + p.usedTimeout_ < now

instance (p : ClientPool) (now : Nat) (c : ClientId) : Decidable (p.Expired now c) :=
  inferInstanceAs (Decidable (_ < _))

/--
`open` finds no idle client and no room.  The size is the number of borrowed
clients then, and the clock is not behind their time stamps.
-/
def Crowded (p : ClientPool) (now : Nat) : Prop :=
  p.idle_.find? p.getConnected = none ∧ p.maxClient_ ≤ p.using_.length ∧
    forall c, c ∈ p.using_ -> (p.clients c).lastUse_ ≤ now

instance (p : ClientPool) (now : Nat) : Decidable (p.Crowded now) :=
  inferInstanceAs (Decidable (_ ∧ _ ∧ forall c, c ∈ p.using_ -> _))

structure TurnsOver (p : ClientPool) (now : Nat) (q : ClientPool) : Prop where
  /-- The last round of the loop finds nobody. -/
  done : q.using_.find? (q.timedOut now) = none
  kept : forall c, c ∈ q.using_ <-> c ∈ p.using_ ∧ ¬ p.Expired now c
  moved : forall c, c ∈ p.using_ -> q.toDestrory_.count c =
    p.toDestrory_.count c + if p.Expired now c then 1 else 0
  released : forall key s, p.stateBag_.get key = some s -> s.clientId ∈ p.using_ ->
    p.Expired now s.clientId -> q.stateBag_.get key = some { s with clientId := 0 }
  recovers : (forall c, c ∈ p.using_ -> p.Expired now c) ->
    forall later, exists c, (q.openSection later).2 = some c

/-- The pool is as large as its limit, or no borrowed client has expired. -/
def AtLimit (p : ClientPool) (now : Nat) : Prop :=
  (p.using_.length : Int) = p.maxClient_ ∨ forall c, c ∈ p.using_ -> ¬ p.Expired now c

instance (p : ClientPool) (now : Nat) : Decidable (p.AtLimit now) :=
  inferInstanceAs (Decidable (_ ∨ forall c, c ∈ p.using_ -> _))

section Turnover

variable {p : ClientPool} {now : Nat} (hcrowded : p.Crowded now)

include hcrowded in
theorem Crowded.timedOut_iff (hnow : now < 2 ^ 64)
    (htimeout : 0 < p.usedTimeout_ ∧ p.usedTimeout_ < 2 ^ 31) {c : ClientId}
    (hc : c ∈ p.using_) : p.timedOut now c = true <-> p.Expired now c := by
  have hlast := hcrowded.right.right c hc
  rw [TimedPool.timedOut_iff htimeout.left htimeout.right hnow
    (Nat.lt_of_le_of_lt hlast hnow), if_pos hlast]
  exact Iff.rfl

include hcrowded in
theorem Crowded.reuse :
    (p.reuse p.idle_).1.idle_ = [] ∧ (p.reuse p.idle_).1.using_ = p.using_ ∧
      (p.reuse p.idle_).1.maxClient_ = p.maxClient_ :=
  reuse_none ((reuse_snd p.idle_ p).trans hcrowded.left)

include hcrowded in
theorem Crowded.rounds : (p.reuse p.idle_).1.using_.length ≤ p.using_.length :=
  Nat.le_of_eq (congrArg List.length hcrowded.reuse.right.left)

include hcrowded in
theorem Crowded.openSection_fst :
    (p.openSection now).1 =
      if (p.using_.length : Int) = p.maxClient_ then
        evictLoop now p.using_.length (p.reuse p.idle_).1
      else (p.reuse p.idle_).1 := by
  have hnone : (p.openSection now).2 = none := by
    rw [openSection_snd, hcrowded.left]
    exact if_neg (Int.not_lt.mpr hcrowded.right.left)
  exact (openSection_of_none hnone).right.right

variable (hnow : now < 2 ^ 64) (htimeout : 0 < p.usedTimeout_ ∧ p.usedTimeout_ < 2 ^ 31)

include hcrowded hnow htimeout in
theorem Crowded.openSection_atLimit (hat : p.AtLimit now) :
    (p.openSection now).1 = evictLoop now p.using_.length (p.reuse p.idle_).1 := by
  rw [hcrowded.openSection_fst]
  by_cases hfull : (p.using_.length : Int) = p.maxClient_
  · exact if_pos hfull
  · rw [if_neg hfull]
    refine (evictLoop_of_none ?_ p.using_.length).symm
    apply List.find?_eq_none.mpr
    intro c hc htimed
    rw [hcrowded.reuse.right.left] at hc
    rw [reuse_timedOut] at htimed
    rcases hat with heq | hfresh
    · exact hfull heq
    · exact hfresh c hc ((hcrowded.timedOut_iff hnow htimeout hc).mp htimed)

include hcrowded hnow htimeout in
theorem Crowded.filter_timedOut :
    (p.reuse p.idle_).1.using_.filter ((p.reuse p.idle_).1.timedOut now) =
        (p.using_.filter fun c => decide (p.Expired now c)) ∧
    ((p.reuse p.idle_).1.using_.filter fun c => !(p.reuse p.idle_).1.timedOut now c) =
        p.using_.filter fun c => !decide (p.Expired now c) := by
  have htest : forall c, c ∈ p.using_ ->
      (p.reuse p.idle_).1.timedOut now c = decide (p.Expired now c) := by
    intro c hc
    rw [reuse_timedOut, Bool.eq_iff_iff, decide_eq_true_iff]
    exact hcrowded.timedOut_iff hnow htimeout hc
  rw [hcrowded.reuse.right.left]
  exact ⟨List.filter_congr htest, List.filter_congr fun c hc => congrArg not (htest c hc)⟩

variable (hat : p.AtLimit now)

include hcrowded hnow htimeout hat in
theorem Crowded.openSection_moves :
    (p.openSection now).1.using_ = (p.using_.filter fun c => !decide (p.Expired now c)) ∧
    (p.openSection now).1.toDestrory_ = p.toDestrory_ ++ p.idle_ ++
      p.using_.filter fun c => decide (p.Expired now c) := by
  have hmoves := evictLoop_moves now p.using_.length _ hcrowded.rounds
  have hfilter := hcrowded.filter_timedOut hnow htimeout
  rw [hfilter.left, hfilter.right, reuse_toDestrory_, takeWhile_of_find?_none hcrowded.left]
    at hmoves
  rw [hcrowded.openSection_atLimit hnow htimeout hat]
  exact hmoves

include hcrowded hnow htimeout hat in
theorem Crowded.openSection_released {key : String} {s : ZkState}
    (hget : p.stateBag_.get key = some s) (hc : s.clientId ∈ p.using_)
    (hold : p.Expired now s.clientId) :
    (p.openSection now).1.stateBag_.get key = some { s with clientId := 0 } := by
  have hfirst : exists id, (p.reuse p.idle_).1.stateBag_.get key = some { s with clientId := id } ∧
      (id = 0 ∨ id = s.clientId) := by
    rw [reuse_get, hget, Option.map_some]
    split
    · exact ⟨0, rfl, Or.inl rfl⟩
    · exact ⟨s.clientId, rfl, Or.inr rfl⟩
  have hexpired : s.clientId ∈ p.using_.filter fun c => decide (p.Expired now c) :=
    List.mem_filter.mpr ⟨hc, decide_eq_true hold⟩
  rcases hfirst with ⟨id, hreuse, hid⟩
  rw [hcrowded.openSection_atLimit hnow htimeout hat, evictLoop_get now _ _ hcrowded.rounds, hreuse,
    (hcrowded.filter_timedOut hnow htimeout).left, Option.map_some]
  rcases hid with rfl | rfl
  · exact congrArg some (ite_self _)
  · exact congrArg some (if_pos hexpired)

include hcrowded hnow htimeout hat in
theorem Crowded.turnsOver (hnodup : p.using_.Nodup)
    (hdisjoint : forall c, c ∈ p.using_ -> c ∉ p.idle_) (hmax : 0 < p.maxClient_) :
    p.TurnsOver now (p.openSection now).1 := by
  have hmoves := hcrowded.openSection_moves hnow htimeout hat
  constructor
  · rw [hcrowded.openSection_atLimit hnow htimeout hat]
    exact evictLoop_done now _ _ hcrowded.rounds
  · intro c
    rw [hmoves.left, List.mem_filter, Bool.not_eq_true', decide_eq_false_iff_not]
  · intro c hc
    rw [hmoves.right, List.count_append, List.count_append,
      List.count_eq_zero.mpr (hdisjoint c hc), Nat.add_zero]
    apply congrArg
    by_cases hold : p.Expired now c
    · rw [if_pos hold]
      exact List.count_eq_one_of_mem (hnodup.filter _)
        (List.mem_filter.mpr ⟨hc, decide_eq_true hold⟩)
    · rw [if_neg hold]
      apply List.count_eq_zero.mpr
      intro hmem
      exact hold (of_decide_eq_true (List.mem_filter.mp hmem).right)
  · intro key s hget hc hold
    exact hcrowded.openSection_released hnow htimeout hat hget hc hold
  · intro hall later
    apply openSection_hands later
    have hnil : (p.openSection now).1.using_ = [] := by
      rw [hmoves.left]
      apply List.filter_eq_nil_iff.mpr
      intro c hc
      rw [decide_eq_true (hall c hc)]
      exact Bool.false_ne_true
    have hlimit : (p.openSection now).1.maxClient_ = p.maxClient_ := by
      rw [hcrowded.openSection_atLimit hnow htimeout hat, evictLoop_maxClient_]
      exact hcrowded.reuse.right.right
    rw [hnil, hlimit]
    exact hmax

include hcrowded in
theorem Crowded.atLimit_of_turnsOver (h : p.TurnsOver now (p.openSection now).1) :
    p.AtLimit now := by
  by_cases hfull : (p.using_.length : Int) = p.maxClient_
  · exact Or.inl hfull
  · refine Or.inr fun c hc => ?_
    have hkept := h.kept c
    rw [hcrowded.openSection_fst, if_neg hfull, hcrowded.reuse.right.left] at hkept
    exact (hkept.mp hc).right

end Turnover

end ClientPool

namespace PoolSystem

def Representable (_ : PoolSystem) (a : PoolAction) (_ : PoolSystem) : Prop :=
  match a with
  | .openSection now => now < 2 ^ 64
  | .setUsedTimeout timeoutInMs => timeoutInMs < 2 ^ 31
  | _ => True

instance (s : PoolSystem) : (a : PoolAction) -> (s' : PoolSystem) ->
    Decidable (Representable s a s')
  | .openSection now, _ => Nat.decLt now (2 ^ 64)
  | .setUsedTimeout timeoutInMs, _ => Int.decLt timeoutInMs (2 ^ 31)
  | .destroyClients _, _ | .stamp _ _, _ | .setConnected _ _, _ | .setHandle _ _, _
  | .release _, _ | .onClientClosing _, _ | .reset, _ | .setMaxClient _, _
  | .saveState _ _ _ _, _ | .takeOver _ _, _ | .removeState _, _ | .freeState _, _ =>
      instDecidableTrue

/-- The limit stays positive, and a full pool turns over. -/
def Serves (s : PoolSystem) (a : PoolAction) (s' : PoolSystem) : Prop :=
  0 < s'.pool.maxClient_ ∧
    match a with
    | .openSection now => s.pool.Crowded now -> s.pool.TurnsOver now s'.pool
    | _ => True

/--
A new limit is positive, and a full pool is as large as its limit whenever a
borrowed client has expired.
-/
def KeepsServing (s : PoolSystem) (a : PoolAction) : Prop :=
  match a with
  | .setMaxClient max => 0 < max
  | .openSection now => s.pool.Crowded now -> s.pool.AtLimit now
  | _ => True

instance (s : PoolSystem) : (a : PoolAction) -> Decidable (KeepsServing s a)
  | .setMaxClient max => Int.decLt 0 max
  | .openSection now =>
      inferInstanceAs (Decidable (s.pool.Crowded now -> s.pool.AtLimit now))
  | .destroyClients _ | .stamp _ _ | .setConnected _ _ | .setHandle _ _ | .release _
  | .onClientClosing _ | .reset | .setUsedTimeout _ | .saveState _ _ _ _ | .takeOver _ _
  | .removeState _ | .freeState _ => instDecidableTrue

structure Serving (s : PoolSystem) : Prop where
  sound : Sound s
  maxClient : 0 < s.pool.maxClient_
  timeout : 0 < s.pool.usedTimeout_ ∧ s.pool.usedTimeout_ < 2 ^ 31

theorem serving_start (addr : ClientId -> Nat) : Serving (start addr) where
  sound := sound_start addr
  maxClient := by
    show (0 : Int) < 50
    decide
  timeout := by
    show (0 : Int) < 1000000 ∧ (1000000 : Int) < 2 ^ 31
    decide

theorem maxClient_step {s s' : PoolSystem} {a : PoolAction} (hstep : step s a = some s')
    (h : 0 < s.pool.maxClient_) :
    0 < s'.pool.maxClient_ <-> forall max, a = .setMaxClient max -> 0 < max := by
  cases a with
  | setMaxClient max =>
      cases hstep
      have hset : (s.pool.setMaxClient max).maxClient_ = max := by
        unfold ClientPool.setMaxClient
        rw [if_pos h]
      show 0 < (s.pool.setMaxClient max).maxClient_ <-> _
      rw [hset]
      constructor
      · intro hpos other heq
        cases heq
        exact hpos
      · exact fun hall => hall max rfl
  | setUsedTimeout timeoutInMs =>
      cases hstep
      show 0 < (s.pool.setUsedTimeout timeoutInMs).maxClient_ <-> _
      rcases s.pool.setUsedTimeout_eq timeoutInMs with ⟨timeout, heq⟩
      rw [heq]
      exact ⟨fun _ _ heq => PoolAction.noConfusion heq, fun _ => h⟩
  | _ =>
      rw [(settings_step hstep not_false).left]
      exact ⟨fun _ _ heq => PoolAction.noConfusion heq, fun _ => h⟩

theorem serves_of_keepsServing {s s' : PoolSystem} {a : PoolAction} (hstep : step s a = some s')
    (harg : Representable s a s') (h : Serving s) (hguard : KeepsServing s a) :
    Serving s' ∧ Serves s a s' := by
  have hint : forall timeoutInMs, a = .setUsedTimeout timeoutInMs -> timeoutInMs < 2 ^ 31 := by
    intro timeoutInMs heq
    subst heq
    exact harg
  have hpos : forall max, a = .setMaxClient max -> 0 < max := by
    intro max heq
    subst heq
    exact hguard
  have hmax := (maxClient_step hstep h.maxClient).mpr hpos
  refine ⟨⟨sound_step hstep h.sound, hmax, usedTimeout_step hstep hint h.timeout⟩, hmax, ?_⟩
  cases a with
  | openSection now =>
      cases hstep
      intro hcrowded
      exact hcrowded.turnsOver harg h.timeout (hguard hcrowded) h.sound.usingNodup
        h.sound.usingNotIdle h.maxClient
  | _ => trivial

theorem keepsServing_of_serves {s s' : PoolSystem} {a : PoolAction} (hstep : step s a = some s')
    (h : Serving s) (hgood : Serves s a s') : KeepsServing s a := by
  cases a with
  | setMaxClient max => exact (maxClient_step hstep h.maxClient).mp hgood.left max rfl
  | openSection now =>
      cases hstep
      exact fun hcrowded => hcrowded.atLimit_of_turnsOver (hgood.right hcrowded)
  | _ => trivial

/--
The limit stays positive and every full pool turns over exactly when all new
limits are positive and no expired client is borrowed above the limit.
-/
theorem full_pool_turns_over_iff (addr : ClientId -> Nat) (actions : List PoolAction)
    (hargs : forall s a s', (s, a, s') ∈ runFrom addr actions -> Representable s a s') :
    (forall s a s', (s, a, s') ∈ runFrom addr actions -> Serves s a s') <->
    forall s a s', (s, a, s') ∈ runFrom addr actions -> KeepsServing s a :=
  Transition.good_iff_guarded_of_allowed step Representable Serving KeepsServing Serves
    (fun _ _ _ hstep harg h hguard => serves_of_keepsServing hstep harg h hguard)
    (fun _ _ _ hstep _ h hgood => keepsServing_of_serves hstep h hgood)
    (serving_start addr) hargs

section Example

/-- Both clients of a pool of two have expired when the third caller comes. -/
private def turnover : List PoolAction :=
  [.setUsedTimeout 1000, .setMaxClient 2, .openSection 5, .stamp 1 5, .openSection 6, .stamp 2 6,
    .saveState 1 .getService "/a" "", .openSection 2000]

theorem two_expired_turned_over :
    (finalFrom id turnover.dropLast).pool.TurnsOver 2000 (finalFrom id turnover).pool := by
  have hargs : forall x, x ∈ runFrom id turnover -> Representable x.1 x.2.1 x.2.2 := by
    decide
  have hguard : forall x, x ∈ runFrom id turnover -> KeepsServing x.1 x.2.1 := by
    decide
  have hmem : (finalFrom id turnover.dropLast, .openSection 2000, finalFrom id turnover) ∈
      runFrom id turnover := List.mem_of_getElem? (i := 7) rfl
  have hcrowded : (finalFrom id turnover.dropLast).pool.Crowded 2000 := by
    decide
  have hiff := full_pool_turns_over_iff id turnover fun s a s' hmem => hargs (s, a, s') hmem
  exact (hiff.mpr (fun s a s' hmem => hguard (s, a, s') hmem) _ _ _ hmem).right hcrowded

/-- The limit is lowered below the size before the two clients expire. -/
private def lowered : List PoolAction :=
  [.setUsedTimeout 1000, .openSection 5, .stamp 1 5, .openSection 6, .stamp 2 6,
    .setMaxClient 1, .openSection 2000]

theorem lowered_limit_keeps_expired :
    ¬ forall (addr : ClientId -> Nat) (actions : List PoolAction),
      (forall s a s', (s, a, s') ∈ runFrom addr actions -> Representable s a s') ->
      forall s a s', (s, a, s') ∈ runFrom addr actions -> Serves s a s' := by
  intro h
  have hargs : forall x, x ∈ runFrom id lowered -> Representable x.1 x.2.1 x.2.2 := by
    decide
  have hserves := h id lowered fun s a s' hmem => hargs (s, a, s') hmem
  have hmem : (finalFrom id lowered.dropLast, .openSection 2000, finalFrom id lowered) ∈
      runFrom id lowered := List.mem_of_getElem? (i := 6) rfl
  have hcrowded : (finalFrom id lowered.dropLast).pool.Crowded 2000 := by
    decide
  have hkept := ((hserves _ _ _ hmem).right hcrowded).kept 1
  revert hkept
  decide

end Example

end PoolSystem

end FrProxy
