import FrProxy.ClientPool.Borrows

/-!
# The eviction against the clock

A full pool makes `open` look for clients whose time is over.  The caller reads
the clock once and then examines the clients one by one, while other callers
write the time stamps of clients that they were handed out before.  The steps
of this system are finer than those of `PoolSystem`.
-/

namespace FrProxy

/-- The branch of `open` for a full pool, entered by a caller that holds the mutex. -/
inductive PoolScan where
  /-- Before the reading of the clock. -/
  | entered (chosen : Option ClientId)
  /-- `rest` is left of `using_`, and `late` got their time stamps since the reading. -/
  | examining (chosen : Option ClientId) (now : Nat) (rest late : List ClientId)

def PoolScan.chosen : PoolScan -> Option ClientId
  | .entered chosen => chosen
  | .examining chosen _ _ _ => chosen

def PoolScan.addLate (c : ClientId) : PoolScan -> PoolScan
  | .entered chosen => .entered chosen
  | .examining chosen now rest late => .examining chosen now rest (c :: late)

structure TimedPool where
  system : PoolSystem
  /-- In milliseconds, as an unsigned 64-bit number. -/
  clock : Nat
  /-- When each client was last handed out: by the section of `open`, and again by its return. -/
  handedAt : ClientId -> Nat
  scan : Option PoolScan

inductive TimedAction where
  | tick (ms : Nat)
  /-- A step outside of `open`. -/
  | other (a : PoolAction)
  /-- The section of `open`, up to the branch for a full pool. -/
  | enter
  | readClock
  /-- The next round of the inner loop, or the end of both. -/
  | examine
  /-- The write of `last_use_`, and the return of `open`. -/
  | stamp (c : ClientId)

namespace TimedPool

def start (addr : ClientId -> Nat) : TimedPool where
  system := PoolSystem.start addr
  clock := 0
  handedAt := fun _ => 0
  scan := none

abbrev pool (s : TimedPool) : ClientPool :=
  s.system.pool

/-- What may happen beside the sections of `open`; some steps need the mutex. -/
def Allowed (s : TimedPool) : PoolAction -> Prop
  | .openSection _ | .stamp _ _ => False
  | .destroyClients _ | .onClientClosing _ | .reset => s.scan = none
  | .setUsedTimeout timeoutInMs => timeoutInMs < 2 ^ 31
  | _ => True

instance (s : TimedPool) : (a : PoolAction) -> Decidable (s.Allowed a)
  | .openSection _ | .stamp _ _ => instDecidableFalse
  | .destroyClients _ | .onClientClosing _ | .reset =>
      decidable_of_iff (s.scan.isNone = true) Option.isNone_iff_eq_none
  | .setUsedTimeout timeoutInMs => inferInstanceAs (Decidable (timeoutInMs < 2 ^ 31))
  | .setConnected _ _ | .setHandle _ _ | .release _ | .setMaxClient _ | .saveState _ _ _ _
  | .takeOver _ _ | .removeState _ | .freeState _ => instDecidableTrue

def handOut (s : TimedPool) (p : ClientPool) (c : Option ClientId) (scan : Option PoolScan) :
    TimedPool where
  system := { s.system with pool := p, opening := c.toList ++ s.system.opening }
  clock := s.clock
  handedAt := fun d => if c = some d then s.clock else s.handedAt d
  scan := scan

/-- The section of `open`, up to the branch for a full pool. -/
def enter (s : TimedPool) : TimedPool :=
  let (p, c) := s.pool.reuse s.pool.idle_
  if c = none ∧ p.idle_.length = 0 ∧ p.size < p.maxClient_ then
    s.handOut p.create (some (p.lastId_ + 1)) none
  else if p.size = p.maxClient_ then s.handOut p c (some (.entered c))
  else s.handOut p c none

def step (s : TimedPool) : TimedAction -> Option TimedPool
  | .tick ms => if s.clock + ms < 2 ^ 64 then some { s with clock := s.clock + ms } else none
  | .other a =>
      if s.Allowed a then (s.system.step a).map fun t => { s with system := t } else none
  | .enter =>
      match s.scan with
      | none => some s.enter
      | some _ => none
  | .readClock =>
      match s.scan with
      | some (.entered chosen) =>
          some { s with scan := some (.examining chosen s.clock s.pool.using_ []) }
      | _ => none
  | .examine =>
      match s.scan with
      | some (.examining _ _ [] _) => some { s with scan := none }
      | some (.examining chosen now (c :: rest) late) =>
          if s.pool.timedOut now c then
            let system := s.system.mapPool (·.evict c)
            some { s with
              system := system
              scan := some (.examining chosen now system.pool.using_ late) }
          else some { s with scan := some (.examining chosen now rest late) }
      | _ => none
  | .stamp c =>
      if s.scan.bind PoolScan.chosen = some c then none
      else
        (s.system.step (.stamp c s.clock)).map fun t => {
          system := t
          clock := s.clock
          handedAt := fun d => if c = d then s.clock else s.handedAt d
          scan := s.scan.map (PoolScan.addLate c) }

def runFrom (addr : ClientId -> Nat) (actions : List TimedAction) :
    List (TimedPool × TimedAction × TimedPool) :=
  Transition.transitions step (start addr) actions

/-!
## The section of `open` in one piece
-/

def ScanStep (s t : TimedPool) : Prop :=
  step s .readClock = some t ∨ step s .examine = some t

theorem examine_nil {s : TimedPool} {chosen : Option ClientId} {now : Nat} {late : List ClientId}
    (hscan : s.scan = some (.examining chosen now [] late)) :
    ScanStep s { s with scan := none } := by
  apply Or.inr
  simp only [step, hscan]

theorem examine_evict {s : TimedPool} {chosen : Option ClientId} {now : Nat} {c : ClientId}
    {rest late : List ClientId}
    (hscan : s.scan = some (.examining chosen now (c :: rest) late))
    (htimed : s.pool.timedOut now c = true) :
    ScanStep s { s with
      system := s.system.mapPool (·.evict c)
      scan := some (.examining chosen now (s.pool.evict c).using_ late) } := by
  apply Or.inr
  simp only [step, hscan, htimed, if_true]
  rfl

theorem examine_pass {s : TimedPool} {chosen : Option ClientId} {now : Nat} {c : ClientId}
    {rest late : List ClientId}
    (hscan : s.scan = some (.examining chosen now (c :: rest) late))
    (htimed : ¬ s.pool.timedOut now c = true) :
    ScanStep s { s with scan := some (.examining chosen now rest late) } := by
  apply Or.inr
  simp only [step, hscan, htimed, Bool.false_eq_true, if_false]

open Relation in
theorem examine_rest (s : TimedPool) {chosen : Option ClientId} {now : Nat}
    {rest late : List ClientId} (hscan : s.scan = some (.examining chosen now rest late)) :
    match rest.find? (s.pool.timedOut now) with
    | none => ReflTransGen ScanStep s { s with scan := none }
    | some c => ReflTransGen ScanStep s { s with
        system := s.system.mapPool (·.evict c)
        scan := some (.examining chosen now (s.pool.evict c).using_ late) } := by
  induction rest generalizing s with
  | nil => exact ReflTransGen.single (examine_nil hscan)
  | cons c rest ih =>
      by_cases htimed : s.pool.timedOut now c = true
      · rw [List.find?_cons_of_pos htimed]
        exact ReflTransGen.single (examine_evict hscan htimed)
      · rw [List.find?_cons_of_neg htimed]
        have hpass := examine_pass hscan htimed
        have htail := ih { s with scan := some (.examining chosen now rest late) } rfl
        cases hfind : rest.find? (s.pool.timedOut now) with
        | none =>
            rw [show TimedPool.pool { s with scan := some (.examining chosen now rest late) } =
              s.pool from rfl, hfind] at htail
            exact ReflTransGen.head hpass htail
        | some d =>
            rw [show TimedPool.pool { s with scan := some (.examining chosen now rest late) } =
              s.pool from rfl, hfind] at htail
            exact ReflTransGen.head hpass htail

open Relation in
theorem examine_evictLoop (rounds : Nat) (s : TimedPool) {chosen : Option ClientId} {now : Nat}
    {late : List ClientId} (hrounds : s.pool.using_.length ≤ rounds)
    (hscan : s.scan = some (.examining chosen now s.pool.using_ late)) :
    ReflTransGen ScanStep s { s with
      system := s.system.mapPool (ClientPool.evictLoop now rounds)
      scan := none } := by
  have hloop := examine_rest s hscan
  induction rounds generalizing s with
  | zero =>
      have hnil : s.pool.using_ = [] := List.length_eq_zero_iff.mp (Nat.le_zero.mp hrounds)
      rw [hnil] at hscan
      exact ReflTransGen.single (examine_nil hscan)
  | succ rounds ih =>
      unfold PoolSystem.mapPool ClientPool.evictLoop
      cases hfind : s.pool.using_.find? (s.pool.timedOut now) with
      | none =>
          rw [hfind] at hloop
          exact hloop
      | some c =>
          rw [hfind] at hloop
          have hlen : (s.pool.evict c).using_.length ≤ rounds :=
            ClientPool.length_evict_le hfind hrounds
          exact hloop.trans (ih _ hlen rfl (examine_rest _ rfl))

open Relation in
/-- Without steps of others in between, the finer steps make one section of `open`. -/
theorem open_uninterrupted {s : TimedPool} (hscan : s.scan = none) :
    exists t u, step s .enter = some t ∧ ReflTransGen ScanStep t u ∧ u.scan = none ∧
      s.system.step (.openSection s.clock) = some u.system := by
  have henter : step s .enter = some s.enter := by
    simp only [step, hscan]
  unfold enter at henter
  unfold PoolSystem.step ClientPool.openSection
  cases hreuse : s.pool.reuse s.pool.idle_ with
  | mk p c =>
      rw [hreuse] at henter
      dsimp only at henter ⊢
      split at henter
      · rename_i hcreate
        refine ⟨_, _, henter, ReflTransGen.refl, rfl, ?_⟩
        rw [if_pos hcreate]
        rfl
      · rename_i hcreate
        rw [if_neg hcreate]
        split at henter
        · rename_i hfull
          rw [if_pos hfull]
          have hloop := examine_evictLoop p.using_.length
            (s.handOut p c (some (.examining c s.clock p.using_ []))) (Nat.le_refl _) rfl
          exact ⟨_, _, henter, ReflTransGen.head (Or.inl rfl) hloop, rfl, rfl⟩
        · rename_i hfull
          rw [if_neg hfull]
          exact ⟨_, _, henter, ReflTransGen.refl, rfl, rfl⟩

/-!
## Time stamps
-/

theorem timedOut_iff {p : ClientPool} {now : Nat} {c : ClientId} (hpos : 0 < p.usedTimeout_)
    (htimeout : p.usedTimeout_ < 2 ^ 31) (hnow : now < 2 ^ 64)
    (hlast : (p.clients c).lastUse_ < 2 ^ 64) :
    p.timedOut now c = true <->
      if (p.clients c).lastUse_ ≤ now then ((p.clients c).lastUse_ : Int) + p.usedTimeout_ < now
      else ((p.clients c).lastUse_ : Int) + p.usedTimeout_ < now + 2 ^ 64 := by
  unfold ClientPool.timedOut
  rw [decide_eq_true_iff]
  have hsame : p.usedTimeout_ % 2 ^ 64 = p.usedTimeout_ :=
    Int.emod_eq_of_lt (by omega) (by omega)
  rw [hsame]
  split
  · have hage : ((now : Int) - (p.clients c).lastUse_) % 2 ^ 64 =
        now - (p.clients c).lastUse_ := Int.emod_eq_of_lt (by omega) (by omega)
    rw [hage]
    omega
  · have hage : ((now : Int) - (p.clients c).lastUse_) % 2 ^ 64 =
        now - (p.clients c).lastUse_ + 2 ^ 64 := by
      rw [<- Int.add_emod_right]
      exact Int.emod_eq_of_lt (by omega) (by omega)
    rw [hage]
    omega

structure Scanning (s : TimedPool) (now : Nat) (rest late : List ClientId) : Prop where
  read : now ≤ s.clock
  inUse : forall c, c ∈ rest -> c ∈ s.pool.using_
  before : forall c, c ∉ late -> (s.pool.clients c).lastUse_ ≤ now
  after : forall c, c ∈ late -> now ≤ (s.pool.clients c).lastUse_ ∧ c ∉ s.system.opening

structure Timed (s : TimedPool) : Prop where
  sound : PoolSystem.Sound s.system
  timeoutPos : 0 < s.pool.usedTimeout_
  timeoutInt : s.pool.usedTimeout_ < 2 ^ 31
  clock : s.clock < 2 ^ 64
  lastUse : forall c, (s.pool.clients c).lastUse_ ≤ s.clock
  stamped : forall c, c ∈ s.pool.using_ -> c ∉ s.system.opening ->
    (s.pool.clients c).lastUse_ = s.handedAt c
  scanning : forall chosen now rest late,
    s.scan = some (.examining chosen now rest late) -> s.Scanning now rest late

theorem timed_start (addr : ClientId -> Nat) : Timed (start addr) where
  sound := PoolSystem.sound_start addr
  timeoutPos := by
    show (0 : Int) < 1000000
    decide
  timeoutInt := by
    show (1000000 : Int) < 2 ^ 31
    decide
  clock := Nat.two_pow_pos 64
  lastUse := fun _ => Nat.le_refl 0
  stamped := by
    intro c hc
    cases hc
  scanning := by
    intro chosen now rest late h
    cases h

/-!
## Steps
-/

structure Untimed (s t : PoolSystem) : Prop where
  opening : t.opening = s.opening
  lastUse : forall c, (t.pool.clients c).lastUse_ = (s.pool.clients c).lastUse_
  using_ : forall c, c ∈ t.pool.using_ -> c ∈ s.pool.using_

theorem untimed_updateClient (s : PoolSystem) (c : ClientId) {f : ZkClient -> ZkClient}
    (hf : forall client, (f client).lastUse_ = client.lastUse_) :
    Untimed s (s.mapPool (·.updateClient c f)) where
  opening := rfl
  lastUse := by
    intro d
    unfold PoolSystem.mapPool ClientPool.updateClient
    dsimp only
    split
    · exact hf _
    · rfl
  using_ := fun _ hd => hd

theorem untimed_step {s : TimedPool} {t : PoolSystem} {a : PoolAction}
    (hstep : s.system.step a = some t) (hallowed : s.Allowed a) : Untimed s.system t := by
  cases a with
  | openSection now => exact hallowed.elim
  | stamp c now => exact hallowed.elim
  | destroyClients force =>
      cases hstep
      exact ⟨rfl, fun _ => rfl, fun _ hd => hd⟩
  | setConnected c connected =>
      cases hstep
      exact untimed_updateClient _ c (f := fun client => { client with connected_ := connected })
        fun _ => rfl
  | setHandle c handle =>
      cases hstep
      exact untimed_updateClient _ c (f := fun client => { client with zhandle_ := handle })
        fun _ => rfl
  | release c =>
      simp only [PoolSystem.step, Option.ite_none_right_eq_some, Option.some.injEq] at hstep
      rcases hstep with ⟨_, rfl⟩
      exact ⟨rfl, fun d => ClientPool.lastUse_setInUsing _ c d false, fun _ hd => hd⟩
  | onClientClosing c =>
      simp only [PoolSystem.step, Option.ite_none_right_eq_some, Option.some.injEq] at hstep
      rcases hstep with ⟨_, rfl⟩
      refine ⟨rfl, ?_, ?_⟩
      · intro d
        rw [ClientPool.onClientClosing_clients]
      · intro d hd
        rcases s.pool.onClientClosing_cases c with ⟨_, hclose⟩ | ⟨_, hclose⟩
        · dsimp only at hd
          rw [hclose] at hd
          exact List.mem_of_mem_erase hd
        · dsimp only at hd
          rw [hclose] at hd
          exact List.mem_of_mem_erase hd
  | reset =>
      cases hstep
      refine ⟨rfl, fun _ => rfl, ?_⟩
      intro d hd
      cases hd
  | setMaxClient max =>
      cases hstep
      show Untimed s.system { s.system with pool := s.system.pool.setMaxClient max }
      rcases s.pool.setMaxClient_eq max with ⟨limit, heq⟩
      rw [heq]
      exact ⟨rfl, fun _ => rfl, fun _ hd => hd⟩
  | setUsedTimeout timeoutInMs =>
      cases hstep
      show Untimed s.system { s.system with pool := s.system.pool.setUsedTimeout timeoutInMs }
      rcases s.pool.setUsedTimeout_eq timeoutInMs with ⟨timeout, heq⟩
      rw [heq]
      exact ⟨rfl, fun _ => rfl, fun _ hd => hd⟩
  | saveState c type path data =>
      simp only [PoolSystem.step, Option.ite_none_right_eq_some, Option.some.injEq] at hstep
      rcases hstep with ⟨_, rfl⟩
      exact ⟨rfl, fun _ => rfl, fun _ hd => hd⟩
  | takeOver c key =>
      simp only [PoolSystem.step, Option.ite_none_right_eq_some, Option.some.injEq] at hstep
      rcases hstep with ⟨_, rfl⟩
      exact ⟨rfl, fun _ => rfl, fun _ hd => hd⟩
  | removeState key =>
      cases hstep
      exact ⟨rfl, fun _ => rfl, fun _ hd => hd⟩
  | freeState key =>
      cases hstep
      exact ⟨rfl, fun _ => rfl, fun _ hd => hd⟩

/-- Nobody but the caller that holds the mutex changes `using_` during a scan. -/
theorem inUse_step {s : TimedPool} {t : PoolSystem} {a : PoolAction}
    (hstep : s.system.step a = some t) (hallowed : s.Allowed a) (hscan : s.scan ≠ none) :
    t.pool.using_ = s.pool.using_ := by
  cases a with
  | openSection now => exact hallowed.elim
  | stamp c now => exact hallowed.elim
  | destroyClients force => exact absurd hallowed hscan
  | onClientClosing c => exact absurd hallowed hscan
  | reset => exact absurd hallowed hscan
  | release c =>
      simp only [PoolSystem.step, Option.ite_none_right_eq_some, Option.some.injEq] at hstep
      rcases hstep with ⟨_, rfl⟩
      rfl
  | _ => exact (PoolSystem.unmoved_step hstep trivial).using_

theorem Timed.other {s : TimedPool} {t : PoolSystem} {a : PoolAction} (h : Timed s)
    (hstep : s.system.step a = some t) (hallowed : s.Allowed a) :
    Timed { s with system := t } := by
  have hsame := untimed_step hstep hallowed
  have hint : forall timeoutInMs, a = .setUsedTimeout timeoutInMs -> timeoutInMs < 2 ^ 31 := by
    intro timeoutInMs heq
    rw [heq] at hallowed
    exact hallowed
  have htimeout := PoolSystem.usedTimeout_step hstep hint ⟨h.timeoutPos, h.timeoutInt⟩
  refine ⟨PoolSystem.sound_step hstep h.sound, htimeout.left, htimeout.right, h.clock, ?_, ?_, ?_⟩
  · intro c
    exact Nat.le_trans (Nat.le_of_eq (hsame.lastUse c)) (h.lastUse c)
  · intro c hc hopening
    exact (hsame.lastUse c).trans
      (h.stamped c (hsame.using_ c hc) (hsame.opening ▸ hopening))
  · intro chosen now rest late hscan
    have hscanning := h.scanning chosen now rest late hscan
    have hbusy : s.scan ≠ none := by
      intro hnone
      rw [hnone] at hscan
      cases hscan
    refine ⟨hscanning.read, ?_, ?_, ?_⟩
    · intro c hc
      show c ∈ t.pool.using_
      rw [inUse_step hstep hallowed hbusy]
      exact hscanning.inUse c hc
    · intro c hc
      exact Nat.le_trans (Nat.le_of_eq (hsame.lastUse c)) (hscanning.before c hc)
    · intro c hc
      have hafter := hscanning.after c hc
      refine ⟨Nat.le_trans hafter.left (Nat.le_of_eq (hsame.lastUse c).symm), ?_⟩
      show c ∉ t.opening
      rw [hsame.opening]
      exact hafter.right

theorem Timed.handOut {s : TimedPool} (h : Timed s) {p : ClientPool} {c : Option ClientId}
    {scan : Option PoolScan}
    (hsound : PoolSystem.Sound (s.handOut p c scan).system)
    (htimeout : p.usedTimeout_ = s.pool.usedTimeout_)
    (hlast : forall d, (p.clients d).lastUse_ ≤ s.clock)
    (hother : forall d, c ≠ some d -> (p.clients d).lastUse_ = (s.pool.clients d).lastUse_)
    (husing : forall d, d ∈ p.using_ -> d ∈ s.pool.using_ ∨ c = some d)
    (hscan : forall chosen now rest late, scan ≠ some (.examining chosen now rest late)) :
    Timed (s.handOut p c scan) where
  sound := hsound
  timeoutPos := by
    show 0 < p.usedTimeout_
    rw [htimeout]
    exact h.timeoutPos
  timeoutInt := by
    show p.usedTimeout_ < 2 ^ 31
    rw [htimeout]
    exact h.timeoutInt
  clock := h.clock
  lastUse := hlast
  stamped := by
    intro d hd hopening
    have hnot : d ∉ c.toList ++ s.system.opening := hopening
    rw [List.mem_append, not_or, Option.mem_toList] at hnot
    have hne : c ≠ some d := hnot.left
    show (p.clients d).lastUse_ = if c = some d then s.clock else s.handedAt d
    rw [if_neg hne, hother d hne]
    exact h.stamped d ((husing d hd).resolve_right hne) hnot.right
  scanning := fun chosen now rest late h => absurd h (hscan chosen now rest late)

theorem lastUse_reuse (p : ClientPool) (l : List ClientId) (d : ClientId) :
    ((p.reuse l).1.clients d).lastUse_ = (p.clients d).lastUse_ := by
  rw [ClientPool.reuse_clients]
  cases l.find? p.getConnected with
  | none => rfl
  | some c => exact ClientPool.lastUse_setInUsing p c d true

theorem mem_using_reuse {p : ClientPool} {l : List ClientId} {d : ClientId}
    (h : d ∈ (p.reuse l).1.using_) : d ∈ p.using_ ∨ (p.reuse l).2 = some d := by
  rw [ClientPool.reuse_using_] at h
  rw [ClientPool.reuse_snd]
  cases hfind : l.find? p.getConnected with
  | none =>
      rw [hfind] at h
      exact Or.inl h
  | some c =>
      rw [hfind] at h
      rcases ClientPool.mem_insertClient.mp h with rfl | hd
      · exact Or.inr rfl
      · exact Or.inl hd

theorem lastUse_create (p : ClientPool) (d : ClientId) :
    (p.create.clients d).lastUse_ =
      if d = p.lastId_ + 1 then 0 else (p.clients d).lastUse_ := by
  unfold ClientPool.create
  dsimp only
  rw [ClientPool.lastUse_setInUsing]
  unfold ClientPool.updateClient
  dsimp only
  split <;> rfl

theorem sound_keeps {s t : PoolSystem} (hmoves : Relation.ReflTransGen PoolSystem.OpenMove s t)
    (h : PoolSystem.Sound s) : PoolSystem.Sound t := by
  induction hmoves with
  | refl => exact h
  | tail _ hlast ih => exact ih.openMove hlast

theorem Timed.enter {s : TimedPool} (h : Timed s) : Timed s.enter := by
  have hmoves := PoolSystem.reuse_moves s.pool.idle_ s.system rfl
  have htimeout := (ClientPool.reuse_limits s.pool.idle_ s.pool).right.left
  have hlast := lastUse_reuse s.pool s.pool.idle_
  have husing := fun d => mem_using_reuse (p := s.pool) (l := s.pool.idle_) (d := d)
  unfold TimedPool.enter
  cases hreuse : s.pool.reuse s.pool.idle_ with
  | mk p c =>
      rw [hreuse] at hmoves htimeout hlast husing
      dsimp only at hmoves htimeout hlast husing ⊢
      have hbound : forall d, (p.clients d).lastUse_ ≤ s.clock := by
        intro d
        rw [hlast d]
        exact h.lastUse d
      have hsound := sound_keeps hmoves h.sound
      split
      · rename_i hcreate
        rcases hcreate with ⟨rfl, _, _⟩
        refine h.handOut (hsound.create) htimeout ?_ ?_ ?_ ?_
        · intro d
          rw [lastUse_create]
          split
          · exact Nat.zero_le _
          · exact hbound d
        · intro d hd
          have hne : d ≠ p.lastId_ + 1 := fun heq => hd (congrArg some heq.symm)
          rw [lastUse_create, if_neg hne]
          exact hlast d
        · intro d hd
          rcases ClientPool.mem_insertClient.mp hd with rfl | hd
          · exact Or.inr rfl
          · rcases husing d hd with hd | hd
            · exact Or.inl hd
            · cases hd
        · intro chosen now rest late heq
          cases heq
      · split
        · refine h.handOut hsound htimeout hbound (fun d _ => hlast d) husing ?_
          intro chosen now rest late heq
          cases heq
        · refine h.handOut hsound htimeout hbound (fun d _ => hlast d) husing ?_
          intro chosen now rest late heq
          cases heq

theorem Timed.readClock {s : TimedPool} (h : Timed s) (chosen : Option ClientId) :
    Timed { s with scan := some (.examining chosen s.clock s.pool.using_ []) } := by
  refine ⟨h.sound, h.timeoutPos, h.timeoutInt, h.clock, h.lastUse, h.stamped, ?_⟩
  intro chosen' now rest late hscan
  cases hscan
  refine ⟨Nat.le_refl _, fun _ hc => hc, fun c _ => h.lastUse c, ?_⟩
  intro c hc
  cases hc

theorem Timed.evict {s : TimedPool} (h : Timed s) {chosen : Option ClientId} {now : Nat}
    {c : ClientId} {rest late : List ClientId}
    (hscan : s.scan = some (.examining chosen now (c :: rest) late)) :
    Timed { s with
      system := s.system.mapPool (·.evict c)
      scan := some (.examining chosen now (s.pool.using_.erase c) late) } := by
  have hscanning := h.scanning chosen now (c :: rest) late hscan
  have hc := hscanning.inUse c List.mem_cons_self
  have hlast : forall d, ((s.pool.evict c).clients d).lastUse_ = (s.pool.clients d).lastUse_ :=
    fun d => ClientPool.lastUse_setInUsing _ c d false
  refine ⟨h.sound.openMove (PoolSystem.OpenMove.evict hc), h.timeoutPos, h.timeoutInt, h.clock,
    ?_, ?_, ?_⟩
  · intro d
    exact Nat.le_trans (Nat.le_of_eq (hlast d)) (h.lastUse d)
  · intro d hd hopening
    exact (hlast d).trans (h.stamped d (List.mem_of_mem_erase hd) hopening)
  · intro chosen' now' rest' late' heq
    cases heq
    refine ⟨hscanning.read, fun _ hd => hd, ?_, ?_⟩
    · intro d hd
      exact Nat.le_trans (Nat.le_of_eq (hlast d)) (hscanning.before d hd)
    · intro d hd
      have hafter := hscanning.after d hd
      exact ⟨Nat.le_trans hafter.left (Nat.le_of_eq (hlast d).symm), hafter.right⟩

theorem Timed.pass {s : TimedPool} (h : Timed s) {chosen : Option ClientId} {now : Nat}
    {c : ClientId} {rest late : List ClientId}
    (hscan : s.scan = some (.examining chosen now (c :: rest) late)) :
    Timed { s with scan := some (.examining chosen now rest late) } := by
  have hscanning := h.scanning chosen now (c :: rest) late hscan
  refine ⟨h.sound, h.timeoutPos, h.timeoutInt, h.clock, h.lastUse, h.stamped, ?_⟩
  intro chosen' now' rest' late' heq
  cases heq
  exact ⟨hscanning.read, fun d hd => hscanning.inUse d (List.mem_cons_of_mem _ hd),
    hscanning.before, hscanning.after⟩

theorem readClock_cases {s s' : TimedPool} (hstep : step s .readClock = some s') :
    exists chosen, s.scan = some (.entered chosen) ∧
      s' = { s with scan := some (.examining chosen s.clock s.pool.using_ []) } := by
  cases hscan : s.scan with
  | none => simp [step, hscan] at hstep
  | some scan =>
      cases scan with
      | entered chosen =>
          simp only [step, hscan, Option.some.injEq] at hstep
          exact ⟨chosen, rfl, hstep.symm⟩
      | examining chosen now rest late => simp [step, hscan] at hstep

theorem examine_cases {s s' : TimedPool} (hstep : step s .examine = some s') :
    (exists chosen now late, s.scan = some (.examining chosen now [] late) ∧
      s' = { s with scan := none }) ∨
    (exists chosen now c rest late, s.scan = some (.examining chosen now (c :: rest) late) ∧
      s.pool.timedOut now c = true ∧ s' = { s with
        system := s.system.mapPool (·.evict c)
        scan := some (.examining chosen now (s.pool.using_.erase c) late) }) ∨
    (exists chosen now c rest late, s.scan = some (.examining chosen now (c :: rest) late) ∧
      ¬ s.pool.timedOut now c = true ∧
      s' = { s with scan := some (.examining chosen now rest late) }) := by
  cases hscan : s.scan with
  | none => simp [step, hscan] at hstep
  | some scan =>
      cases scan with
      | entered chosen => simp [step, hscan] at hstep
      | examining chosen now rest late =>
          cases rest with
          | nil =>
              simp only [step, hscan, Option.some.injEq] at hstep
              exact Or.inl ⟨chosen, now, late, rfl, hstep.symm⟩
          | cons c rest =>
              by_cases htimed : s.pool.timedOut now c = true
              · simp only [step, hscan, htimed, if_true, Option.some.injEq] at hstep
                exact Or.inr (Or.inl ⟨chosen, now, c, rest, late, rfl, htimed, hstep.symm⟩)
              · simp only [step, hscan, htimed, Bool.false_eq_true, if_false,
                  Option.some.injEq] at hstep
                exact Or.inr (Or.inr ⟨chosen, now, c, rest, late, rfl, htimed, hstep.symm⟩)

theorem lastUse_stamp (p : ClientPool) (c : ClientId) (now : Nat) (d : ClientId) :
    ((p.stamp c now).clients d).lastUse_ = if d = c then now else (p.clients d).lastUse_ := by
  unfold ClientPool.stamp ClientPool.updateClient
  dsimp only
  split <;> rfl

theorem examining_addLate {scan : PoolScan} {c : ClientId} {chosen : Option ClientId} {now : Nat}
    {rest late : List ClientId} (h : scan.addLate c = .examining chosen now rest late) :
    exists late', scan = .examining chosen now rest late' ∧ late = c :: late' := by
  cases scan with
  | entered chosen' => cases h
  | examining chosen' now' rest' late' =>
      cases h
      exact ⟨late', rfl, rfl⟩

theorem Timed.stamp {s : TimedPool} {t : PoolSystem} {c : ClientId} (h : Timed s)
    (hstep : s.system.step (.stamp c s.clock) = some t) :
    Timed {
      system := t
      clock := s.clock
      handedAt := fun d => if c = d then s.clock else s.handedAt d
      scan := s.scan.map (PoolScan.addLate c) } := by
  have hsound := PoolSystem.sound_step hstep h.sound
  simp only [PoolSystem.step, Option.ite_none_right_eq_some, Option.some.injEq] at hstep
  rcases hstep with ⟨_, rfl⟩
  have hnodup : s.system.opening.Nodup :=
    (List.nodup_append.mp (List.nodup_append.mp h.sound.borrowedNodup).left).left
  have hlast := lastUse_stamp s.pool c s.clock
  refine ⟨hsound, h.timeoutPos, h.timeoutInt, h.clock, ?_, ?_, ?_⟩
  · intro d
    refine Nat.le_trans (Nat.le_of_eq (hlast d)) ?_
    split
    · exact Nat.le_refl _
    · exact h.lastUse d
  · intro d hd hopening
    refine (hlast d).trans ?_
    by_cases hdc : d = c
    · rw [if_pos hdc]
      exact (if_pos hdc.symm).symm
    · rw [if_neg hdc]
      refine (h.stamped d hd ?_).trans (if_neg (Ne.symm hdc)).symm
      exact fun hmem => hopening ((List.mem_erase_of_ne hdc).mpr hmem)
  · intro chosen now rest late hscan
    rcases Option.map_eq_some_iff.mp hscan with ⟨scan, hold, hlate⟩
    rcases examining_addLate hlate with ⟨late', rfl, rfl⟩
    have hscanning := h.scanning chosen now rest late' hold
    refine ⟨hscanning.read, hscanning.inUse, ?_, ?_⟩
    · intro d hd
      have hne : d ≠ c := fun heq => hd (heq ▸ List.mem_cons_self)
      refine Nat.le_trans (Nat.le_of_eq ((hlast d).trans (if_neg hne))) ?_
      exact hscanning.before d fun hmem => hd (List.mem_cons_of_mem _ hmem)
    · intro d hd
      by_cases hdc : d = c
      · subst hdc
        refine ⟨Nat.le_trans hscanning.read (Nat.le_of_eq ((hlast d).trans (if_pos rfl)).symm), ?_⟩
        exact hnodup.not_mem_erase
      · have hafter := hscanning.after d ((List.mem_cons.mp hd).resolve_left hdc)
        refine ⟨Nat.le_trans hafter.left (Nat.le_of_eq ((hlast d).trans (if_neg hdc)).symm), ?_⟩
        exact fun hmem => hafter.right (List.mem_of_mem_erase hmem)

theorem timed_step {s s' : TimedPool} {a : TimedAction} (hstep : step s a = some s')
    (h : Timed s) : Timed s' := by
  cases a with
  | tick ms =>
      simp only [step, Option.ite_none_right_eq_some, Option.some.injEq] at hstep
      rcases hstep with ⟨hclock, rfl⟩
      refine ⟨h.sound, h.timeoutPos, h.timeoutInt, hclock, ?_, h.stamped, ?_⟩
      · intro c
        exact Nat.le_add_right_of_le (h.lastUse c)
      · intro chosen now rest late hscan
        have hscanning := h.scanning chosen now rest late hscan
        exact ⟨Nat.le_add_right_of_le hscanning.read, hscanning.inUse, hscanning.before,
          hscanning.after⟩
  | other a =>
      simp only [step, Option.ite_none_right_eq_some, Option.map_eq_some_iff] at hstep
      rcases hstep with ⟨hallowed, t, ht, rfl⟩
      exact h.other ht hallowed
  | enter =>
      cases hscan : s.scan with
      | none =>
          simp only [step, hscan, Option.some.injEq] at hstep
          subst hstep
          exact h.enter
      | some scan => simp [step, hscan] at hstep
  | readClock =>
      rcases readClock_cases hstep with ⟨chosen, _, rfl⟩
      exact h.readClock chosen
  | examine =>
      rcases examine_cases hstep with ⟨_, _, _, _, rfl⟩ | ⟨_, _, _, _, _, hscan, _, rfl⟩ |
        ⟨_, _, _, _, _, hscan, _, rfl⟩
      · refine ⟨h.sound, h.timeoutPos, h.timeoutInt, h.clock, h.lastUse, h.stamped, ?_⟩
        intro chosen now rest late heq
        cases heq
      · exact h.evict hscan
      · exact h.pass hscan
  | stamp c =>
      simp only [step, Option.ite_none_left_eq_some, Option.map_eq_some_iff] at hstep
      rcases hstep with ⟨_, t, ht, rfl⟩
      exact h.stamp ht

end TimedPool

end FrProxy
