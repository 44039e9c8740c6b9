import FrProxy.ClientPool.Opening

/-!
# A single caller

One caller opens, closes and resets; connections come and go, limits are set, and
the clients it holds record their states.  No other caller's section falls
between the sections of one call.
-/

namespace FrProxy

/-- The pool with what one caller holds; `opening` and `closing` are empty. -/
structure SingleCaller where
  system : PoolSystem
  /-- What `open` took out of `using_`, once for each time. -/
  evicted : List ClientId

inductive CallerAction where
  /-- The clock shows `now` in the section of `open`, and `later` at its end. -/
  | openCall (now later : Nat)
  | close (c : ClientId)
  | reset
  /-- A step that moves no client. -/
  | other (a : PoolAction)

namespace SingleCaller

instance : (a : PoolAction) -> Decidable (PoolSystem.Still a)
  | .setConnected _ _ | .setHandle _ _ | .setMaxClient _ | .setUsedTimeout _
  | .saveState _ _ _ _ | .takeOver _ _ | .removeState _ | .freeState _ => instDecidableTrue
  | .destroyClients _ | .openSection _ | .stamp _ _ | .release _ | .onClientClosing _
  | .reset => instDecidableFalse

def start (addr : ClientId -> Nat) : SingleCaller where
  system := PoolSystem.start addr
  evicted := []

abbrev pool (s : SingleCaller) : ClientPool :=
  s.system.pool

/-- The clients that were in use, or were just handed out, and are not any more. -/
def takenOut (before after : ClientPool) (c : Option ClientId) : List ClientId :=
  (c.toList ++ before.using_).filter fun d => decide (d ∉ after.using_)

/-- `open`, without the connecting of the client at its end. -/
def openCall (s : SingleCaller) (now later : Nat) : SingleCaller × Option ClientId :=
  let p := s.pool.destroyClients false
  let (q, c) := p.openSection now
  ({
    system := {
      s.system with
      pool := match c with
        | none => q
        | some c => q.stamp c later
      held := c.toList ++ s.system.held }
    evicted := takenOut p q c ++ s.evicted }, c)

def close (s : SingleCaller) (c : ClientId) : SingleCaller where
  system := {
    s.system with
    pool := (s.pool.setInUsing c false).onClientClosing c
    held := s.system.held.erase c }
  evicted := s.evicted

/-- Nobody else takes a borrow off a counter while `reset` waits. -/
def reset (s : SingleCaller) : SingleCaller where
  system := s.system.mapPool fun p =>
    (p.resetSection.destroyClients false).destroyClients true
  evicted := s.evicted

def step (s : SingleCaller) : CallerAction -> Option SingleCaller
  | .openCall now later => some (s.openCall now later).1
  | .close c => if c ∈ s.system.held then some (s.close c) else none
  | .reset => some s.reset
  | .other a =>
      if PoolSystem.Still a then (s.system.step a).map fun t => { s with system := t } else none

def runFrom (addr : ClientId -> Nat) (actions : List CallerAction) :
    List (SingleCaller × CallerAction × SingleCaller) :=
  Transition.transitions step (start addr) actions

/-- The numbers that clients have, or had. -/
def Earlier (s : SingleCaller) (c : ClientId) : Prop :=
  c ∈ s.system.held ∨ c ∈ s.pool.using_ ∨ c ∈ s.pool.idle_ ∨ c ∈ s.pool.toDestrory_ ∨
    c ∈ s.pool.deleted

structure OpensAsSpecified (s : SingleCaller) (q : ClientPool) (result : Option ClientId) :
    Prop where
  givesUp : forall c, c ∈ s.pool.met -> c ∈ q.toDestrory_ ∧ c ∉ q.idle_
  releases : forall key state, s.pool.stateBag_.get key = some state ->
    state.clientId ∈ s.pool.met -> q.stateBag_.get key = some { state with clientId := 0 }
  reuses : forall c, s.pool.idle_.find? s.pool.getConnected = some c -> result = some c
  /-- Without a connected idle client, the valid ones are those in use. -/
  creates : s.pool.idle_.find? s.pool.getConnected = none ->
    (s.pool.using_.length : Int) < s.pool.maxClient_ ->
    exists c, result = some c ∧ forall d, s.Earlier d -> d < c
  refuses : s.pool.idle_.find? s.pool.getConnected = none ->
    ¬ (s.pool.using_.length : Int) < s.pool.maxClient_ -> result = none
  handsOut : forall c, result = some c ->
    c ∈ q.using_ ∧ c ∉ q.idle_ ∧ c ∉ q.toDestrory_ ∧ (q.clients c).usingCounter = 1

def OpensWell (s : SingleCaller) (a : CallerAction) (s' : SingleCaller) : Prop :=
  match a with
  | .openCall now later => s.OpensAsSpecified s'.pool (s.openCall now later).2
  | _ => True

/--
The connected idle client that `open` meets was never evicted, and in a full
pool it has not timed out.
-/
def MeetsFit (s : SingleCaller) (a : CallerAction) : Prop :=
  match a with
  | .openCall now _ => forall c, s.pool.idle_.find? s.pool.getConnected = some c ->
      c ∉ s.evicted ∧ ¬ (s.pool.Exhausted ∧ s.pool.timedOut now c = true)
  | _ => True

/-!
## Counters and containers
-/

structure Counted (s : SingleCaller) : Prop where
  sound : PoolSystem.Sound s.system
  opening : s.system.opening = []
  counter : forall c,
    (s.pool.clients c).usingCounter = (s.system.held.count c : Int) - s.evicted.count c
  gone : forall c, c ∈ s.pool.toDestrory_ -> c ∉ s.evicted ->
    c ∉ s.system.held ∧ c ∉ s.pool.using_ ∧ c ∉ s.pool.idle_
  evictedOld : forall c, c ∈ s.evicted -> c ≤ s.pool.lastId_

theorem counted_start (addr : ClientId -> Nat) : Counted (start addr) where
  sound := PoolSystem.sound_start addr
  opening := rfl
  counter := fun _ => rfl
  gone := by
    intro c hc
    cases hc
  evictedOld := by
    intro c hc
    cases hc

theorem Counted.held_borrowed {s : SingleCaller} (h : Counted s) {c : ClientId}
    (hc : c ∈ s.system.held) : c ∈ s.system.borrowed := by
  apply List.mem_append_left
  unfold PoolSystem.outstanding
  rw [h.opening]
  exact hc

theorem Counted.idle_not_held {s : SingleCaller} (h : Counted s) {c : ClientId}
    (hc : c ∈ s.pool.idle_) : c ∉ s.system.held :=
  fun hheld => h.sound.borrowedNotIdle c (h.held_borrowed hheld) hc

theorem Counted.earlier_le {s : SingleCaller} (h : Counted s) {c : ClientId}
    (hc : s.Earlier c) : c ≤ s.pool.lastId_ := by
  apply (h.sound.known c _).right
  rcases hc with hc | hc
  · exact Or.inl (h.held_borrowed hc)
  · exact Or.inr hc

theorem Counted.new_counter {s : SingleCaller} (h : Counted s) :
    (s.pool.clients (s.pool.lastId_ + 1)).usingCounter = 0 := by
  have hheld : s.pool.lastId_ + 1 ∉ s.system.held := by
    intro hc
    exact Nat.not_succ_le_self _ (h.earlier_le (Or.inl hc))
  have hevicted : s.pool.lastId_ + 1 ∉ s.evicted := by
    intro hc
    exact Nat.not_succ_le_self _ (h.evictedOld _ hc)
  rw [h.counter, List.count_eq_zero.mpr hheld, List.count_eq_zero.mpr hevicted]
  rfl

/-!
## Opening
-/

def openSection (s : SingleCaller) (now : Nat) : ClientPool × Option ClientId :=
  (s.pool.destroyClients false).openSection now

/-- The time stamp changes nothing that the specification mentions. -/
structure StampedOnly (q r : ClientPool) : Prop where
  using_ : r.using_ = q.using_
  idle_ : r.idle_ = q.idle_
  toDestrory_ : r.toDestrory_ = q.toDestrory_
  lastId_ : r.lastId_ = q.lastId_
  stateBag_ : r.stateBag_ = q.stateBag_
  counter : forall c, (r.clients c).usingCounter = (q.clients c).usingCounter

theorem openCall_snd (s : SingleCaller) (now later : Nat) :
    (s.openCall now later).2 = (s.openSection now).2 :=
  rfl

theorem openCall_held (s : SingleCaller) (now later : Nat) :
    (s.openCall now later).1.system.held = (s.openSection now).2.toList ++ s.system.held :=
  rfl

theorem openCall_evicted (s : SingleCaller) (now later : Nat) :
    (s.openCall now later).1.evicted =
      takenOut (s.pool.destroyClients false) (s.openSection now).1 (s.openSection now).2 ++
        s.evicted :=
  rfl

theorem openCall_pool (s : SingleCaller) (now later : Nat) :
    (s.openCall now later).1.pool =
      match (s.openSection now).2 with
      | none => (s.openSection now).1
      | some c => (s.openSection now).1.stamp c later :=
  rfl

theorem openCall_stampedOnly (s : SingleCaller) (now later : Nat) :
    StampedOnly (s.openSection now).1 (s.openCall now later).1.pool := by
  rw [openCall_pool]
  cases (s.openSection now).2 with
  | none => exact ⟨rfl, rfl, rfl, rfl, rfl, fun _ => rfl⟩
  | some c =>
      refine ⟨rfl, rfl, rfl, rfl, rfl, ?_⟩
      intro d
      unfold ClientPool.stamp ClientPool.updateClient
      dsimp only
      split <;> rfl

theorem Counted.sound_openCall {s : SingleCaller} (h : Counted s) (now later : Nat) :
    PoolSystem.Sound (s.openCall now later).1.system := by
  have hdestroyed : PoolSystem.Sound (s.system.mapPool (·.destroyClients false)) :=
    PoolSystem.sound_step (a := .destroyClients false) rfl h.sound
  have hopened : PoolSystem.Sound {
      s.system with
      pool := (s.openSection now).1
      opening := (s.openSection now).2.toList ++ s.system.opening } :=
    PoolSystem.sound_step (a := .openSection now) rfl hdestroyed
  show PoolSystem.Sound {
    s.system with
    pool := match (s.openSection now).2 with
      | none => (s.openSection now).1
      | some c => (s.openSection now).1.stamp c later
    held := (s.openSection now).2.toList ++ s.system.held }
  revert hopened
  cases (s.openSection now).2 with
  | none => exact id
  | some c =>
      intro hopened
      refine PoolSystem.sound_step (a := .stamp c later) ?_ hopened
      simp [PoolSystem.step]

theorem openSection_snd (s : SingleCaller) (now : Nat) :
    (s.openSection now).2 =
      match s.pool.idle_.find? s.pool.getConnected with
      | some c => some c
      | none =>
          if (s.pool.using_.length : Int) < s.pool.maxClient_ then some (s.pool.lastId_ + 1)
          else none :=
  (s.pool.destroyClients false).openSection_snd now

theorem openSection_reuses {s : SingleCaller} {c : ClientId}
    (hfind : s.pool.idle_.find? s.pool.getConnected = some c) (now : Nat) :
    (s.openSection now).2 = some c := by
  rw [openSection_snd, hfind]

theorem openSection_chosen {s : SingleCaller} {now : Nat} {c : ClientId}
    (hc : (s.openSection now).2 = some c) :
    s.pool.idle_.find? s.pool.getConnected = some c ∨ c = s.pool.lastId_ + 1 := by
  rw [openSection_snd] at hc
  split at hc
  · rename_i d hfind
    exact Or.inl (hfind.trans hc)
  · split at hc
    · cases hc
      exact Or.inr rfl
    · cases hc

theorem Counted.chosen_not_using {s : SingleCaller} (h : Counted s) {now : Nat} {c : ClientId}
    (hc : (s.openSection now).2 = some c) : c ∉ s.pool.using_ := by
  intro huse
  rcases openSection_chosen hc with hfind | rfl
  · exact h.sound.usingNotIdle c huse (List.mem_of_find?_eq_some hfind)
  · exact Nat.not_succ_le_self _ (h.earlier_le (Or.inr (Or.inl huse)))

theorem Counted.chosen_not_destrory {s : SingleCaller} (h : Counted s) {now : Nat} {c : ClientId}
    (hc : (s.openSection now).2 = some c) (hnever : c ∉ s.evicted) :
    c ∉ s.pool.toDestrory_ := by
  intro hdestrory
  rcases openSection_chosen hc with hfind | rfl
  · exact (h.gone c hdestrory hnever).right.right (List.mem_of_find?_eq_some hfind)
  · exact Nat.not_succ_le_self _ (h.earlier_le (Or.inr (Or.inr (Or.inr (Or.inl hdestrory)))))

theorem idle_of_met {p : ClientPool} {c : ClientId} (hc : c ∈ p.met) :
    c ∈ p.idle_ ∧ p.getConnected c = false := by
  refine ⟨(List.takeWhile_sublist _).subset hc, ?_⟩
  simpa using List.mem_takeWhile_imp hc

theorem chosen_not_met {s : SingleCaller} (h : Counted s) {now : Nat} {c : ClientId}
    (hc : (s.openSection now).2 = some c) : c ∉ s.pool.met := by
  intro hmet
  have hidle := idle_of_met hmet
  rcases openSection_chosen hc with hfind | rfl
  · have hconn : s.pool.getConnected c = true := List.find?_some hfind
    rw [hidle.right] at hconn
    cases hconn
  · exact Nat.not_succ_le_self _ (h.earlier_le (Or.inr (Or.inr (Or.inl hidle.left))))

theorem Counted.idle_openSection {s : SingleCaller} (h : Counted s) {now : Nat} {c : ClientId}
    (hc : c ∈ (s.openSection now).1.idle_) :
    c ∈ s.pool.idle_ ∧ c ∉ s.pool.met ∧ (s.openSection now).2 ≠ some c := by
  have hidle : (s.openSection now).1.idle_ =
      (s.pool.idle_.dropWhile fun c => !s.pool.getConnected c).tail :=
    ClientPool.openSection_idle_ now
  rw [hidle] at hc
  have hdrop := List.mem_of_mem_tail hc
  have hmem : c ∈ s.pool.idle_ := (List.dropWhile_sublist _).subset hdrop
  have hnodup := h.sound.idleNodup
  rw [<- List.takeWhile_append_dropWhile (p := fun c => !s.pool.getConnected c)
    (l := s.pool.idle_)] at hnodup
  have hsplit := List.nodup_append.mp hnodup
  refine ⟨hmem, fun hmet => hsplit.right.right c hmet c hdrop rfl, ?_⟩
  intro hchosen
  rcases openSection_chosen hchosen with hfind | rfl
  · cases hlist : s.pool.idle_.dropWhile fun c => !s.pool.getConnected c with
    | nil =>
        rw [hlist] at hc
        cases hc
    | cons d rest =>
        have hfirst : s.pool.idle_.find? s.pool.getConnected = some d := by
          rw [List.find?_eq_head?_dropWhile_not, hlist, List.head?_cons]
        rw [hlist] at hc hsplit
        cases hfirst.symm.trans hfind
        exact (List.nodup_cons.mp hsplit.right.left).left hc
  · exact Nat.not_succ_le_self _ (h.earlier_le (Or.inr (Or.inr (Or.inl hmem))))

theorem Counted.mem_using_openSection {s : SingleCaller} (h : Counted s) {now : Nat}
    {c : ClientId} :
    c ∈ (s.openSection now).1.using_ <->
      (c ∈ s.pool.using_ ∨ (s.openSection now).2 = some c) ∧ ¬ s.pool.Evictable now c :=
  ClientPool.mem_openSection_using_ (p := s.pool.destroyClients false) h.sound.usingNotIdle now c

theorem Counted.mem_toDestrory_openSection {s : SingleCaller} (h : Counted s) {now : Nat}
    {c : ClientId} :
    c ∈ (s.openSection now).1.toDestrory_ <->
      c ∈ (s.pool.destroyClients false).toDestrory_ ∨ c ∈ s.pool.met ∨ s.pool.Evictable now c :=
  ClientPool.mem_openSection_toDestrory_ (p := s.pool.destroyClients false) h.sound.usingNotIdle
    now c

/-- The clients that the section of `open` took out of `using_` are those it evicted. -/
theorem Counted.count_takenOut {s : SingleCaller} (h : Counted s) (now : Nat) (c : ClientId) :
    (takenOut (s.pool.destroyClients false) (s.openSection now).1 (s.openSection now).2).count c =
      if s.pool.Evictable now c then 1 else 0 := by
  have hmem : c ∈ (s.openSection now).1.using_ <->
      (c ∈ s.pool.using_ ∨ (s.openSection now).2 = some c) ∧ ¬ s.pool.Evictable now c :=
    h.mem_using_openSection
  have hnodup : ((s.openSection now).2.toList ++ s.pool.using_).Nodup := by
    cases hchosen : (s.openSection now).2 with
    | none => exact h.sound.usingNodup
    | some d => exact List.nodup_cons.mpr ⟨h.chosen_not_using hchosen, h.sound.usingNodup⟩
  have htaken : c ∈ takenOut (s.pool.destroyClients false) (s.openSection now).1
      (s.openSection now).2 <-> s.pool.Evictable now c := by
    unfold takenOut
    rw [List.mem_filter, decide_eq_true_iff, List.mem_append, Option.mem_toList]
    constructor
    · intro hc
      by_contra hnot
      exact hc.right (hmem.mpr ⟨hc.left.symm, hnot⟩)
    · intro hev
      refine ⟨?_, fun hc => (hmem.mp hc).right hev⟩
      rcases hev.right.left with huse | hfind
      · exact Or.inr huse
      · exact Or.inl (openSection_reuses hfind now)
  have hone : (takenOut (s.pool.destroyClients false) (s.openSection now).1
      (s.openSection now).2).Nodup := hnodup.filter _
  by_cases hev : s.pool.Evictable now c
  · rw [if_pos hev, List.count_eq_one_of_mem hone (htaken.mpr hev)]
  · rw [if_neg hev, List.count_eq_zero.mpr fun hc => hev (htaken.mp hc)]

theorem Counted.counter_openCall {s : SingleCaller} (h : Counted s) (now later : Nat)
    (c : ClientId) :
    ((s.openCall now later).1.pool.clients c).usingCounter =
      ((s.openCall now later).1.system.held.count c : Int) -
        (s.openCall now later).1.evicted.count c := by
  have hcounter := ClientPool.openSection_usingCounter (p := s.pool.destroyClients false)
    h.sound.usingNodup h.sound.usingNotIdle h.new_counter now c
  have hevictable : (s.pool.destroyClients false).Evictable now c <-> s.pool.Evictable now c :=
    Iff.rfl
  have hold : ((s.pool.destroyClients false).clients c).usingCounter =
      (s.system.held.count c : Int) - s.evicted.count c := h.counter c
  rw [(openCall_stampedOnly s now later).counter, openCall_held, openCall_evicted,
    List.count_append, List.count_append, h.count_takenOut]
  unfold openSection
  rw [hcounter, hold, if_congr hevictable rfl rfl]
  have hchosen : ((((s.pool.destroyClients false).openSection now).2.toList.count c : Nat) : Int) =
      if ((s.pool.destroyClients false).openSection now).2 = some c then 1 else 0 := by
    cases ((s.pool.destroyClients false).openSection now).2 with
    | none => rfl
    | some d =>
        rw [Option.toList_some, List.count_singleton]
        by_cases hd : d = c
        · simp [hd]
        · simp [hd]
  push_cast
  rw [hchosen]
  by_cases hev : s.pool.Evictable now c
  · simp only [if_pos hev]
    omega
  · simp only [if_neg hev]
    omega

theorem Counted.mem_takenOut {s : SingleCaller} (h : Counted s) {now : Nat} {c : ClientId} :
    c ∈ takenOut (s.pool.destroyClients false) (s.openSection now).1 (s.openSection now).2 <->
      s.pool.Evictable now c := by
  have hcount := h.count_takenOut now c
  rw [<- List.count_pos_iff, hcount]
  split
  · rename_i hev
    exact ⟨fun _ => hev, fun _ => Nat.one_pos⟩
  · rename_i hev
    exact ⟨fun hpos => absurd hpos (Nat.lt_irrefl 0), fun hev' => absurd hev' hev⟩

theorem Counted.openCall {s : SingleCaller} (h : Counted s) (now later : Nat) :
    Counted (s.openCall now later).1 := by
  have hstamped := openCall_stampedOnly s now later
  have hevicted := openCall_evicted s now later
  refine ⟨h.sound_openCall now later, h.opening, h.counter_openCall now later, ?_, ?_⟩
  · intro c hc hnever
    rw [hevicted, List.mem_append, not_or] at hnever
    have hkept : ¬ s.pool.Evictable now c := fun hev => hnever.left (h.mem_takenOut.mpr hev)
    rw [hstamped.toDestrory_] at hc
    rw [hstamped.using_, hstamped.idle_, openCall_held, List.mem_append, Option.mem_toList,
      h.mem_using_openSection]
    rcases h.mem_toDestrory_openSection.mp hc with hold | hmet | hev
    · have hgone := h.gone c (List.mem_of_mem_filter hold) hnever.right
      have hchosen : ¬ (s.openSection now).2 = some c := fun hchosen =>
        h.chosen_not_destrory hchosen hnever.right (List.mem_of_mem_filter hold)
      refine ⟨?_, ?_, fun hidle => hgone.right.right (h.idle_openSection hidle).left⟩
      · tauto
      · tauto
    · have hidle := (idle_of_met hmet).left
      have hchosen : ¬ (s.openSection now).2 = some c := fun hchosen =>
        chosen_not_met h hchosen hmet
      have hheld := h.idle_not_held hidle
      have huse : c ∉ s.pool.using_ := fun huse => h.sound.usingNotIdle c huse hidle
      refine ⟨?_, ?_, fun hidle => (h.idle_openSection hidle).right.left hmet⟩
      · tauto
      · tauto
    · exact absurd hev hkept
  · intro c hc
    have hlast : s.pool.lastId_ ≤ (s.openSection now).1.lastId_ :=
      ((s.pool.destroyClients false).openSection_clients now).left
    rw [hevicted, List.mem_append] at hc
    rw [hstamped.lastId_]
    rcases hc with hc | hc
    · rcases (h.mem_takenOut.mp hc).right.left with huse | hfind
      · exact Nat.le_trans (h.earlier_le (Or.inr (Or.inl huse))) hlast
      · have hidle := List.mem_of_find?_eq_some hfind
        exact Nat.le_trans (h.earlier_le (Or.inr (Or.inr (Or.inl hidle)))) hlast
    · exact Nat.le_trans (h.evictedOld c hc) hlast

/-!
## The other calls
-/

theorem Counted.sound_close {s : SingleCaller} (h : Counted s) {c : ClientId}
    (hc : c ∈ s.system.held) : PoolSystem.Sound (s.close c).system := by
  have hreleased : PoolSystem.Sound {
      s.system with
      pool := s.pool.setInUsing c false
      held := s.system.held.erase c
      closing := c :: s.system.closing } := by
    refine PoolSystem.sound_step (a := .release c) ?_ h.sound
    simp only [PoolSystem.step, if_pos hc]
  refine PoolSystem.sound_step (a := .onClientClosing c) ?_ hreleased
  simp [PoolSystem.step, SingleCaller.close]

theorem Counted.counter_close {s : SingleCaller} (h : Counted s) {c : ClientId}
    (hc : c ∈ s.system.held) (d : ClientId) :
    ((s.close c).pool.clients d).usingCounter =
      ((s.close c).system.held.count d : Int) - (s.close c).evicted.count d := by
  show (((s.pool.setInUsing c false).onClientClosing c).clients d).usingCounter = _
  rw [ClientPool.onClientClosing_clients, ClientPool.usingCounter_setInUsing, h.counter]
  show _ = ((s.system.held.erase c).count d : Int) - s.evicted.count d
  by_cases hd : d = c
  · subst hd
    have hpos : 0 < s.system.held.count d := List.count_pos_iff.mpr hc
    rw [List.count_erase_self]
    simp only [if_true, Bool.false_eq_true, if_false]
    omega
  · rw [List.count_erase_of_ne hd]
    simp [hd]

theorem Counted.close {s : SingleCaller} (h : Counted s) {c : ClientId}
    (hc : c ∈ s.system.held) : Counted (s.close c) := by
  have hnodup : s.system.held.Nodup := by
    have hborrowed := h.sound.borrowedNodup
    unfold PoolSystem.borrowed PoolSystem.outstanding at hborrowed
    rw [h.opening] at hborrowed
    exact (List.nodup_append.mp hborrowed).left
  have hnot : c ∉ s.system.held.erase c := hnodup.not_mem_erase
  refine ⟨h.sound_close hc, h.opening, h.counter_close hc, ?_, ?_⟩
  · intro d hd hnever
    rcases (s.pool.setInUsing c false).onClientClosing_cases c with
      ⟨_, hclose⟩ | ⟨_, hclose⟩
    · have hpool : (s.close c).pool = _ := hclose
      rw [hpool] at hd ⊢
      have hgone := h.gone d hd hnever
      have hne : d ≠ c := fun heq => hgone.left (heq ▸ hc)
      refine ⟨fun hheld => hgone.left (List.mem_of_mem_erase hheld),
        fun huse => hgone.right.left (List.mem_of_mem_erase huse), ?_⟩
      intro hidle
      rcases ClientPool.mem_insertClient.mp hidle with heq | hidle
      · exact hne heq
      · exact hgone.right.right hidle
    · have hpool : (s.close c).pool = _ := hclose
      rw [hpool] at hd ⊢
      have hmem : d ∈ s.pool.toDestrory_ ++ [c] := hd
      rcases List.mem_append.mp hmem with hold | hnew
      · have hgone := h.gone d hold hnever
        exact ⟨fun hheld => hgone.left (List.mem_of_mem_erase hheld),
          fun huse => hgone.right.left (List.mem_of_mem_erase huse), hgone.right.right⟩
      · have heq := List.mem_singleton.mp hnew
        subst heq
        refine ⟨hnot, h.sound.usingNodup.not_mem_erase, ?_⟩
        exact fun hidle => h.idle_not_held hidle hc
  · intro d hd
    have hold := h.evictedOld d hd
    rcases (s.pool.setInUsing c false).onClientClosing_cases c with
      ⟨_, hclose⟩ | ⟨_, hclose⟩
    · have hpool : (s.close c).pool = _ := hclose
      rw [hpool]
      exact hold
    · have hpool : (s.close c).pool = _ := hclose
      rw [hpool]
      exact hold

theorem Counted.reset {s : SingleCaller} (h : Counted s) : Counted s.reset := by
  have hemptied := PoolSystem.sound_step (a := .reset) rfl h.sound
  have hdestroyed := PoolSystem.sound_step (a := .destroyClients false) rfl hemptied
  refine ⟨PoolSystem.sound_step (a := .destroyClients true) rfl hdestroyed, h.opening,
    h.counter, ?_, h.evictedOld⟩
  intro c hc
  have hnone : s.reset.pool.toDestrory_ = [] := by
    show List.filter (fun _ => !(true || _)) _ = []
    simp
  rw [hnone] at hc
  cases hc

theorem Counted.unmoved {s : SingleCaller} {t : PoolSystem} (h : Counted s)
    (hsame : PoolSystem.Unmoved s.system t) (hopening : t.opening = s.system.opening)
    (hheld : t.held = s.system.held) : Counted { s with system := t } := by
  refine ⟨h.sound.unmoved hsame, hopening.trans h.opening, ?_, ?_, ?_⟩
  · intro c
    show (t.pool.clients c).usingCounter = (t.held.count c : Int) - s.evicted.count c
    rw [hsame.counter, hheld]
    exact h.counter c
  · intro c hc hnever
    show c ∉ t.held ∧ c ∉ t.pool.using_ ∧ c ∉ t.pool.idle_
    rw [hheld, hsame.using_, hsame.idle_]
    exact h.gone c (hsame.toDestrory_ ▸ hc) hnever
  · intro c hc
    show c ≤ t.pool.lastId_
    rw [hsame.lastId_]
    exact h.evictedOld c hc

theorem still_step {s t : PoolSystem} {a : PoolAction} (hstep : PoolSystem.step s a = some t)
    (hstill : PoolSystem.Still a) : t.opening = s.opening ∧ t.held = s.held := by
  cases a with
  | saveState c type path data =>
      simp only [PoolSystem.step, Option.ite_none_right_eq_some, Option.some.injEq] at hstep
      rcases hstep with ⟨_, rfl⟩
      exact ⟨rfl, rfl⟩
  | takeOver c key =>
      simp only [PoolSystem.step, Option.ite_none_right_eq_some, Option.some.injEq] at hstep
      rcases hstep with ⟨_, rfl⟩
      exact ⟨rfl, rfl⟩
  | setConnected _ _ | setHandle _ _ | setMaxClient _ | setUsedTimeout _ | removeState _
  | freeState _ =>
      cases hstep
      exact ⟨rfl, rfl⟩
  | _ => exact hstill.elim

theorem counted_step {s s' : SingleCaller} {a : CallerAction} (hstep : step s a = some s')
    (h : Counted s) : Counted s' := by
  cases a with
  | openCall now later =>
      cases hstep
      exact h.openCall now later
  | close c =>
      simp only [step, Option.ite_none_right_eq_some, Option.some.injEq] at hstep
      rcases hstep with ⟨hc, rfl⟩
      exact h.close hc
  | reset =>
      cases hstep
      exact h.reset
  | other a =>
      simp only [step, Option.ite_none_right_eq_some, Option.map_eq_some_iff] at hstep
      rcases hstep with ⟨hstill, t, ht, rfl⟩
      have hsame := still_step ht hstill
      exact h.unmoved (PoolSystem.unmoved_step ht hstill) hsame.left hsame.right

/-!
## What each `open` does
-/

theorem Counted.handsOut_iff {s : SingleCaller} (h : Counted s) (now later : Nat) {c : ClientId}
    (hc : (s.openSection now).2 = some c) :
    (c ∈ (s.openCall now later).1.pool.using_ ∧ c ∉ (s.openCall now later).1.pool.idle_ ∧
      c ∉ (s.openCall now later).1.pool.toDestrory_ ∧
      ((s.openCall now later).1.pool.clients c).usingCounter = 1) <->
    c ∉ s.evicted ∧ ¬ s.pool.Evictable now c := by
  have hstamped := openCall_stampedOnly s now later
  have hidle : c ∉ (s.openSection now).1.idle_ :=
    fun hmem => (h.idle_openSection hmem).right.right hc
  have hfree : c ∉ s.system.held := by
    intro hheld
    rcases openSection_chosen hc with hfind | rfl
    · exact h.idle_not_held (List.mem_of_find?_eq_some hfind) hheld
    · exact Nat.not_succ_le_self _ (h.earlier_le (Or.inl hheld))
  have hcounter := h.counter_openCall now later c
  rw [openCall_held, openCall_evicted, List.count_append, List.count_append,
    h.count_takenOut, List.count_eq_zero.mpr hfree, hc, Option.toList_some,
    List.count_singleton_self] at hcounter
  rw [hstamped.using_, hstamped.idle_, hstamped.toDestrory_, h.mem_using_openSection,
    h.mem_toDestrory_openSection, hcounter]
  constructor
  · intro hgood
    rcases hgood with ⟨⟨_, hkept⟩, _, _, hone⟩
    rw [if_neg hkept] at hone
    refine ⟨?_, hkept⟩
    intro hmem
    have hpos : 0 < s.evicted.count c := List.count_pos_iff.mpr hmem
    omega
  · intro hfit
    rcases hfit with ⟨hnever, hkept⟩
    refine ⟨⟨Or.inr hc, hkept⟩, hidle, ?_, ?_⟩
    · intro hmem
      rcases hmem with hold | hmet | hev
      · exact h.chosen_not_destrory hc hnever (List.mem_of_mem_filter hold)
      · exact chosen_not_met h hc hmet
      · exact hkept hev
    · rw [if_neg hkept, List.count_eq_zero.mpr hnever]
      rfl

theorem Counted.new_fit {s : SingleCaller} (h : Counted s) (now : Nat) :
    s.pool.lastId_ + 1 ∉ s.evicted ∧ ¬ s.pool.Evictable now (s.pool.lastId_ + 1) := by
  constructor
  · intro hmem
    exact Nat.not_succ_le_self _ (h.evictedOld _ hmem)
  · intro hev
    rcases hev.right.left with huse | hfind
    · exact Nat.not_succ_le_self _ (h.earlier_le (Or.inr (Or.inl huse)))
    · have hidle := List.mem_of_find?_eq_some hfind
      exact Nat.not_succ_le_self _ (h.earlier_le (Or.inr (Or.inr (Or.inl hidle))))

theorem evictable_of_find {p : ClientPool} {now : Nat} {c : ClientId}
    (hfind : p.idle_.find? p.getConnected = some c) :
    p.Evictable now c <-> p.Exhausted ∧ p.timedOut now c = true := by
  unfold ClientPool.Evictable
  tauto

theorem opensWell_iff_meetsFit {s s' : SingleCaller} {a : CallerAction}
    (hstep : step s a = some s') (h : Counted s) : OpensWell s a s' <-> MeetsFit s a := by
  cases a with
  | openCall now later =>
      cases hstep
      constructor
      · intro hgood c hfind
        have hc := openSection_reuses hfind now
        have hfit := (h.handsOut_iff now later hc).mp (hgood.handsOut c hc)
        exact ⟨hfit.left, fun hev => hfit.right ((evictable_of_find hfind).mpr hev)⟩
      · intro hguard
        have hstamped := openCall_stampedOnly s now later
        constructor
        · intro c hmet
          rw [hstamped.toDestrory_, hstamped.idle_]
          refine ⟨?_, fun hidle => (h.idle_openSection hidle).right.left hmet⟩
          exact h.mem_toDestrory_openSection.mpr (Or.inr (Or.inl hmet))
        · intro key state hget hmet
          rw [hstamped.stateBag_]
          exact ClientPool.openSection_get (p := s.pool.destroyClients false) now hget hmet
        · intro c hfind
          exact openSection_reuses hfind now
        · intro hnone hroom
          refine ⟨s.pool.lastId_ + 1, ?_, fun d hd => Nat.lt_succ_of_le (h.earlier_le hd)⟩
          rw [openCall_snd, openSection_snd, hnone]
          exact if_pos hroom
        · intro hnone hfull
          rw [openCall_snd, openSection_snd, hnone]
          exact if_neg hfull
        · intro c hc
          apply (h.handsOut_iff now later hc).mpr
          rcases openSection_chosen hc with hfind | rfl
          · have hfit := hguard c hfind
            exact ⟨hfit.left, fun hev => hfit.right ((evictable_of_find hfind).mp hev)⟩
          · exact h.new_fit now
  | _ => exact Iff.rfl

/--
Each `open` does what it should exactly when the connected idle client that it
meets was never evicted and, in a full pool, has not timed out.
-/
theorem opens_as_specified_iff (addr : ClientId -> Nat) (actions : List CallerAction) :
    (forall s a s', (s, a, s') ∈ runFrom addr actions -> OpensWell s a s') <->
    forall s a s', (s, a, s') ∈ runFrom addr actions -> MeetsFit s a :=
  Transition.good_iff_guarded step Counted MeetsFit OpensWell
    (fun _ _ _ hstep h hguard =>
      ⟨counted_step hstep h, (opensWell_iff_meetsFit hstep h).mpr hguard⟩)
    (fun _ _ _ hstep h hgood => (opensWell_iff_meetsFit hstep h).mp hgood)
    actions (counted_start addr)

section Example

/-- The only client of a pool of one comes back after a long time. -/
private def reopenLate : List CallerAction :=
  [.other (.setMaxClient 1), .openCall 5 5, .other (.setConnected 1 true), .close 1,
    .openCall 2000000 2000000]

private def CountsOne (s : SingleCaller) (a : CallerAction) (s' : SingleCaller) : Prop :=
  match a with
  | .openCall now later =>
      (s.openCall now later).2.all
        (fun c => decide ((s'.pool.clients c).usingCounter = 1)) = true
  | _ => True

private instance (s : SingleCaller) (a : CallerAction) (s' : SingleCaller) :
    Decidable (CountsOne s a s') := by
  unfold CountsOne
  cases a <;> infer_instance

theorem reused_client_evicted :
    ¬ forall (addr : ClientId -> Nat) (actions : List CallerAction) (s : SingleCaller)
      (a : CallerAction) (s' : SingleCaller),
      (s, a, s') ∈ runFrom addr actions -> OpensWell s a s' := by
  intro h
  have hall : forall x, x ∈ runFrom id reopenLate -> CountsOne x.1 x.2.1 x.2.2 := by
    intro x hx
    have hgood := h id reopenLate x.1 x.2.1 x.2.2 hx
    revert hgood
    cases x.2.1 with
    | openCall now later =>
        intro hgood
        apply (Option.all_eq_true _ _).mpr
        intro c hc
        exact decide_eq_true (hgood.handsOut c hc).right.right.right
    | _ => exact fun _ => trivial
  revert hall
  decide

end Example

end SingleCaller

end FrProxy
