import FrProxy.Library.Transition
import FrProxy.SkipBuffer
import Mathlib.Logic.Function.Basic

/-!
# The buffer over long times

`insert` reads a clock of 64 bits and keeps the low 32 of them.  Next to the
buffer stand the whole times its tokens were set at, and a buffer that works on
unbounded time.  A token that was never erased can be met at any age.
-/

namespace FrProxy

/-- What the buffer is for: tokens with the time they were set at. -/
structure IdealBuffer where
  timeout : Nat
  tokens : String -> Option Nat

namespace IdealBuffer

/-- There is no token, or more than the timeout has passed since it was set. -/
def Free (b : IdealBuffer) (path : String) (now : Nat) : Prop :=
  forall token, token ∈ b.tokens path -> b.timeout < now - token

instance (b : IdealBuffer) (path : String) (now : Nat) : Decidable (b.Free path now) :=
  inferInstanceAs (Decidable (forall token, token ∈ b.tokens path -> b.timeout < now - token))

def insert (b : IdealBuffer) (path : String) (now : Nat) : IdealBuffer × Bool :=
  if b.Free path now then
    ({ b with tokens := Function.update b.tokens path (some now) }, true)
  else (b, false)

def erase (b : IdealBuffer) (key : String) : IdealBuffer :=
  { b with tokens := Function.update b.tokens key none }

theorem insert_of_free {b : IdealBuffer} {path : String} {now : Nat} (h : b.Free path now) :
    b.insert path now = ({ b with tokens := Function.update b.tokens path (some now) }, true) :=
  if_pos h

theorem insert_of_held {b : IdealBuffer} {path : String} {now : Nat} (h : ¬ b.Free path now) :
    b.insert path now = (b, false) :=
  if_neg h

theorem inserted_iff (b : IdealBuffer) (path : String) (now : Nat) :
    (b.insert path now).2 = true <-> b.Free path now := by
  by_cases h : b.Free path now
  · simp [insert_of_free h, h]
  · simp [insert_of_held h, h]

end IdealBuffer

inductive BufferCall where
  | insert (zkpath : String) (now : UInt64)
  | erase (key : String)

/-- The buffer, when its tokens were set, the buffer on unbounded time, the last reading. -/
structure BufferHistory where
  buffer : SkipBuffer
  setAt : String -> Option Nat
  ideal : IdealBuffer
  clock : UInt64

namespace BufferHistory

def start (timeout : UInt32) : BufferHistory where
  buffer := SkipBuffer.ofTimeout timeout
  setAt := fun _ => none
  ideal := { timeout := timeout.toNat, tokens := fun _ => none }
  clock := 0

/-- The clock does not go back. -/
def step (s : BufferHistory) : BufferCall -> Option BufferHistory
  | .insert zkpath now =>
      if s.clock ≤ now then
        let (buffer, inserted) := s.buffer.insert zkpath now.toUInt32
        some {
          buffer := buffer
          setAt :=
            if inserted then Function.update s.setAt zkpath (some now.toNat) else s.setAt
          ideal := (s.ideal.insert zkpath now.toNat).1
          clock := now }
      else none
  | .erase key =>
      some {
        s with
        buffer := s.buffer.erase key
        setAt := Function.update s.setAt key none
        ideal := s.ideal.erase key }

def runFrom (timeout : UInt32) (calls : List BufferCall) :
    List (BufferHistory × BufferCall × BufferHistory) :=
  Transition.transitions step (start timeout) calls

/-- The whole times of the tokens that the buffer holds. -/
def known (s : BufferHistory) : IdealBuffer where
  timeout := s.buffer.timeout_.toNat
  tokens := s.setAt

/--
`insert` succeeds exactly when there is no token or more than the timeout has
passed since it was set, and reports what the buffer on unbounded time reports.
-/
def ReportsInTime (s : BufferHistory) (a : BufferCall) (_ : BufferHistory) : Prop :=
  match a with
  | .insert zkpath now =>
      ((s.buffer.insert zkpath now.toUInt32).2 = true <-> s.known.Free zkpath now.toNat) ∧
        (s.buffer.insert zkpath now.toUInt32).2 = (s.ideal.insert zkpath now.toNat).2
  | .erase _ => True

instance (s : BufferHistory) (a : BufferCall) (s' : BufferHistory) :
    Decidable (s.ReportsInTime a s') :=
  match a with
  | .insert _ _ => instDecidableAnd
  | .erase _ => instDecidableTrue

/-- The age of a token that is out of time is still so modulo `2 ^ 32`. -/
def AgeSurvives (s : BufferHistory) (a : BufferCall) : Prop :=
  match a with
  | .insert zkpath now =>
      forall token, token ∈ s.setAt zkpath -> s.buffer.timeout_.toNat < now.toNat - token ->
        s.buffer.timeout_.toNat < (now.toNat - token) % 2 ^ 32
  | .erase _ => True

/-!
## The tokens are the low bits of their times
-/

/-- Each token of the buffer is a time, not after the clock, modulo `2 ^ 32`. -/
structure Stamped (buffer : SkipBuffer) (setAt : String -> Option Nat) (clock : Nat) : Prop where
  token : forall path, buffer.map_[path]? = (setAt path).map UInt32.ofNat
  past : forall path token, token ∈ setAt path -> token ≤ clock

theorem Stamped.later {buffer : SkipBuffer} {setAt : String -> Option Nat} {clock clock' : Nat}
    (h : Stamped buffer setAt clock) (hclock : clock ≤ clock') :
    Stamped buffer setAt clock' where
  token := h.token
  past := by
    intro path token htoken
    exact Nat.le_trans (h.past path token htoken) hclock

theorem stamped_start (timeout : UInt32) (clock : Nat) :
    Stamped (SkipBuffer.ofTimeout timeout) (fun _ => none) clock where
  token := by
    intro path
    simp [SkipBuffer.ofTimeout]
  past := by
    intro path token h
    cases h

theorem age_mod {now token : Nat} (h : token ≤ now) :
    (UInt32.ofNat now - UInt32.ofNat token).toNat = (now - token) % 2 ^ 32 := by
  rw [UInt32.toNat_sub, UInt32.toNat_ofNat', UInt32.toNat_ofNat']
  omega

theorem Stamped.inserted_iff {buffer : SkipBuffer} {setAt : String -> Option Nat}
    {now : UInt64} (h : Stamped buffer setAt now.toNat) (zkpath : String) :
    (buffer.insert zkpath now.toUInt32).2 = true <->
      forall token, token ∈ setAt zkpath ->
        buffer.timeout_.toNat < (now.toNat - token) % 2 ^ 32 := by
  have hexpired : forall token, token ∈ setAt zkpath ->
      (now.toUInt32 - UInt32.ofNat token > buffer.timeout_ <->
        buffer.timeout_.toNat < (now.toNat - token) % 2 ^ 32) := by
    intro token htoken
    have hpast := h.past zkpath token htoken
    rw [<- UInt32.ofNat_uInt64ToNat, gt_iff_lt, UInt32.lt_iff_toNat_lt, age_mod hpast]
  have hmap := h.token zkpath
  rcases buffer.insert_cases zkpath now.toUInt32 with
    ⟨⟨low, hlow, hfresh⟩, hinsert⟩ | ⟨hold, hinserted, _⟩
  · rw [hmap] at hlow
    rcases Option.map_eq_some_iff.mp hlow with ⟨token, htoken, rfl⟩
    rw [hinsert]
    constructor
    · intro hfalse
      cases hfalse
    · intro hall
      exact absurd ((hexpired token htoken).mpr (hall token htoken)) hfresh
  · constructor
    · intro _ token htoken
      apply (hexpired token htoken).mp
      apply hold
      rw [hmap, Option.mem_def.mp htoken]
      rfl
    · intro _
      exact hinserted

theorem Stamped.insert {buffer : SkipBuffer} {setAt : String -> Option Nat}
    {now : UInt64} (h : Stamped buffer setAt now.toNat) (zkpath : String) :
    Stamped (buffer.insert zkpath now.toUInt32).1
      (if (buffer.insert zkpath now.toUInt32).2 then
        Function.update setAt zkpath (some now.toNat)
      else setAt)
      now.toNat := by
  rcases buffer.insert_cases zkpath now.toUInt32 with
    ⟨_, hinsert⟩ | ⟨_, hinserted, _, hmap⟩
  · rw [hinsert]
    exact h
  · rw [if_pos hinserted]
    constructor
    · intro path
      rw [hmap]
      by_cases hpath : zkpath = path
      · subst hpath
        simp
      · rw [if_neg hpath, Function.update_of_ne (Ne.symm hpath), h.token]
    · intro path token htoken
      by_cases hpath : path = zkpath
      · subst hpath
        rw [Function.update_self] at htoken
        cases htoken
        exact Nat.le_refl _
      · rw [Function.update_of_ne hpath] at htoken
        exact h.past path token htoken

theorem Stamped.erase {buffer : SkipBuffer} {setAt : String -> Option Nat} {clock : Nat}
    (h : Stamped buffer setAt clock) (key : String) :
    Stamped (buffer.erase key) (Function.update setAt key none) clock where
  token := by
    intro path
    rw [SkipBuffer.getElem?_erase]
    by_cases hpath : key = path
    · subst hpath
      simp
    · rw [if_neg hpath, Function.update_of_ne (Ne.symm hpath), h.token]
  past := by
    intro path token htoken
    by_cases hpath : path = key
    · subst hpath
      rw [Function.update_self] at htoken
      cases htoken
    · rw [Function.update_of_ne hpath] at htoken
      exact h.past path token htoken

theorem stamped_step {s s' : BufferHistory} {a : BufferCall} (hstep : step s a = some s')
    (h : Stamped s.buffer s.setAt s.clock.toNat) :
    Stamped s'.buffer s'.setAt s'.clock.toNat := by
  cases a with
  | insert zkpath now =>
      simp only [step, Option.ite_none_right_eq_some, Option.some.injEq] at hstep
      rcases hstep with ⟨hclock, rfl⟩
      exact (h.later (UInt64.le_iff_toNat_le.mp hclock)).insert zkpath
  | erase key =>
      cases hstep
      exact h.erase key

/-!
## Agreement with the buffer on unbounded time
-/

theorem Stamped.inserted_iff_free {s : BufferHistory} {now : UInt64}
    (h : Stamped s.buffer s.setAt now.toNat) (zkpath : String) :
    ((s.buffer.insert zkpath now.toUInt32).2 = true <-> s.known.Free zkpath now.toNat) <->
      AgeSurvives s (.insert zkpath now) := by
  rw [h.inserted_iff zkpath]
  constructor
  · intro hiff token htoken hage
    apply hiff.mpr ?_ token htoken
    intro other hother
    cases Option.mem_unique hother htoken
    exact hage
  · intro hsurvives
    constructor
    · intro hlow token htoken
      exact Nat.lt_of_lt_of_le (hlow token htoken) (Nat.mod_le _ _)
    · intro hfree token htoken
      exact hsurvives token htoken (hfree token htoken)

/-- Both buffers hold the same tokens, one of them their low bits. -/
structure Agrees (s : BufferHistory) : Prop where
  stamped : Stamped s.buffer s.setAt s.clock.toNat
  ideal : s.ideal = s.known

theorem agrees_start (timeout : UInt32) : Agrees (start timeout) where
  stamped := stamped_start timeout 0
  ideal := rfl

theorem reportsInTime_iff {s s' : BufferHistory} {a : BufferCall} (hstep : step s a = some s')
    (h : Agrees s) : ReportsInTime s a s' <-> AgeSurvives s a := by
  cases a with
  | insert zkpath now =>
      simp only [step, Option.ite_none_right_eq_some] at hstep
      have hstamped := h.stamped.later (UInt64.le_iff_toNat_le.mp hstep.left)
      have hiff := hstamped.inserted_iff_free zkpath
      constructor
      · intro hreports
        exact hiff.mp hreports.left
      · intro hsurvives
        have hfree := hiff.mpr hsurvives
        refine ⟨hfree, ?_⟩
        rw [h.ideal, Bool.eq_iff_iff, IdealBuffer.inserted_iff]
        exact hfree
  | erase key => exact Iff.rfl

theorem agrees_step {s s' : BufferHistory} {a : BufferCall} (hstep : step s a = some s')
    (h : Agrees s) (hreports : ReportsInTime s a s') : Agrees s' := by
  refine ⟨stamped_step hstep h.stamped, ?_⟩
  cases a with
  | insert zkpath now =>
      simp only [step, Option.ite_none_right_eq_some, Option.some.injEq] at hstep
      rcases hstep with ⟨_, rfl⟩
      have hfree := hreports.left
      show (s.ideal.insert zkpath now.toNat).1 = known _
      rw [h.ideal]
      rcases s.buffer.insert_cases zkpath now.toUInt32 with
        ⟨_, hinsert⟩ | ⟨_, hinserted, htimeout, _⟩
      · rw [hinsert] at hfree
        have hheld : ¬ s.known.Free zkpath now.toNat := by
          intro hfalse
          cases hfree.mpr hfalse
        rw [IdealBuffer.insert_of_held hheld, hinsert]
        rfl
      · rw [IdealBuffer.insert_of_free (hfree.mp hinserted)]
        simp [known, hinserted, htimeout]
  | erase key =>
      cases hstep
      show s.ideal.erase key = known _
      rw [h.ideal]
      rfl

/-- At every step of a run a success means what it should exactly when no age is lost. -/
theorem inserted_iff_free_of_mem (timeout : UInt32) (calls : List BufferCall) :
    forall s a s', (s, a, s') ∈ runFrom timeout calls -> forall zkpath now,
      a = .insert zkpath now ->
      (((s.buffer.insert zkpath now.toUInt32).2 = true <-> s.known.Free zkpath now.toNat) <->
        AgeSurvives s a) := by
  intro s a s' hmem
  have hstamped := Transition.good_of_guarded step
    (fun s => Stamped s.buffer s.setAt s.clock.toNat) (fun _ _ => True)
    (fun s a _ => forall zkpath now, a = .insert zkpath now -> s.clock ≤ now)
  have hstep := hstamped ?_ (stamped_start timeout 0) (fun _ _ _ _ => trivial) s a s' hmem
  · rcases hstep with ⟨hstamped, hclock⟩
    intro zkpath now ha
    have hlater := UInt64.le_iff_toNat_le.mp (hclock zkpath now ha)
    rw [ha]
    exact (hstamped.later hlater).inserted_iff_free zkpath
  · intro s a s' hstep h _
    refine ⟨stamped_step hstep h, ?_⟩
    intro zkpath now ha
    rw [ha] at hstep
    simp only [step, Option.ite_none_right_eq_some] at hstep
    exact hstep.left

/--
Every report of a run is the one on unbounded time exactly when no `insert`
finds a token that is out of time and whose age is at most the timeout modulo
`2 ^ 32`.
-/
theorem reports_in_time_iff (timeout : UInt32) (calls : List BufferCall) :
    (forall s a s', (s, a, s') ∈ runFrom timeout calls -> ReportsInTime s a s') <->
    forall s a s', (s, a, s') ∈ runFrom timeout calls -> AgeSurvives s a :=
  Transition.good_iff_guarded step Agrees AgeSurvives ReportsInTime
    (fun _ _ _ hstep h hguard =>
      let hreports := (reportsInTime_iff hstep h).mpr hguard
      ⟨agrees_step hstep h hreports, hreports⟩)
    (fun _ _ _ hstep h hreports => (reportsInTime_iff hstep h).mp hreports)
    calls (agrees_start timeout)

section Example

/-- The task of the first token was dropped, and `2 ^ 32` milliseconds pass. -/
private def wrapped : List BufferCall :=
  [.insert "/a" 0, .insert "/a" 4294967296]

theorem fresh_after_wrap :
    ¬ forall (timeout : UInt32) (calls : List BufferCall) (s : BufferHistory) (a : BufferCall)
      (s' : BufferHistory), (s, a, s') ∈ runFrom timeout calls -> ReportsInTime s a s' := by
  intro h
  have hall : forall x, x ∈ runFrom 1000 wrapped -> ReportsInTime x.1 x.2.1 x.2.2 :=
    fun x hx => h 1000 wrapped x.1 x.2.1 x.2.2 hx
  revert hall
  decide

end Example

end BufferHistory

end FrProxy
