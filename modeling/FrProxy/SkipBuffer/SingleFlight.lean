import FrProxy.Library.Transition
import FrProxy.SkipBuffer

/-!
# Requests and fetches for uncached paths

`ServerHandler::get` asks the buffer for a token when the cache has nothing, and
commits a `GetServiceTask` when it gets one.  The clock is read before the
mutex is taken.  A task ends in `SkipBuffer::erase`; a task that the thread
manager refused or dropped never ends.
-/

namespace FrProxy

structure Fetch where
  path : String
  /-- The reading of the clock it was committed with. -/
  token : Nat
  /-- Another fetch of the path has finished since. -/
  outlived : Bool := false
deriving DecidableEq

/-- The buffer, a clock of milliseconds that started at `since`, requests and fetches. -/
structure FetchSystem where
  buffer : SkipBuffer
  since : Nat
  clock : Nat
  /-- The requests that have read the clock and wait for the mutex. -/
  reading : List (String × Nat)
  fetching : List Fetch

inductive FetchAction where
  | tick (ms : Nat)
  /-- A request that found nothing in the cache reads the clock. -/
  | get (path : String)
  /-- The locked section of `insert`, and the task if there is a token. -/
  | insert (path : String) (now : Nat)
  /-- The end of a task. -/
  | finish (fetch : Fetch)

namespace FetchSystem

def start (timeout : UInt32) (since : Nat) : FetchSystem where
  buffer := SkipBuffer.ofTimeout timeout
  since := since
  clock := since
  reading := []
  fetching := []

/-- When another fetch of the path finishes. -/
def outlive (path : String) (fetch : Fetch) : Fetch :=
  if fetch.path = path then { fetch with outlived := true } else fetch

/-- The readings of the clock span less than `2 ^ 32` milliseconds. -/
def step (s : FetchSystem) : FetchAction -> Option FetchSystem
  | .tick ms =>
      if s.clock + ms < s.since + 2 ^ 32 then some { s with clock := s.clock + ms } else none
  | .get path => some { s with reading := (path, s.clock) :: s.reading }
  | .insert path now =>
      if (path, now) ∈ s.reading then
        let (buffer, inserted) := s.buffer.insert path (UInt32.ofNat now)
        some {
          s with
          buffer := buffer
          reading := s.reading.erase (path, now)
          fetching := if inserted then { path, token := now } :: s.fetching else s.fetching }
      else none
  | .finish fetch =>
      if fetch ∈ s.fetching then
        some {
          s with
          buffer := s.buffer.erase fetch.path
          fetching := (s.fetching.erase fetch).map (outlive fetch.path) }
      else none

def runFrom (timeout : UInt32) (since : Nat) (actions : List FetchAction) :
    List (FetchSystem × FetchAction × FetchSystem) :=
  Transition.transitions step (start timeout since) actions

/-- The fetch is for the path, and the clock has not passed its time. -/
def InTime (s : FetchSystem) (path : String) (fetch : Fetch) : Prop :=
  fetch.path = path ∧ s.clock ≤ fetch.token + s.buffer.timeout_.toNat

instance (s : FetchSystem) (path : String) (fetch : Fetch) : Decidable (s.InTime path fetch) :=
  inferInstanceAs (Decidable (_ ∧ _))

/-- A fetch is committed only when none for the path is under way and in time. -/
def CommitsAlone (s : FetchSystem) (a : FetchAction) (_ : FetchSystem) : Prop :=
  match a with
  | .insert path now =>
      (s.buffer.insert path (UInt32.ofNat now)).2 = true ->
        forall fetch, fetch ∈ s.fetching -> ¬ s.InTime path fetch
  | _ => True

instance (s : FetchSystem) (a : FetchAction) (s' : FetchSystem) :
    Decidable (s.CommitsAlone a s') := by
  cases a with
  | insert path now =>
      exact inferInstanceAs (Decidable (
        (s.buffer.insert path (UInt32.ofNat now)).2 = true ->
          forall fetch, fetch ∈ s.fetching -> ¬ s.InTime path fetch))
  | _ => exact inferInstanceAs (Decidable True)

/-- The reading is not older than the token, or by so much that the difference is small again. -/
def Ordered (s : FetchSystem) (now : Nat) (fetch : Fetch) : Prop :=
  fetch.token ≤ now ∨ now + 2 ^ 32 ≤ fetch.token + s.buffer.timeout_.toNat

instance (s : FetchSystem) (now : Nat) (fetch : Fetch) : Decidable (s.Ordered now fetch) :=
  inferInstanceAs (Decidable (_ ∨ _))

/--
While a fetch for the path is under way and in time, no other has finished since
it was committed, and the request did not read the clock before it.
-/
def FindsToken (s : FetchSystem) (a : FetchAction) : Prop :=
  match a with
  | .insert path now =>
      forall fetch, fetch ∈ s.fetching -> s.InTime path fetch ->
        fetch.outlived = false ∧ s.Ordered now fetch
  | _ => True

instance (s : FetchSystem) (a : FetchAction) : Decidable (s.FindsToken a) := by
  cases a with
  | insert path now =>
      exact inferInstanceAs (Decidable (forall fetch, fetch ∈ s.fetching ->
        s.InTime path fetch -> fetch.outlived = false ∧ s.Ordered now fetch))
  | _ => exact inferInstanceAs (Decidable True)

/-!
## The tokens of the fetches under way
-/

def expectedToken (fetch : Fetch) : Option UInt32 :=
  if fetch.outlived then none else some (UInt32.ofNat fetch.token)

structure Tracked (s : FetchSystem) : Prop where
  clockAfter : s.since ≤ s.clock
  clockBefore : s.clock < s.since + 2 ^ 32
  reading : forall path now, (path, now) ∈ s.reading -> s.since ≤ now ∧ now ≤ s.clock
  fetching : forall fetch, fetch ∈ s.fetching -> s.since ≤ fetch.token ∧ fetch.token ≤ s.clock
  token : forall fetch, fetch ∈ s.fetching -> s.InTime fetch.path fetch ->
    s.buffer.map_[fetch.path]? = expectedToken fetch

theorem tracked_start (timeout : UInt32) (since : Nat) : Tracked (start timeout since) where
  clockAfter := Nat.le_refl since
  clockBefore := Nat.lt_add_of_pos_right (by decide)
  reading := by
    intro path now h
    cases h
  fetching := by
    intro fetch h
    cases h
  token := by
    intro fetch h
    cases h

theorem Tracked.not_expired_iff {s : FetchSystem} (h : Tracked s) {path : String} {now : Nat}
    (hnow : (path, now) ∈ s.reading) {fetch : Fetch} (hfetch : fetch ∈ s.fetching)
    (htime : s.InTime path fetch) :
    ¬ UInt32.ofNat now - UInt32.ofNat fetch.token > s.buffer.timeout_ <->
      s.Ordered now fetch := by
  have hread := h.reading path now hnow
  have htoken := h.fetching fetch hfetch
  have hclock := h.clockBefore
  have hlate := htime.right
  have hage := SkipBuffer.age_ofNat now fetch.token (by omega) (by omega)
  rw [gt_iff_lt, UInt32.lt_iff_toNat_lt, hage]
  unfold Ordered
  split <;> omega

theorem outlive_path (path : String) (fetch : Fetch) : (outlive path fetch).path = fetch.path := by
  unfold outlive
  split <;> rfl

theorem outlive_token (path : String) (fetch : Fetch) :
    (outlive path fetch).token = fetch.token := by
  unfold outlive
  split <;> rfl

theorem Tracked.finish {s : FetchSystem} (h : Tracked s) (fetch : Fetch) :
    Tracked {
      s with
      buffer := s.buffer.erase fetch.path
      fetching := (s.fetching.erase fetch).map (outlive fetch.path) } where
  clockAfter := h.clockAfter
  clockBefore := h.clockBefore
  reading := h.reading
  fetching := by
    intro fetch' hmem
    rcases List.mem_map.mp hmem with ⟨old, hold, rfl⟩
    rw [outlive_token]
    exact h.fetching old (List.mem_of_mem_erase hold)
  token := by
    intro fetch' hmem htime
    rcases List.mem_map.mp hmem with ⟨old, hold, rfl⟩
    have htime' : s.InTime old.path old := by
      refine ⟨rfl, ?_⟩
      have hlate := htime.right
      rwa [outlive_token] at hlate
    have htoken := h.token old (List.mem_of_mem_erase hold) htime'
    show (s.buffer.erase fetch.path).map_[(outlive fetch.path old).path]? = _
    rw [outlive_path, SkipBuffer.getElem?_erase]
    by_cases hpath : fetch.path = old.path
    · rw [if_pos hpath]
      simp [expectedToken, outlive, hpath]
    · rw [if_neg hpath, htoken]
      simp [outlive, Ne.symm hpath]

theorem Tracked.insert {s : FetchSystem} (h : Tracked s) {path : String} {now : Nat}
    (hnow : (path, now) ∈ s.reading)
    (halone : (s.buffer.insert path (UInt32.ofNat now)).2 = true ->
      forall fetch, fetch ∈ s.fetching -> ¬ s.InTime path fetch) :
    Tracked {
      s with
      buffer := (s.buffer.insert path (UInt32.ofNat now)).1
      reading := s.reading.erase (path, now)
      fetching :=
        if (s.buffer.insert path (UInt32.ofNat now)).2 then { path, token := now } :: s.fetching
        else s.fetching } := by
  have hreading : forall path' now', (path', now') ∈ s.reading.erase (path, now) ->
      s.since ≤ now' ∧ now' ≤ s.clock :=
    fun path' now' hmem => h.reading path' now' (List.mem_of_mem_erase hmem)
  rcases s.buffer.insert_cases path (UInt32.ofNat now) with
    ⟨_, hinsert⟩ | ⟨_, hinserted, htimeout, hmap⟩
  · rw [hinsert]
    exact ⟨h.clockAfter, h.clockBefore, hreading, h.fetching, h.token⟩
  · rw [if_pos hinserted]
    refine ⟨h.clockAfter, h.clockBefore, hreading, ?_, ?_⟩
    · intro fetch hmem
      rcases List.mem_cons.mp hmem with rfl | hold
      · exact h.reading path now hnow
      · exact h.fetching fetch hold
    · intro fetch hmem htime
      show (s.buffer.insert path (UInt32.ofNat now)).1.map_[fetch.path]? = expectedToken fetch
      rw [hmap]
      rcases List.mem_cons.mp hmem with rfl | hold
      · rw [if_pos rfl]
        rfl
      · have htime' : s.InTime fetch.path fetch := by
          refine ⟨rfl, ?_⟩
          have hlate := htime.right
          dsimp only at hlate
          rwa [htimeout] at hlate
        have hpath : path ≠ fetch.path := by
          intro heq
          exact halone hinserted fetch hold ⟨heq.symm, htime'.right⟩
        rw [if_neg hpath]
        exact h.token fetch hold htime'

/-!
## Single flight
-/

theorem tracked_step {s s' : FetchSystem} {a : FetchAction} (hstep : step s a = some s')
    (h : Tracked s) (halone : CommitsAlone s a s') : Tracked s' := by
  cases a with
  | tick ms =>
      simp only [step, Option.ite_none_right_eq_some, Option.some.injEq] at hstep
      rcases hstep with ⟨hspan, rfl⟩
      refine ⟨Nat.le_add_right_of_le h.clockAfter, hspan, ?_, ?_, ?_⟩
      · intro path now hmem
        have hread := h.reading path now hmem
        exact ⟨hread.left, Nat.le_add_right_of_le hread.right⟩
      · intro fetch hmem
        have htoken := h.fetching fetch hmem
        exact ⟨htoken.left, Nat.le_add_right_of_le htoken.right⟩
      · intro fetch hmem htime
        refine h.token fetch hmem ⟨rfl, ?_⟩
        exact Nat.le_trans (Nat.le_add_right _ ms) htime.right
  | get path =>
      cases hstep
      refine ⟨h.clockAfter, h.clockBefore, ?_, h.fetching, h.token⟩
      intro path' now' hmem
      rcases List.mem_cons.mp hmem with heq | hold
      · cases heq
        exact ⟨h.clockAfter, Nat.le_refl _⟩
      · exact h.reading path' now' hold
  | insert path now =>
      simp only [step, Option.ite_none_right_eq_some, Option.some.injEq] at hstep
      rcases hstep with ⟨hnow, rfl⟩
      exact h.insert hnow halone
  | finish fetch =>
      simp only [step, Option.ite_none_right_eq_some, Option.some.injEq] at hstep
      rcases hstep with ⟨_, rfl⟩
      exact h.finish fetch

theorem commitsAlone_iff_findsToken {s s' : FetchSystem} {a : FetchAction}
    (hstep : step s a = some s') (h : Tracked s) : CommitsAlone s a s' <-> FindsToken s a := by
  cases a with
  | insert path now =>
      simp only [step, Option.ite_none_right_eq_some] at hstep
      have hnow := hstep.left
      constructor
      · intro halone fetch hfetch htime
        have hpath : fetch.path = path := htime.left
        have htoken := h.token fetch hfetch ⟨rfl, htime.right⟩
        rw [hpath] at htoken
        rcases s.buffer.insert_cases path (UInt32.ofNat now) with
          ⟨⟨token, hfound, hfresh⟩, _⟩ | ⟨_, hinserted, _⟩
        · rw [hfound, expectedToken] at htoken
          cases hout : fetch.outlived with
          | true => simp [hout] at htoken
          | false =>
              simp only [hout, Bool.false_eq_true, if_false, Option.some.injEq] at htoken
              subst htoken
              exact ⟨rfl, (h.not_expired_iff hnow hfetch htime).mp hfresh⟩
        · exact absurd htime (halone hinserted fetch hfetch)
      · intro hfinds hinserted fetch hfetch htime
        rcases hfinds fetch hfetch htime with ⟨hout, hordered⟩
        have hpath : fetch.path = path := htime.left
        have htoken := h.token fetch hfetch ⟨rfl, htime.right⟩
        rw [hpath, expectedToken, hout] at htoken
        have hfresh := (h.not_expired_iff hnow hfetch htime).mpr hordered
        rcases s.buffer.insert_cases path (UInt32.ofNat now) with
          ⟨_, hinsert⟩ | ⟨hexpired, _⟩
        · rw [hinsert] at hinserted
          cases hinserted
        · exact hfresh (hexpired _ htoken)
  | _ => exact Iff.rfl

/--
No fetch is committed beside one for the same path that is under way and in time
exactly when no request meets a fetch in time that was outlived by another one
for its path, or that was committed after the request had read the clock.
-/
theorem single_flight_iff (timeout : UInt32) (since : Nat) (actions : List FetchAction) :
    (forall s a s', (s, a, s') ∈ runFrom timeout since actions -> CommitsAlone s a s') <->
    forall s a s', (s, a, s') ∈ runFrom timeout since actions -> FindsToken s a :=
  Transition.good_iff_guarded step Tracked FindsToken CommitsAlone
    (fun _ _ _ hstep h hguard =>
      let halone := (commitsAlone_iff_findsToken hstep h).mpr hguard
      ⟨tracked_step hstep h halone, halone⟩)
    (fun _ _ _ hstep h halone => (commitsAlone_iff_findsToken hstep h).mp halone)
    actions (tracked_start timeout since)

section Example

/-- The request that read the clock first enters the buffer second. -/
private def lateRequest : List FetchAction :=
  [.get "/a", .tick 1, .get "/a", .insert "/a" 1, .insert "/a" 0]

theorem fetched_twice :
    ¬ forall (timeout : UInt32) (since : Nat) (actions : List FetchAction) (s : FetchSystem)
      (a : FetchAction) (s' : FetchSystem),
      (s, a, s') ∈ runFrom timeout since actions -> CommitsAlone s a s' := by
  intro h
  have hall : forall x, x ∈ runFrom 1000 0 lateRequest -> CommitsAlone x.1 x.2.1 x.2.2 :=
    fun x hx => h 1000 0 lateRequest x.1 x.2.1 x.2.2 hx
  revert hall
  decide

end Example

end FetchSystem

end FrProxy
