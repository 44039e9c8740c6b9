import FrProxy.Library.Cell
import FrProxy.RegistryCache.Stamps
import FrProxy.ServerHandler.CheckEvents

/-!
# What a check loses

The purge at the end of a check looks at time stamps only.  Whatever the scan
did not register again is dropped, also when the read that should have found it
failed.
-/

namespace FrProxy

/-!
## Events, seen from one endpoint
-/

def Env.registers (env : Env) (p : Endpoint) (service node : String) (data : NodeData) :
    Bool :=
  match env.readEndpoint data.data with
  | .error _ => false
  | .ok (host, port) =>
      RMap.accepts { name := service, host, port, mtime := 0, ephemeral := node } &&
        decide (({ name := service, host, port } : Endpoint) = p)

namespace Event

/-- The time stamp under which an event registers the endpoint. -/
def registration (env : Env) (p : Endpoint) : Event -> Option Nat
  | .instance_ service node rc data mtime =>
      if rc = zok ∧ env.registers p service node data = true then some mtime else none
  | .load v =>
      (v.reverse.find? fun r => RMap.accepts r && decide (r.endpoint = p)).map (·.mtime)
  | _ => none

/-- Whether an event drops the endpoint, cached with that time stamp. -/
def drops (p : Endpoint) : Event -> Nat -> Bool
  | .children .getService path rc nodes, _ =>
      decide (rc = zok ∧ nodes.length > 0 ∧ path = p.name)
  | .purge timestamp, mtime => decide (mtime < timestamp)
  | _, _ => false

theorem stampOf_onCache (env : Env) (p : Endpoint) (e : Event) (c : RegistryCache) :
    (e.onCache env c).stampOf p =
      Cell.after (registration env p) (drops p) (c.stampOf p) e := by
  cases e with
  | children type path rc nodes =>
      cases type with
      | getService =>
          simp only [onCache, Cell.after, registration, drops]
          by_cases hok : rc = zok ∧ nodes.length > 0
          · rw [if_pos hok, RegistryCache.stampOf_removeName]
            by_cases hpath : path = p.name
            · simp [hok.left, hok.right, hpath]
            · simp [hpath]
          · have hnot : ¬ (rc = zok ∧ nodes.length > 0 ∧ path = p.name) :=
              fun h => hok ⟨h.left, h.right.left⟩
            rw [if_neg hok]
            simp [hnot]
      | createEphereral => exact (Cell.after_idle rfl fun _ => rfl).symm
      | getServiceInstance => exact (Cell.after_idle rfl fun _ => rfl).symm
      | getRoot => exact (Cell.after_idle rfl fun _ => rfl).symm
  | instance_ service node rc data mtime =>
      simp only [onCache, Cell.after, registration, drops, Env.registers]
      by_cases hok : rc = zok
      · simp only [hok, if_true, true_and]
        cases env.readEndpoint data.data with
        | error stop => simp
        | ok endpoint =>
            simp only [RegistryCache.stampOf_add, Bool.and_eq_true, decide_eq_true_eq]
            have haccepts : RMap.accepts {
                name := service, host := endpoint.1, port := endpoint.2,
                ctime := data.ctime / 1000, mtime, ephemeral := node } =
              RMap.accepts {
                name := service, host := endpoint.1, port := endpoint.2, mtime := 0,
                ephemeral := node } := rfl
            rw [haccepts, Registry.endpoint]
            split
            · rfl
            · simp
      · simp [hok]
  | purge timestamp =>
      simp only [onCache, Cell.after, registration, drops, RegistryCache.stampOf_removeOverdue]
      congr 1
      funext mtime
      by_cases hlt : mtime < timestamp
      · simp [hlt]
      · simp [hlt, Nat.le_of_not_lt hlt]
  | load v =>
      simp only [onCache, Cell.after, registration, drops, RegistryCache.stampOf_load]
      cases v.reverse.find? fun r => RMap.accepts r && decide (r.endpoint = p) with
      | none => simp
      | some r => rfl
  | _ => exact (Cell.after_idle rfl fun _ => rfl).symm

def replay (env : Env) (events : List Event) (cache : RegistryCache) : RegistryCache :=
  events.foldl (fun cache e => e.onCache env cache) cache

theorem stampOf_replay (env : Env) (p : Endpoint) (events : List Event)
    (c : RegistryCache) :
    (replay env events c).stampOf p =
      events.foldl (Cell.after (registration env p) (drops p)) (c.stampOf p) := by
  unfold replay
  induction events generalizing c with
  | nil => rfl
  | cons e rest ih => rw [List.foldl_cons, List.foldl_cons, ih, stampOf_onCache]

end Event

/-!
## The trace explains the cache
-/

inductive CacheMove (env : Env) : World -> World -> Prop where
  | event {w w' : World} (e : Event) (htrace : w'.trace = w.trace ++ [e])
      (hcache : w'.cache = e.onCache env w.cache) : CacheMove env w w'
  | silent {w w' : World} (htrace : w'.trace = w.trace) (hcache : w'.cache = w.cache) :
      CacheMove env w w'

def Explained (env : Env) (w w' : World) : Prop :=
  exists events, w'.trace = w.trace ++ events ∧ w'.cache = Event.replay env events w.cache

theorem Explained.refl (env : Env) (w : World) : Explained env w w :=
  ⟨[], by simp, rfl⟩

theorem Explained.trans {env : Env} {u v w : World} (huv : Explained env u v)
    (hvw : Explained env v w) : Explained env u w := by
  rcases huv with ⟨first, htrace, hcache⟩
  rcases hvw with ⟨second, htrace', hcache'⟩
  refine ⟨first ++ second, ?_, ?_⟩
  · rw [htrace', htrace, List.append_assoc]
  · rw [hcache', hcache]
    unfold Event.replay
    rw [List.foldl_append]

theorem CacheMove.explained {env : Env} {w w' : World} (h : CacheMove env w w') :
    Explained env w w' := by
  cases h with
  | event e htrace hcache => exact ⟨[e], htrace, hcache⟩
  | silent htrace hcache => exact ⟨[], by simp [htrace], hcache⟩

theorem CacheMove.of_clientMove {env : Env} {c : ClientId} {w w' : World}
    (h : ClientMove env c w w') : CacheMove env w w' := by
  cases h with
  | event e he _ => exact CacheMove.event e he.trace he.cache
  | hangUp _ => exact CacheMove.silent rfl rfl
  | attach => exact CacheMove.silent rfl rfl
  | connect _ => exact CacheMove.silent rfl rfl
  | disconnect => exact CacheMove.silent rfl rfl

theorem Explained.of_steps {env : Env} {c : ClientId} {α : Type} {x : ZkM α}
    (hx : Program.Steps (ClientMove env c) x) {w w' : World} {a : α}
    (hrun : x w = Except.ok (a, w')) : Explained env w w' :=
  hx.relates (Explained.refl env) (fun _ _ _ => Explained.trans)
    (fun _ _ h => (CacheMove.of_clientMove h).explained) hrun

theorem CacheMove.of_ownMove {env : Env} {w w' : World} (h : OwnMove env w w') :
    CacheMove env w w' := by
  cases h with
  | event e htrace hcache _ => exact CacheMove.event e htrace hcache
  | clock htrace hcache _ => exact CacheMove.silent htrace hcache

theorem CacheMove.of_taskMove {env : Env} {c : ClientId} {w w' : World}
    (h : TaskMove env c w w') : CacheMove env w w' := by
  cases h with
  | client h => exact CacheMove.of_clientMove h
  | own h => exact CacheMove.of_ownMove h

namespace ServerHandler

open Program

variable {env : Env} {depth : Nat}

theorem mapPool_steps (f : ClientPool -> ClientPool) :
    Steps (CacheMove env) (mapPool f) :=
  Steps.modify fun _ => CacheMove.silent rfl rfl

theorem poolOpen_steps : Steps (CacheMove env) (ZkClient.poolOpen env depth) := by
  apply Steps.bind (mapPool_steps _)
  intro _
  apply Steps.bind (nowInMs_steps.mono fun _ _ => CacheMove.of_ownMove)
  intro now
  apply Steps.bind Steps.get
  intro w
  apply Steps.bind (mapPool_steps _)
  intro _
  cases (w.pool.openSection now).2 with
  | none => exact Steps.pure none
  | some c =>
      apply Steps.bind (nowInMs_steps.mono fun _ _ => CacheMove.of_ownMove)
      intro now
      apply Steps.bind (mapPool_steps _)
      intro _
      have hopen : Steps (ClientMove env c) (ZkClient.open_ env depth c) :=
        ZkClient.open_steps depth
      exact Steps.bind (hopen.mono fun _ _ => CacheMove.of_clientMove) fun _ =>
        Steps.pure (some c)

theorem check_steps : Steps (CacheMove env) (check env depth) := by
  apply Steps.bind poolOpen_steps
  intro opened
  cases opened with
  | none => exact loadIfEmpty_steps.mono fun _ _ => CacheMove.of_ownMove
  | some c =>
      have hcheck : Steps (TaskMove env c) (checkWith env depth c) := checkWith_steps
      apply Steps.bind (hcheck.mono fun _ _ => CacheMove.of_taskMove)
      intro _
      exact Steps.bind (mapPool_steps _) fun _ => mapPool_steps _

theorem check_explained {w w' : World} {u : PUnit}
    (hrun : check env depth w = Except.ok (u, w')) : Explained env w w' :=
  check_steps.relates (Explained.refl env) (fun _ _ _ => Explained.trans)
    (fun _ _ => CacheMove.explained) hrun

/-- The last registration of the endpoint was followed by no event that dropped it. -/
def Renewed (env : Env) (events : List Event) (cache : RegistryCache) (p : Endpoint) : Prop :=
  exists mtime, Cell.Holds (Event.registration env p) (Event.drops p) (cache.stampOf p)
    events mtime

theorem caches_iff_renewed {w w' : World} (h : Explained env w w') (p : Endpoint) :
    w'.cache.Caches p <-> Renewed env (happened w w') w.cache p := by
  rcases h with ⟨events, htrace, hcache⟩
  have hevents : happened w w' = events := happened_of_append htrace
  rw [hevents, RegistryCache.caches_iff_stampOf, hcache, Event.stampOf_replay,
    Option.isSome_iff_exists]
  unfold Renewed
  constructor
  · intro h
    rcases h with ⟨mtime, hstamp⟩
    exact ⟨mtime, Cell.foldl_after_eq_some.mp hstamp⟩
  · intro h
    rcases h with ⟨mtime, hholds⟩
    exact ⟨mtime, Cell.foldl_after_eq_some.mpr hholds⟩

/-!
## Answers that show an endpoint absent
-/

def Carries (env : Env) (data : NodeData) (p : Endpoint) : Prop :=
  env.readEndpoint data.data = Except.ok (p.host, p.port)

/--
The root was listed without the service of the endpoint, or the service was
listed, each listed instance was read, and none has the host and the port.
-/
def ShownAbsent (env : Env) (events : List Event) (p : Endpoint) : Prop :=
  (exists nodes, Event.children .getRoot root zok nodes ∈ events ∧
    forall node, node ∈ nodes -> root ++ "/" ++ node ≠ p.name) ∨
  (exists before nodes after,
    events = before ++ Event.children .getService p.name zok nodes :: after ∧
    forall node, node ∈ nodes -> exists data mtime,
      Event.instance_ p.name node zok data mtime ∈ after ∧ ¬ Carries env data p)

/-- The reading of the clock at a read that succeeded and carries the endpoint. -/
def finds (env : Env) (p : Endpoint) : Event -> Option Nat
  | .instance_ service node rc data mtime =>
      if rc = zok ∧ env.registers p service node data = true then some mtime else none
  | _ => none

/-- Whether the service of the endpoint was listed, with instances. -/
def lists (p : Endpoint) : Event -> Bool
  | .children .getService path rc nodes => decide (rc = zok ∧ nodes.length > 0 ∧ path = p.name)
  | _ => false

/-- The root was read with success, after which the check scans and purges. -/
def RootRead (events : List Event) : Prop :=
  Event.get root zok ∈ events

/--
The reading of the clock after the read of the root: `open` reads the clock
twice, and every read of an instance once.
-/
def scanTime (env : Env) (w : World) (events : List Event) : Nat :=
  env.clock (w.ticks + 2 + (events.takeWhile fun e => e ≠ .get root zok).countP Event.isRead) +
    (w.slept + 1)

section Kept

variable (env : Env) (w : World) (events : List Event) (p : Endpoint)

/--
The endpoint was read, and after that not read again nor its service listed; if
there was a scan, the clock had reached the time of the scan.
-/
def Refound : Prop :=
  exists before e after mtime, events = before ++ e :: after ∧ finds env p e = some mtime ∧
    (forall e', e' ∈ after -> finds env p e' = none ∧ lists p e' = false) ∧
    (RootRead events -> scanTime env w events ≤ mtime)

/--
The endpoint was not read, nor its service listed; if there was a scan, its entry
has a time stamp that is not before the time of the scan.
-/
def Unread : Prop :=
  (forall e, e ∈ events -> finds env p e = none ∧ lists p e = false) ∧
    (RootRead events -> exists r, r ∈ w.cache.list p.name ∧ r.endpoint = p ∧
      scanTime env w events ≤ r.mtime)

def Reloaded : Prop :=
  exists v r, Event.load v ∈ events ∧ r ∈ v ∧ RMap.accepts r = true ∧ r.endpoint = p

end Kept

/-!
## What is left of an endpoint
-/

section Left

variable {w w' : World} {p : Endpoint} {events : List Event}

/-- The last time stamp of the endpoint, if nothing but calls is looked at. -/
def lastStamp (env : Env) (p : Endpoint) (stamp : Option Nat) (events : List Event) : Option Nat :=
  events.foldl (Cell.after (finds env p) fun e _ => lists p e) stamp

theorem lastStamp_calls {stamp : Option Nat}
    (hcalls : forall e, e ∈ events -> e.isCall = true ∨ e = .get root zok ∨ e = .sleep) :
    events.foldl (Cell.after (Event.registration env p) (Event.drops p)) stamp =
      lastStamp env p stamp events := by
  unfold lastStamp
  apply List.foldl_ext
  intro cell e he
  rcases hcalls e he with hcall | rfl | rfl
  · cases e with
    | children type path rc nodes =>
        cases type with
        | _ => rfl
    | get path rc => cases hcall
    | sleep => cases hcall
    | purge timestamp => cases hcall
    | load v => cases hcall
    | _ => rfl
  · rfl
  · rfl

theorem lastStamp_append (stamp : Option Nat) (first second : List Event) :
    lastStamp env p stamp (first ++ second) =
      lastStamp env p (lastStamp env p stamp first) second :=
  List.foldl_append

theorem lastStamp_idle (hidle : forall e, e ∈ events -> finds env p e = none ∧ lists p e = false)
    (stamp : Option Nat) : lastStamp env p stamp events = stamp := by
  unfold lastStamp
  induction events with
  | nil => rfl
  | cons e rest ih =>
      rcases List.forall_mem_cons.mp hidle with ⟨⟨hfinds, hlists⟩, hrest⟩
      rw [List.foldl_cons, Cell.after_idle hfinds fun _ => hlists, ih hrest]

theorem kept_iff (hcached : w.cache.Caches p) :
    (exists mtime, lastStamp env p (w.cache.stampOf p) events = some mtime ∧
      (RootRead events -> scanTime env w events ≤ mtime)) <->
    Refound env w events p ∨ Unread env w events p := by
  constructor
  · intro h
    rcases h with ⟨mtime, hlast, hstamp⟩
    rcases Cell.foldl_after_eq_some.mp hlast with
      ⟨before, e, after, hsplit, hfinds, hafter⟩ | ⟨hstored, huntouched⟩
    · exact Or.inl ⟨before, e, after, mtime, hsplit, hfinds, hafter, hstamp⟩
    · refine Or.inr ⟨huntouched, fun hscanned => ?_⟩
      rcases RegistryCache.stampOf_eq_some.mp hstored with ⟨r, hr, hp, rfl⟩
      exact ⟨r, hr, hp, hstamp hscanned⟩
  · intro h
    rcases h with ⟨before, e, after, mtime, hsplit, hfinds, hafter, hstamp⟩ | ⟨huntouched, hstamp⟩
    · exact ⟨mtime, Cell.foldl_after_eq_some.mpr
        (Or.inl ⟨before, e, after, hsplit, hfinds, hafter⟩), hstamp⟩
    · have hkept : forall mtime, w.cache.stampOf p = some mtime ->
          lastStamp env p (w.cache.stampOf p) events = some mtime :=
        fun mtime hstored => Cell.foldl_after_eq_some.mpr (Or.inr ⟨hstored, huntouched⟩)
      by_cases hscanned : RootRead events
      · rcases hstamp hscanned with ⟨r, hr, hp, hle⟩
        have hstored := RegistryCache.stampOf_eq_some.mpr ⟨r, hr, hp, rfl⟩
        exact ⟨r.mtime, hkept _ hstored, fun _ => hle⟩
      · rcases hcached with ⟨r, hr, hp⟩
        have hstored := RegistryCache.stampOf_eq_some.mpr ⟨r, hr, hp, rfl⟩
        exact ⟨r.mtime, hkept _ hstored, fun h => absurd h hscanned⟩

theorem isSome_reloaded {rest : List Event}
    (hrest : forall e, e ∈ rest -> (exists rc, rc ≠ zok ∧ e = .get root rc) ∨ exists v, e = .load v)
    (stamp : Option Nat) :
    (rest.foldl (Cell.after (Event.registration env p) (Event.drops p)) stamp).isSome = true <->
      stamp.isSome = true ∨ Reloaded rest p := by
  induction rest generalizing stamp with
  | nil => simp [Reloaded]
  | cons e rest ih =>
      rcases List.forall_mem_cons.mp hrest with ⟨he, hrest⟩
      rw [List.foldl_cons, ih hrest]
      rcases he with ⟨rc, _, rfl⟩ | ⟨v, rfl⟩
      · rw [Cell.after_idle rfl fun _ => rfl]
        simp [Reloaded]
      · have hloads : Reloaded (.load v :: rest) p <->
            (exists r, r ∈ v ∧ RMap.accepts r = true ∧ r.endpoint = p) ∨ Reloaded rest p := by
          constructor
          · intro h
            rcases h with ⟨v', r, hload, hr⟩
            rcases List.mem_cons.mp hload with heq | hload
            · cases heq
              exact Or.inl ⟨r, hr⟩
            · exact Or.inr ⟨v', r, hload, hr⟩
          · intro h
            rcases h with ⟨r, hr⟩ | ⟨v', r, hload, hr⟩
            · exact ⟨v, r, List.mem_cons_self, hr⟩
            · exact ⟨v', r, List.mem_cons_of_mem _ hload, hr⟩
        rw [hloads]
        simp only [Cell.after, Event.registration, Event.drops]
        cases hfind : v.reverse.find? fun r => RMap.accepts r && decide (r.endpoint = p) with
        | none =>
            have hnot : ¬ exists r, r ∈ v ∧ RMap.accepts r = true ∧ r.endpoint = p := by
              intro h
              rcases h with ⟨r, hr, haccepted, hp⟩
              have hne := List.find?_eq_none.mp hfind r (List.mem_reverse.mpr hr)
              simp [haccepted, hp] at hne
            simp [hnot]
        | some r =>
            have hr : r ∈ v := List.mem_reverse.mp (List.mem_of_find?_eq_some hfind)
            have hp := List.find?_some hfind
            simp only [Bool.and_eq_true, decide_eq_true_eq] at hp
            exact iff_of_true (Or.inl rfl) (Or.inr (Or.inl ⟨r, hr, hp⟩))

/-- An endpoint that was cached is still cached by a read, by its time stamp or by the file. -/
theorem caches_after_check (hevents : CheckEvents env w (happened w w'))
    (hexplained : Explained env w w') (hcached : w.cache.Caches p) :
    w'.cache.Caches p <-> Refound env w (happened w w') p ∨ Unread env w (happened w w') p ∨
      Reloaded (happened w w') p := by
  rcases hexplained with ⟨events, htrace, hcache⟩
  rw [happened_of_append htrace] at hevents ⊢
  rw [<- or_assoc, <- kept_iff hcached, RegistryCache.caches_iff_stampOf, hcache,
    Event.stampOf_replay]
  cases hevents with
  | @fallback calls rest hcalls hrest =>
      have hunread : ¬ RootRead (calls ++ rest) := by
        intro h
        rcases List.mem_append.mp h with hmem | hmem
        · cases hcalls _ hmem
        · rcases hrest _ hmem with ⟨rc, hrc, heq⟩ | ⟨v, heq⟩
          · cases heq
            exact hrc rfl
          · cases heq
      have hidle : forall e, e ∈ rest -> finds env p e = none ∧ lists p e = false := by
        intro e he
        rcases hrest e he with ⟨rc, _, rfl⟩ | ⟨v, rfl⟩
        · exact ⟨rfl, rfl⟩
        · exact ⟨rfl, rfl⟩
      have hreloaded : Reloaded (calls ++ rest) p <-> Reloaded rest p := by
        constructor
        · intro h
          rcases h with ⟨v, r, hload, hr⟩
          rcases List.mem_append.mp hload with hmem | hmem
          · cases hcalls _ hmem
          · exact ⟨v, r, hmem, hr⟩
        · intro h
          rcases h with ⟨v, r, hload, hr⟩
          exact ⟨v, r, List.mem_append_right calls hload, hr⟩
      rw [List.foldl_append, isSome_reloaded hrest, hreloaded, lastStamp_append,
        lastStamp_idle hidle, lastStamp_calls fun e he => Or.inl (hcalls e he)]
      simp only [hunread, false_implies, and_true, Option.isSome_iff_exists]
  | @scanned calls reads hcalls hreads =>
      let body := calls ++ .get root zok :: .sleep :: reads
      let stamp := env.clock (w.ticks + 2 + calls.countP Event.isRead) + (w.slept + 1)
      have hbody : forall e, e ∈ body -> e.isCall = true ∨ e = .get root zok ∨ e = .sleep := by
        intro e he
        rcases List.mem_append.mp he with he | he
        · exact Or.inl (hcalls e he)
        · rcases List.mem_cons.mp he with rfl | he
          · exact Or.inr (Or.inl rfl)
          · rcases List.mem_cons.mp he with rfl | he
            · exact Or.inr (Or.inr rfl)
            · exact Or.inl (hreads e he)
      have hscanned : RootRead (body ++ [.purge stamp]) := by simp [RootRead, body]
      have htime : scanTime env w (body ++ [.purge stamp]) = stamp := by
        have hbefore : (body ++ [Event.purge stamp]).takeWhile
            (fun e => e ≠ Event.get root zok) = calls := by
          simp only [body, List.append_assoc]
          rw [List.takeWhile_append_of_pos, List.cons_append, List.takeWhile_cons_of_neg (by simp),
            List.append_nil]
          intro e he
          refine decide_eq_true fun heq => ?_
          rw [heq] at he
          cases hcalls _ he
        unfold scanTime
        rw [hbefore]
      have hnotReloaded : ¬ Reloaded (body ++ [.purge stamp]) p := by
        intro h
        rcases h with ⟨v, r, hload, _⟩
        rcases List.mem_append.mp hload with hmem | hmem
        · rcases hbody _ hmem with hcall | heq | heq
          · cases hcall
          · cases heq
          · cases heq
        · cases List.mem_singleton.mp hmem
      have hlast : lastStamp env p (w.cache.stampOf p) (body ++ [.purge stamp]) =
          lastStamp env p (w.cache.stampOf p) body := by
        rw [lastStamp_append, lastStamp_idle]
        intro e he
        rw [List.mem_singleton.mp he]
        exact ⟨rfl, rfl⟩
      show Option.isSome (List.foldl _ _ (body ++ [Event.purge stamp])) = true <->
        (exists mtime, lastStamp env p (w.cache.stampOf p) (body ++ [.purge stamp]) = some mtime ∧
          (RootRead (body ++ [.purge stamp]) -> scanTime env w (body ++ [.purge stamp]) ≤ mtime)) ∨
        Reloaded (body ++ [.purge stamp]) p
      rw [List.foldl_append, lastStamp_calls hbody, hlast, htime, Option.isSome_iff_exists]
      simp only [hscanned, hnotReloaded, or_false, forall_const, List.foldl_cons, List.foldl_nil,
        Cell.after_eq_some, Event.registration, Event.drops, reduceCtorEq, false_or, true_and,
        decide_eq_false_iff_not, Nat.not_lt]

end Left

/--
A check drops only what its answers show to be absent exactly when every cached
endpoint whose absence they do not show was read, late enough if there was a
scan; or was not looked at, and is stamped late enough if there was a scan; or
is in the recovery file that was loaded.
-/
theorem check_drops_absent_iff (env : Env) (depth : Nat) (w w' : World)
    (hrun : check env depth w = Except.ok (⟨⟩, w')) :
    (forall p, w.cache.Caches p -> ¬ w'.cache.Caches p ->
      ShownAbsent env (happened w w') p) <->
    forall p, w.cache.Caches p -> ¬ ShownAbsent env (happened w w') p ->
      Refound env w (happened w w') p ∨ Unread env w (happened w w') p ∨
        Reloaded (happened w w') p := by
  have hevents : CheckEvents env w (happened w w') := check_events hrun
  have hexplained : Explained env w w' := check_explained hrun
  constructor
  · intro hdrops p hp hundecided
    rw [<- caches_after_check hevents hexplained hp]
    by_contra hlost
    exact hundecided (hdrops p hp hlost)
  · intro hkept p hp hlost
    by_contra hundecided
    exact hlost ((caches_after_check hevents hexplained hp).mpr (hkept p hp hundecided))

section Example

/-- ZooKeeper connects and answers, but the listing of the root fails. -/
private def outage : Env where
  parse := fun _ => none
  zookeeperInit := fun _ => true
  zooWgetChildren := fun _ _ => (zconnectionloss, [])
  zooWget := fun _ _ => (zconnectionloss, {})
  zooCreate := fun _ _ => zconnectionloss
  zooGet := fun _ _ => zok
  clock := fun _ => 10
  cacheFile := none

private def known : Registry :=
  { name := "/soa/services/a", host := "h", port := 1, mtime := 5, ephemeral := "m1" }

/-- A proxy that just started, with one instance in its cache. -/
private def fresh : World where
  pool := ClientPool.start id
  cache := RegistryCache.empty.add known
  trace := []
  ticks := 0
  slept := 0

private def afterOutage : World :=
  match check outage 1 fresh with
  | .ok (_, w) => w
  | .error _ => fresh

private theorem run_outage : check outage 1 fresh = Except.ok (⟨⟩, afterOutage) := by
  have hok : (check outage 1 fresh).isOk = true := by decide
  unfold afterOutage
  cases hrun : check outage 1 fresh with
  | error stop =>
      rw [hrun] at hok
      cases hok
  | ok result => rfl

/-- One failed listing of the root empties the cache. -/
theorem check_drops_unread :
    ¬ forall (env : Env) (depth : Nat) (w w' : World),
      check env depth w = Except.ok (⟨⟩, w') ->
      forall p, w.cache.Caches p -> ¬ w'.cache.Caches p ->
        ShownAbsent env (happened w w') p := by
  intro h
  have hevents : happened fresh afterOutage =
      [.init true, .get root zok, .sleep, .children .getRoot root zconnectionloss [],
        .purge 11] := by decide
  have habsent := h outage 1 fresh afterOutage run_outage known.endpoint (by decide) (by decide)
  rw [hevents] at habsent
  rcases habsent with ⟨nodes, hmem, _⟩ | ⟨before, nodes, after, hsplit, _⟩
  · simp [zok, zconnectionloss] at hmem
  · have hmem : Event.children .getService known.endpoint.name zok nodes ∈
        before ++ Event.children .getService known.endpoint.name zok nodes :: after := by simp
    rw [<- hsplit] at hmem
    simp at hmem

theorem check_drops_absent_outage :
    (forall p, fresh.cache.Caches p -> ¬ afterOutage.cache.Caches p ->
      ShownAbsent outage (happened fresh afterOutage) p) <->
    forall p, fresh.cache.Caches p -> ¬ ShownAbsent outage (happened fresh afterOutage) p ->
      Refound outage fresh (happened fresh afterOutage) p ∨
        Unread outage fresh (happened fresh afterOutage) p ∨
        Reloaded (happened fresh afterOutage) p :=
  check_drops_absent_iff outage 1 fresh afterOutage run_outage

end Example

end ServerHandler

end FrProxy
