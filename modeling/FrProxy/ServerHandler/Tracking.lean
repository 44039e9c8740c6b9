import FrProxy.ServerHandler.Borrowing
import FrProxy.ServerHandler.Convergence

/-!
# Tasks on a fixed tree

A check against a fixed tree leaves a pool with one connected client and a cache
that equals the tree.  From then on no task opens another session, and each of
them returns and leaves the cache as it is.
-/

namespace FrProxy

open Program

/-!
## One client that is kept
-/

theorem Dated.later {env : Env} {w w' : World} (h : Dated (w.reading env) w.cache)
    (hclock : Monotone env.clock) (hlater : Later env w w') :
    Dated (w'.reading env) w'.cache := by
  intro name r hr
  have hname : r.name = name := (w'.cache.filed name).named r hr
  have hstamp : w'.cache.stampOf r.endpoint = some r.mtime :=
    by
    apply RegistryCache.stampOf_eq_some.mpr
    refine ⟨r, ?_, rfl, rfl⟩
    rw [show r.endpoint.name = r.name from rfl, hname]
    exact hr
  rcases hlater.stamps r.endpoint with hsame | hnone | ⟨mtime, hfresh, _, hhigh⟩
  · rw [hsame] at hstamp
    exact Nat.le_trans (h.stampOf hstamp) (hlater.reading hclock)
  · rw [hnone] at hstamp
    cases hstamp
  · rw [hfresh] at hstamp
    cases hstamp
    exact hhigh

theorem mtime_fileEntries {now : Nat -> Nat} {v : RVector} {r : Registry}
    (h : r ∈ RMap.fileEntries now v) : exists i, i < v.length ∧ r.mtime = now i := by
  induction v generalizing now with
  | nil => cases h
  | cons s rest ih =>
      cases h with
      | head => exact ⟨0, Nat.succ_pos _, rfl⟩
      | tail _ hrest =>
          rcases ih hrest with ⟨i, hi, hmtime⟩
          exact ⟨i + 1, Nat.succ_lt_succ hi, hmtime⟩

namespace ServerHandler

/-- The recovery file is missing, or can be read at any time. -/
def Readable (parse : String -> Option Json) (file : Option String) : Prop :=
  forall text, file = some text -> forall now, exists v, Registry.unserialize parse now text = .ok v

def Synced {parse : String -> Option Json} (t : ZkTree parse) (w : World) : Prop :=
  forall p, w.cache.Caches p <-> t.Contains root p

/--
ZooKeeper serves the tree: the services under the root have the instances of the
tree, nobody else has any, and a read of what is absent fails in whatever way.
-/
structure Publishes (env : Env) (t : ZkTree env.parse) : Prop extends
    Provides env t root True where
  absent : forall name n, name ∉ t.children ServerHandler.root ->
    (env.zooWgetChildren n (servicePath name)).1 = zok ->
      (env.zooWgetChildren n (servicePath name)).2 = []

/-- Between two tasks: the pool keeps one connected client, and the cache is the tree. -/
structure Tracking (env : Env) (t : ZkTree env.parse) (w : World) : Prop where
  resting : Resting w
  kept : exists c, w.pool.idle_ = [c] ∧ Live c w
  synced : Synced t w
  dated : Dated (w.reading env) w.cache

structure Borrowed (env : Env) (c : ClientId) (w : World) : Prop where
  lending : Lending c w
  live : Live c w
  dated : Dated (w.reading env) w.cache

section World

variable {env : Env} {t : ZkTree env.parse} {depth : Nat} {c : ClientId} {w w' : World}

theorem Borrowed.onward {gone : String -> Prop} (h : Borrowed env c w)
    (hclock : Monotone env.clock) (honward : Onward env c gone w w') (hlending : Lending c w') : Borrowed env c w' where
  lending := hlending
  live := honward.live
  dated := h.dated.later hclock honward.later

/-!
## Opening and closing
-/

def lentKept (p : ClientPool) (c : ClientId) : ClientPool :=
  let q := p.setInUsing c true
  { q with idle_ := [], using_ := ClientPool.insertClient q.addr c q.using_ }

theorem opened_kept (hrest : Resting w) (hidle : w.pool.idle_ = [c])
    (hconn : w.pool.getConnected c = true) :
    ZkClient.opened env w = (lentKept (w.pool.destroyClients false) c, some c) := by
  let p := w.pool.destroyClients false
  have hreuse : p.reuse p.idle_ = (lentKept p c, some c) := by
    rw [show p.idle_ = [c] from hidle, ClientPool.reuse,
      if_pos (show p.getConnected c = true from hconn)]
    rfl
  have hsize : (lentKept p c).size < (lentKept p c).maxClient_ := by
    have husing : p.using_ = [] := hrest.unused
    have hroom : 1 < (p.setInUsing c true).maxClient_ := hrest.room
    simpa [lentKept, ClientPool.size, ClientPool.insertClient, husing] using hroom
  rcases p.openSection_cases (env.clock w.ticks + w.slept) with
    ⟨hnone, _, _⟩ | ⟨hfull, _⟩ | ⟨_, hopen⟩
  · rw [hreuse] at hnone
    cases hnone
  · rw [hreuse] at hfull
    exact absurd hfull (Int.ne_of_lt hsize)
  · rw [hreuse] at hopen
    exact hopen

theorem poolOpen_run (hopened : (ZkClient.opened env w).2 = some c) :
    ZkClient.poolOpen env depth w =
      (do let _ <- ZkClient.open_ env depth c; return some c : ZkM (Option ClientId))
        (ZkClient.stamped env w c) := by
  unfold ZkClient.opened at hopened
  simp only [ZkClient.poolOpen, mapPool, nowInMs, bind_assoc, get_bind_run, modify_bind_run,
    pure_bind]
  rw [hopened]
  rfl

theorem poolOpen_live (hopened : (ZkClient.opened env w).2 = some c)
    (hconn : (ZkClient.stamped env w c).pool.getConnected c = true) :
    ZkClient.poolOpen env depth w = Except.ok (some c, ZkClient.stamped env w c) := by
  rw [poolOpen_run hopened]
  simp only [ZkClient.open_, ZkClient.getConnected, bind_assoc, pure_bind, get_bind_run, hconn,
    if_true]
  rfl

theorem poolOpen_tracking (hclock : Monotone env.clock) (h : Tracking env t w) :
    Returns (ZkClient.poolOpen env depth) w fun r w' => exists c, r = some c ∧
      Borrowed env c w' ∧ Synced t w' := by
  rcases h.kept with ⟨c, hidle, hlive⟩
  have hopened : ZkClient.opened env w = (lentKept (w.pool.destroyClients false) c, some c) :=
    opened_kept h.resting hidle hlive.left
  have hclients : (ZkClient.stamped env w c).pool.clients c = {
      w.pool.clients c with
      usingCounter := (w.pool.clients c).usingCounter + 1
      useTimes_ := (w.pool.clients c).useTimes_ + 1
      lastUse_ := env.clock (w.ticks + 1) + w.slept } := by
    simp [ZkClient.stamped, hopened, lentKept, ClientPool.stamp, ClientPool.setInUsing,
      ClientPool.updateClient, ClientPool.destroyClients]
  have hlive' : Live c (ZkClient.stamped env w c) := by
    constructor
    · exact (congrArg ZkClient.connected_ hclients).trans hlive.left
    · exact (congrArg ZkClient.zhandle_ hclients).trans hlive.right
  have hrun : ZkClient.poolOpen env depth w = Except.ok (some c, ZkClient.stamped env w c) :=
    poolOpen_live (by rw [hopened]) hlive'.left
  have hlater : Later env w (ZkClient.stamped env w c) :=
    ⟨Nat.le_add_right _ 2, Nat.le_refl _, fun _ => Or.inl rfl⟩
  have hlending : exists d, some c = some d ∧ Lending d (ZkClient.stamped env w c) :=
    open_lends.ok h.resting hrun
  rcases hlending with ⟨d, hd, hlending⟩
  cases hd
  exact ⟨_, _, hrun, c, rfl, ⟨hlending, hlive', h.dated.later hclock hlater⟩, h.synced⟩

theorem close_tracks (h : Borrowed env c w) (hsynced : Synced t w) :
    Returns (ZkClient.close c) w fun _ w' => Tracking env t w' := by
  have hclients : ((w.pool.setInUsing c false).onClientClosing c).clients c = {
      w.pool.clients c with usingCounter := (w.pool.clients c).usingCounter - 1 } := by
    simp [ClientPool.setInUsing, ClientPool.updateClient]
  have hidle : ((w.pool.setInUsing c false).onClientClosing c).idle_ = [c] := by
    have hconn : (w.pool.setInUsing c false).getConnected c = true := by
      rw [ClientPool.getConnected_setInUsing]
      exact h.live.left
    rcases (w.pool.setInUsing c false).onClientClosing_cases c with ⟨_, hclose⟩ | ⟨hdown, _⟩
    · rw [hclose]
      simp [h.lending.none, ClientPool.insertClient]
    · rw [hconn] at hdown
      cases hdown
  refine ⟨⟨⟩, { w with pool := (w.pool.setInUsing c false).onClientClosing c }, rfl, ?_⟩
  exact {
    resting := h.lending.close
    kept := ⟨c, hidle, (congrArg ZkClient.connected_ hclients).trans h.live.left,
      (congrArg ZkClient.zhandle_ hclients).trans h.live.right⟩
    synced := hsynced
    dated := h.dated }

theorem borrow_tracks {α : Type} (hclock : Monotone env.clock) (h : Tracking env t w)
    {task : Option ClientId -> ZkM α}
    (htask : forall c v, Borrowed env c v -> Synced t v ->
      Returns (task (some c)) v fun _ w' => Tracking env t w') :
    Returns (ZkClient.poolOpen env depth >>= task) w fun _ w' => Tracking env t w' := by
  apply Returns.bind (poolOpen_tracking hclock h)
  rintro r v ⟨c, rfl, hborrowed, hsynced⟩
  exact htask c v hborrowed hsynced

theorem use_tracks {α : Type} (hclock : Monotone env.clock) (h : Borrowed env c w)
    {x : ZkM α} (hlends : Lends c x)
    (hx : Returns x w fun _ w' => Onward env c (fun _ => True) w w' ∧ Synced t w') :
    Returns (x >>= fun _ => ZkClient.close c) w fun _ w' => Tracking env t w' := by
  apply Returns.bind (hx.avoids hlends h.lending)
  rintro _ v ⟨⟨honward, hsynced⟩, hlending⟩
  exact close_tracks (h.onward hclock honward hlending) hsynced

/-!
## The tasks
-/

theorem keepAwake_tracks (hclock : Monotone env.clock) (h : Tracking env t w) :
    Returns (keepAwake env depth) w fun _ w' => Tracking env t w' := by
  apply Returns.getBind
  rw [if_pos (show w.pool.using_.length = 0 by rw [h.resting.unused]; rfl)]
  exact borrow_tracks hclock h fun c v hborrowed hsynced => close_tracks hborrowed hsynced

theorem connStatus_tracks (hclock : Monotone env.clock) (h : Tracking env t w) :
    Returns (connStatus env depth) w fun _ w' => Tracking env t w' := by
  apply Returns.getBind
  split
  · exact Returns.pure h
  · apply borrow_tracks hclock h
    intro c v hborrowed hsynced
    refine Returns.bindOk (a := v.pool.getConnected c) (t := v) rfl ?_
    exact Returns.bind (close_tracks hborrowed hsynced) fun _ _ htracking => Returns.pure htracking

theorem status_tracks (hclock : Monotone env.clock) (h : Tracking env t w) (host : Host) :
    Returns (status env depth host) w fun _ w' => Tracking env t w' := by
  apply Returns.bind (connStatus_tracks hclock h)
  intro ret v htracking
  exact Returns.getBind (Returns.pure htracking)

theorem synced_of_scanned {name : String} (hname : name ∈ t.children root) (hsynced : Synced t w)
    (hscanned : Scanned env t [servicePath name] w w') : Synced t w' := by
  have hne : servicePath name ≠ "" := by
    intro hempty
    have hlength := congrArg String.length hempty
    simp [servicePath, root, String.length_append] at hlength
  intro p
  by_cases hp : p.name = servicePath name
  · by_cases hoffers : t.Offers p.name p
    · have hin : t.Contains root p := ⟨⟨name, hname, hp⟩, hoffers⟩
      rcases hscanned.offered p (List.mem_singleton.mpr hp) (hp ▸ hne) hoffers with
        ⟨mtime, hstamp, _⟩
      exact iff_of_true (RegistryCache.caches_iff_stampOf.mpr (by rw [hstamp]; rfl)) hin
    · have hout : ¬ t.Contains root p := fun h => hoffers h.right
      refine iff_of_false ?_ hout
      rw [RegistryCache.caches_iff_stampOf]
      rcases hscanned.dropped p hoffers with hgone | hsame
      · rw [hgone]
        exact Bool.false_ne_true
      · rw [hsame, <- RegistryCache.caches_iff_stampOf]
        exact fun h => hout ((hsynced p).mp h)
  · have hother : p.name ∉ [servicePath name] := fun h => hp (List.mem_singleton.mp h)
    rw [RegistryCache.caches_iff_stampOf, hscanned.others p hother,
      <- RegistryCache.caches_iff_stampOf]
    exact hsynced p

theorem fetchService_tracks (hpublishes : Publishes env t) (h : Tracking env t w)
    (name : String) :
    Returns (fetchService env depth (servicePath name)) w fun _ w' => Tracking env t w' := by
  apply borrow_tracks hpublishes.clock h
  intro c v hborrowed hsynced
  have hlends : Lends c
      (ZkClient.getService env (ZkClient.connectZk env depth) c (servicePath name)) :=
    lends_of_steps env (ZkClient.getService_steps (ZkClient.connectZk_steps depth) _)
  apply use_tracks hpublishes.clock hborrowed hlends
  by_cases hname : name ∈ t.children root
  · apply (ZkClient.getService_returns _ hpublishes.clock hborrowed.live
      (hpublishes.offered name hname)).mono
    intro _ w' hpost
    rcases hpost with ⟨_, honward, regs, hentries, hcache⟩
    exact ⟨honward, synced_of_scanned hname hsynced (ZkClient.scanned_of_loaded hentries hcache)⟩
  · apply (ZkClient.getService_absent (fun _ => True) hborrowed.live
      (fun n => (hpublishes.session n (servicePath name)).left) (Or.inl trivial)
      fun n => hpublishes.absent name n hname).mono
    intro _ w' hpost
    refine ⟨hpost.left, fun p => ?_⟩
    rw [hpost.right]
    exact hsynced p

theorem registerWith_keeps (hpublishes : Publishes env t) (hlive : Live c w) (hostname : String)
    (port : Int) : Returns (registerWith env depth hostname port c) w fun _ w' =>
      Onward env c (fun _ => True) w w' ∧ w'.cache = w.cache := by
  have hprovides := hpublishes.toProvides
  refine Returns.bindOk (a := true) (t := w) ?_ ?_
  · simp only [ZkClient.getConnected, get_bind_run, hlive.left]
    rfl
  rw [if_pos rfl]
  apply Returns.bind (ZkClient.createPnode_returns _ hprovides hlive _)
  intro _ u hpost
  rcases hpost with ⟨hu, hucache⟩
  apply Returns.bind (ZkClient.createPnode_returns _ hprovides hu.live _)
  intro _ v hpost
  rcases hpost with ⟨hv, hvcache⟩
  apply Returns.discard
  apply (ZkClient.createEnode_returns _ hprovides hv.live _ _).mono
  intro _ w' hpost
  rcases hpost with ⟨hw, hwcache⟩
  exact ⟨(hu.trans hprovides.clock hv).trans hprovides.clock hw,
    hwcache.trans (hvcache.trans hucache)⟩

theorem registerSelf_tracks (hpublishes : Publishes env t) (h : Tracking env t w)
    (hostname : String) (port : Int) :
    Returns (registerSelf env depth hostname port) w fun _ w' => Tracking env t w' := by
  apply borrow_tracks hpublishes.clock h
  intro c v hborrowed hsynced
  apply use_tracks hpublishes.clock hborrowed registerWith_lends
  apply (registerWith_keeps hpublishes hborrowed.live hostname port).mono
  intro _ w' hpost
  refine ⟨hpost.left, fun p => ?_⟩
  rw [hpost.right]
  exact hsynced p

/-!
## The check
-/

theorem scan_onward (hpublishes : Publishes env t) (hlive : Live c w)
    (hdated : Dated (w.reading env) w.cache) :
    Returns (scan env depth c) w fun _ w' => Live c w' ∧ Dated (w'.reading env) w'.cache := by
  let v : World := {
    w with trace := w.trace ++ [.sleep], ticks := w.ticks + 1, slept := w.slept + 1 }
  have hlater : Later env w v := ⟨Nat.le_succ _, Nat.le_succ _, fun _ => Or.inl rfl⟩
  have hall : Returns (ZkClient.getAllServices env (ZkClient.connectZk env depth) c root) v
      fun _ u => Onward env c (fun _ => True) v u :=
    (ZkClient.getAllServices_returns _ hpublishes.toProvides (w := v) hlive).mono
      fun _ _ h => h.left
  refine Returns.bindOk (a := ⟨⟩) (t := { v with ticks := w.ticks }) rfl
    (Returns.bindOk (a := env.clock w.ticks + (w.slept + 1)) (t := v) rfl ?_)
  apply Returns.bind hall
  intro _ u honward
  refine ⟨⟨⟩, _, rfl, honward.live, ?_⟩
  intro name r hr
  rw [RegistryCache.list_removeOverdue] at hr
  have hdated' := (hdated.later hpublishes.clock hlater).later hpublishes.clock honward.later
  exact hdated' name r (List.mem_of_mem_filter hr)

theorem checkWith_tracks (hpublishes : Publishes env t) (h : Borrowed env c w) :
    Returns (checkWith env depth c) w fun _ w' => Borrowed env c w' ∧ Synced t w' := by
  have hlends : Lends c (checkWith env depth c) :=
    checkWith_steps.avoids fun _ _ => TaskMove.lending
  have hbody : Returns (checkWith env depth c) w fun _ w' =>
      (Live c w' ∧ Dated (w'.reading env) w'.cache) ∧ Synced t w' := by
    apply Returns.bind (ZkClient.check_returns hpublishes.toProvides h.live)
    rintro _ v ⟨rfl, honward⟩
    rw [if_pos rfl]
    have hdated := h.dated.later hpublishes.clock honward.later
    apply (scan_onward hpublishes honward.live hdated).and
    exact scan_returns hpublishes.toProvides depth honward.live fun p mtime hstamp => hdated.stampOf hstamp
  apply (hbody.avoids hlends h.lending).mono
  rintro _ w' ⟨⟨⟨hlive, hdated⟩, hsynced⟩, hlending⟩
  exact ⟨⟨hlending, hlive, hdated⟩, hsynced⟩

/-- A check of a pool at rest brings the server in step, whatever is in the cache. -/
theorem check_tracks (hpublishes : Publishes env t) (hrest : Resting w)
    (hdated : Dated (w.reading env) w.cache) :
    Returns (check env (depth + 1)) w fun _ w' => Tracking env t w' := by
  have hroom : (w.pool.using_.length : Int) < w.pool.maxClient_ := by
    have hroom := hrest.room
    rw [hrest.unused, List.length_nil]
    omega
  have hopen := poolOpen_returns hpublishes.toProvides depth hroom fun c _ => hrest.attached c
  apply Returns.bind (hopen.avoids open_lends hrest)
  rintro r v ⟨⟨c, rfl, hlive, hlater⟩, d, hd, hlending⟩
  cases hd
  have hborrowed : Borrowed env c v := ⟨hlending, hlive, hdated.later hpublishes.clock hlater⟩
  apply Returns.bind (checkWith_tracks hpublishes hborrowed)
  rintro _ u ⟨hborrowed, hsynced⟩
  exact close_tracks hborrowed hsynced

/-!
## The reset
-/

theorem fromFile_dates (hclock : Monotone env.clock) (hfile : Readable env.parse env.cacheFile)
    (hdated : Dated (w.reading env) w.cache) :
    Returns (fromFile env) w fun _ w' => Dated (w'.reading env) w'.cache := by
  unfold fromFile
  cases htext : env.cacheFile with
  | none => exact Returns.pure hdated
  | some text =>
      let now := fun i => env.clock (w.ticks + i) + w.slept
      rcases hfile text htext (now 0) with ⟨v, hread⟩
      have htime : forall i, i ≤ v.length -> now i ≤ now v.length := fun i hi =>
        Nat.add_le_add_right (hclock (Nat.add_le_add_left hi _)) _
      apply Returns.getBind
      dsimp only
      rw [hread]
      refine ⟨⟨⟩, _, rfl, ?_⟩
      apply Dated.load
      · intro name r hr
        exact Nat.le_trans (hdated name r hr) (htime 0 (Nat.zero_le _))
      · intro r hr
        rcases mtime_fileEntries hr with ⟨i, hi, hmtime⟩
        rw [hmtime]
        exact htime i (Nat.le_of_lt hi)

theorem warm_tracks (hpublishes : Publishes env t) (hfile : Readable env.parse env.cacheFile)
    (hrest : Resting w) (hdated : Dated (w.reading env) w.cache) :
    Returns (warm env (depth + 1)) w fun _ w' => Tracking env t w' := by
  have hload := fromFile_dates hpublishes.clock hfile hdated
  apply Returns.bind (hload.avoids (rests_of_own fromFile_steps) hrest)
  rintro _ v ⟨hdated', hrest'⟩
  exact check_tracks hpublishes hrest' hdated'

/-!
## Events without news
-/

/-- The session is up, and no znode has changed. -/
def NoNews (type : ZkEventType) (state : Int) : Prop :=
  (type = .session ∨ type = .notWatching) ∧ state ≠ expiredSessionState

/-- Without news a watcher opens and closes a client, or does nothing at all. -/
theorem NoNews.call_cases {type : ZkEventType} {state : Int} (hnews : NoNews type state)
    (env : Env) (depth : Nat) (callback : WatchCallback) (path : Option String) :
    callback.call env depth type state path = pure ⟨⟩ ∨
      exists watcher p, callback.call env depth type state path =
          Watcher.callback env depth watcher type p ∧
        forall c, Watcher.onEvent env depth watcher type p c = pure ⟨⟩ := by
  cases callback with
  | createEnode =>
      left
      cases path with
      | none => rfl
      | some path =>
          have hquiet : ¬ (state = expiredSessionState ∨ type = .deleted) := by
            intro hevent
            rcases hevent with hexpired | rfl
            · exact hnews.right hexpired
            · rcases hnews.left with heq | heq
              · cases heq
              · cases heq
          exact if_neg hquiet
  | reading watcher =>
      cases path with
      | none => exact Or.inl rfl
      | some path =>
          refine Or.inr ⟨watcher, path, rfl, fun c => ?_⟩
          rcases hnews.left with rfl | rfl
          · rfl
          · rfl
  | global => exact Or.inl rfl

theorem call_tracks (hclock : Monotone env.clock) (h : Tracking env t w)
    (callback : WatchCallback) {type : ZkEventType} {state : Int} (hnews : NoNews type state)
    (path : Option String) :
    Returns (callback.call env depth type state path) w fun _ w' => Tracking env t w' := by
  rcases hnews.call_cases env depth callback path with hnothing | ⟨watcher, p, hcall, hnothing⟩
  · rw [hnothing]
    exact Returns.pure h
  · rw [hcall]
    apply borrow_tracks hclock h
    intro c v hborrowed hsynced
    dsimp only
    rw [hnothing]
    exact Returns.bindOk rfl (close_tracks hborrowed hsynced)

end World

end ServerHandler

end FrProxy
