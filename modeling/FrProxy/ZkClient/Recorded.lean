import FrProxy.ZkClient.Foreign

/-!
# The recorded data of ephemeral znodes

The state of an ephemeral znode is never removed and keeps the data that it was
first saved with.  A client that restores its states creates every znode with
the data of its state, however deep its reconnections are nested.
-/

namespace FrProxy

open Program

def StateBag.enodeData (bag : StateBag) (path : String) : Option String :=
  (bag.get (createKey path .createEphereral)).map ZkState.data

abbrev World.enodeData (w : World) (path : String) : Option String :=
  w.pool.stateBag_.enodeData path

theorem StateBag.enodeData_giveTo (bag : StateBag) (f : ZkState -> Bool) (c : ClientId)
    (path : String) : (bag.giveTo f c).enodeData path = bag.enodeData path := by
  unfold enodeData
  rw [get_giveTo, Option.map_map]
  congr 1
  funext state
  dsimp only [Function.comp]
  split <;> rfl

theorem StateBag.enodeData_replaceClientIdOf (bag : StateBag) (key : String) (c : ClientId)
    (path : String) : (bag.replaceClientIdOf key c).enodeData path = bag.enodeData path :=
  bag.enodeData_giveTo _ c path

theorem Event.enodeData_create (c : ClientId) (absPath data : String) (rc : Int)
    (bag : StateBag) (path : String) :
    ((Event.create absPath data rc).onBag c bag).enodeData path =
      if absPath = path then some ((bag.enodeData path).getD data) else bag.enodeData path := by
  let state : ZkState := { clientId := c, type := .createEphereral, path := absPath, data }
  have hkey : state.key = createKey absPath .createEphereral := rfl
  have hadd : (bag.add state).enodeData path =
      if absPath = path then some ((bag.enodeData path).getD data) else bag.enodeData path := by
    unfold StateBag.enodeData
    rw [StateBag.get_add, hkey]
    by_cases hpath : absPath = path
    · rw [hpath, if_pos rfl, if_pos rfl]
      cases bag.get (createKey path .createEphereral) with
      | none => rfl
      | some old => rfl
    · rw [if_neg fun h => hpath (createKey_inj h).left, if_neg hpath]
  unfold onBag
  dsimp only
  split
  · rw [StateBag.enodeData_replaceClientIdOf]
    exact hadd
  · exact hadd

/-- The recorded data are as they were, and what was created has them. -/
structure Reproduces (w w' : World) : Prop where
  recorded : forall path, w'.enodeData path = w.enodeData path
  events : exists es, w'.trace = w.trace ++ es ∧
    forall path data rc, .create path data rc ∈ es -> w.enodeData path = some data

theorem reproduces_of_trace {w w' : World}
    (hdata : forall path, w'.enodeData path = w.enodeData path) (htrace : w'.trace = w.trace) :
    Reproduces w w' where
  recorded := hdata
  events := ⟨[], by rw [htrace, List.append_nil], fun _ _ _ h => absurd h List.not_mem_nil⟩

theorem reproduces_of_event {w w' : World} {e : Event}
    (hdata : forall path, w'.enodeData path = w.enodeData path) (htrace : w'.trace = w.trace ++ [e])
    (hcreate : forall path data rc, e ≠ .create path data rc) : Reproduces w w' where
  recorded := hdata
  events := by
    refine ⟨[e], htrace, ?_⟩
    intro path data rc hmem
    exact absurd (List.mem_singleton.mp hmem).symm (hcreate path data rc)

theorem Reproduces.refl (w : World) : Reproduces w w :=
  reproduces_of_trace (fun _ => rfl) rfl

theorem Reproduces.trans {u v w : World} (huv : Reproduces u v) (hvw : Reproduces v w) :
    Reproduces u w where
  recorded := fun path => (hvw.recorded path).trans (huv.recorded path)
  events := by
    rcases huv.events with ⟨es, htrace, hes⟩
    rcases hvw.events with ⟨es', htrace', hes'⟩
    refine ⟨es ++ es', ?_, ?_⟩
    · rw [htrace', htrace, List.append_assoc]
    · intro path data rc hmem
      rcases List.mem_append.mp hmem with hmem | hmem
      · exact hes path data rc hmem
      · rw [<- huv.recorded path]
        exact hes' path data rc hmem

structure Creates (path data : String) (rc : Int) (w w' : World) : Prop where
  recorded : forall other, w'.enodeData other =
    if path = other then some ((w.enodeData other).getD data) else w.enodeData other
  trace : w'.trace = w.trace ++ [.create path data rc, .watch path]

theorem Creates.reproduces {path data : String} {rc : Int} {w w' : World}
    (h : Creates path data rc w w') (hdata : w.enodeData path = some data) :
    Reproduces w w' where
  recorded := by
    intro other
    rw [h.recorded]
    split
    · rename_i heq
      rw [<- heq, hdata]
      rfl
    · rfl
  events := by
    refine ⟨_, h.trace, ?_⟩
    intro path' data' rc' hmem
    simp only [List.mem_cons, List.not_mem_nil, or_false, reduceCtorEq] at hmem
    cases hmem
    exact hdata

namespace ZkClient

open Frames

section Client

variable {env : Env} {c : ClientId}

theorem makeEnode_creates {absPath data : String} {w w' : World} {rc : Int}
    (hrun : makeEnode env c absPath data w = Except.ok (rc, w')) :
    Creates absPath data rc w w' := by
  rcases makeEnode_records hrun with ⟨v, hcreate, hwatch⟩
  constructor
  · intro other
    have hsame : w'.pool.stateBag_ = v.pool.stateBag_ := hwatch.bag
    show w'.pool.stateBag_.enodeData other = _
    rw [hsame, hcreate.bag]
    exact Event.enodeData_create c absPath data rc w.pool.stateBag_ other
  · rw [hwatch.trace, hcreate.trace]
    simp

/-!
## Frames
-/

def Frame.makes : Frame -> String -> String -> Prop
  | op (.enode absPath data), path, content => absPath = path ∧ data = content
  | resume (.enode absPath data), path, content => absPath = path ∧ data = content
  | _, _, _ => False

theorem Frame.body_reproduces_other {f : Frame} {r r' : Bool} {w w' : World} {frames : List Frame}
    (hnone : forall path, ¬ f.creates path)
    (hrun : f.body env c r w = Except.ok ((r', frames), w')) : Reproduces w w' := by
  rcases Frame.body_cases hrun with ⟨ptr, rest, state, _, _, hrecords, _⟩ | ⟨_, hplain⟩
  · apply reproduces_of_event ?_ hrecords.trace (by simp)
    intro path
    show w'.pool.stateBag_.enodeData path = _
    rw [hrecords.bag, Event.onBag, StateBag.enodeData_replaceClientIdOf]
  · rcases moves_replay (f.body_steps r _ _ _ hrun) with ⟨es, htrace, hbag⟩
    have hes : forall e path, e ∈ es -> e.key ≠ some (createKey path .createEphereral) := by
      intro e path he hkey
      exact hnone path (hplain.events e path (happened_of_append htrace ▸ he) hkey)
    constructor
    · intro path
      show (w'.pool.stateBag_.get _).map _ = (w.pool.stateBag_.get _).map _
      rw [hbag, replay_other (fun e he => hes e path he) fun e _ => e.removed_enode path]
    · refine ⟨es, htrace, ?_⟩
      intro path data rc hmem
      exact absurd rfl (hes _ path hmem)

theorem Frame.makes_creates {f : Frame} {path data : String} (h : f.makes path data) :
    f.creates path := by
  cases f with
  | op o =>
      cases o with
      | enode absPath content => exact h.left
      | _ => cases h
  | resume o =>
      cases o with
      | enode absPath content => exact h.left
      | _ => cases h
  | _ => cases h

theorem Frame.enode_of_creates {f : Frame} {path : String} (h : f.creates path) :
    exists data, f = .op (.enode path data) ∨ f = .resume (.enode path data) := by
  cases f with
  | op o =>
      cases o with
      | enode absPath data =>
          have hpath : absPath = path := h
          exact ⟨data, Or.inl (by rw [hpath])⟩
      | _ => cases h
  | resume o =>
      cases o with
      | enode absPath data =>
          have hpath : absPath = path := h
          exact ⟨data, Or.inr (by rw [hpath])⟩
      | _ => cases h
  | _ => cases h

theorem Frame.enode_cases {f : Frame} {path data : String}
    (hf : f = .op (.enode path data) ∨ f = .resume (.enode path data)) {r r' : Bool}
    {w w' : World} {frames : List Frame}
    (hrun : f.body env c r w = Except.ok ((r', frames), w')) :
    (frames = [] ∧ exists rc, Creates path data rc w w') ∨
    (frames = [.connect, .resume (.enode path data)] ∧ w' = w) ∨
    (frames = [] ∧ w' = { w with trace := w.trace ++ [.refused] }) := by
  have hmade : forall {v : World} {a : Bool} {list : List Frame},
      Op.body env c (.enode path data) w = Except.ok ((a, list), v) ->
      list = [] ∧ exists rc, Creates path data rc w v := by
    intro v a list hbody
    rcases bind_ok.mp hbody with ⟨rc, u, hmake, hpure⟩
    cases hpure
    exact ⟨rfl, rc, makeEnode_creates hmake⟩
  rcases hf with rfl | rfl
  · simp only [Frame.body, getConnected, bind_assoc, get_bind_run, pure_bind, ite_run] at hrun
    split at hrun
    · exact Or.inl (hmade hrun)
    · cases hrun
      exact Or.inr (Or.inl ⟨rfl, rfl⟩)
  · simp only [Frame.body, getConnected, hasHandle, log, bind_assoc, get_bind_run, pure_bind,
      ite_run, modify_bind_run, pure_run] at hrun
    split at hrun
    · exact Or.inl (hmade hrun)
    · cases hrun
      exact Or.inr (Or.inr ⟨rfl, rfl⟩)

theorem Frame.body_reproduces {f : Frame} {r r' : Bool} {w w' : World} {frames : List Frame}
    (hmakes : forall path data, f.makes path data -> w.enodeData path = some data)
    (hrun : f.body env c r w = Except.ok ((r', frames), w')) : Reproduces w w' := by
  by_cases hnone : forall path, ¬ f.creates path
  · exact Frame.body_reproduces_other hnone hrun
  · push Not at hnone
    rcases hnone with ⟨path, hcreates⟩
    rcases Frame.enode_of_creates hcreates with ⟨data, hf⟩
    have hdata : w.enodeData path = some data := by
      apply hmakes
      rcases hf with rfl | rfl
      · exact ⟨rfl, rfl⟩
      · exact ⟨rfl, rfl⟩
    rcases Frame.enode_cases hf hrun with ⟨_, rc, hmade⟩ | ⟨_, rfl⟩ | ⟨_, rfl⟩
    · exact hmade.reproduces hdata
    · exact Reproduces.refl _
    · exact reproduces_of_event (fun _ => rfl) rfl (by simp)

theorem restoreFrames_makes {w : World} {ptr : StatePtr} {state : ZkState} {f : Frame}
    {path data : String} (hderef : w.pool.stateBag_.deref ptr = some state)
    (hf : f ∈ restoreFrames state) (hmakes : f.makes path data) :
    w.enodeData path = some data := by
  have hkey := restoreFrames_creates hf (Frame.makes_creates hmakes)
  have hget := StateBag.get_of_deref hderef
  rw [<- StateBag.key_of_get hget, hkey] at hget
  rcases createKey_inj hkey with ⟨_, htype⟩
  unfold restoreFrames at hf
  rw [htype] at hf
  rw [List.mem_singleton.mp hf] at hmakes
  rcases hmakes with ⟨_, rfl⟩
  show (w.pool.stateBag_.get _).map _ = _
  rw [hget]
  rfl

/-- A frame puts no other creation in its place than its own, and those of recorded data. -/
theorem Frame.body_makes {f g : Frame} {r r' : Bool} {w w' : World} {frames : List Frame}
    (hrun : f.body env c r w = Except.ok ((r', frames), w')) (hg : g ∈ frames)
    {path data : String} (hmakes : g.makes path data) :
    f.makes path data ∨ w.enodeData path = some data := by
  rcases Frame.body_cases hrun with ⟨ptr, rest, state, _, hderef, _, hframes⟩ | ⟨_, hplain⟩
  · rw [hframes] at hg
    rcases List.mem_append.mp hg with hg | hg
    · exact Or.inr (restoreFrames_makes hderef hg hmakes)
    · rw [List.mem_singleton.mp hg] at hmakes
      cases hmakes
  · have hcreates := hplain.frames g path hg (Frame.makes_creates hmakes)
    rcases Frame.enode_of_creates hcreates with ⟨content, hf⟩
    rcases Frame.enode_cases hf hrun with ⟨hnil, _⟩ | ⟨hframes, _⟩ | ⟨hnil, _⟩
    · rw [hnil] at hg
      cases hg
    · rw [hframes] at hg
      apply Or.inl
      rcases List.mem_cons.mp hg with rfl | hg
      · cases hmakes
      · rw [List.mem_singleton.mp hg] at hmakes
        rcases hf with rfl | rfl
        · exact hmakes
        · exact hmakes
    · rw [hnil] at hg
      cases hg

/-!
## Runs
-/

/-- The run created nothing but what is recorded, and will go on so. -/
structure Faithful (w : World) (s : Running) : Prop where
  reproduces : Reproduces w s.state
  makes : forall f path data, f ∈ s.stack -> f.makes path data -> w.enodeData path = some data

theorem faithful_step {w : World} {s t : Running} (hstep : Step (Frame.body env c) s t)
    (h : Faithful w s) : Faithful w t := by
  cases hstep with
  | @frame f stack frames u u' r r' hbody =>
      have hsame : forall path data, w.enodeData path = some data <->
          u.enodeData path = some data := by
        intro path data
        rw [h.reproduces.recorded path]
      constructor
      · apply h.reproduces.trans
        apply Frame.body_reproduces ?_ hbody
        intro path data hmakes
        exact (hsame path data).mp (h.makes f path data List.mem_cons_self hmakes)
      · intro g path data hg hmakes
        dsimp only at hg
        rcases List.mem_append.mp hg with hg | hg
        · rcases Frame.body_makes hbody hg hmakes with hown | hrecorded
          · exact h.makes f path data List.mem_cons_self hown
          · exact (hsame path data).mpr hrecorded
        · exact h.makes g path data (List.mem_cons_of_mem _ hg) hmakes

theorem Framed.reproduces {α : Type} {r : Bool} {f : Frame} {x : ZkM α} {R : α -> Bool -> Prop}
    (h : Framed env c r [f] x R) (hnone : forall path data, ¬ f.makes path data) {w w' : World}
    {a : α} (hrun : x w = Except.ok (a, w')) : Reproduces w w' := by
  rcases Runs.returns h hrun with ⟨r', _, hreach⟩
  have hstart : Faithful w ⟨w, [f], r⟩ := by
    refine ⟨Reproduces.refl w, ?_⟩
    intro g path data hg hmakes
    rw [List.mem_singleton.mp hg] at hmakes
    exact absurd hmakes (hnone path data)
  have hend : Faithful w ⟨w', [], r'⟩ :=
    hreach.keeps (fun s t _ hstep => faithful_step hstep) hstart
  exact hend.reproduces

theorem connectZk_reproduces {depth : Nat} {w w' : World} {b : Bool}
    (hrun : connectZk env depth c w = Except.ok (b, w')) : Reproduces w w' :=
  Framed.reproduces (connectZk_framed depth false) (fun _ _ h => h) hrun

theorem Entry.run_reproduces {entry : Entry} {depth : Nat} {w w' : World} {u : PUnit}
    (hrun : entry.run env depth c w = Except.ok (u, w')) : Reproduces w w' := by
  apply Framed.reproduces (entry.run_framed depth) ?_ hrun
  intro path data hmakes
  cases entry with
  | _ => cases hmakes

theorem ready_reproduces {depth : Nat} {w w' : World} {b : Bool}
    (hrun : ready (connectZk env depth) c w = Except.ok (b, w')) : Reproduces w w' := by
  simp only [ready, getConnected, bind_assoc, get_bind_run, pure_bind, ite_run] at hrun
  split at hrun
  · cases hrun
    exact Reproduces.refl _
  · rcases bind_ok.mp hrun with ⟨a, v, hconnect, hrest⟩
    have hconnected := connectZk_reproduces hconnect
    simp only [hasHandle, log, bind_assoc, get_bind_run, pure_bind, ite_run, modify_bind_run]
      at hrest
    split at hrest
    · cases hrest
      exact hconnected
    · cases hrest
      exact hconnected.trans (reproduces_of_event (fun _ => rfl) rfl (by simp))

theorem open_reproduces {depth : Nat} {w w' : World} {b : Bool}
    (hrun : open_ env depth c w = Except.ok (b, w')) : Reproduces w w' := by
  simp only [open_, getConnected, bind_assoc, get_bind_run, pure_bind, ite_run] at hrun
  split at hrun
  · cases hrun
    exact Reproduces.refl _
  · exact connectZk_reproduces hrun

theorem enodeData_opened (env : Env) (w : World) (path : String) :
    (opened env w).1.stateBag_.enodeData path = w.enodeData path := by
  refine PoolSystem.openSection_pool (fun p => p.stateBag_.enodeData path = w.enodeData path)
    ?_ _ rfl
  intro s t hmove h
  cases hmove with
  | giveUp _ => exact (StateBag.enodeData_giveTo _ _ _ path).trans h
  | reuse _ => exact h
  | create => exact h
  | evict => exact (StateBag.enodeData_giveTo _ _ _ path).trans h

theorem poolOpen_reproduces {depth : Nat} {w w' : World} {result : Option ClientId}
    (hrun : poolOpen env depth w = Except.ok (result, w')) : Reproduces w w' := by
  rcases poolOpen_opens hrun with ⟨_, hnone, hsome⟩
  cases result with
  | none =>
      rcases hnone rfl with ⟨htrace, hpool⟩
      apply reproduces_of_trace ?_ htrace
      intro path
      rw [World.enodeData, hpool]
      exact enodeData_opened env w path
  | some c =>
      rcases hsome c rfl with ⟨v, now, b, htrace, hpool, hopen⟩
      apply Reproduces.trans ?_ (open_reproduces hopen)
      apply reproduces_of_trace ?_ htrace
      intro path
      rw [World.enodeData, hpool]
      exact enodeData_opened env w path

theorem close_reproduces {w w' : World} {u : PUnit}
    (hrun : close c w = Except.ok (u, w')) : Reproduces w w' := by
  simp only [close, mapPool, modify_bind_run, modify_run] at hrun
  cases hrun
  refine reproduces_of_trace (w := w) ?_ rfl
  intro path
  rcases (w.pool.setInUsing c false).onClientClosing_cases c with ⟨_, hclose⟩ | ⟨_, hclose⟩
  · dsimp only [World.enodeData]
    rw [hclose]
    rfl
  · dsimp only [World.enodeData]
    rw [hclose]
    exact StateBag.enodeData_giveTo _ _ _ path

end Client

end ZkClient

end FrProxy
