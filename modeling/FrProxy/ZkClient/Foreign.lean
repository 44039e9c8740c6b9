import FrProxy.Watcher.Rearm
import FrProxy.ZkClient.Visits

/-!
# The states of ephemeral znodes

A client takes over its own states and those without a client, and nothing but a
creation saves the state of an ephemeral znode.  So the state of a znode that
another client created stays with that client.
-/

namespace FrProxy

open Program

/-- The state is there, with this client or without one. -/
def StateBag.HeldBy (bag : StateBag) (c : ClientId) (key : String) : Prop :=
  exists d, bag.ownerOf key = some d ∧ (d = 0 ∨ d = c)

/-!
## States that a client holds
-/

theorem Event.gives_of_some {c d : ClientId} {key : String} {e : Event}
    (h : e.gives c key = some d) : d = 0 ∨ d = c := by
  cases e with
  | takeOver k =>
      simp only [gives, Option.ite_none_right_eq_some, Option.some.injEq] at h
      exact Or.inr h.right.symm
  | children type path rc nodes =>
      simp only [gives, Option.ite_none_right_eq_some, Option.some.injEq] at h
      exact Or.inr h.right.symm
  | instance_ service node rc data mtime =>
      simp only [gives, Option.ite_none_right_eq_some, Option.some.injEq] at h
      exact Or.inr h.right.symm
  | create path data rc =>
      simp only [gives, Option.ite_none_right_eq_some, Option.some.injEq] at h
      rcases h with ⟨_, hd⟩
      split at hd
      · exact Or.inl hd.symm
      · exact Or.inr hd.symm
  | _ => cases h

theorem Event.removes_enode (e : Event) (path : String) :
    e.removes (createKey path .createEphereral) = false := by
  cases e with
  | children type service rc nodes =>
      cases type with
      | getService =>
          have hne : createKey service .getService ≠ createKey path .createEphereral :=
            createKey_ne (by decide)
          simp [removes, hne]
      | _ => rfl
  | instance_ service node rc data mtime =>
      have hne : createKey service .getServiceInstance ≠ createKey path .createEphereral :=
        createKey_ne (by decide)
      simp [removes, hne]
  | _ => rfl

theorem Event.removed_enode (e : Event) (path : String) :
    e.removed ≠ some (createKey path .createEphereral) := by
  intro h
  cases e with
  | children type service rc nodes =>
      simp only [removed, Option.ite_none_right_eq_some, Option.some.injEq] at h
      exact createKey_ne (by decide) h.right
  | instance_ service node rc data mtime =>
      simp only [removed, Option.ite_none_right_eq_some, Option.some.injEq] at h
      exact createKey_ne (by decide) h.right
  | _ => cases h

theorem held_of_moves {env : Env} {c : ClientId} {path : String} {w w' : World}
    (hmoves : Relation.ReflTransGen (ClientMove env c) w w')
    (h : w.pool.stateBag_.HeldBy c (createKey path .createEphereral)) :
    w'.pool.stateBag_.HeldBy c (createKey path .createEphereral) := by
  induction hmoves with
  | refl => exact h
  | tail _ hmove ih =>
      rcases ih with ⟨d, howner, hd⟩
      cases hmove with
      | event e he henabled =>
          cases hgives : e.gives c (createKey path .createEphereral) with
          | none =>
              refine ⟨d, ?_, hd⟩
              rw [he.bag, Event.ownerOf_onBag henabled, Cell.after_eq_some]
              exact Or.inr ⟨howner, hgives, e.removes_enode path⟩
          | some d' =>
              refine ⟨d', ?_, Event.gives_of_some hgives⟩
              rw [he.bag, Event.ownerOf_onBag henabled, Cell.after_eq_some]
              exact Or.inl hgives
      | hangUp _ => exact ⟨d, howner, hd⟩
      | attach => exact ⟨d, howner, hd⟩
      | connect _ => exact ⟨d, howner, hd⟩
      | disconnect => exact ⟨d, howner, hd⟩

/-!
## States of others
-/

structure Untouched (key : String) (w w' : World) : Prop where
  state : w'.pool.stateBag_.get key = w.pool.stateBag_.get key
  events : exists es, w'.trace = w.trace ++ es ∧ forall e, e ∈ es -> e.key ≠ some key

theorem Untouched.refl (key : String) (w : World) : Untouched key w w where
  state := rfl
  events := ⟨[], (List.append_nil _).symm, fun _ h => absurd h List.not_mem_nil⟩

theorem Untouched.trans {key : String} {u v w : World} (huv : Untouched key u v)
    (hvw : Untouched key v w) : Untouched key u w where
  state := hvw.state.trans huv.state
  events := by
    rcases huv.events with ⟨es, htrace, hes⟩
    rcases hvw.events with ⟨es', htrace', hes'⟩
    refine ⟨es ++ es', ?_, ?_⟩
    · rw [htrace', htrace, List.append_assoc]
    · intro e he
      rcases List.mem_append.mp he with he | he
      · exact hes e he
      · exact hes' e he

namespace ZkClient

open Frames

section Foreign

variable {env : Env} {c : ClientId} {path : String}

theorem untouched_of_records {e : Event} {w w' : World} (h : Records env c e w w')
    (hkey : e.key ≠ some (createKey path .createEphereral)) :
    Untouched (createKey path .createEphereral) w w' where
  state := by
    rw [h.bag]
    exact get_onBag_other hkey (e.removed_enode path)
  events := by
    refine ⟨[e], h.trace, ?_⟩
    intro e' he'
    rw [List.mem_singleton.mp he']
    exact hkey

theorem restoreFrames_creates {state : ZkState} {f : Frame} (hf : f ∈ restoreFrames state)
    (hcreates : f.creates path) : state.key = createKey path .createEphereral := by
  unfold restoreFrames at hf
  cases htype : state.type with
  | createEphereral =>
      rw [htype] at hf
      rw [List.mem_singleton.mp hf] at hcreates
      have hpath : state.path = path := hcreates
      unfold ZkState.key
      rw [hpath, htype]
  | getService =>
      rw [htype] at hf
      rw [List.mem_singleton.mp hf] at hcreates
      cases hcreates
  | getServiceInstance =>
      rw [htype] at hf
      dsimp only at hf
      cases hsplit : splitPath state.path with
      | none =>
          rw [hsplit] at hf
          cases hf
      | some parts =>
          rw [hsplit] at hf
          rw [List.mem_singleton.mp hf] at hcreates
          cases hcreates
  | getRoot =>
      rw [htype] at hf
      rw [List.mem_singleton.mp hf] at hcreates
      cases hcreates

/-- The run leaves the state alone, and will go on to. -/
structure Apart (path : String) (w : World) (s : Running) : Prop where
  untouched : Untouched (createKey path .createEphereral) w s.state
  pending : forall ptr, ptr ∈ pending s.stack -> ptr.key ≠ createKey path .createEphereral
  creates : forall f, f ∈ s.stack -> ¬ f.creates path

theorem pending_cons (f : Frame) (stack : List Frame) :
    pending (f :: stack) = f.waiting ++ pending stack :=
  List.flatMap_cons

theorem Apart.visit {w u u' : World} {ptr : StatePtr} {rest : List StatePtr}
    {stack : List Frame} {r r' : Bool} {state : ZkState}
    (h : Apart path w ⟨u, .states (ptr :: rest) :: stack, r⟩)
    (hderef : u.pool.stateBag_.deref ptr = some state)
    (hrecords : Records env c (.takeOver ptr.key) u u') :
    Apart path w ⟨u', restoreFrames state ++ [.states rest] ++ stack, r'⟩ := by
  have hptr : ptr.key ≠ createKey path .createEphereral :=
    h.pending ptr (List.mem_append_left _ List.mem_cons_self)
  refine ⟨h.untouched.trans (untouched_of_records hrecords ?_), ?_, ?_⟩
  · exact fun hkey => hptr (Option.some.inj hkey)
  · intro other hother
    apply h.pending
    dsimp only at hother ⊢
    rw [pending_append, pending_restored] at hother
    rw [pending_cons]
    rcases List.mem_append.mp hother with hmem | hmem
    · exact List.mem_append_left _ (List.mem_cons_of_mem ptr hmem)
    · exact List.mem_append_right _ hmem
  · intro g hg
    dsimp only at hg
    rcases List.mem_append.mp hg with hg | hg
    · rcases List.mem_append.mp hg with hg | hg
      · intro hcreates
        apply hptr
        rw [<- restoreFrames_creates hg hcreates]
        exact (StateBag.key_of_get (StateBag.get_of_deref hderef)).symm
      · rw [List.mem_singleton.mp hg]
        exact fun hcreates => hcreates
    · exact h.creates g (List.mem_cons_of_mem _ hg)

theorem Apart.plain {w u u' : World} {f : Frame} {stack frames : List Frame} {r r' : Bool}
    (h : Apart path w ⟨u, f :: stack, r⟩)
    (hforeign : ¬ w.pool.stateBag_.HeldBy c (createKey path .createEphereral))
    (hmoves : Relation.ReflTransGen (ClientMove env c) u u')
    (hplain : Plain c f.creates u u' frames) : Apart path w ⟨u', frames ++ stack, r'⟩ := by
  have htop := h.creates f List.mem_cons_self
  have huntouched : Untouched (createKey path .createEphereral) w u' := by
    rcases moves_replay hmoves with ⟨es, htrace, hbag⟩
    have hes : forall e, e ∈ es -> e.key ≠ some (createKey path .createEphereral) := by
      intro e he hkey
      exact htop (hplain.events e path (happened_of_append htrace ▸ he) hkey)
    refine h.untouched.trans ⟨?_, es, htrace, hes⟩
    rw [hbag]
    exact replay_other hes fun e _ => e.removed_enode path
  refine ⟨huntouched, ?_, ?_⟩
  · intro ptr hptr hkey
    dsimp only at hptr
    rw [pending_append] at hptr
    rcases List.mem_append.mp hptr with hmem | hmem
    · rcases hplain.listed ptr hmem with ⟨d, hd, hlisted⟩
      rcases StateBag.deref_of_mem_getList hlisted with ⟨state, hderef, hclient⟩
      have hget := StateBag.get_of_deref hderef
      rw [hkey, huntouched.state] at hget
      apply hforeign
      refine ⟨d, ?_, hd.symm⟩
      unfold StateBag.ownerOf
      rw [hget, <- hclient]
      rfl
    · refine h.pending ptr ?_ hkey
      dsimp only
      rw [pending_cons]
      exact List.mem_append_right _ hmem
  · intro g hg hcreates
    dsimp only at hg
    rcases List.mem_append.mp hg with hg | hg
    · exact htop (hplain.frames g path hg hcreates)
    · exact h.creates g (List.mem_cons_of_mem _ hg) hcreates

theorem apart_step {w : World} {s t : Running} (hstep : Step (Frame.body env c) s t)
    (hforeign : ¬ w.pool.stateBag_.HeldBy c (createKey path .createEphereral))
    (h : Apart path w s) : Apart path w t := by
  cases hstep with
  | @frame f stack frames u u' r r' hbody =>
      rcases Frame.body_cases hbody with
        ⟨ptr, rest, state, rfl, hderef, hrecords, rfl⟩ | ⟨_, hplain⟩
      · exact h.visit hderef hrecords
      · exact h.plain hforeign (f.body_steps r _ _ _ hbody) hplain

theorem connectZk_untouched {depth : Nat} {w w' : World} {b : Bool}
    (hforeign : ¬ w.pool.stateBag_.HeldBy c (createKey path .createEphereral))
    (hrun : connectZk env depth c w = Except.ok (b, w')) :
    Untouched (createKey path .createEphereral) w w' := by
  rcases (connectZk_framed depth false).returns hrun with ⟨r, _, hreach⟩
  have hstart : Apart path w ⟨w, [.connect], false⟩ := by
    refine ⟨Untouched.refl _ w, fun ptr hptr => absurd hptr List.not_mem_nil, ?_⟩
    intro f hf
    rw [List.mem_singleton.mp hf]
    exact fun hcreates => hcreates
  have hend : Apart path w ⟨w', [], r⟩ :=
    hreach.keeps (fun s t _ hstep => apart_step hstep hforeign) hstart
  exact hend.untouched

end Foreign

end ZkClient

end FrProxy
