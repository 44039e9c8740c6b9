import FrProxy.ZkClient.Replay

/-!
# Reconnecting again and again

A state of an instance is restored under a path with one slash more than it was
saved with.  So the bag keeps its keys over many reconnections exactly when
restoring it reads no instance.
-/

namespace FrProxy

open Program

/-!
## What an event does to one state
-/

namespace Event

def key : Event -> Option String
  | .takeOver key => some key
  | .children type path _ _ => some (createKey path type)
  | .instance_ service node _ _ _ =>
      some (createKey (service ++ "/" ++ node) .getServiceInstance)
  | .create path _ _ => some (createKey path .createEphereral)
  | _ => none

end Event

namespace StateBag

variable {bag : StateBag} {key : String}

theorem get_add_other {state : ZkState} (hne : state.key ≠ key) :
    (bag.add state).get key = bag.get key := by
  rw [get_add, if_neg hne]

theorem get_add_same (bag : StateBag) (state : ZkState) (hkey : state.key = key) :
    exists found, (bag.add state).get key = some found ∧ found.clientId = state.clientId := by
  rw [get_add, if_pos hkey]
  cases bag.get key with
  | none => exact ⟨state, rfl, rfl⟩
  | some old => exact ⟨_, rfl, rfl⟩

theorem get_remove_other {k : String} (hne : k ≠ key) : (bag.remove k).get key = bag.get key := by
  rw [get_remove, if_neg hne]

end StateBag

namespace ZkClient

section OneEvent

variable {c : ClientId} {e : Event} {bag : StateBag} {key : String}

theorem get_onBag_other (hkey : e.key ≠ some key) (hremoved : e.removed ≠ some key) :
    (e.onBag c bag).get key = bag.get key := by
  cases e with
  | takeOver k =>
      unfold Event.onBag
      rw [StateBag.get_replaceClientIdOf, if_neg fun h => hkey (congrArg some h)]
  | children type path rc nodes =>
      have hadd : (bag.add { clientId := c, type, path, data := "" }).get key = bag.get key :=
        StateBag.get_add_other fun h => hkey (congrArg some h)
      unfold Event.onBag
      dsimp only
      split
      · rename_i hgone
        rw [StateBag.get_remove_other, hadd]
        intro h
        exact hremoved ((if_pos hgone).trans (congrArg some h))
      · exact hadd
  | instance_ service node rc data mtime =>
      have hadd : (bag.add {
          clientId := c
          type := .getServiceInstance
          path := service ++ "/" ++ node }).get key = bag.get key :=
        StateBag.get_add_other fun h => hkey (congrArg some h)
      unfold Event.onBag
      dsimp only
      split
      · rename_i hgone
        rw [StateBag.get_remove_other, hadd]
        intro h
        exact hremoved ((if_pos hgone).trans (congrArg some h))
      · exact hadd
  | create path data rc =>
      have hne : ¬ createKey path .createEphereral = key := fun h => hkey (congrArg some h)
      have hadd : (bag.add { clientId := c, type := .createEphereral, path, data }).get key =
          bag.get key := StateBag.get_add_other hne
      unfold Event.onBag
      dsimp only
      split
      · rw [StateBag.get_replaceClientIdOf, if_neg hne, hadd]
      · exact hadd
  | _ => rfl

theorem get_onBag_same (hkey : e.key = some key) (hremoved : e.removed ≠ some key)
    (hknown : forall k, e = .takeOver k -> (bag.get key).isSome = true) :
    exists state, (e.onBag c bag).get key = some state ∧
      (state.clientId = c ∨ (state.clientId = 0 ∧ state.type = .createEphereral)) := by
  cases e with
  | takeOver k =>
      cases hkey
      rcases Option.isSome_iff_exists.mp (hknown key rfl) with ⟨old, hold⟩
      refine ⟨{ old with clientId := c }, ?_, Or.inl rfl⟩
      unfold Event.onBag
      rw [StateBag.get_replaceClientIdOf, if_pos rfl, hold]
      rfl
  | children type path rc nodes =>
      rcases StateBag.get_add_same bag { clientId := c, type, path } (Option.some.inj hkey) with
        ⟨found, hfound, hclient⟩
      refine ⟨found, ?_, Or.inl hclient⟩
      unfold Event.onBag
      dsimp only
      split
      · rename_i hgone
        rw [StateBag.get_remove_other, hfound]
        intro h
        exact hremoved ((if_pos hgone).trans (congrArg some h))
      · exact hfound
  | instance_ service node rc data mtime =>
      rcases StateBag.get_add_same bag {
        clientId := c
        type := .getServiceInstance
        path := service ++ "/" ++ node } (Option.some.inj hkey) with ⟨found, hfound, hclient⟩
      refine ⟨found, ?_, Or.inl hclient⟩
      unfold Event.onBag
      dsimp only
      split
      · rename_i hgone
        rw [StateBag.get_remove_other, hfound]
        intro h
        exact hremoved ((if_pos hgone).trans (congrArg some h))
      · exact hfound
  | create path data rc =>
      rcases StateBag.get_add_same bag { clientId := c, type := .createEphereral, path, data }
        (Option.some.inj hkey) with ⟨found, hfound, hclient⟩
      unfold Event.onBag
      dsimp only
      split
      · refine ⟨{ found with clientId := 0 }, ?_, Or.inr ⟨rfl, ?_⟩⟩
        · rw [StateBag.get_replaceClientIdOf, if_pos (Option.some.inj hkey), hfound]
          rfl
        · have hsame := StateBag.key_of_get hfound
          rw [<- Option.some.inj hkey] at hsame
          exact (createKey_inj hsame).right
      · exact ⟨found, hfound, Or.inl hclient⟩
  | _ => cases hkey

theorem get_onBag_removed (hremoved : e.removed = some key) : (e.onBag c bag).get key = none := by
  cases e with
  | children type path rc nodes =>
      unfold Event.removed at hremoved
      unfold Event.onBag
      dsimp only at hremoved ⊢
      split at hremoved
      · rename_i hgone
        rw [if_pos hgone, StateBag.get_remove, if_pos (Option.some.inj hremoved)]
      · cases hremoved
  | instance_ service node rc data mtime =>
      unfold Event.removed at hremoved
      unfold Event.onBag
      dsimp only at hremoved ⊢
      split at hremoved
      · rename_i hgone
        rw [if_pos hgone, StateBag.get_remove, if_pos (Option.some.inj hremoved)]
      · cases hremoved
  | _ => cases hremoved

theorem get_onBag_cases {state : ZkState} (h : (e.onBag c bag).get key = some state) :
    (e.key ≠ some key ∧ bag.get key = some state) ∨
      (e.key = some key ∧
        (state.clientId = c ∨ (state.clientId = 0 ∧ state.type = .createEphereral))) := by
  have hkept : e.removed ≠ some key := by
    intro hremoved
    rw [get_onBag_removed hremoved] at h
    cases h
  by_cases hkey : e.key = some key
  · have hknown : forall k, e = .takeOver k -> (bag.get key).isSome = true := by
      intro k heq
      cases hget : bag.get key with
      | some old => rfl
      | none =>
          rw [heq, Event.onBag, StateBag.get_replaceClientIdOf, hget] at h
          split at h <;> cases h
    rcases get_onBag_same (c := c) hkey hkept hknown with ⟨found, hfound, hclient⟩
    rw [h] at hfound
    cases hfound
    exact Or.inr ⟨hkey, hclient⟩
  · rw [get_onBag_other hkey hkept] at h
    exact Or.inl ⟨hkey, h⟩

theorem isSome_onBag_same (hkey : e.key = some key) (hremoved : e.removed ≠ some key)
    (hknown : forall k, e = .takeOver k -> (bag.get key).isSome = true) :
    ((e.onBag c bag).get key).isSome = true := by
  rcases get_onBag_same (c := c) hkey hremoved hknown with ⟨found, hfound, _⟩
  rw [hfound]
  rfl

theorem isSome_onBag (hremoved : e.removed ≠ some key) (h : (bag.get key).isSome = true) :
    ((e.onBag c bag).get key).isSome = true := by
  by_cases hkey : e.key = some key
  · exact isSome_onBag_same hkey hremoved fun _ _ => h
  · rw [get_onBag_other hkey hremoved]
    exact h

end OneEvent

/-!
## Paths with one slash more
-/

theorem length_of_splitPath {path service node : String}
    (h : splitPath path = some (service, node)) :
    (service ++ "/" ++ node).length = path.length + 1 ∧ service.length < path.length := by
  rcases splitPath_append h with ⟨rfl, hnode⟩
  have hslash : ("/" : String).length = 1 := rfl
  rw [String.length_append, String.length_append, String.length_append, hslash]
  omega

theorem splitPath_isSome {path : String} (h : '/' ∈ path.toList) :
    exists service node, splitPath path = some (service, node) := by
  unfold splitPath
  dsimp only
  cases hinit : path.toList.reverse.dropWhile fun ch => ch != '/' with
  | nil =>
      have hall := List.dropWhile_eq_nil_iff.mp hinit '/' (List.mem_reverse.mpr h)
      simp at hall
  | cons slash rest => exact ⟨_, _, rfl⟩

theorem slash_mem_join (service node : String) : '/' ∈ (service ++ "/" ++ node).toList := by
  rw [String.toList_append, String.toList_append]
  exact List.mem_append_left _ (List.mem_append_right _ List.mem_cons_self)

/-!
## Which states the events are about
-/

section Run

variable {c : ClientId} {bag : StateBag} {es : List Event} {key : String}

theorem replay_other (hkey : forall e, e ∈ es -> e.key ≠ some key)
    (hremoved : forall e, e ∈ es -> e.removed ≠ some key) :
    (replay c bag es).get key = bag.get key := by
  apply replay_keeps (I := fun b => b.get key = bag.get key)
  · intro e b he hb
    rw [get_onBag_other (hkey e he) (hremoved e he), hb]
  · rfl

theorem replay_back {state : ZkState} (h : (replay c bag es).get key = some state)
    (hkey : forall e, e ∈ es -> e.key ≠ some key) :
    bag.get key = some state ∧ forall e, e ∈ es -> e.removed ≠ some key := by
  induction es generalizing bag with
  | nil => exact ⟨h, fun _ he => absurd he List.not_mem_nil⟩
  | cons e rest ih =>
      rcases ih h fun e' he' => hkey e' (List.mem_cons_of_mem _ he') with ⟨hget, hrest⟩
      constructor
      · rcases get_onBag_cases hget with hold | hnew
        · exact hold.right
        · exact absurd hnew.left (hkey e List.mem_cons_self)
      · intro e' he' hremoved
        rcases List.mem_cons.mp he' with rfl | he'
        · rw [get_onBag_removed hremoved] at hget
          cases hget
        · exact hrest e' he' hremoved

/-- The client restores the state: it is the client's own, or nobody has it. -/
def RestoredBy (c : ClientId) (state : ZkState) : Prop :=
  state.clientId = c ∨ state.clientId = 0

theorem restored_key {es₁ es₂ : List Event}
    (hown : forall ptr, ptr ∈ bag.getList c -> Event.takeOver ptr.key ∈ es₁)
    (hfree : forall ptr, ptr ∈ (replay c bag es₁).getList 0 -> Event.takeOver ptr.key ∈ es₂)
    {state : ZkState} (h : bag.get key = some state) (hstate : RestoredBy c state)
    (hkept : forall e, e ∈ es₁ -> e.removed ≠ some key) :
    exists e, e ∈ es₁ ++ es₂ ∧ e.key = some key := by
  by_cases htouched : exists e, e ∈ es₁ ∧ e.key = some key
  · rcases htouched with ⟨e, he, hkey⟩
    exact ⟨e, List.mem_append_left _ he, hkey⟩
  · have hother : forall e, e ∈ es₁ -> e.key ≠ some key :=
      fun e he hkey => htouched ⟨e, he, hkey⟩
    rcases hstate with hclient | hclient
    · rcases StateBag.exists_mem_getList h hclient with ⟨ptr, hptr, rfl⟩
      exact ⟨_, List.mem_append_left _ (hown ptr hptr), rfl⟩
    · rw [<- replay_other (c := c) hother hkept] at h
      rcases StateBag.exists_mem_getList h hclient with ⟨ptr, hptr, rfl⟩
      exact ⟨_, List.mem_append_right _ (hfree ptr hptr), rfl⟩

theorem issued_of_key {t : ZkPaths} (hcomplete : Complete es)
    (hanswered : forall e, e ∈ es -> t.Answered e) {e : Event} (he : e ∈ es) {state : ZkState}
    (hkey : e.key = some state.key) (htype : state.type ≠ .getServiceInstance) :
    state.Issued es := by
  cases e with
  | takeOver k =>
      have hreplayed : state.Replayed es := by
        apply hcomplete.taken
        rw [<- Option.some.inj hkey]
        exact he
      unfold ZkState.Replayed at hreplayed
      unfold ZkState.Issued
      cases hcase : state.type with
      | getServiceInstance => exact absurd hcase htype
      | _ =>
          rw [hcase] at hreplayed
          exact hreplayed
  | children type path rc nodes =>
      rcases createKey_inj (Option.some.inj hkey) with ⟨hpath, hcase⟩
      have hlisted : Listed type path es := ⟨rc, nodes, he⟩
      have hkind : type = .getService ∨ type = .getRoot := (hanswered _ he).left
      unfold ZkState.Issued
      rw [<- hcase, <- hpath]
      rcases hkind with rfl | rfl
      · exact hlisted
      · exact hlisted
  | instance_ service node rc data mtime =>
      exact absurd (createKey_inj (Option.some.inj hkey)).right.symm htype
  | create path data rc =>
      rcases createKey_inj (Option.some.inj hkey) with ⟨hpath, hcase⟩
      unfold ZkState.Issued
      rw [<- hcase, <- hpath]
      exact ⟨data, rc, he⟩
  | _ => cases hkey

end Run

/-!
## Restoring without instances
-/

def ReadsNone (t : ZkPaths) (state : ZkState) : Prop :=
  match state.type with
  | .createEphereral => True
  | .getService => t.children state.path = []
  | .getServiceInstance => False
  | .getRoot => forall node, node ∈ t.children state.path ->
      t.children (state.path ++ "/" ++ node) = []

/-- Restoring the bag reads no instance, and the paths that it is about exist. -/
def Calm (t : ZkPaths) (c : ClientId) (bag : StateBag) : Prop :=
  forall key state, bag.get key = some state -> RestoredBy c state ->
    ReadsNone t state ∧ t.present state.path

/-- The keys of the states to restore, and of the services under their roots. -/
def Reach (t : ZkPaths) (c : ClientId) (bag : StateBag) (key : String) : Prop :=
  (exists state, bag.get key = some state ∧ RestoredBy c state) ∨
    exists k root node, bag.get k = some root ∧ RestoredBy c root ∧ root.type = .getRoot ∧
      node ∈ t.children root.path ∧ key = createKey (root.path ++ "/" ++ node) .getService

def CalmEvent (t : ZkPaths) (c : ClientId) (bag : StateBag) (e : Event) : Prop :=
  t.Answered e ∧ forall key, e.key = some key -> Reach t c bag key

section CalmRun

variable {env : Env} {t : ZkPaths} {c : ClientId} {bag : StateBag} {w : World}
variable {reconnect : ClientId -> ZkM Bool}

theorem ReadsNone.congr {state state' : ZkState} (h : ReadsNone t state)
    (hkey : state'.key = state.key) : ReadsNone t state' := by
  rcases createKey_inj hkey with ⟨hpath, htype⟩
  unfold ReadsNone at h ⊢
  rw [hpath, htype]
  exact h

theorem Calm.reach (hcalm : Calm t c bag) (state : ZkState) (h : Reach t c bag state.key) :
    ReadsNone t state ∧ t.present state.path := by
  rcases h with hstate | hchild
  · rcases hstate with ⟨found, hget, hrestored⟩
    have hkey := StateBag.key_of_get hget
    rcases hcalm _ found hget hrestored with ⟨hnone, hpresent⟩
    refine ⟨hnone.congr hkey.symm, ?_⟩
    rw [(createKey_inj hkey.symm).left]
    exact hpresent
  · rcases hchild with ⟨k, root, node, hget, hrestored, htype, hnode, hkey⟩
    rcases createKey_inj hkey with ⟨hpath, hservice⟩
    rcases hcalm k root hget hrestored with ⟨hnone, hpresent⟩
    unfold ReadsNone at hnone ⊢
    rw [htype] at hnone
    rw [hservice, hpath]
    exact ⟨hnone node hnode, t.closed root.path node hpresent hnode⟩

theorem Calm.not_instance (hcalm : Calm t c bag) (state : ZkState)
    (h : Reach t c bag state.key) : state.type ≠ .getServiceInstance := by
  intro htype
  have hnone := (hcalm.reach state h).left
  unfold ReadsNone at hnone
  rw [htype] at hnone
  exact hnone

theorem Calm.no_instance (hcalm : Calm t c bag) {service node : String} {rc : Int}
    {data : NodeData} {mtime : Nat}
    (h : CalmEvent t c bag (.instance_ service node rc data mtime)) : False :=
  hcalm.not_instance { type := .getServiceInstance, path := service ++ "/" ++ node }
    (h.right _ rfl) rfl

theorem Calm.children_nil (hcalm : Calm t c bag) {service : String} {rc : Int}
    {nodes : List String} (h : CalmEvent t c bag (.children .getService service rc nodes)) :
    rc = zok ∧ nodes = [] := by
  have hreach := hcalm.reach { type := .getService, path := service } (h.right _ rfl)
  have hok : rc = zok := h.left.right.left.mpr hreach.right
  exact ⟨hok, (h.left.right.right hok).trans hreach.left⟩

theorem Calm.not_deletes (hcalm : Calm t c bag) {e : Event} (h : CalmEvent t c bag e) :
    ¬ e.Deletes := by
  intro hdeletes
  cases e with
  | children type path rc nodes =>
      rcases hdeletes with ⟨rfl, hnone⟩
      have hok := (hcalm.children_nil h).left
      rw [hnone] at hok
      exact absurd hok (by decide)
  | instance_ service node rc data mtime => exact hcalm.no_instance h
  | _ => exact hdeletes

theorem Calm.admits (hcalm : Calm t c bag) (stop : Stop) :
    Admits t stop (CalmEvent t c bag) where
  answered := fun _ h => h.left
  watch := fun _ => ⟨trivial, fun _ h => nomatch h⟩
  instances := by
    intro service nodes node rc data mtime h hnode _
    rw [(hcalm.children_nil h).right] at hnode
    exact absurd hnode List.not_mem_nil
  services := by
    intro root nodes node rc nodes' h hnode hanswered
    refine ⟨hanswered, ?_⟩
    intro key hkey
    rcases h.right _ rfl with hstate | hchild
    · rcases hstate with ⟨state, hget, hrestored⟩
      rcases createKey_inj (StateBag.key_of_get hget) with ⟨hpath, htype⟩
      refine Or.inr ⟨_, state, node, hget, hrestored, htype, ?_, ?_⟩
      · rw [hpath, <- h.left.right.right rfl]
        exact hnode
      · rw [hpath]
        exact (Option.some.inj hkey).symm
    · rcases hchild with ⟨_, _, _, _, _, _, _, heq⟩
      exact absurd (createKey_inj heq).right (by decide)
  reads := fun _ _ _ _ _ h => (hcalm.no_instance h).elim

theorem Calm.starts (hcalm : Calm t c bag) {state : ZkState} (h : Reach t c bag state.key) :
    CalmEvent t c bag (.takeOver state.key) ∧ Starts t (CalmEvent t c bag) state := by
  constructor
  · refine ⟨trivial, ?_⟩
    intro key hkey
    exact Option.some.inj hkey ▸ h
  · unfold Starts
    unfold ZkState.key at h
    cases htype : state.type with
    | getServiceInstance => exact absurd htype (hcalm.not_instance state h)
    | createEphereral =>
        rw [htype] at h
        exact fun data rc => ⟨trivial, fun key hkey => Option.some.inj hkey ▸ h⟩
    | getService =>
        rw [htype] at h
        exact fun rc nodes hanswered => ⟨hanswered, fun key hkey => Option.some.inj hkey ▸ h⟩
    | getRoot =>
        rw [htype] at h
        exact fun rc nodes hanswered => ⟨hanswered, fun key hkey => Option.some.inj hkey ▸ h⟩

structure Restored (t : ZkPaths) (c : ClientId) (bag : StateBag) (es : List Event) : Prop where
  calm : forall e, e ∈ es -> CalmEvent t c bag e
  complete : Complete es
  keyed : forall key state, bag.get key = some state -> RestoredBy c state ->
    exists e, e ∈ es ∧ e.key = some key

theorem Calm.kept (hcalm : Calm t c bag) {e : Event} (he : CalmEvent t c bag e) (key : String) :
    e.removed ≠ some key := by
  rw [Event.removed_of_not_deletes (hcalm.not_deletes he)]
  exact fun h => nomatch h

theorem reach_onBag {e : Event} (he : CalmEvent t c bag e) {b : StateBag}
    (hb : forall key state, b.get key = some state -> RestoredBy c state -> Reach t c bag key) :
    forall key state, (e.onBag c b).get key = some state -> RestoredBy c state ->
      Reach t c bag key := by
  intro key state hget hrestored
  rcases get_onBag_cases hget with hold | hnew
  · exact hb key state hold.right hrestored
  · exact he.right key hnew.left

theorem Calm.restoreStates_returns (reconnect : ClientId -> ZkM Bool) (ht : t.Answers env)
    (hlive : Live c w)
    (hcalm : Calm t c w.pool.stateBag_) :
    Returns (restoreStates env reconnect c) w fun _ w' => exists es, Goes c es w w' ∧
      Restored t c w.pool.stateBag_ es := by
  have hrun : forall stop, Emits stop c (CalmEvent t c w.pool.stateBag_)
      (restoreStates env reconnect c) w fun _ es => exists es₁ es₂, es = es₁ ++ es₂ ∧
        Complete es ∧
        (forall ptr, ptr ∈ w.pool.stateBag_.getList c -> Event.takeOver ptr.key ∈ es₁) ∧
        forall ptr, ptr ∈ (replay c w.pool.stateBag_ es₁).getList 0 ->
          Event.takeOver ptr.key ∈ es₂ := by
    intro stop
    apply restoreStates_emits ht (hcalm.admits stop) hlive
      (I := fun b => forall key state, b.get key = some state -> RestoredBy c state ->
        Reach t c w.pool.stateBag_ key)
    · exact fun e b he hb => reach_onBag he hb
    · intro key state hget hclient
      have hreach : Reach t c w.pool.stateBag_ key := Or.inl ⟨state, hget, Or.inl hclient⟩
      rw [<- StateBag.key_of_get hget] at hreach ⊢
      exact hcalm.starts hreach
    · intro b key state hb hget hclient
      have hreach := hb key state hget (Or.inr hclient)
      rw [<- StateBag.key_of_get hget] at hreach ⊢
      exact hcalm.starts hreach
    · exact fun _ e he => hcalm.not_deletes he
    · exact fun key state hget hrestored => Or.inl ⟨state, hget, hrestored⟩
  apply (Emits.returns hrun).mono
  intro _ w' h
  rcases h with ⟨es, hgoes, hcalmEvents, es₁, es₂, rfl, hcomplete, hown, hfree⟩
  refine ⟨es₁ ++ es₂, hgoes, hcalmEvents, hcomplete, ?_⟩
  intro key state hget hrestored
  apply restored_key hown hfree hget hrestored
  exact fun e he => hcalm.kept (hcalmEvents e (List.mem_append_left _ he)) key

section Consequences

variable {es : List Event} (hcalm : Calm t c bag) (h : Restored t c bag es)

include hcalm h

theorem Restored.issued {key : String} {state : ZkState} (hget : bag.get key = some state)
    (hrestored : RestoredBy c state) : state.Issued es := by
  rcases h.keyed key state hget hrestored with ⟨e, he, hkey⟩
  rw [<- StateBag.key_of_get hget] at hkey
  apply issued_of_key h.complete (fun e he => (h.calm e he).left) he hkey
  apply hcalm.not_instance state
  rw [StateBag.key_of_get hget]
  exact Or.inl ⟨state, hget, hrestored⟩

theorem Restored.isSome {key : String} (hget : (bag.get key).isSome = true) :
    ((replay c bag es).get key).isSome = true := by
  apply replay_keeps (I := fun b => (b.get key).isSome = true)
  · exact fun e b he hb => isSome_onBag (hcalm.kept (h.calm e he) key) hb
  · exact hget

omit hcalm in
theorem Restored.reach {key : String} (hget : ((replay c bag es).get key).isSome = true) :
    (bag.get key).isSome = true ∨ Reach t c bag key := by
  by_cases htouched : exists e, e ∈ es ∧ e.key = some key
  · rcases htouched with ⟨e, he, hkey⟩
    exact Or.inr ((h.calm e he).right key hkey)
  · rcases Option.isSome_iff_exists.mp hget with ⟨state, hstate⟩
    have hback := replay_back hstate fun e he hkey => htouched ⟨e, he, hkey⟩
    rw [hback.left]
    exact Or.inl rfl

omit hcalm in
theorem Restored.keyed_after {key : String} {state : ZkState}
    (hget : (replay c bag es).get key = some state) (hrestored : RestoredBy c state) :
    exists e, e ∈ es ∧ e.key = some key := by
  by_contra hnone
  have hback := replay_back hget fun e he hkey => hnone ⟨e, he, hkey⟩
  exact hnone (h.keyed key state hback.left hrestored)

theorem Restored.calm_after : Calm t c (replay c bag es) := by
  intro key state hget hrestored
  rcases h.keyed_after hget hrestored with ⟨e, he, hkey⟩
  have hreach := (h.calm e he).right key hkey
  rw [<- StateBag.key_of_get hget] at hreach
  exact hcalm.reach state hreach

theorem Restored.settled {key : String} (hreach : Reach t c (replay c bag es) key) :
    ((replay c bag es).get key).isSome = true := by
  rcases hreach with hstate | hchild
  · rcases hstate with ⟨state, hget, _⟩
    rw [hget]
    rfl
  · rcases hchild with ⟨k, root, node, hget, hrestored, htype, hnode, rfl⟩
    rcases h.keyed_after hget hrestored with ⟨e, he, hkey⟩
    rw [<- StateBag.key_of_get hget] at hkey
    have hreach := (h.calm e he).right root.key hkey
    have hissued := issued_of_key h.complete (fun e he => (h.calm e he).left) he hkey
      (hcalm.not_instance root hreach)
    unfold ZkState.Issued at hissued
    rw [htype] at hissued
    rcases hissued with ⟨rc, nodes, hlist⟩
    have hanswered := (h.calm _ hlist).left
    have hok : rc = zok := hanswered.right.left.mpr (hcalm.reach root hreach).right
    subst hok
    rw [<- hanswered.right.right rfl] at hnode
    rcases h.complete.services root.path nodes node hlist hnode with ⟨rc, nodes', hservice⟩
    apply replay_establishes (J := fun _ => True)
      (I := fun b => (b.get (createKey (root.path ++ "/" ++ node) .getService)).isSome = true)
      (fun e b he hb => isSome_onBag (hcalm.kept (h.calm e he) _) hb) (fun _ _ _ _ => trivial)
      hservice ?_ trivial
    intro b _
    exact isSome_onBag_same rfl (hcalm.kept (h.calm _ hservice) _) fun _ h => nomatch h

end Consequences

end CalmRun

/-!
## Restoring many times
-/

def restoreTimes (env : Env) (reconnect : ClientId -> ZkM Bool) (c : ClientId) : Nat -> ZkM PUnit
  | 0 => return
  | n + 1 => do
      restoreTimes env reconnect c n
      restoreStates env reconnect c

/--
However often the states are restored: each run returns, it makes the call of each
state of the client, and of each state that nobody has, on the path of that state,
and after the first run the keys of the bag stay the same.
-/
def RestoresFaithfully (env : Env) (reconnect : ClientId -> ZkM Bool) (c : ClientId)
    (w : World) : Prop :=
  forall n, exists u w', restoreTimes env reconnect c n w = Except.ok (⟨⟩, u) ∧
    restoreStates env reconnect c u = Except.ok (⟨⟩, w') ∧
    (forall key state, u.pool.stateBag_.get key = some state -> RestoredBy c state ->
      state.Issued (happened u w')) ∧
    (0 < n -> forall key, (w'.pool.stateBag_.get key).isSome = (u.pool.stateBag_.get key).isSome)

section Times

variable {env : Env} {t : ZkPaths} {c : ClientId} {w : World}
variable {reconnect : ClientId -> ZkM Bool}

theorem restoreTimes_succ {n : Nat} {u w' : World}
    (hn : restoreTimes env reconnect c n w = Except.ok (⟨⟩, u))
    (hrun : restoreStates env reconnect c u = Except.ok (⟨⟩, w')) :
    restoreTimes env reconnect c (n + 1) w = Except.ok (⟨⟩, w') :=
  bind_ok.mpr ⟨⟨⟩, u, hn, hrun⟩

theorem Calm.restoreTimes_returns (reconnect : ClientId -> ZkM Bool) (ht : t.Answers env)
    (hlive : Live c w)
    (hcalm : Calm t c w.pool.stateBag_) (n : Nat) :
    exists u, restoreTimes env reconnect c n w = Except.ok (⟨⟩, u) ∧ Live c u ∧
      Calm t c u.pool.stateBag_ ∧
      (0 < n -> forall key, Reach t c u.pool.stateBag_ key ->
        (u.pool.stateBag_.get key).isSome = true) := by
  induction n with
  | zero => exact ⟨w, rfl, hlive, hcalm, fun h => absurd h (Nat.lt_irrefl 0)⟩
  | succ n ih =>
      rcases ih with ⟨u, hn, hlive', hcalm', _⟩
      rcases hcalm'.restoreStates_returns reconnect ht hlive' with
        ⟨_, w', hrun, es, hgoes, hrestored⟩
      refine ⟨w', restoreTimes_succ hn hrun, hgoes.live, ?_, ?_⟩
      · rw [hgoes.bag]
        exact hrestored.calm_after hcalm'
      · intro _ key hreach
        rw [hgoes.bag] at hreach ⊢
        exact hrestored.settled hcalm' hreach

theorem Calm.restoresFaithfully (ht : t.Answers env) (hlive : Live c w)
    (hcalm : Calm t c w.pool.stateBag_) : RestoresFaithfully env reconnect c w := by
  intro n
  rcases hcalm.restoreTimes_returns reconnect ht hlive n with
    ⟨u, hn, hlive', hcalm', hsettled⟩
  rcases hcalm'.restoreStates_returns reconnect ht hlive' with
    ⟨_, w', hrun, es, hgoes, hrestored⟩
  refine ⟨u, w', hn, hrun, ?_, ?_⟩
  · intro key state hget hstate
    rw [happened_of_append hgoes.trace]
    exact hrestored.issued hcalm' hget hstate
  · intro hpos key
    rw [hgoes.bag]
    apply Bool.eq_iff_iff.mpr
    constructor
    · intro hget
      rcases hrestored.reach hget with hold | hreach
      · exact hold
      · exact hsettled hpos key hreach
    · exact hrestored.isSome hcalm'

end Times

end ZkClient

end FrProxy
