import FrProxy.ZkClient.Reconnect
import Mathlib.Data.Set.Finite.Lemmas

/-!
# A bag that grows

The longest path of an instance that a client has is restored with one slash
more, and the state under that path is restored in turn.
-/

namespace FrProxy

open Program

namespace StateBag

theorem finite_states (bag : StateBag) :
    { state | exists key, bag.get key = some state }.Finite := by
  apply ((List.finite_toSet bag.map_.toList).image fun entry => entry.2.state).subset
  intro state h
  rcases h with ⟨key, hget⟩
  rcases get_eq_some.mp hget with ⟨addr, hslot⟩
  exact ⟨(key, { addr, state }), Std.ExtTreeMap.mem_toList_iff_getElem?_eq_some.mpr hslot, rfl⟩

theorem exists_longest {bag : StateBag} {P : ZkState -> Prop}
    (h : exists key state, bag.get key = some state ∧ P state) :
    exists key state, bag.get key = some state ∧ P state ∧
      forall key' state', bag.get key' = some state' -> P state' ->
        state'.path.length ≤ state.path.length := by
  rcases h with ⟨key, state, hget, hP⟩
  rcases Set.exists_max_image { state | (exists key, bag.get key = some state) ∧ P state }
    (fun state => state.path.length)
    (bag.finite_states.subset fun _ h => h.left) ⟨state, ⟨key, hget⟩, hP⟩ with
    ⟨longest, hlongest, hmax⟩
  rcases hlongest with ⟨⟨key', hget'⟩, hP'⟩
  exact ⟨key', longest, hget', hP', fun k s hk hs => hmax s ⟨⟨k, hk⟩, hs⟩⟩

end StateBag

namespace ZkClient

def OwnsInstance (c : ClientId) (bag : StateBag) (path : String) : Prop :=
  exists state, bag.get (createKey path .getServiceInstance) = some state ∧ state.clientId = c

def NoneFree (bag : StateBag) : Prop :=
  forall key state, bag.get key = some state -> state.type = .getServiceInstance ->
    state.clientId ≠ 0

def Slashed (bag : StateBag) : Prop :=
  forall key state, bag.get key = some state -> state.type = .getServiceInstance ->
    '/' ∈ state.path.toList

/-- Only instances of services with a shorter path than `L` are found to be gone. -/
def GoneBelow (t : ZkPaths) (L : Nat) (e : Event) : Prop :=
  t.Answered e ∧ forall service node data mtime,
    e = .instance_ service node znonode data mtime -> service.length < L

theorem slashed_of_built {bag : StateBag} (h : bag.Built) : Slashed bag := by
  intro key state hget htype
  rcases h.joins hget htype with ⟨service, node, hjoin⟩
  rw [hjoin]
  exact slash_mem_join service node

section GoneBelow

variable {t : ZkPaths} {L : Nat} {c : ClientId} {bag : StateBag} {es : List Event}

theorem admits_goneBelow : Admits t Stop.depth (GoneBelow t L) where
  answered := fun _ h => h.left
  watch := fun _ => ⟨trivial, fun _ _ _ _ h => nomatch h⟩
  instances := by
    intro service nodes node rc data mtime h hnode hanswered
    refine ⟨hanswered, ?_⟩
    intro service' node' data' mtime' heq
    cases heq
    have hservice : t.present service := h.left.right.left.mp rfl
    rw [h.left.right.right rfl] at hnode
    have hok : znonode = zok := hanswered.mpr (t.closed service node hservice hnode)
    exact absurd hok (by decide)
  services := fun _ _ _ _ _ _ _ hanswered => ⟨hanswered, fun _ _ _ _ h => nomatch h⟩
  reads := fun _ _ _ _ _ _ => rfl

theorem GoneBelow.kept {e : Event} (he : GoneBelow t L e) {path : String} (hpath : L ≤ path.length) :
    e.removed ≠ some (createKey path .getServiceInstance) := by
  intro hremoved
  cases e with
  | children type path' rc nodes =>
      unfold Event.removed at hremoved
      dsimp only at hremoved
      split at hremoved
      · exact absurd (createKey_inj (Option.some.inj hremoved)).right (by decide)
      · cases hremoved
  | instance_ service node rc data mtime =>
      unfold Event.removed at hremoved
      dsimp only at hremoved
      split at hremoved
      · rename_i hnone
        have hshort := he.right service node data mtime (by rw [hnone])
        rw [(createKey_inj (Option.some.inj hremoved)).left] at hshort
        exact absurd hshort (Nat.not_lt_of_le hpath)
      · cases hremoved
  | _ => cases hremoved

/-- Once the client has a state of an instance with a path that long, it keeps it. -/
theorem OwnsInstance.onBag {e : Event} (he : GoneBelow t L e) {path : String}
    (hpath : L ≤ path.length) (h : OwnsInstance c bag path) : OwnsInstance c (e.onBag c bag) path := by
  rcases h with ⟨state, hget, hclient⟩
  by_cases hkey : e.key = some (createKey path .getServiceInstance)
  · rcases get_onBag_same (c := c) hkey (he.kept hpath) (fun _ _ => by rw [hget]; rfl) with
      ⟨found, hfound, hnew⟩
    refine ⟨found, hfound, ?_⟩
    rcases hnew with hnew | hnew
    · exact hnew
    · have htype := (createKey_inj (StateBag.key_of_get hfound)).right
      rw [hnew.right] at htype
      cases htype
  · refine ⟨state, ?_, hclient⟩
    rw [get_onBag_other hkey (he.kept hpath), hget]

theorem built_onBag {e : Event} (he : t.Answered e) (h : bag.Built) : (e.onBag c bag).Built := by
  cases e with
  | takeOver key => exact h.change (.give (fun s => s.key == key) c (Or.inl rfl))
  | children type path rc nodes =>
      have hjoins : StateBag.Joins type path := by
        intro htype
        rcases he.left with hkind | hkind
        · exact absurd (hkind.symm.trans htype) (by decide)
        · exact absurd (hkind.symm.trans htype) (by decide)
      have hadd : (bag.add { clientId := c, type, path, data := "" }).Built :=
        h.change (.save _ rfl hjoins)
      unfold Event.onBag
      dsimp only
      split
      · exact hadd.change (.remove (c := c) _)
      · exact hadd
  | instance_ service node rc data mtime =>
      have hadd : (bag.add {
          clientId := c
          type := .getServiceInstance
          path := service ++ "/" ++ node }).Built :=
        h.change (.save _ rfl fun _ => ⟨service, node, rfl⟩)
      unfold Event.onBag
      dsimp only
      split
      · exact hadd.change (.remove (c := c) _)
      · exact hadd
  | create path data rc =>
      have hadd : (bag.add { clientId := c, type := .createEphereral, path, data }).Built :=
        h.change (.save _ rfl fun heq => nomatch heq)
      unfold Event.onBag
      dsimp only
      split
      · exact hadd.change (.give (c := c) _ _ (Or.inr rfl))
      · exact hadd
  | _ => exact h

theorem owns_after (hes : forall e, e ∈ es -> GoneBelow t L e) {path : String}
    (hpath : L ≤ path.length) {e : Event} (he : e ∈ es)
    (hkey : e.key = some (createKey path .getServiceInstance))
    (hknown : (forall k, e ≠ .takeOver k) ∨
      (bag.get (createKey path .getServiceInstance)).isSome = true) :
    OwnsInstance c (replay c bag es) path := by
  apply replay_establishes (I := fun b => OwnsInstance c b path)
    (J := fun b => (forall k, e ≠ .takeOver k) ∨
      (b.get (createKey path .getServiceInstance)).isSome = true)
    (fun e' b he' hb => hb.onBag (hes e' he') hpath) ?_ he ?_ hknown
  · intro e' b he' hb
    rcases hb with hb | hb
    · exact Or.inl hb
    · exact Or.inr (isSome_onBag ((hes e' he').kept hpath) hb)
  · intro b hb
    have hpresent : forall k, e = .takeOver k ->
        (b.get (createKey path .getServiceInstance)).isSome = true := by
      intro k heq
      rcases hb with hb | hb
      · exact absurd heq (hb k)
      · exact hb
    rcases get_onBag_same (c := c) hkey ((hes e he).kept hpath) hpresent with
      ⟨found, hfound, hnew⟩
    refine ⟨found, hfound, ?_⟩
    rcases hnew with hnew | hnew
    · exact hnew
    · have htype := (createKey_inj (StateBag.key_of_get hfound)).right
      rw [hnew.right] at htype
      cases htype

theorem owns_read (hes : forall e, e ∈ es -> GoneBelow t L e) {service node : String}
    (hpath : L ≤ (service ++ "/" ++ node).length) (hread : InstanceRead service node es) :
    OwnsInstance c (replay c bag es) (service ++ "/" ++ node) := by
  rcases hread with ⟨rc, data, mtime, he⟩
  exact owns_after hes hpath he rfl (Or.inl fun _ h => nomatch h)

theorem instance_owner (hc : 0 < c) {e : Event} {key : String} {state : ZkState}
    (hget : (e.onBag c bag).get key = some state) (htype : state.type = .getServiceInstance)
    (hfree : state.clientId = 0) : e.key ≠ some key ∧ bag.get key = some state := by
  rcases get_onBag_cases hget with hold | hnew
  · exact hold
  · rcases hnew.right with hclient | hclient
    · rw [hclient] at hfree
      exact absurd hfree (Nat.ne_of_gt hc)
    · rw [htype] at hclient
      cases hclient.right

theorem free_after (hc : 0 < c) {key : String} {state : ZkState}
    (hget : (replay c bag es).get key = some state) (htype : state.type = .getServiceInstance)
    (hfree : state.clientId = 0) : forall e, e ∈ es -> e.key ≠ some key := by
  induction es using List.reverseRecOn with
  | nil => exact fun _ he => absurd he List.not_mem_nil
  | append_singleton rest last ih =>
      rw [replay_append] at hget
      rcases instance_owner hc hget htype hfree with ⟨hlast, hrest⟩
      intro e he
      rcases List.mem_append.mp he with he | he
      · exact ih hrest e he
      · rw [List.mem_singleton.mp he]
        exact hlast

end GoneBelow

/-!
## One run
-/

section OneRun

variable {env : Env} {t : ZkPaths} {L : Nat} {c : ClientId} {w w' : World}
variable {reconnect : ClientId -> ZkM Bool}

structure Ran (t : ZkPaths) (L : Nat) (c : ClientId) (bag : StateBag) (es : List Event) :
    Prop where
  gone : forall e, e ∈ es -> GoneBelow t L e
  complete : Complete es
  split : exists es₁ es₂, es = es₁ ++ es₂ ∧
    (forall ptr, ptr ∈ bag.getList c -> Event.takeOver ptr.key ∈ es₁) ∧
    forall ptr, ptr ∈ (replay c bag es₁).getList 0 -> Event.takeOver ptr.key ∈ es₂

theorem starts_goneBelow {state : ZkState}
    (hpath : state.type = .getServiceInstance -> state.path.length ≤ L) (key : String) :
    GoneBelow t L (.takeOver key) ∧ Starts t (GoneBelow t L) state := by
  refine ⟨⟨trivial, fun _ _ _ _ h => nomatch h⟩, ?_⟩
  unfold Starts
  cases htype : state.type with
  | createEphereral => exact fun _ _ => ⟨trivial, fun _ _ _ _ h => nomatch h⟩
  | getService => exact fun _ _ hanswered => ⟨hanswered, fun _ _ _ _ h => nomatch h⟩
  | getRoot => exact fun _ _ hanswered => ⟨hanswered, fun _ _ _ _ h => nomatch h⟩
  | getServiceInstance =>
      intro service node hsplit rc data mtime hanswered
      refine ⟨hanswered, ?_⟩
      intro service' node' data' mtime' heq
      cases heq
      exact Nat.lt_of_lt_of_le (length_of_splitPath hsplit).right (hpath htype)

theorem restoreStates_ran (ht : t.Answers env) (hc : 0 < c) (hlive : Live c w)
    (hlong : forall key state, w.pool.stateBag_.get key = some state -> RestoredBy c state ->
      state.type = .getServiceInstance -> state.path.length ≤ L)
    (hrun : restoreStates env reconnect c w = Except.ok (⟨⟩, w')) :
    exists es, Goes c es w w' ∧ Ran t L c w.pool.stateBag_ es := by
  have hemits : Emits Stop.depth c (GoneBelow t L) (restoreStates env reconnect c) w
      fun _ es => exists es₁ es₂, es = es₁ ++ es₂ ∧ Complete es ∧
        (forall ptr, ptr ∈ w.pool.stateBag_.getList c -> Event.takeOver ptr.key ∈ es₁) ∧
        forall ptr, ptr ∈ (replay c w.pool.stateBag_ es₁).getList 0 ->
          Event.takeOver ptr.key ∈ es₂ := by
    apply restoreStates_emits ht admits_goneBelow hlive
      (I := fun b => forall key state, b.get key = some state -> state.clientId = 0 ->
        state.type = .getServiceInstance -> state.path.length ≤ L)
    · intro e b _ hb key state hget hfree htype
      exact hb key state (instance_owner hc hget htype hfree).right hfree htype
    · intro key state hget hclient
      exact starts_goneBelow (hlong key state hget (Or.inl hclient)) key
    · intro b key state hb hget hfree
      exact starts_goneBelow (hb key state hget hfree) key
    · intro h
      cases h
    · exact fun key state hget hfree => hlong key state hget (Or.inr hfree)
  rcases Avoids.ok hemits rfl hrun with ⟨es, hgoes, hgone, es₁, es₂, heq, hcomplete, hown, hfree⟩
  exact ⟨es, hgoes, hgone, hcomplete, es₁, es₂, heq, hown, hfree⟩

section Ran

variable {bag : StateBag} {es : List Event} (h : Ran t L c bag es)

include h

theorem Ran.keyed {key : String} {state : ZkState} (hget : bag.get key = some state)
    (hrestored : RestoredBy c state) (hkept : forall e, GoneBelow t L e -> e.removed ≠ some key) :
    exists e, e ∈ es ∧ e.key = some key := by
  rcases h.split with ⟨es₁, es₂, rfl, hown, hfree⟩
  apply restored_key hown hfree hget hrestored
  exact fun e he => hkept e (h.gone e (List.mem_append_left _ he))

theorem Ran.noneFree (hc : 0 < c) : NoneFree (replay c bag es) := by
  intro key state hget htype hfree
  have huntouched := free_after hc hget htype hfree
  have hback := replay_back hget huntouched
  rcases h.split with ⟨es₁, es₂, rfl, hown, hlast⟩
  rcases restored_key hown hlast hback.left (Or.inr hfree)
    (fun e he => hback.right e (List.mem_append_left _ he)) with ⟨e, he, hkey⟩
  exact huntouched e he hkey

theorem Ran.owns_listed {service node : String} (hpresent : t.present service)
    (hlisted : Listed .getService service es) (hnode : node ∈ t.children service)
    (hpath : L ≤ (service ++ "/" ++ node).length) :
    OwnsInstance c (replay c bag es) (service ++ "/" ++ node) := by
  rcases hlisted with ⟨rc, nodes, he⟩
  have hanswered := (h.gone _ he).left
  have hok : rc = zok := hanswered.right.left.mpr hpresent
  subst hok
  rw [<- hanswered.right.right rfl] at hnode
  exact owns_read h.gone hpath (h.complete.instances service nodes node he hnode)

theorem Ran.grows {path : String} (hslash : '/' ∈ path.toList) (hpath : L ≤ path.length)
    (howns : OwnsInstance c bag path) :
    exists longer, OwnsInstance c (replay c bag es) longer ∧ longer.length = path.length + 1 := by
  rcases splitPath_isSome hslash with ⟨service, node, hsplit⟩
  rcases howns with ⟨state, hget, hclient⟩
  have hlength := (length_of_splitPath hsplit).left
  have htaken : Event.takeOver state.key ∈ es := by
    rcases h.split with ⟨es₁, es₂, rfl, hown, _⟩
    rcases StateBag.exists_mem_getList hget hclient with ⟨ptr, hptr, hkey⟩
    rw [StateBag.key_of_get hget, <- hkey]
    exact List.mem_append_left _ (hown ptr hptr)
  have hreplayed := h.complete.taken state htaken
  rcases createKey_inj (StateBag.key_of_get hget) with ⟨hsame, htype⟩
  unfold ZkState.Replayed at hreplayed
  rw [htype] at hreplayed
  rw [<- hsame] at hsplit
  refine ⟨service ++ "/" ++ node, owns_read h.gone ?_ (hreplayed service node hsplit), hlength⟩
  rw [hlength]
  exact Nat.le_succ_of_le hpath

end Ran

theorem GoneBelow.kept_present {e : Event} (he : GoneBelow t L e) {state : ZkState}
    (htype : state.type ≠ .getServiceInstance) (hpresent : t.present state.path) :
    e.removed ≠ some state.key := by
  intro hremoved
  cases e with
  | children type path rc nodes =>
      unfold Event.removed at hremoved
      dsimp only at hremoved
      split at hremoved
      · rename_i hgone
        rw [<- (createKey_inj (Option.some.inj hremoved)).left] at hpresent
        have hok : rc = zok := he.left.right.left.mpr hpresent
        rw [hgone.right] at hok
        exact absurd hok (by decide)
      · cases hremoved
  | instance_ service node rc data mtime =>
      unfold Event.removed at hremoved
      dsimp only at hremoved
      split at hremoved
      · exact htype (createKey_inj (Option.some.inj hremoved)).right.symm
      · cases hremoved
  | _ => cases hremoved

theorem Ran.owns_some {bag : StateBag} {es : List Event} (h : Ran t 0 c bag es) {key : String}
    {state : ZkState} (hget : bag.get key = some state) (hrestored : RestoredBy c state)
    (hpresent : t.present state.path) (htype : state.type ≠ .getServiceInstance)
    (hreads : ¬ ReadsNone t state) : exists path, OwnsInstance c (replay c bag es) path := by
  have hkey := StateBag.key_of_get hget
  rcases h.keyed hget hrestored
    (fun e he => hkey ▸ he.kept_present htype hpresent) with ⟨e, he, habout⟩
  rw [<- hkey] at habout
  have hissued := issued_of_key h.complete (fun e he => (h.gone e he).left) he habout htype
  unfold ZkState.Issued at hissued
  unfold ReadsNone at hreads
  cases hcase : state.type with
  | createEphereral =>
      rw [hcase] at hreads
      exact absurd trivial hreads
  | getServiceInstance => exact absurd hcase htype
  | getService =>
      rw [hcase] at hissued hreads
      rcases List.exists_mem_of_ne_nil _ hreads with ⟨node, hnode⟩
      exact ⟨_, h.owns_listed hpresent hissued hnode (Nat.zero_le _)⟩
  | getRoot =>
      rw [hcase] at hissued hreads
      have hchild : exists node, node ∈ t.children state.path ∧
          t.children (state.path ++ "/" ++ node) ≠ [] := by
        by_contra hnone
        apply hreads
        intro node hnode
        by_contra hsome
        exact hnone ⟨node, hnode, hsome⟩
      rcases hchild with ⟨service, hservice, hsome⟩
      rcases List.exists_mem_of_ne_nil _ hsome with ⟨node, hnode⟩
      rcases hissued with ⟨rc, nodes, hlist⟩
      have hanswered := (h.gone _ hlist).left
      have hok : rc = zok := hanswered.right.left.mpr hpresent
      subst hok
      have hlisted := h.complete.services state.path nodes service hlist
        (hanswered.right.right rfl ▸ hservice)
      exact ⟨_, h.owns_listed (t.closed _ _ hpresent hservice) hlisted hnode (Nat.zero_le _)⟩

/-- The states of a bag are recorded under paths that exist. -/
def RecordsPresent (t : ZkPaths) (bag : StateBag) : Prop :=
  forall key state, bag.get key = some state -> t.present state.path

theorem first_run (ht : t.Answers env) (hc : 0 < c) (hlive : Live c w)
    (hpresent : RecordsPresent t w.pool.stateBag_)
    (hreads : exists key state, w.pool.stateBag_.get key = some state ∧ RestoredBy c state ∧
      ¬ ReadsNone t state)
    (hrun : restoreStates env reconnect c w = Except.ok (⟨⟩, w')) :
    exists es, Goes c es w w' ∧ (forall e, e ∈ es -> t.Answered e) ∧
      NoneFree w'.pool.stateBag_ ∧ exists path, OwnsInstance c w'.pool.stateBag_ path := by
  by_cases hinstance : exists key state, w.pool.stateBag_.get key = some state ∧
      (RestoredBy c state ∧ state.type = .getServiceInstance)
  · rcases StateBag.exists_longest hinstance with ⟨key, state, hget, ⟨hrestored, htype⟩, hmax⟩
    have hlong : forall k s, w.pool.stateBag_.get k = some s -> RestoredBy c s ->
        s.type = .getServiceInstance -> s.path.length ≤ state.path.length :=
      fun k s hk hs hinst => hmax k s hk ⟨hs, hinst⟩
    rcases restoreStates_ran ht hc hlive hlong hrun with ⟨es, hgoes, hran⟩
    have hkey : createKey state.path .getServiceInstance = key := by
      rw [<- htype]
      exact StateBag.key_of_get hget
    rcases hran.keyed hget hrestored
      (fun e he => hkey ▸ he.kept (Nat.le_refl _)) with ⟨e, he, habout⟩
    refine ⟨es, hgoes, fun e he => (hran.gone e he).left, ?_, state.path, ?_⟩
    · rw [hgoes.bag]
      exact hran.noneFree hc
    · rw [hgoes.bag]
      apply owns_after hran.gone (Nat.le_refl _) he (habout.trans (congrArg some hkey.symm))
      rw [hkey, hget]
      exact Or.inr rfl
  · have hlong : forall k s, w.pool.stateBag_.get k = some s -> RestoredBy c s ->
        s.type = .getServiceInstance -> s.path.length ≤ 0 :=
      fun k s hk hs hinst => absurd ⟨k, s, hk, hs, hinst⟩ hinstance
    rcases restoreStates_ran ht hc hlive hlong hrun with ⟨es, hgoes, hran⟩
    rcases hreads with ⟨key, state, hget, hrestored, hreads⟩
    have htype : state.type ≠ .getServiceInstance :=
      fun heq => hinstance ⟨key, state, hget, hrestored, heq⟩
    refine ⟨es, hgoes, fun e he => (hran.gone e he).left, ?_, ?_⟩
    · rw [hgoes.bag]
      exact hran.noneFree hc
    · rw [hgoes.bag]
      exact hran.owns_some hget hrestored (hpresent key state hget) htype hreads

theorem next_run (ht : t.Answers env) (hc : 0 < c) (hlive : Live c w)
    (hbuilt : w.pool.stateBag_.Built) (hnone : NoneFree w.pool.stateBag_) {path : String}
    (howns : OwnsInstance c w.pool.stateBag_ path)
    (hrun : restoreStates env reconnect c w = Except.ok (⟨⟩, w')) :
    exists es, Goes c es w w' ∧ (forall e, e ∈ es -> t.Answered e) ∧
      NoneFree w'.pool.stateBag_ ∧
      exists longer, OwnsInstance c w'.pool.stateBag_ longer ∧ path.length < longer.length := by
  rcases howns with ⟨first, hfirst, hclient⟩
  rcases createKey_inj (StateBag.key_of_get hfirst) with ⟨hpath, hkind⟩
  rcases StateBag.exists_longest (P := fun s => s.clientId = c ∧ s.type = .getServiceInstance)
    ⟨_, first, hfirst, hclient, hkind⟩ with ⟨key, state, hget, ⟨hstate, htype⟩, hmax⟩
  have hlong : forall k s, w.pool.stateBag_.get k = some s -> RestoredBy c s ->
      s.type = .getServiceInstance -> s.path.length ≤ state.path.length := by
    intro k s hk hs hinst
    rcases hs with hs | hs
    · exact hmax k s hk ⟨hs, hinst⟩
    · exact absurd hs (hnone k s hk hinst)
  have hkey : createKey state.path .getServiceInstance = key := by
    rw [<- htype]
    exact StateBag.key_of_get hget
  rcases restoreStates_ran ht hc hlive hlong hrun with ⟨es, hgoes, hran⟩
  rcases hran.grows (slashed_of_built hbuilt key state hget htype) (Nat.le_refl _)
    ⟨state, hkey ▸ hget, hstate⟩ with ⟨longer, howns, hlength⟩
  refine ⟨es, hgoes, fun e he => (hran.gone e he).left, ?_, longer, ?_, ?_⟩
  · rw [hgoes.bag]
    exact hran.noneFree hc
  · rw [hgoes.bag]
    exact howns
  · have hbound := hmax _ first hfirst ⟨hclient, hkind⟩
    rw [hpath] at hbound
    omega

theorem built_of_goes {es : List Event} (hgoes : Goes c es w w')
    (hes : forall e, e ∈ es -> t.Answered e) (hbuilt : w.pool.stateBag_.Built) :
    w'.pool.stateBag_.Built := by
  rw [hgoes.bag]
  exact replay_keeps (I := StateBag.Built) (fun e _ he hb => built_onBag (hes e he) hb) hbuilt

end OneRun

/-!
## Many runs
-/

section Runs

variable {env : Env} {t : ZkPaths} {c : ClientId} {w : World}
variable {reconnect : ClientId -> ZkM Bool}

/-- With the keys of one bag the client would have instances with longer and longer paths. -/
theorem instances_grow (ht : t.Answers env) (hc : 0 < c) (hlive : Live c w)
    (hbuilt : w.pool.stateBag_.Built) (hpresent : RecordsPresent t w.pool.stateBag_)
    (hreads : exists key state, w.pool.stateBag_.get key = some state ∧ RestoredBy c state ∧
      ¬ ReadsNone t state) (hfaithful : RestoresFaithfully env reconnect c w) :
    exists bag : StateBag, forall n, exists u, restoreTimes env reconnect c (n + 1) w =
        Except.ok (⟨⟩, u) ∧ Live c u ∧ u.pool.stateBag_.Built ∧ NoneFree u.pool.stateBag_ ∧
      (exists path, OwnsInstance c u.pool.stateBag_ path ∧ n ≤ path.length) ∧
      forall key, (u.pool.stateBag_.get key).isSome = (bag.get key).isSome := by
  rcases hfaithful 0 with ⟨u, w₁, hzero, hrun, _, _⟩
  cases hzero
  rcases first_run ht hc hlive hpresent hreads hrun with ⟨es, hgoes, hes, hnone, path, howns⟩
  refine ⟨w₁.pool.stateBag_, ?_⟩
  intro n
  induction n with
  | zero =>
      exact ⟨w₁, restoreTimes_succ rfl hrun, hgoes.live, built_of_goes hgoes hes hbuilt, hnone,
        ⟨path, howns, Nat.zero_le _⟩, fun _ => rfl⟩
  | succ n ih =>
      rcases ih with ⟨v, hv, hlive', hbuilt', hnone', ⟨path', howns', hlong⟩, hkeys⟩
      rcases hfaithful (n + 1) with ⟨u, w', hu, hrun', _, hsame⟩
      rw [hv] at hu
      cases hu
      rcases next_run ht hc hlive' hbuilt' hnone' howns' hrun' with
        ⟨es', hgoes', hes', hnone'', longer, howns'', hlonger⟩
      refine ⟨w', restoreTimes_succ hv hrun', hgoes'.live, built_of_goes hgoes' hes' hbuilt',
        hnone'', ⟨longer, howns'', by omega⟩, ?_⟩
      exact fun key => (hsame (Nat.succ_pos n) key).trans (hkeys key)

theorem readsNone_of_restoresFaithfully (ht : t.Answers env) (hc : 0 < c) (hlive : Live c w)
    (hbuilt : w.pool.stateBag_.Built) (hpresent : RecordsPresent t w.pool.stateBag_)
    (hfaithful : RestoresFaithfully env reconnect c w) :
    forall key state, w.pool.stateBag_.get key = some state -> RestoredBy c state ->
      ReadsNone t state := by
  intro key state hget hrestored
  by_contra hreads
  rcases instances_grow ht hc hlive hbuilt hpresent ⟨key, state, hget, hrestored, hreads⟩
    hfaithful with ⟨bag, hgrow⟩
  have hfound : forall n, exists key found, bag.get key = some found ∧ n ≤ found.path.length := by
    intro n
    rcases hgrow n with ⟨u, _, _, _, _, ⟨path, ⟨owned, howned, _⟩, hlong⟩, hkeys⟩
    have hsome := hkeys (createKey path .getServiceInstance)
    rw [howned] at hsome
    rcases Option.isSome_iff_exists.mp hsome.symm with ⟨found, hfound⟩
    refine ⟨_, found, hfound, ?_⟩
    rw [(createKey_inj (StateBag.key_of_get hfound)).left]
    exact hlong
  rcases hfound 0 with ⟨k, found, hk, _⟩
  rcases StateBag.exists_longest (P := fun _ => True) ⟨k, found, hk, trivial⟩ with
    ⟨_, longest, _, _, hmax⟩
  rcases hfound (longest.path.length + 1) with ⟨k', longer, hk', hlonger⟩
  have hbound := hmax k' longer hk' trivial
  omega

end Runs

/-!
## A bag with one state
-/

/-- A tree in which every path exists, without children. -/
def leaves : ZkPaths where
  present := fun _ => True
  children := fun _ => []
  closed := fun _ _ _ _ => trivial

def leafEnv : Env where
  parse := fun _ => none
  zookeeperInit := fun _ => true
  zooWgetChildren := fun _ _ => (zok, [])
  zooWget := fun _ _ => (zok, {})
  zooCreate := fun _ _ => znodeexists
  zooGet := fun _ _ => zok
  clock := fun _ => 0
  cacheFile := none

theorem leaves_answers : leaves.Answers leafEnv where
  children := fun _ _ _ => rfl
  data := fun _ _ _ => rfl
  missing := fun _ _ h => absurd trivial h
  session := by
    intro n path h
    rcases h with h | h | h
    · exact absurd h (show ¬ zok = zinvalidstate by decide)
    · exact absurd h (show ¬ zok = zinvalidstate by decide)
    · exact absurd h (show ¬ znodeexists = zinvalidstate by decide)

def saved (c : ClientId) (state : ZkState) : World where
  pool := {
    ClientPool.start id with
    stateBag_ := StateBag.empty.add state
    clients := fun d => if d = c then { connected_ := true, zhandle_ := true } else {} }
  cache := RegistryCache.empty
  trace := []
  ticks := 0
  slept := 0

theorem saved_live (c : ClientId) (state : ZkState) : Live c (saved c state) := by
  simp [Live, saved, ClientPool.getConnected]

theorem saved_get {c : ClientId} {state found : ZkState} {key : String}
    (h : (saved c state).pool.stateBag_.get key = some found) : found = state := by
  have hget : (StateBag.empty.add state).get key = some found := h
  rw [StateBag.get_add, StateBag.get_empty] at hget
  split at hget
  · cases hget
    rfl
  · cases hget

theorem saved_same (c : ClientId) (state : ZkState) :
    (saved c state).pool.stateBag_.get state.key = some state := by
  show (StateBag.empty.add state).get state.key = some state
  rw [StateBag.get_add, StateBag.get_empty, if_pos rfl]

section Faithful

variable {env : Env} {t : ZkPaths} {c : ClientId} {w : World}
variable {reconnect : ClientId -> ZkM Bool}

/--
Restoring the states again and again is faithful, and the bag stops growing after
the first time, exactly when no state that the client restores reads an instance.
-/
theorem restoresFaithfully_iff (ht : t.Answers env) (hc : 0 < c) (hlive : Live c w)
    (hbuilt : w.pool.stateBag_.Built) (hpresent : RecordsPresent t w.pool.stateBag_) :
    RestoresFaithfully env reconnect c w <->
      forall key state, w.pool.stateBag_.get key = some state -> RestoredBy c state ->
        ReadsNone t state := by
  constructor
  · exact readsNone_of_restoresFaithfully ht hc hlive hbuilt hpresent
  · intro hnone
    have hcalm : Calm t c w.pool.stateBag_ := fun key state hget hrestored =>
      ⟨hnone key state hget hrestored, hpresent key state hget⟩
    exact hcalm.restoresFaithfully ht hlive

end Faithful

/-- A client that registered itself restores its znode each time. -/
theorem created_restoresFaithfully : RestoresFaithfully leafEnv (fun _ => return false) 1
    (saved 1 { clientId := 1, type := .createEphereral, path := "/soa/services/s/m" }) :=
  (restoresFaithfully_iff leaves_answers Nat.one_pos (saved_live _ _)
    (StateBag.Built.empty.change <| .save _ rfl fun h =>
      absurd (show ZkStateType.createEphereral = .getServiceInstance from h) (by decide))
    (fun _ _ _ => trivial)).mpr
    fun _ _ hget _ => by
      rw [saved_get hget]
      exact trivial

/-- A client that read one instance asks for a longer path each time. -/
theorem instance_not_restored :
    ¬ forall (env : Env) (t : ZkPaths) (reconnect : ClientId -> ZkM Bool) (c : ClientId)
      (w : World), t.Answers env -> 0 < c -> Live c w -> w.pool.stateBag_.Built ->
      RecordsPresent t w.pool.stateBag_ -> RestoresFaithfully env reconnect c w := by
  intro h
  let state : ZkState := {
    clientId := 1
    type := .getServiceInstance
    path := "/soa/services/s" ++ "/" ++ "m" }
  have hbuilt : (saved 1 state).pool.stateBag_.Built :=
    StateBag.Built.empty.change (.save state rfl fun _ => ⟨"/soa/services/s", "m", rfl⟩)
  have hfaithful := h leafEnv leaves (fun _ => return false) 1 (saved 1 state) leaves_answers
    Nat.one_pos (saved_live _ _) hbuilt fun _ _ _ => trivial
  exact readsNone_of_restoresFaithfully leaves_answers Nat.one_pos (saved_live _ _) hbuilt
    (fun _ _ _ => trivial) hfaithful _ state (saved_same 1 state) (Or.inl rfl)

end ZkClient

end FrProxy
