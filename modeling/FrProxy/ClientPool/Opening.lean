import FrProxy.ClientPool.Borrows

/-!
# The section of `open`

Where each client is after the locked section of `open`, what it returns, and
which states it releases.
-/

namespace FrProxy

namespace ClientPool

/-- The idle clients without a connection that `open` meets. -/
def met (p : ClientPool) : List ClientId :=
  p.idle_.takeWhile fun c => !p.getConnected c

/-!
## The first loop
-/

theorem reuse_toDestrory_ (l : List ClientId) (p : ClientPool) :
    (p.reuse l).1.toDestrory_ =
      p.toDestrory_ ++ l.takeWhile fun c => !p.getConnected c := by
  induction l generalizing p with
  | nil => exact (List.append_nil _).symm
  | cons c rest ih =>
      by_cases hconn : p.getConnected c = true
      · simp [reuse, hconn]
      · simp only [reuse, hconn, if_false, Bool.false_eq_true, List.takeWhile_cons,
          Bool.not_false, if_true]
        refine (ih _).trans ?_
        exact List.append_assoc p.toDestrory_ [c] _

theorem reuse_get (l : List ClientId) (p : ClientPool) (key : String) :
    (p.reuse l).1.stateBag_.get key =
      (p.stateBag_.get key).map fun s =>
        if s.clientId ∈ l.takeWhile fun c => !p.getConnected c then { s with clientId := 0 }
        else s := by
  induction l generalizing p with
  | nil => simp [reuse]
  | cons c rest ih =>
      by_cases hconn : p.getConnected c = true
      · simp [reuse, hconn, setInUsing, updateClient]
      · simp only [reuse, hconn, if_false, Bool.false_eq_true, List.takeWhile_cons,
          Bool.not_false, if_true]
        refine (ih _).trans ?_
        have hgive := p.stateBag_.get_giveTo (fun s => s.clientId == c) 0 key
        show Option.map _ ((p.stateBag_.replaceClientId c 0).get key) = _
        unfold StateBag.replaceClientId
        rw [hgive, Option.map_map]
        apply congrArg (fun f => Option.map f (p.stateBag_.get key))
        funext s
        have hrest : forall d, ClientPool.getConnected
            (moveToDestroyList { p with idle_ := rest } c) d = p.getConnected d := fun _ => rfl
        by_cases hs : s.clientId = c
        · simp [hs]
        · simp [hs, hrest]

/-!
## The loop over the clients in use
-/

theorem filter_of_find?_eq_some {l : List ClientId} {test : ClientId -> Bool} {c : ClientId}
    (h : l.find? test = some c) :
    l.filter test = c :: (l.erase c).filter test ∧
      (l.filter fun d => !test d) = (l.erase c).filter fun d => !test d := by
  rcases List.find?_eq_some_iff_append.mp h with ⟨hc, before, after, rfl, hbefore⟩
  have hnot : c ∉ before := by
    intro hmem
    have hfails := hbefore c hmem
    rw [hc] at hfails
    cases hfails
  have hnone : before.filter test = [] := by
    apply List.filter_eq_nil_iff.mpr
    intro d hd htest
    have hfails := hbefore d hd
    rw [htest] at hfails
    cases hfails
  rw [List.erase_append_right _ hnot, List.erase_cons_head]
  simp [hc, hnone]

/-- With a round for each client, the loop goes on until none in use has timed out. -/
theorem evictLoop_moves (now rounds : Nat) (p : ClientPool) (hrounds : p.using_.length ≤ rounds) :
    (evictLoop now rounds p).using_ = (p.using_.filter fun c => !p.timedOut now c) ∧
    (evictLoop now rounds p).toDestrory_ =
      p.toDestrory_ ++ p.using_.filter (p.timedOut now) := by
  induction rounds generalizing p with
  | zero =>
      have hnil : p.using_ = [] := List.length_eq_zero_iff.mp (Nat.le_zero.mp hrounds)
      simp [evictLoop, hnil]
  | succ rounds ih =>
      unfold evictLoop
      cases hfind : p.using_.find? (p.timedOut now) with
      | none =>
          have hnone := List.find?_eq_none.mp hfind
          have hall : (p.using_.filter fun c => !p.timedOut now c) = p.using_ := by
            apply List.filter_eq_self.mpr
            intro c hc
            simpa using hnone c hc
          rw [hall, List.filter_eq_nil_iff.mpr hnone, List.append_nil]
          exact ⟨rfl, rfl⟩
      | some d =>
          have hlen : (p.evict d).using_.length ≤ rounds := length_evict_le hfind hrounds
          have hsplit := filter_of_find?_eq_some hfind
          have htail := ih (p.evict d) hlen
          rw [timedOut_evict] at htail
          rw [hsplit.left, hsplit.right]
          refine ⟨htail.left, htail.right.trans ?_⟩
          exact List.append_assoc p.toDestrory_ [d] _

theorem evictLoop_idle_ (now rounds : Nat) (p : ClientPool) :
    (evictLoop now rounds p).idle_ = p.idle_ := by
  induction rounds generalizing p with
  | zero => rfl
  | succ rounds ih =>
      unfold evictLoop
      cases p.using_.find? (p.timedOut now) with
      | none => rfl
      | some d => exact ih (p.evict d)

theorem evictLoop_of_none {now : Nat} {p : ClientPool}
    (h : p.using_.find? (p.timedOut now) = none) (rounds : Nat) : evictLoop now rounds p = p := by
  cases rounds with
  | zero => rfl
  | succ rounds =>
      unfold evictLoop
      rw [h]

theorem evictLoop_done (now rounds : Nat) (p : ClientPool) (hrounds : p.using_.length ≤ rounds) :
    (evictLoop now rounds p).using_.find? ((evictLoop now rounds p).timedOut now) = none := by
  induction rounds generalizing p with
  | zero =>
      have hnil : p.using_ = [] := List.length_eq_zero_iff.mp (Nat.le_zero.mp hrounds)
      simp [evictLoop, hnil]
  | succ rounds ih =>
      cases hfind : p.using_.find? (p.timedOut now) with
      | none =>
          rw [evictLoop_of_none hfind]
          exact hfind
      | some d =>
          have hloop : evictLoop now (rounds + 1) p = evictLoop now rounds (p.evict d) := by
            simp only [evictLoop, hfind]
          rw [hloop]
          exact ih (p.evict d) (length_evict_le hfind hrounds)

theorem evictLoop_get (now rounds : Nat) (p : ClientPool) (hrounds : p.using_.length ≤ rounds)
    (key : String) :
    (evictLoop now rounds p).stateBag_.get key =
      (p.stateBag_.get key).map fun s =>
        if s.clientId ∈ p.using_.filter (p.timedOut now) then { s with clientId := 0 }
        else s := by
  induction rounds generalizing p with
  | zero =>
      have hnil : p.using_ = [] := List.length_eq_zero_iff.mp (Nat.le_zero.mp hrounds)
      simp [evictLoop, hnil]
  | succ rounds ih =>
      unfold evictLoop
      cases hfind : p.using_.find? (p.timedOut now) with
      | none => simp [List.filter_eq_nil_iff.mpr (List.find?_eq_none.mp hfind)]
      | some d =>
          have hlen : (p.evict d).using_.length ≤ rounds := length_evict_le hfind hrounds
          have hgive := p.stateBag_.get_giveTo (fun s => s.clientId == d) 0 key
          have htail := ih (p.evict d) hlen
          rw [timedOut_evict] at htail
          rw [(filter_of_find?_eq_some hfind).left]
          refine htail.trans ?_
          show Option.map _ ((p.stateBag_.replaceClientId d 0).get key) = _
          unfold StateBag.replaceClientId
          rw [hgive, Option.map_map]
          apply congrArg (fun f => Option.map f (p.stateBag_.get key))
          funext s
          show (if _ then _ else _) = _
          by_cases hs : s.clientId = d
          · simp [hs]
          · simp [hs, evict, moveToDestroyList]

/-!
## The whole section
-/

theorem openSection_snd (p : ClientPool) (now : Nat) :
    (p.openSection now).2 =
      match p.idle_.find? p.getConnected with
      | some c => some c
      | none => if (p.using_.length : Int) < p.maxClient_ then some (p.lastId_ + 1) else none := by
  have hlimits := reuse_limits p.idle_ p
  unfold openSection
  cases hreuse : p.reuse p.idle_ with
  | mk q c =>
      have hsnd := reuse_snd p.idle_ p
      rw [hreuse] at hsnd hlimits
      dsimp only at hsnd hlimits ⊢
      cases hfind : p.idle_.find? p.getConnected with
      | some d =>
          rw [hfind] at hsnd
          subst hsnd
          rw [if_neg (fun h => nomatch h.left)]
          split
          · rfl
          · rfl
      | none =>
          rw [hfind] at hsnd
          subst hsnd
          have hnone := reuse_none (p := p) (l := p.idle_) (by rw [hreuse])
          rw [hreuse] at hnone
          dsimp only at hnone ⊢
          rcases hnone with ⟨hidle, husing, hmax⟩
          have hsize : q.size = p.using_.length := by
            simp [size, hidle, husing]
          by_cases hroom : (p.using_.length : Int) < p.maxClient_
          · rw [if_pos ⟨rfl, by simp [hidle], by omega⟩, if_pos hroom, hlimits.right.right]
          · rw [if_neg (fun h => hroom (by omega)), if_neg hroom]
            split
            · rfl
            · rfl

theorem openSection_clients (p : ClientPool) (now : Nat) :
    p.lastId_ ≤ (p.openSection now).1.lastId_ ∧
    (p.openSection now).1.usedTimeout_ = p.usedTimeout_ ∧
    forall c, c ≤ p.lastId_ -> (p.openSection now).1.getConnected c = p.getConnected c ∧
      ((p.openSection now).1.clients c).lastUse_ = (p.clients c).lastUse_ := by
  refine PoolSystem.openSection_pool (fun q => p.lastId_ ≤ q.lastId_ ∧
    q.usedTimeout_ = p.usedTimeout_ ∧ forall c, c ≤ p.lastId_ ->
      q.getConnected c = p.getConnected c ∧
        (q.clients c).lastUse_ = (p.clients c).lastUse_) ?_ now
    ⟨Nat.le_refl _, rfl, fun _ _ => ⟨rfl, rfl⟩⟩
  intro t u hmove ht
  rcases ht with ⟨hlast, htimeout, hold⟩
  cases hmove with
  | giveUp _ => exact ⟨hlast, htimeout, hold⟩
  | @reuse c rest _ =>
      refine ⟨hlast, htimeout, fun d hd => ?_⟩
      exact ⟨(getConnected_setInUsing t.pool c d true).trans (hold d hd).left,
        (lastUse_setInUsing t.pool c d true).trans (hold d hd).right⟩
  | create =>
      refine ⟨Nat.le_succ_of_le hlast, htimeout, fun d hd => ?_⟩
      have hne : ¬ d = t.pool.lastId_ + 1 :=
        Nat.ne_of_lt (Nat.lt_succ_of_le (Nat.le_trans hd hlast))
      simpa [create, getConnected, setInUsing, updateClient, hne] using hold d hd
  | @evict c _ =>
      refine ⟨hlast, htimeout, fun d hd => ?_⟩
      exact ⟨(getConnected_setInUsing _ c d false).trans (hold d hd).left,
        (lastUse_setInUsing _ c d false).trans (hold d hd).right⟩

theorem openSection_get_kept {p : ClientPool} {now : Nat} {key : String} {s : ZkState}
    (hget : p.stateBag_.get key = some s) (hconn : p.getConnected s.clientId = true)
    (htimed : p.timedOut now s.clientId = false) :
    (p.openSection now).1.stateBag_.get key = some s := by
  have hreuse : (p.reuse p.idle_).1.stateBag_.get key = some s := by
    have hmet : s.clientId ∉ p.idle_.takeWhile fun c => !p.getConnected c := by
      intro hmem
      have hlost := List.mem_takeWhile_imp hmem
      simp [hconn] at hlost
    rw [reuse_get, hget, Option.map_some, if_neg hmet]
  rcases p.openSection_cases now with ⟨_, _, hopen⟩ | ⟨_, hopen⟩ | ⟨_, hopen⟩
  · rw [hopen]
    exact hreuse
  · rw [hopen]
    dsimp only
    rw [evictLoop_get now _ _ (Nat.le_refl _), hreuse, Option.map_some, if_neg]
    rw [List.mem_filter, reuse_timedOut, htimed]
    exact fun hmem => Bool.false_ne_true hmem.right
  · rw [hopen]
    exact hreuse

section Section

variable {p : ClientPool} (hdisjoint : forall c, c ∈ p.using_ -> c ∉ p.idle_)

include hdisjoint in
theorem mem_openSection_using_ (now : Nat) (c : ClientId) :
    c ∈ (p.openSection now).1.using_ <->
      (c ∈ p.using_ ∨ (p.openSection now).2 = some c) ∧ ¬ p.Evictable now c := by
  have hsnd := reuse_snd p.idle_ p
  rcases p.openSection_cases now with ⟨hnone, hroom, hopen⟩ | ⟨hfull, hopen⟩ | ⟨hroom, hopen⟩
  · have hnot : ¬ p.Evictable now c := not_evictable hdisjoint (by omega)
    have husing := (reuse_none hnone).right.left
    rw [hopen]
    dsimp only [create, setInUsing, updateClient]
    rw [mem_insertClient, husing, Option.some.injEq]
    tauto
  · rw [hopen]
    dsimp only
    rw [(evictLoop_moves now _ _ (Nat.le_refl _)).left, List.mem_filter,
      evictable_iff hdisjoint hfull, mem_reuse, hsnd, Bool.not_eq_true', Bool.eq_false_iff]
    tauto
  · have hnot : ¬ p.Evictable now c := not_evictable hdisjoint hroom
    rw [hopen, hsnd]
    dsimp only
    rw [mem_reuse]
    tauto

theorem openSection_idle_ (now : Nat) :
    (p.openSection now).1.idle_ = (p.idle_.dropWhile fun c => !p.getConnected c).tail := by
  rcases p.openSection_cases now with ⟨_, _, hopen⟩ | ⟨_, hopen⟩ | ⟨_, hopen⟩
  · rw [hopen]
    exact reuse_idle_ p.idle_ p
  · rw [hopen]
    dsimp only
    rw [evictLoop_idle_]
    exact reuse_idle_ p.idle_ p
  · rw [hopen]
    exact reuse_idle_ p.idle_ p

include hdisjoint in
theorem mem_openSection_toDestrory_ (now : Nat) (c : ClientId) :
    c ∈ (p.openSection now).1.toDestrory_ <->
      c ∈ p.toDestrory_ ∨ c ∈ p.met ∨ p.Evictable now c := by
  have hreuse := reuse_toDestrory_ p.idle_ p
  have hmem : c ∈ (p.reuse p.idle_).1.toDestrory_ <-> c ∈ p.toDestrory_ ∨ c ∈ p.met := by
    rw [hreuse, List.mem_append]
    exact Iff.rfl
  rcases p.openSection_cases now with ⟨_, hroom, hopen⟩ | ⟨hfull, hopen⟩ | ⟨hroom, hopen⟩
  · have hnot : ¬ p.Evictable now c := not_evictable hdisjoint (by omega)
    rw [hopen]
    show c ∈ (p.reuse p.idle_).1.toDestrory_ <-> _
    rw [hmem]
    tauto
  · rw [hopen]
    dsimp only
    rw [(evictLoop_moves now _ _ (Nat.le_refl _)).right, List.mem_append, List.mem_filter,
      hmem, <- evictable_iff hdisjoint hfull]
    tauto
  · have hnot : ¬ p.Evictable now c := not_evictable hdisjoint hroom
    rw [hopen]
    dsimp only
    rw [hmem]
    tauto

theorem openSection_get (now : Nat) {key : String} {s : ZkState}
    (hget : p.stateBag_.get key = some s) (hmet : s.clientId ∈ p.met) :
    (p.openSection now).1.stateBag_.get key = some { s with clientId := 0 } := by
  have hreuse : (p.reuse p.idle_).1.stateBag_.get key = some { s with clientId := 0 } := by
    rw [reuse_get, hget, Option.map_some]
    exact congrArg some (if_pos hmet)
  rcases p.openSection_cases now with ⟨_, _, hopen⟩ | ⟨_, hopen⟩ | ⟨_, hopen⟩
  · rw [hopen]
    exact hreuse
  · rw [hopen]
    dsimp only
    rw [evictLoop_get now _ _ (Nat.le_refl _), hreuse, Option.map_some]
    exact congrArg some (ite_self _)
  · rw [hopen]
    exact hreuse

end Section

/-!
## Pools that hand out no client
-/

/-- `open` hands out a client, at once or when clients in use have timed out. -/
def MayHandOut (p : ClientPool) : Prop :=
  (exists c, c ∈ p.idle_ ∧ p.getConnected c = true) ∨
  (p.using_.length : Int) < p.maxClient_ ∨
  ((p.using_.length : Int) = p.maxClient_ ∧
    exists now c, c ∈ p.using_ ∧ p.timedOut now c = true)

/-- Without a client to hand out, the idle ones are given up and the full pool is searched. -/
theorem openSection_of_none {p : ClientPool} {now : Nat} (h : (p.openSection now).2 = none) :
    p.idle_.find? p.getConnected = none ∧ ¬ (p.using_.length : Int) < p.maxClient_ ∧
    (p.openSection now).1 =
      if (p.using_.length : Int) = p.maxClient_ then
        evictLoop now p.using_.length (p.reuse p.idle_).1
      else (p.reuse p.idle_).1 := by
  rw [openSection_snd] at h
  cases hfind : p.idle_.find? p.getConnected with
  | some c =>
      rw [hfind] at h
      cases h
  | none =>
      rw [hfind] at h
      have hroom : ¬ (p.using_.length : Int) < p.maxClient_ := by
        intro hroom
        rw [if_pos hroom] at h
        cases h
      have hreuse : (p.reuse p.idle_).2 = none := (reuse_snd p.idle_ p).trans hfind
      rcases reuse_none hreuse with ⟨hidle, husing, hmax⟩
      have hsize : (p.reuse p.idle_).1.size = p.using_.length := by
        simp [size, hidle, husing]
      refine ⟨rfl, hroom, ?_⟩
      rcases p.openSection_cases now with ⟨_, hless, _⟩ | ⟨hfull, hopen⟩ | ⟨hother, hopen⟩
      · rw [hsize, hmax] at hless
        exact absurd hless hroom
      · rw [hsize, hmax] at hfull
        rw [hopen, if_pos hfull, husing]
      · rw [hsize, hmax] at hother
        rw [hopen, if_neg hother]

theorem openSection_of_not_mayHandOut {p : ClientPool} (h : ¬ p.MayHandOut) (now : Nat) :
    (p.openSection now).2 = none ∧ ¬ (p.openSection now).1.MayHandOut := by
  have hfind : p.idle_.find? p.getConnected = none := by
    apply List.find?_eq_none.mpr
    exact fun c hc hconn => h (Or.inl ⟨c, hc, hconn⟩)
  have hroom : ¬ (p.using_.length : Int) < p.maxClient_ := fun hroom => h (Or.inr (Or.inl hroom))
  have hnone : (p.openSection now).2 = none := by
    rw [openSection_snd, hfind]
    exact if_neg hroom
  have hreuse : (p.reuse p.idle_).2 = none := (reuse_snd p.idle_ p).trans hfind
  rcases reuse_none hreuse with ⟨hidle, husing, hmax⟩
  have hstays : ¬ (p.reuse p.idle_).1.MayHandOut := by
    intro hmay
    rcases hmay with ⟨c, hc, _⟩ | hless | ⟨hfull, later, c, hc, htimed⟩
    · rw [hidle] at hc
      cases hc
    · rw [husing, hmax] at hless
      exact hroom hless
    · rw [husing] at hc hfull
      rw [hmax] at hfull
      rw [reuse_timedOut] at htimed
      exact h (Or.inr (Or.inr ⟨hfull, later, c, hc, htimed⟩))
  refine ⟨hnone, ?_⟩
  rw [(openSection_of_none hnone).right.right]
  by_cases hfull : (p.using_.length : Int) = p.maxClient_
  · have hkeep : evictLoop now p.using_.length (p.reuse p.idle_).1 = (p.reuse p.idle_).1 := by
      apply evictLoop_of_none
      apply List.find?_eq_none.mpr
      intro c hc htimed
      rw [husing] at hc
      rw [reuse_timedOut] at htimed
      exact h (Or.inr (Or.inr ⟨hfull, now, c, hc, htimed⟩))
    rw [if_pos hfull, hkeep]
    exact hstays
  · rw [if_neg hfull]
    exact hstays

theorem evictLoop_maxClient_ (now rounds : Nat) (p : ClientPool) :
    (evictLoop now rounds p).maxClient_ = p.maxClient_ := by
  induction rounds generalizing p with
  | zero => rfl
  | succ rounds ih =>
      unfold evictLoop
      cases p.using_.find? (p.timedOut now) with
      | none => rfl
      | some d => exact ih (p.evict d)

theorem openSection_makes_room {p : ClientPool} {now : Nat} {c : ClientId}
    (hnone : (p.openSection now).2 = none) (hfull : (p.using_.length : Int) = p.maxClient_)
    (hc : c ∈ p.using_) (htimed : p.timedOut now c = true) :
    ((p.openSection now).1.using_.length : Int) < (p.openSection now).1.maxClient_ := by
  rcases openSection_of_none hnone with ⟨hfind, _, hopen⟩
  rcases reuse_none ((reuse_snd p.idle_ p).trans hfind) with ⟨_, husing, hmax⟩
  have hless : (evictLoop now p.using_.length (p.reuse p.idle_).1).using_.length <
      p.using_.length := by
    have hrounds : (p.reuse p.idle_).1.using_.length ≤ p.using_.length :=
      Nat.le_of_eq (congrArg List.length husing)
    rw [(evictLoop_moves now _ _ hrounds).left, husing]
    apply List.length_filter_lt_length_iff_exists.mpr
    refine ⟨c, hc, ?_⟩
    rw [reuse_timedOut, htimed]
    exact Bool.false_ne_true
  rw [hopen, if_pos hfull, evictLoop_maxClient_, hmax, <- hfull]
  exact Int.ofNat_lt.mpr hless

end ClientPool

end FrProxy
