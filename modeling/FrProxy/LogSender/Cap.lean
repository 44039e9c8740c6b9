import FrProxy.LogSender.Delivery

/-!
# The limit of the list

`write` keeps the list within `n_maxcache` by dropping its first entry, and does
not see the entry in flight.  `send_log` puts that one back also into a list
that is full.
-/

namespace FrProxy

namespace LogSystem

def droppedSince (s s' : LogSystem) : List PlacedEntry :=
  s'.dropped.drop s.dropped.length

/-- The list is within its limit, and what was dropped is older than all that is undelivered. -/
def WithinCap (s : LogSystem) (_ : LogAction) (s' : LogSystem) : Prop :=
  (s'.sender.msg_list.length : Int) ≤ s'.sender.n_maxcache.toInt ∧
    forall old, old ∈ droppedSince s s' ->
      forall entry, entry ∈ s'.undelivered -> old.place < entry.place

instance (s : LogSystem) (a : LogAction) (s' : LogSystem) : Decidable (s.WithinCap a s') :=
  inferInstanceAs (Decidable (_ ∧ _))

/-- A full list is written to only while nothing is in flight, and nothing is put back to one. -/
def RoomFor (s : LogSystem) (a : LogAction) : Prop :=
  match a with
  | .write _ => s.sender.maxcache ≤ s.sender.msg_list.length -> s.worker.inFlight = []
  | .push => s.sender.msg_list.length < s.sender.maxcache
  | _ => True

instance (s : LogSystem) (a : LogAction) : Decidable (s.RoomFor a) :=
  match a with
  | .write _ =>
      inferInstanceAs (Decidable (s.sender.maxcache ≤ s.sender.msg_list.length ->
        s.worker.inFlight = []))
  | .push => Nat.decLt _ _
  | .test => instDecidableTrue
  | .pop => instDecidableTrue
  | .remote _ => instDecidableTrue
  | .wake => instDecidableTrue
  | .uninit => instDecidableTrue

/-!
## The limit and the order
-/

theorem maxcache_eq {b : BufferedLogSender} (h : 0 ≤ b.n_maxcache.toInt) :
    (b.maxcache : Int) = b.n_maxcache.toInt := by
  have hlt := b.n_maxcache.toInt_lt
  unfold BufferedLogSender.maxcache
  omega

theorem n_maxcache_step {s s' : LogSystem} {a : LogAction} (hstep : step s a = some s') :
    s'.sender.n_maxcache = s.sender.n_maxcache := by
  cases effect_of_step hstep with
  | _ => rfl

theorem InOrder.overflow {s : LogSystem} (h : InOrder s) {log : LogEntry} {first : PlacedEntry}
    {rest : List PlacedEntry} (hlist : s.sender.msg_list ++ [s.next log] = first :: rest) :
    (s.worker.inFlight ++ first :: rest).Pairwise fun a b => a.place < b.place := by
  have hall := h.next_pairwise log
  rw [undelivered, List.append_assoc, hlist] at hall
  exact hall

structure Bounded (s : LogSystem) : Prop where
  inOrder : InOrder s
  nonneg : 0 ≤ s.sender.n_maxcache.toInt
  length : s.sender.msg_list.length ≤ s.sender.maxcache

theorem Bounded.withinCap {s s' : LogSystem} {a : LogAction} (hstep : step s a = some s')
    (h : Bounded s) (hroom : RoomFor s a) :
    s'.sender.msg_list.length ≤ s'.sender.maxcache ∧
      forall old, old ∈ droppedSince s s' ->
        forall entry, entry ∈ s'.undelivered -> old.place < entry.place := by
  cases effect_of_step hstep with
  | stored log hlt =>
      refine ⟨?_, by simp [droppedSince]⟩
      show (s.sender.msg_list ++ [s.next log]).length ≤ s.sender.maxcache
      rw [List.length_append, List.length_singleton]
      exact hlt
  | overflowed log first rest hfull hlist =>
      have hflight := hroom hfull
      have hlen := congrArg List.length hlist
      rw [List.length_append, List.length_singleton, List.length_cons] at hlen
      refine ⟨?_, ?_⟩
      · show rest.length ≤ s.sender.maxcache
        have hle := h.length
        omega
      · have hordered := h.inOrder.overflow hlist
        rw [hflight, List.nil_append, List.pairwise_cons] at hordered
        simpa [droppedSince, undelivered, hflight] using hordered.left
  | taken last first rest _ hlist =>
      refine ⟨?_, by simp [droppedSince]⟩
      have hle := h.length
      rw [hlist, List.length_cons] at hle
      exact Nat.le_of_succ_le hle
  | putBack last first _ _ =>
      refine ⟨?_, by simp [droppedSince]⟩
      exact hroom
  | refused last first _ hfull => exact absurd h.length (Nat.not_le_of_lt hfull)
  | _ => exact ⟨h.length, by simp [droppedSince]⟩

theorem bounded_step {s s' : LogSystem} {a : LogAction} (hstep : step s a = some s')
    (h : Bounded s) (hroom : RoomFor s a) : Bounded s' ∧ WithinCap s a s' := by
  rcases h.withinCap hstep hroom with ⟨hlength, holdest⟩
  have hnonneg : 0 ≤ s'.sender.n_maxcache.toInt := by
    rw [n_maxcache_step hstep]
    exact h.nonneg
  refine ⟨⟨inOrder_step hstep h.inOrder, hnonneg, hlength⟩, ?_, holdest⟩
  rw [<- maxcache_eq hnonneg]
  exact Int.ofNat_le.mpr hlength

theorem roomFor_of_withinCap {s s' : LogSystem} {a : LogAction} (hstep : step s a = some s')
    (h : Bounded s) (hcap : WithinCap s a s') : RoomFor s a := by
  rcases hcap with ⟨hlength, holdest⟩
  rw [n_maxcache_step hstep, <- maxcache_eq h.nonneg] at hlength
  have hlength := Int.ofNat_le.mp hlength
  cases effect_of_step hstep with
  | stored log hlt =>
      intro hfull
      exact absurd hfull (Nat.not_le_of_lt hlt)
  | overflowed log first rest hfull hlist =>
      intro _
      cases hflight : s.worker.inFlight with
      | nil => rfl
      | cons held tail =>
          have hordered := h.inOrder.overflow hlist
          rw [hflight, List.cons_append, List.pairwise_cons] at hordered
          have hyounger : held.place < first.place :=
            hordered.left first (List.mem_append_right _ List.mem_cons_self)
          have holder : first.place < held.place := by
            apply holdest first (by simp [droppedSince])
            simp [undelivered, hflight]
          exact absurd hyounger (Nat.lt_asymm holder)
  | putBack last first _ _ => exact hlength
  | refused last first _ hfull => exact absurd h.length (Nat.not_le_of_lt hfull)
  | moved a worker b_exit hwrite hpush _ =>
      cases a with
      | write log => exact absurd rfl (hwrite log)
      | push => exact absurd rfl hpush
      | _ => trivial
  | _ => trivial

/--
In a run the list stays within `n_maxcache` and loses only what is oldest exactly
when no call of `write` finds a full list and an entry in flight, and no entry is
put back to a full list.
-/
theorem within_cap_iff (n_maxcache : Int32) (hnonneg : 0 ≤ n_maxcache)
    (actions : List LogAction) :
    (forall s a s', (s, a, s') ∈ runFrom n_maxcache actions -> WithinCap s a s') <->
    forall s a s', (s, a, s') ∈ runFrom n_maxcache actions -> RoomFor s a :=
  Transition.good_iff_guarded step Bounded RoomFor WithinCap
    (fun _ _ _ hstep h hroom => bounded_step hstep h hroom)
    (fun _ _ _ hstep h hcap => roomFor_of_withinCap hstep h hcap)
    actions ⟨inOrder_start n_maxcache, Int32.le_iff_toInt_le.mp hnonneg, Nat.zero_le _⟩

section Example

private def line1 : LogEntry := { category := "frproxy", message := "1" }

private def line2 : LogEntry := { category := "frproxy", message := "2" }

/-- The second entry is written while the first one is on its way, which fails. -/
private def writeWhileSending : List LogAction :=
  [.write line1, .test, .pop, .write line2, .remote .thrown, .push]

theorem cap_exceeded :
    ¬ forall (n_maxcache : Int32) (_ : 0 ≤ n_maxcache) (actions : List LogAction)
      (s : LogSystem) (a : LogAction) (s' : LogSystem),
      (s, a, s') ∈ runFrom n_maxcache actions -> WithinCap s a s' := by
  intro h
  have hall : forall x, x ∈ runFrom 1 writeWhileSending -> WithinCap x.1 x.2.1 x.2.2 :=
    fun x hx => h 1 (by decide) writeWhileSending x.1 x.2.1 x.2.2 hx
  revert hall
  decide

/-- The same, with the second entry after the first one was put back. -/
private def writeAfterSending : List LogAction :=
  [.write line1, .test, .pop, .remote .thrown, .push, .write line2]

theorem cap_kept :
    ((after 1 writeAfterSending).sender.msg_list.length : Int) ≤
      (after 1 writeAfterSending).sender.n_maxcache.toInt := by
  have hroom : forall x, x ∈ runFrom 1 writeAfterSending -> RoomFor x.1 x.2.1 := by
    decide
  have hiff := within_cap_iff 1 (by decide) writeAfterSending
  have hcap := hiff.mpr fun s a s' hmem => hroom (s, a, s') hmem
  exact Transition.final_of_transitions
    (P := fun s => (s.sender.msg_list.length : Int) ≤ s.sender.n_maxcache.toInt) step
    writeAfterSending (by decide) fun s a s' hmem => (hcap s a s' hmem).left

end Example

/-!
## The limit that holds
-/

theorem length_step {s s' : LogSystem} {a : LogAction} (hstep : step s a = some s')
    (h : s.undelivered.length ≤ s.sender.maxcache + 1) :
    s'.undelivered.length ≤ s'.sender.maxcache + 1 := by
  have hflight : s.worker.inFlight.length ≤ 1 := by
    cases s.worker <;> simp [LogWorker.inFlight]
  unfold undelivered at h
  rw [List.length_append] at h
  unfold undelivered
  rw [List.length_append]
  cases effect_of_step hstep with
  | stored log hlt =>
      show s.worker.inFlight.length + (s.sender.msg_list ++ [s.next log]).length ≤
        s.sender.maxcache + 1
      rw [List.length_append, List.length_singleton]
      omega
  | overflowed log first rest _ hlist =>
      have hlen := congrArg List.length hlist
      rw [List.length_append, List.length_singleton, List.length_cons] at hlen
      show s.worker.inFlight.length + rest.length ≤ s.sender.maxcache + 1
      omega
  | taken last first rest _ hlist =>
      rw [hlist, List.length_cons] at h
      show 1 + rest.length ≤ s.sender.maxcache + 1
      omega
  | sent call last first _ =>
      show 0 + s.sender.msg_list.length ≤ s.sender.maxcache + 1
      omega
  | putBack last first hworker _ =>
      rw [hworker] at h
      show (LogWorker.returned last).inFlight.length + (s.sender.msg_list.length + 1) ≤
        s.sender.maxcache + 1
      rw [LogWorker.inFlight_returned, List.length_nil, Nat.zero_add, Nat.add_comm]
      exact h
  | refused last first _ _ =>
      show (LogWorker.returned last).inFlight.length + s.sender.msg_list.length ≤
        s.sender.maxcache + 1
      rw [LogWorker.inFlight_returned, List.length_nil]
      omega
  | moved a worker b_exit _ _ hsame =>
      show worker.inFlight.length + s.sender.msg_list.length ≤ s.sender.maxcache + 1
      rw [hsame]
      exact h

theorem length_after (n_maxcache : Int32) (actions : List LogAction) :
    (after n_maxcache actions).undelivered.length ≤
      (after n_maxcache actions).sender.maxcache + 1 :=
  Transition.final_keeps step (fun _ _ _ hstep h _ => length_step hstep h) actions
    (Nat.zero_le _) (fun _ _ => trivial)

theorem put_back_after (n_maxcache : Int32) (actions : List LogAction) :
    let s := after n_maxcache actions
    forall last first, s.worker = .pushing last first ->
      s.sender.pushFront first = ({ s.sender with msg_list := first :: s.sender.msg_list }, []) := by
  intro s last first hworker
  have hlength : s.undelivered.length ≤ s.sender.maxcache + 1 := length_after n_maxcache actions
  rw [undelivered, hworker, List.length_append] at hlength
  have hroom : s.sender.msg_list.length ≤ s.sender.maxcache := by
    simp only [LogWorker.inFlight, List.length_singleton] at hlength
    omega
  exact if_pos hroom

end LogSystem

end FrProxy
