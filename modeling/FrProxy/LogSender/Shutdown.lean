import FrProxy.LogSender.Cap

/-!
# The end of the sender

`uninit` sets `b_exit` and waits for the worker.  The worker ends after a number
of steps that depends on the length of the list alone, and if the remote end
accepts what it sends, it ends in front of an empty list.
-/

namespace FrProxy

namespace LogSystem

/-- The steps of the worker, without those of its callers. -/
def worked : LogAction -> Bool
  | .write _ => false
  | .uninit => false
  | _ => true

def wrote : LogAction -> Bool
  | .write _ => true
  | _ => false

inductive Turn (b_exit : Bool) :
    LogAction -> LogWorker -> List PlacedEntry -> LogWorker -> List PlacedEntry -> Prop where
  | tested (l : List PlacedEntry) : Turn b_exit .test .testing l (.popping b_exit) l
  | found (last : Bool) (first : PlacedEntry) (l : List PlacedEntry) :
      Turn b_exit .pop (.popping last) (first :: l) (.writing last first) l
  | empty (last : Bool) : Turn b_exit .pop (.popping last) [] (.returned last) []
  | sent (call : RemoteCall) (last : Bool) (first : PlacedEntry) (l : List PlacedEntry)
      (hcall : LogWriter.write call = 0) :
      Turn b_exit (.remote call) (.writing last first) l (.popping last) l
  | failed (call : RemoteCall) (last : Bool) (first : PlacedEntry) (l : List PlacedEntry)
      (hcall : LogWriter.write call ≠ 0) :
      Turn b_exit (.remote call) (.writing last first) l (.pushing last first) l
  | pushed (last : Bool) (first : PlacedEntry) (l l' : List PlacedEntry)
      (hlist : l' = l ∨ l' = first :: l) :
      Turn b_exit .push (.pushing last first) l (.returned last) l'
  | woken (l : List PlacedEntry) : Turn b_exit .wake .sleeping l .testing l

theorem turn_of_step {s s' : LogSystem} {a : LogAction} (hstep : step s a = some s')
    (hworked : worked a = true) :
    Turn s.sender.b_exit a s.worker s.sender.msg_list s'.worker s'.sender.msg_list ∧
      s'.sender.b_exit = s.sender.b_exit := by
  cases a with
  | write log => cases hworked
  | uninit => cases hworked
  | test =>
      cases hworker : s.worker with
      | testing =>
          simp only [step, hworker, Option.some.injEq] at hstep
          rw [<- hstep]
          exact ⟨.tested _, rfl⟩
      | _ => simp [step, hworker] at hstep
  | pop =>
      cases hworker : s.worker with
      | popping last =>
          cases hlist : s.sender.msg_list with
          | nil =>
              simp only [step, hworker, BufferedLogSender.popFront, hlist, Option.some.injEq]
                at hstep
              rw [<- hstep, hlist]
              exact ⟨.empty last, rfl⟩
          | cons first rest =>
              simp only [step, hworker, BufferedLogSender.popFront, hlist, Option.some.injEq]
                at hstep
              rw [<- hstep]
              exact ⟨.found last first rest, rfl⟩
      | _ => simp [step, hworker] at hstep
  | remote call =>
      cases hworker : s.worker with
      | writing last first =>
          simp only [step, hworker] at hstep
          by_cases hcall : LogWriter.write call = 0
          · rw [if_neg (not_not.mpr hcall)] at hstep
            cases hstep
            exact ⟨.sent call last first _ hcall, rfl⟩
          · rw [if_pos hcall] at hstep
            cases hstep
            exact ⟨.failed call last first _ hcall, rfl⟩
      | _ => simp [step, hworker] at hstep
  | push =>
      cases hworker : s.worker with
      | pushing last first =>
          simp only [step, hworker, BufferedLogSender.pushFront, Option.some.injEq] at hstep
          rw [<- hstep]
          split
          · exact ⟨.pushed last first _ _ (Or.inr rfl), rfl⟩
          · exact ⟨.pushed last first _ _ (Or.inl rfl), rfl⟩
      | _ => simp [step, hworker] at hstep
  | wake =>
      cases hworker : s.worker with
      | sleeping =>
          simp only [step, hworker, Option.some.injEq] at hstep
          rw [<- hstep]
          exact ⟨.woken _, rfl⟩
      | _ => simp [step, hworker] at hstep

/-!
## How long it takes
-/

/-- How many steps the worker makes at most when it finds an empty list. -/
def stepsLeft : LogWorker -> Nat
  | .ended => 0
  | .popping last => if last then 3 else 8
  | .pushing last _ => if last then 3 else 8
  | .writing last _ => if last then 4 else 9
  | .testing => 4
  | .sleeping => 5

def fuel (worker : LogWorker) (l : List PlacedEntry) : Nat :=
  2 * l.length + stepsLeft worker

theorem stepsLeft_le (worker : LogWorker) : stepsLeft worker ≤ 9 := by
  cases worker with
  | popping last => cases last <;> decide
  | pushing last _ => cases last <;> exact Nat.le_of_ble_eq_true rfl
  | writing last _ => cases last <;> exact Nat.le_of_ble_eq_true rfl
  | _ => decide

theorem stepsLeft_returned (last : Bool) :
    stepsLeft (.returned last) + 3 ≤ if last then 3 else 8 := by
  cases last <;> decide

theorem Turn.fuel_lt {a : LogAction} {worker worker' : LogWorker} {l l' : List PlacedEntry}
    (h : Turn true a worker l worker' l') : fuel worker' l' < fuel worker l := by
  cases h with
  | tested => exact Nat.lt_succ_self _
  | found last first =>
      simp only [fuel, stepsLeft, List.length_cons]
      cases last
      · simp only [Bool.false_eq_true, if_false]
        omega
      · simp only [if_true]
        omega
  | empty last =>
      have h := stepsLeft_returned last
      show 2 * 0 + stepsLeft (.returned last) < 2 * 0 + if last then 3 else 8
      omega
  | sent _ last => cases last <;> exact Nat.lt_succ_self _
  | failed _ last => cases last <;> exact Nat.lt_succ_self _
  | pushed last first _ _ hlist =>
      have h := stepsLeft_returned last
      have hlen : l'.length ≤ l.length + 1 := by
        rcases hlist with rfl | rfl
        · exact Nat.le_succ _
        · exact Nat.le_refl _
      show 2 * l'.length + stepsLeft (.returned last) < 2 * l.length + if last then 3 else 8
      omega
  | woken => exact Nat.lt_succ_self _

theorem write_length (s : LogSystem) (log : LogEntry) :
    (s.sender.write (s.next log)).1.msg_list.length ≤ s.sender.msg_list.length + 1 ∧
      (s.sender.write (s.next log)).1.b_exit = s.sender.b_exit := by
  rcases s.sender.write_cases (s.next log) with ⟨_, hwrite⟩ | ⟨_, first, rest, hlist, hwrite⟩
  · rw [hwrite]
    exact ⟨by simp, rfl⟩
  · have hlen := congrArg List.length hlist
    rw [List.length_append, List.length_singleton, List.length_cons] at hlen
    rw [hwrite]
    exact ⟨Nat.le_of_succ_le (Nat.le_of_eq hlen.symm), rfl⟩

theorem fuel_step {s s' : LogSystem} {a : LogAction} (hstep : step s a = some s')
    (hexit : s.sender.b_exit = true) :
    s'.sender.b_exit = true ∧
      fuel s'.worker s'.sender.msg_list + (worked a).toNat ≤
        fuel s.worker s.sender.msg_list + 2 * (wrote a).toNat := by
  cases hworked : worked a with
  | true =>
      rcases turn_of_step hstep hworked with ⟨hturn, hsame⟩
      rw [hexit] at hturn
      exact ⟨hsame.trans hexit, Nat.le_add_right_of_le hturn.fuel_lt⟩
  | false =>
      cases a with
      | write log =>
          rcases write_length s log with ⟨hlen, hsame⟩
          cases hstep
          refine ⟨hsame.trans hexit, ?_⟩
          show 2 * (s.sender.write (s.next log)).1.msg_list.length + stepsLeft s.worker + 0 ≤
            2 * s.sender.msg_list.length + stepsLeft s.worker + 2
          omega
      | uninit =>
          cases hstep
          exact ⟨rfl, Nat.le_refl _⟩
      | _ => cases hworked

theorem worker_enabled (s : LogSystem) (hworker : s.worker ≠ .ended) :
    exists a, worked a = true ∧ (step s a).isSome = true := by
  cases hw : s.worker with
  | testing => exact ⟨.test, rfl, by simp [step, hw]⟩
  | popping last =>
      refine ⟨.pop, rfl, ?_⟩
      simp only [step, hw]
      split <;> rfl
  | writing last first =>
      refine ⟨.remote .thrown, rfl, ?_⟩
      simp only [step, hw]
      split <;> rfl
  | pushing last first => exact ⟨.push, rfl, by simp [step, hw]⟩
  | sleeping => exact ⟨.wake, rfl, by simp [step, hw]⟩
  | ended => exact absurd hw hworker

/-!
## What is left behind
-/

def Unfailed (worker : LogWorker) : Prop :=
  forall first, worker ≠ .pushing true first

theorem unfailed_returned (last : Bool) : Unfailed (.returned last) := by
  intro first
  cases last <;> exact LogWorker.noConfusion

theorem Turn.unfailed {b_exit : Bool} {a : LogAction} {worker worker' : LogWorker}
    {l l' : List PlacedEntry} (h : Turn b_exit a worker l worker' l')
    (hcall : forall call, a = .remote call -> LogWriter.write call = 0) : Unfailed worker' := by
  cases h with
  | tested => exact fun _ => LogWorker.noConfusion
  | found => exact fun _ => LogWorker.noConfusion
  | empty last => exact unfailed_returned last
  | sent => exact fun _ => LogWorker.noConfusion
  | failed call _ _ _ hfail => exact absurd (hcall call rfl) hfail
  | pushed last => exact unfailed_returned last
  | woken => exact fun _ => LogWorker.noConfusion

theorem Turn.ends_empty {b_exit : Bool} {a : LogAction} {worker worker' : LogWorker}
    {l l' : List PlacedEntry} (h : Turn b_exit a worker l worker' l') (hw : Unfailed worker)
    (hended : worker' = .ended) : l' = [] := by
  cases h with
  | empty => rfl
  | pushed last first =>
      cases last with
      | true => exact absurd rfl (hw first)
      | false => cases hended
  | _ => cases hended

theorem unfailed_step {s s' : LogSystem} {a : LogAction} (hstep : step s a = some s')
    (h : Unfailed s.worker) (hcall : forall call, a = .remote call -> LogWriter.write call = 0) :
    Unfailed s'.worker := by
  cases hworked : worked a with
  | true => exact (turn_of_step hstep hworked).left.unfailed hcall
  | false =>
      cases a with
      | write log =>
          cases hstep
          exact h
      | uninit =>
          cases hstep
          exact h
      | _ => cases hworked

theorem ended_step {s s' : LogSystem} {a : LogAction} (hstep : step s a = some s')
    (h : Unfailed s.worker) (hbefore : s.worker ≠ .ended) (hafter : s'.worker = .ended) :
    s'.undelivered = [] := by
  cases hworked : worked a with
  | true =>
      rw [undelivered, (turn_of_step hstep hworked).left.ends_empty h hafter, hafter]
      rfl
  | false =>
      cases a with
      | write log =>
          cases hstep
          exact absurd hafter hbefore
      | uninit =>
          cases hstep
          exact absurd hafter hbefore
      | _ => cases hworked

structure Holding (s t : LogSystem) : Prop where
  room : t.undelivered.length ≤ t.sender.maxcache + 1
  dropped : t.dropped = s.dropped
  line : t.delivered ++ t.undelivered = s.delivered ++ s.undelivered

theorem Holding.step {r s s' : LogSystem} {a : LogAction} (h : Holding r s)
    (hstep : step s a = some s') (hwrite : forall log, a ≠ .write log) : Holding r s' := by
  have hroom := length_step hstep h.room
  cases effect_of_step hstep with
  | stored log _ => exact absurd rfl (hwrite log)
  | overflowed log => exact absurd rfl (hwrite log)
  | taken last first rest hworker hlist =>
      have hsame : s.undelivered = first :: rest := by
        rw [undelivered, hworker, hlist]
        rfl
      refine ⟨hroom, h.dropped, ?_⟩
      rw [<- h.line, hsame]
      rfl
  | sent call last first hworker =>
      have hsame : s.undelivered = first :: s.sender.msg_list := by
        rw [undelivered, hworker]
        rfl
      refine ⟨hroom, h.dropped, ?_⟩
      rw [<- h.line, hsame]
      exact List.append_assoc s.delivered [first] s.sender.msg_list
  | putBack last first hworker _ =>
      have hsame : s.undelivered = first :: s.sender.msg_list := by
        rw [undelivered, hworker]
        rfl
      refine ⟨hroom, h.dropped, ?_⟩
      rw [<- h.line, hsame, undelivered, LogWorker.inFlight_returned]
      rfl
  | refused last first hworker hfull =>
      have hover := h.room
      rw [undelivered, hworker, List.length_append] at hover
      simp only [LogWorker.inFlight, List.length_singleton] at hover
      omega
  | moved a worker b_exit _ _ hflight =>
      refine ⟨hroom, h.dropped, ?_⟩
      rw [<- h.line, undelivered, undelivered, hflight]

/-!
## The whole
-/

/-- The worker is in the call of `send_log` after its loop, or has left it. -/
def atLast : LogWorker -> Bool
  | .popping last => last
  | .writing last _ => last
  | .pushing last _ => last
  | .ended => true
  | _ => false

def Looping (s : LogSystem) : Prop :=
  s.sender.b_exit = false ∧ atLast s.worker = false

theorem atLast_returned (last : Bool) : atLast (.returned last) = last := by
  cases last <;> rfl

theorem Turn.looping {a : LogAction} {worker worker' : LogWorker} {l l' : List PlacedEntry}
    (h : Turn false a worker l worker' l') (hw : atLast worker = false) :
    atLast worker' = false := by
  cases h with
  | tested => rfl
  | found => exact hw
  | empty last => exact (atLast_returned last).trans hw
  | sent => exact hw
  | failed => exact hw
  | pushed last => exact (atLast_returned last).trans hw
  | woken => rfl

theorem looping_step {s s' : LogSystem} {a : LogAction} (hstep : step s a = some s')
    (h : Looping s) (ha : a ≠ .uninit) : Looping s' := by
  cases hworked : worked a with
  | true =>
      rcases turn_of_step hstep hworked with ⟨hturn, hsame⟩
      rw [h.left] at hturn
      exact ⟨hsame.trans h.left, hturn.looping h.right⟩
  | false =>
      cases a with
      | write log =>
          have hsame := (write_length s log).right
          cases hstep
          exact ⟨hsame.trans h.left, h.right⟩
      | uninit => exact absurd rfl ha
      | _ => cases hworked

/-- What holds after `uninit`, if nobody writes and the remote end takes what it is sent. -/
structure Draining (s t : LogSystem) : Prop where
  unfailed : Unfailed t.worker
  holding : Holding s t
  ended : t.worker = .ended -> t.undelivered = []

theorem Draining.step {r s s' : LogSystem} {a : LogAction} (h : Draining r s)
    (hstep : step s a = some s') (hwrite : forall log, a ≠ .write log)
    (hcall : forall call, a = .remote call -> LogWriter.write call = 0) : Draining r s' := by
  refine ⟨unfailed_step hstep h.unfailed hcall, h.holding.step hstep hwrite, fun hended => ?_⟩
  by_cases hbefore : s.worker = .ended
  · cases a with
    | write log => exact absurd rfl (hwrite log)
    | uninit =>
        cases hstep
        exact h.ended hbefore
    | _ => simp [LogSystem.step, hbefore] at hstep
  · exact ended_step hstep h.unfailed hbefore hended

theorem Looping.unfailed {s : LogSystem} (h : Looping s) : Unfailed s.worker := by
  intro first hworker
  have hlast := h.right
  rw [hworker] at hlast
  cases hlast

/--
After `uninit` the worker makes a bounded number of steps, and can make one until it
has ended.  If the remote end takes what it is sent, nothing is undelivered when
the worker ends; and what waited at `uninit` is delivered in its order, unless
somebody still writes.
-/
theorem uninit_drains (n_maxcache : Int32) (actions more : List LogAction)
    (hrunning : LogAction.uninit ∉ actions) :
    let s := after n_maxcache actions
    let run := Transition.transitions step s (.uninit :: more)
    let t := Transition.final step s (.uninit :: more)
    (run.countP (fun x => worked x.2.1) ≤
        2 * s.sender.msg_list.length + 9 + 2 * run.countP (fun x => wrote x.2.1) ∧
      (t.worker ≠ .ended -> exists a, worked a = true ∧ (step t a).isSome = true)) ∧
    ((forall call, LogAction.remote call ∈ more -> LogWriter.write call = 0) ->
      (forall u a v, (u, a, v) ∈ run -> u.worker ≠ .ended -> v.worker = .ended ->
        v.undelivered = []) ∧
      ((forall log, LogAction.write log ∉ more) -> t.worker = .ended ->
        t.delivered = s.delivered ++ s.undelivered ∧ t.dropped = s.dropped)) := by
  intro s run t
  let s' : LogSystem := { s with sender := { s.sender with b_exit := true } }
  have hstep : step s .uninit = some s' := rfl
  have hlooping : Looping s :=
    Transition.final_keeps step (fun _ _ _ hstep h ha => looping_step hstep h ha) actions
      (show Looping (start n_maxcache) from ⟨rfl, rfl⟩)
      (fun a ha heq => hrunning (heq ▸ ha))
  have hrun : run = (s, .uninit, s') :: Transition.transitions step s' more :=
    Transition.transitions_cons_some step more hstep
  have hfinal : t = Transition.final step s' more := Transition.final_cons_some step more hstep
  refine ⟨⟨?_, worker_enabled t⟩, fun hcalls => ⟨?_, ?_⟩⟩
  · have hspent := Transition.spent_le step (fun s => s.sender.b_exit = true)
      (fun s => fuel s.worker s.sender.msg_list) worked wrote 2
      (fun _ _ _ hstep hexit => fuel_step hstep hexit) more (s := s') rfl
    have hstart : fuel s'.worker s'.sender.msg_list ≤ 2 * s.sender.msg_list.length + 9 :=
      Nat.add_le_add_left (stepsLeft_le s.worker) _
    have hother : worked .uninit = false ∧ wrote .uninit = false := ⟨rfl, rfl⟩
    simp only [hrun, List.countP_cons, hother, Bool.false_eq_true, if_false, Nat.add_zero]
    omega
  · rw [hrun]
    have hguard : forall u a v, (u, a, v) ∈ Transition.transitions step s' more ->
        forall call, a = .remote call -> LogWriter.write call = 0 := by
      intro u a v hmem call heq
      exact hcalls call (heq ▸ Transition.label_mem step hmem)
    have hgood := Transition.good_of_guarded step (fun s => Unfailed s.worker)
      (fun _ a => forall call, a = .remote call -> LogWriter.write call = 0)
      (fun u _ v => u.worker ≠ .ended -> v.worker = .ended -> v.undelivered = [])
      (fun _ _ _ hstep h hcall => ⟨unfailed_step hstep h hcall, ended_step hstep h⟩)
      (s := s') hlooping.unfailed hguard
    intro u a v hmem hbefore hafter
    rcases List.mem_cons.mp hmem with heq | hmem
    · cases heq
      exact absurd hafter hbefore
    · exact (hgood u a v hmem).right hbefore hafter
  · intro hwrites hended
    have hdraining : Draining s t := by
      rw [hfinal]
      have hkeep : forall u a v, step u a = some v -> Draining s u ->
          ((forall log, a ≠ .write log) ∧
            forall call, a = .remote call -> LogWriter.write call = 0) -> Draining s v :=
        fun _ _ _ hstep h ha => h.step hstep ha.left ha.right
      refine Transition.final_keeps step hkeep more ?_ ?_
      · refine ⟨hlooping.unfailed, ⟨length_after n_maxcache actions, rfl, rfl⟩, fun hw => ?_⟩
        have hlast := hlooping.right
        rw [show s.worker = .ended from hw] at hlast
        cases hlast
      · exact fun a ha => ⟨fun log heq => hwrites log (heq ▸ ha), fun call heq =>
          hcalls call (heq ▸ ha)⟩
    have hline := hdraining.holding.line
    rw [hdraining.ended hended, List.append_nil] at hline
    exact ⟨hline, hdraining.holding.dropped⟩

section Example

private def lineA : LogEntry := { category := "frproxy", message := "a" }

private def lineB : LogEntry := { category := "frproxy", message := "b" }

/-- The first entry could not be sent, and both of them wait. -/
private def waiting : List LogAction :=
  [.write lineA, .test, .pop, .write lineB, .remote .noTransport, .push]

private def ending : List LogAction :=
  [.wake, .test, .pop, .remote (.answered .OK), .pop, .remote (.answered .OK), .pop]

theorem uninit_drains_waiting :
    let s := after 2 waiting
    let t := Transition.final step s (.uninit :: ending)
    t.worker = .ended ∧ t.delivered = s.delivered ++ s.undelivered ∧ t.dropped = s.dropped := by
  have hended : (Transition.final step (after 2 waiting) (.uninit :: ending)).worker = .ended :=
    rfl
  have hcalls : forall call, LogAction.remote call ∈ ending -> LogWriter.write call = 0 := by
    intro call hmem
    simp only [ending, List.mem_cons, List.not_mem_nil, or_false, reduceCtorEq, false_or,
      LogAction.remote.injEq, or_self] at hmem
    rw [hmem]
    rfl
  have hdrained := (uninit_drains 2 waiting ending (by simp [waiting])).right hcalls
  exact ⟨hended, hdrained.right (by simp [ending]) hended⟩

end Example

end LogSystem

end FrProxy
