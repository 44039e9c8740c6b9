import FrProxy.Library.Line
import FrProxy.LogSender

/-!
# What becomes of the entries

The list and the entry that the worker holds are one line: the entry in flight
stands before the list, and both ways in which an entry is dropped are losses of
the line.
-/

namespace FrProxy

namespace LogSystem

/-- The written entries as a line, the one in flight waiting first. -/
def line (s : LogSystem) : Line PlacedEntry where
  arrived := s.written
  delivered := s.delivered
  waiting := s.undelivered
  lost := s.dropped

theorem step_line {s s' : LogSystem} {a : LogAction} (hstep : step s a = some s') :
    Line.Steps s.line s'.line := by
  cases effect_of_step hstep with
  | stored log hroom =>
      have harrive := Line.Step.arrive s.line (s.next log)
      simpa [line, undelivered] using Relation.ReflTransGen.single harrive
  | overflowed log first rest hfull hlist =>
      have harrive := Line.Step.arrive s.line (s.next log)
      have hwaiting : s.undelivered ++ [s.next log] = s.worker.inFlight ++ first :: rest := by
        rw [undelivered, List.append_assoc, hlist]
      have hlose := Line.Step.lose {
          s.line with
          arrived := s.written ++ [s.next log]
          waiting := s.undelivered ++ [s.next log] } s.worker.inFlight first rest hwaiting
      exact (Relation.ReflTransGen.single harrive).tail hlose
  | taken last first rest hworker hlist =>
      have hline : s.undelivered = first :: rest := by
        rw [undelivered, hworker, hlist]
        rfl
      simp only [line, hline]
      exact Relation.ReflTransGen.refl
  | sent call last first hworker =>
      have hwaiting : s.undelivered = first :: s.sender.msg_list := by
        rw [undelivered, hworker]
        rfl
      exact Relation.ReflTransGen.single (Line.Step.deliver s.line _ _ hwaiting)
  | putBack last first hworker hroom =>
      have hline : s.undelivered = first :: s.sender.msg_list := by
        rw [undelivered, hworker]
        rfl
      simp only [line, hline]
      rw [undelivered, LogWorker.inFlight_returned]
      exact Relation.ReflTransGen.refl
  | refused last first hworker hfull =>
      have hwaiting : s.undelivered = [] ++ first :: s.sender.msg_list := by
        rw [undelivered, hworker]
        rfl
      have hlose := Line.Step.lose s.line [] first s.sender.msg_list hwaiting
      simpa [line, undelivered] using Relation.ReflTransGen.single hlose
  | moved a worker b_exit hwrite hpush hflight =>
      have hline : worker.inFlight ++ s.sender.msg_list = s.undelivered := by
        rw [undelivered, hflight]
      simp only [line, undelivered, hflight]
      exact Relation.ReflTransGen.refl

/-!
## The order of the entries
-/

def Placed (l : List PlacedEntry) : Prop :=
  l.map PlacedEntry.place = List.range l.length

theorem Placed.concat {l : List PlacedEntry} (h : Placed l) (log : LogEntry) :
    Placed (l ++ [{ entry := log, place := l.length }]) := by
  unfold Placed
  rw [List.map_append, h, List.length_append, List.length_singleton, List.range_succ]
  rfl

theorem Placed.pairwise {l : List PlacedEntry} (h : Placed l) :
    l.Pairwise fun a b => a.place < b.place := by
  have hrange := List.pairwise_lt_range (n := l.length)
  rw [<- h, List.pairwise_map] at hrange
  exact hrange

structure InOrder (s : LogSystem) : Prop where
  kept : s.line.Kept
  places : Placed s.written

theorem inOrder_start (n_maxcache : Int32) : InOrder (start n_maxcache) where
  kept := Line.kept_empty
  places := rfl

theorem inOrder_step {s s' : LogSystem} {a : LogAction} (hstep : step s a = some s')
    (h : InOrder s) : InOrder s' := by
  refine ⟨h.kept.steps (step_line hstep), ?_⟩
  cases effect_of_step hstep with
  | stored log _ => exact h.places.concat log
  | overflowed log _ _ _ _ => exact h.places.concat log
  | _ => exact h.places

theorem inOrder_after (n_maxcache : Int32) (actions : List LogAction) :
    InOrder (after n_maxcache actions) :=
  Transition.final_keeps step (fun _ _ _ hstep h _ => inOrder_step hstep h) actions
    (inOrder_start n_maxcache) (fun _ _ => trivial)

theorem InOrder.nodup {s : LogSystem} (h : InOrder s) : s.written.Nodup :=
  h.places.pairwise.imp fun hlt heq => absurd hlt (by rw [heq]; exact Nat.lt_irrefl _)

theorem InOrder.next_pairwise {s : LogSystem} (h : InOrder s) (log : LogEntry) :
    (s.undelivered ++ [s.next log]).Pairwise fun a b => a.place < b.place := by
  have hkept := h.kept.step (Line.Step.arrive s.line (s.next log))
  have hall := hkept.pairwise (h.places.concat log).pairwise
  exact hall.sublist (List.sublist_append_right _ _)

def writtenBy : LogAction -> List LogEntry
  | .write log => [log]
  | _ => []

theorem written_step {s s' : LogSystem} {a : LogAction} (hstep : step s a = some s') :
    s'.written.map PlacedEntry.entry = s.written.map PlacedEntry.entry ++ writtenBy a := by
  cases effect_of_step hstep with
  | stored log _ => exact List.map_append
  | overflowed log _ _ _ _ => exact List.map_append
  | moved a _ _ hwrite _ _ =>
      cases a with
      | write log => exact absurd rfl (hwrite log)
      | _ => exact (List.append_nil _).symm
  | _ => exact (List.append_nil _).symm

/--
Whatever the interleaving and the failures: the entries written are those of the
calls of `write` in their order, the delivered ones are among them in this order,
each of them is in one place, and the list is sorted.
-/
theorem delivered_in_order (n_maxcache : Int32) (actions : List LogAction) :
    let s := after n_maxcache actions
    (s.written.map PlacedEntry.entry =
        (runFrom n_maxcache actions).flatMap (fun t => writtenBy t.2.1) ∧
      Placed s.written) ∧
    (s.delivered.Sublist s.written ∧ s.delivered.Nodup) ∧
    ((s.delivered ++ s.sender.msg_list ++ s.worker.inFlight ++ s.dropped).Perm s.written ∧
      (s.delivered ++ s.sender.msg_list ++ s.worker.inFlight ++ s.dropped).Nodup) ∧
    s.sender.msg_list.Pairwise fun a b => a.place < b.place := by
  intro s
  have h : InOrder s := inOrder_after n_maxcache actions
  have hentries := Transition.final_appends step (fun s => s.written.map PlacedEntry.entry)
    writtenBy (fun _ _ _ hstep => written_step hstep) (start n_maxcache) actions
  have hdelivered : s.delivered.Sublist s.written :=
    (List.sublist_append_left _ _).trans h.kept.order
  have hlist : s.sender.msg_list.Sublist s.written :=
    (List.sublist_append_right _ _).trans ((List.sublist_append_right _ _).trans h.kept.order)
  have hperm : (s.delivered ++ s.sender.msg_list ++ s.worker.inFlight ++ s.dropped).Perm
      s.written := by
    have hswap : (s.sender.msg_list ++ s.worker.inFlight).Perm s.undelivered :=
      List.perm_append_comm
    have hall := (hswap.append_left s.delivered).append_right s.dropped
    rw [<- List.append_assoc] at hall
    exact hall.trans h.kept.account
  exact ⟨⟨hentries, h.places⟩, ⟨hdelivered, h.nodup.sublist hdelivered⟩,
    ⟨hperm, hperm.nodup_iff.mpr h.nodup⟩, h.places.pairwise.sublist hlist⟩

end LogSystem

end FrProxy
