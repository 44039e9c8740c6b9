import FrProxy.Library.Transition
import Mathlib.Algebra.Group.Int.Defs

/-!
# The buffered log sender

Callers of `write` append entries to `msg_list`, and one worker takes them off
its front and sends them.  Both do so under a lock.  The remote write stands
outside of it, and an entry that could not be sent is put back to the front.
-/

namespace FrProxy

structure LogEntry where
  category : String
  message : String
deriving DecidableEq

inductive ResultCode where
  | OK
  | TRY_LATER
deriving DecidableEq

/-- How the call of a `LogWriter` ends: `transport` may be missing, and anything may throw. -/
inductive RemoteCall where
  | noTransport
  | thrown
  | answered (code : ResultCode)
deriving DecidableEq

def LogWriter.write : RemoteCall -> Int
  | .noTransport => -1
  | .thrown => -3
  | .answered code => if code ≠ .OK then -2 else 0

structure PlacedEntry where
  entry : LogEntry
  place : Nat
deriving DecidableEq

/-- The buffer, with the static limit that it reads. -/
structure BufferedLogSender where
  n_maxcache : Int32
  msg_list : List PlacedEntry
  b_exit : Bool

namespace BufferedLogSender

/-- `n_maxcache` where it is compared with a size. -/
def maxcache (b : BufferedLogSender) : Nat :=
  (b.n_maxcache.toInt % 2 ^ 64).toNat

/-- The locked section of `write`: the buffer, and what fell out of it. -/
def write (b : BufferedLogSender) (log : PlacedEntry) : BufferedLogSender × List PlacedEntry :=
  let b := { b with msg_list := b.msg_list ++ [log] }
  if b.msg_list.length > b.maxcache then
    ({ b with msg_list := b.msg_list.tail }, b.msg_list.take 1)
  else (b, [])

/-- The first locked section of `send_log`. -/
def popFront (b : BufferedLogSender) : Option (PlacedEntry × BufferedLogSender) :=
  match b.msg_list with
  | [] => none
  | first :: rest => some (first, { b with msg_list := rest })

/-- The second locked section of `send_log`: the buffer, and what was not put back. -/
def pushFront (b : BufferedLogSender) (first : PlacedEntry) :
    BufferedLogSender × List PlacedEntry :=
  if b.msg_list.length ≤ b.maxcache then ({ b with msg_list := first :: b.msg_list }, [])
  else (b, [first])

theorem write_cases (b : BufferedLogSender) (log : PlacedEntry) :
    (b.msg_list.length < b.maxcache ∧
      b.write log = ({ b with msg_list := b.msg_list ++ [log] }, [])) ∨
    (b.maxcache ≤ b.msg_list.length ∧ exists first rest, b.msg_list ++ [log] = first :: rest ∧
      b.write log = ({ b with msg_list := rest }, [first])) := by
  by_cases hfull : b.maxcache ≤ b.msg_list.length
  · apply Or.inr
    refine ⟨hfull, ?_⟩
    cases hlist : b.msg_list ++ [log] with
    | nil => simp at hlist
    | cons first rest =>
        refine ⟨first, rest, rfl, ?_⟩
        have hlen : (first :: rest).length > b.maxcache := by
          rw [<- hlist, List.length_append, List.length_singleton]
          omega
        show (if (b.msg_list ++ [log]).length > b.maxcache then _ else _) = _
        rw [hlist, if_pos hlen]
        rfl
  · apply Or.inl
    have hlen : ¬ (b.msg_list ++ [log]).length > b.maxcache := by
      rw [List.length_append, List.length_singleton]
      omega
    exact ⟨Nat.lt_of_not_le hfull, if_neg hlen⟩

end BufferedLogSender

/-- Where the worker is; `last` in the call of `send_log` after the loop. -/
inductive LogWorker where
  /-- Before the test of `b_exit`. -/
  | testing
  /-- Before the first locked section. -/
  | popping (last : Bool)
  | writing (last : Bool) (first : PlacedEntry)
  /-- Before the second locked section. -/
  | pushing (last : Bool) (first : PlacedEntry)
  | sleeping
  | ended

namespace LogWorker

def returned (last : Bool) : LogWorker :=
  if last then .ended else .sleeping

def inFlight : LogWorker -> List PlacedEntry
  | .writing _ first => [first]
  | .pushing _ first => [first]
  | _ => []

@[simp] theorem inFlight_returned (last : Bool) : (returned last).inFlight = [] := by
  cases last <;> rfl

end LogWorker

structure LogSystem where
  sender : BufferedLogSender
  worker : LogWorker
  written : List PlacedEntry
  delivered : List PlacedEntry
  dropped : List PlacedEntry

inductive LogAction where
  | write (log : LogEntry)
  /-- The worker tests `b_exit`. -/
  | test
  /-- The worker takes the first entry. -/
  | pop
  /-- The remote write ends; the entry is delivered if the answer is `OK`. -/
  | remote (call : RemoteCall)
  /-- The worker puts the entry back. -/
  | push
  | wake
  /-- `uninit` sets `b_exit`. -/
  | uninit

namespace LogSystem

def start (n_maxcache : Int32) : LogSystem where
  sender := { n_maxcache, msg_list := [], b_exit := false }
  worker := .testing
  written := []
  delivered := []
  dropped := []

def next (s : LogSystem) (log : LogEntry) : PlacedEntry :=
  { entry := log, place := s.written.length }

/-- One locked section, or one step of the worker outside of the lock. -/
def step (s : LogSystem) : LogAction -> Option LogSystem
  | .write log =>
      let (sender, lost) := s.sender.write (s.next log)
      some {
        s with
        sender := sender
        written := s.written ++ [s.next log]
        dropped := s.dropped ++ lost }
  | .test =>
      match s.worker with
      | .testing => some { s with worker := .popping s.sender.b_exit }
      | _ => none
  | .pop =>
      match s.worker with
      | .popping last =>
          match s.sender.popFront with
          | some (first, sender) => some { s with sender := sender, worker := .writing last first }
          | none => some { s with worker := .returned last }
      | _ => none
  | .remote call =>
      match s.worker with
      | .writing last first =>
          if LogWriter.write call ≠ 0 then some { s with worker := .pushing last first }
          else some { s with worker := .popping last, delivered := s.delivered ++ [first] }
      | _ => none
  | .push =>
      match s.worker with
      | .pushing last first =>
          let (sender, lost) := s.sender.pushFront first
          some {
            s with
            sender := sender
            worker := .returned last
            dropped := s.dropped ++ lost }
      | _ => none
  | .wake =>
      match s.worker with
      | .sleeping => some { s with worker := .testing }
      | _ => none
  | .uninit => some { s with sender := { s.sender with b_exit := true } }

/-- The entries that were neither delivered nor dropped, the one in flight first. -/
def undelivered (s : LogSystem) : List PlacedEntry :=
  s.worker.inFlight ++ s.sender.msg_list

inductive Effect (s : LogSystem) : LogAction -> LogSystem -> Prop where
  | stored (log : LogEntry) (hroom : s.sender.msg_list.length < s.sender.maxcache) :
      Effect s (.write log) {
        s with
        sender := { s.sender with msg_list := s.sender.msg_list ++ [s.next log] }
        written := s.written ++ [s.next log] }
  | overflowed (log : LogEntry) (first : PlacedEntry) (rest : List PlacedEntry)
      (hfull : s.sender.maxcache ≤ s.sender.msg_list.length)
      (hlist : s.sender.msg_list ++ [s.next log] = first :: rest) :
      Effect s (.write log) {
        s with
        sender := { s.sender with msg_list := rest }
        written := s.written ++ [s.next log]
        dropped := s.dropped ++ [first] }
  | taken (last : Bool) (first : PlacedEntry) (rest : List PlacedEntry)
      (hworker : s.worker = .popping last) (hlist : s.sender.msg_list = first :: rest) :
      Effect s .pop {
        s with
        sender := { s.sender with msg_list := rest }
        worker := .writing last first }
  | sent (call : RemoteCall) (last : Bool) (first : PlacedEntry)
      (hworker : s.worker = .writing last first) :
      Effect s (.remote call) {
        s with
        worker := .popping last
        delivered := s.delivered ++ [first] }
  | putBack (last : Bool) (first : PlacedEntry) (hworker : s.worker = .pushing last first)
      (hroom : s.sender.msg_list.length ≤ s.sender.maxcache) :
      Effect s .push {
        s with
        sender := { s.sender with msg_list := first :: s.sender.msg_list }
        worker := .returned last }
  | refused (last : Bool) (first : PlacedEntry) (hworker : s.worker = .pushing last first)
      (hfull : s.sender.maxcache < s.sender.msg_list.length) :
      Effect s .push {
        s with
        worker := .returned last
        dropped := s.dropped ++ [first] }
  | moved (a : LogAction) (worker : LogWorker) (b_exit : Bool)
      (hwrite : forall log, a ≠ .write log) (hpush : a ≠ .push)
      (hflight : worker.inFlight = s.worker.inFlight) :
      Effect s a { s with sender := { s.sender with b_exit }, worker }

theorem effect_of_step {s s' : LogSystem} {a : LogAction} (hstep : step s a = some s') :
    Effect s a s' := by
  cases a with
  | write log =>
      have hs' : s' = {
          s with
          sender := (s.sender.write (s.next log)).1
          written := s.written ++ [s.next log]
          dropped := s.dropped ++ (s.sender.write (s.next log)).2 } :=
        (Option.some.inj hstep).symm
      rcases s.sender.write_cases (s.next log) with
        ⟨hroom, hwrite⟩ | ⟨hfull, first, rest, hlist, hwrite⟩
      · rw [hwrite] at hs'
        simp only [List.append_nil] at hs'
        rw [hs']
        exact Effect.stored log hroom
      · rw [hwrite] at hs'
        rw [hs']
        exact Effect.overflowed log first rest hfull hlist
  | test =>
      cases hworker : s.worker with
      | testing =>
          simp only [step, hworker, Option.some.injEq] at hstep
          rw [<- hstep]
          refine Effect.moved .test (.popping s.sender.b_exit) s.sender.b_exit (by simp) (by simp) ?_
          rw [hworker]
          rfl
      | _ => simp [step, hworker] at hstep
  | pop =>
      cases hworker : s.worker with
      | popping last =>
          cases hlist : s.sender.msg_list with
          | nil =>
              simp only [step, hworker, BufferedLogSender.popFront, hlist, Option.some.injEq]
                at hstep
              rw [<- hstep]
              refine Effect.moved .pop (.returned last) s.sender.b_exit (by simp) (by simp) ?_
              rw [hworker, LogWorker.inFlight_returned]
              rfl
          | cons first rest =>
              simp only [step, hworker, BufferedLogSender.popFront, hlist, Option.some.injEq]
                at hstep
              rw [<- hstep]
              exact Effect.taken last first rest hworker hlist
      | _ => simp [step, hworker] at hstep
  | remote call =>
      cases hworker : s.worker with
      | writing last first =>
          simp only [step, hworker] at hstep
          by_cases hwrite : LogWriter.write call ≠ 0
          · rw [if_pos hwrite] at hstep
            cases hstep
            refine Effect.moved _ (.pushing last first) s.sender.b_exit (by simp) (by simp) ?_
            rw [hworker]
            rfl
          · rw [if_neg hwrite] at hstep
            cases hstep
            exact Effect.sent call last first hworker
      | _ => simp [step, hworker] at hstep
  | push =>
      cases hworker : s.worker with
      | pushing last first =>
          simp only [step, hworker, BufferedLogSender.pushFront, Option.some.injEq] at hstep
          rw [<- hstep]
          by_cases hroom : s.sender.msg_list.length ≤ s.sender.maxcache
          · simp only [if_pos hroom, List.append_nil]
            exact Effect.putBack last first hworker hroom
          · simp only [if_neg hroom]
            exact Effect.refused last first hworker (Nat.lt_of_not_le hroom)
      | _ => simp [step, hworker] at hstep
  | wake =>
      cases hworker : s.worker with
      | sleeping =>
          simp only [step, hworker, Option.some.injEq] at hstep
          rw [<- hstep]
          refine Effect.moved .wake .testing s.sender.b_exit (by simp) (by simp) ?_
          rw [hworker]
          rfl
      | _ => simp [step, hworker] at hstep
  | uninit =>
      cases hstep
      exact Effect.moved .uninit s.worker true (by simp) (by simp) rfl

def runFrom (n_maxcache : Int32) (actions : List LogAction) :
    List (LogSystem × LogAction × LogSystem) :=
  Transition.transitions step (start n_maxcache) actions

def after (n_maxcache : Int32) (actions : List LogAction) : LogSystem :=
  Transition.final step (start n_maxcache) actions

end LogSystem

end FrProxy
