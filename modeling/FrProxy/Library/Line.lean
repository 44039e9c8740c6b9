import Mathlib.Data.List.Perm.Basic
import Mathlib.Logic.Relation

/-!
# Lines that lose what they hold

Messages arrive at the end of a line and are delivered from its front.  A line
may lose any message that waits in it.  Whatever the order of these steps, no
message overtakes another and each one is in exactly one place.
-/

/-- What arrived, what was delivered, what waits and what was lost, each in its order. -/
structure Line (α : Type _) where
  arrived : List α
  delivered : List α
  waiting : List α
  lost : List α

namespace Line

variable {α : Type _}

def empty : Line α where
  arrived := []
  delivered := []
  waiting := []
  lost := []

inductive Step : Line α -> Line α -> Prop where
  | arrive (l : Line α) (x : α) :
      Step l { l with arrived := l.arrived ++ [x], waiting := l.waiting ++ [x] }
  | deliver (l : Line α) (x : α) (rest : List α) (h : l.waiting = x :: rest) :
      Step l { l with delivered := l.delivered ++ [x], waiting := rest }
  | lose (l : Line α) (front : List α) (x : α) (rest : List α)
      (h : l.waiting = front ++ x :: rest) :
      Step l { l with waiting := front ++ rest, lost := l.lost ++ [x] }

abbrev Steps : Line α -> Line α -> Prop :=
  Relation.ReflTransGen Step

/-- Nothing was overtaken, and all that arrived was delivered, waits or was lost. -/
structure Kept (l : Line α) : Prop where
  order : (l.delivered ++ l.waiting).Sublist l.arrived
  account : (l.delivered ++ l.waiting ++ l.lost).Perm l.arrived

theorem kept_empty : Kept (empty : Line α) where
  order := List.Sublist.slnil
  account := List.Perm.nil

theorem Kept.step {l l' : Line α} (h : Kept l) (hstep : Step l l') : Kept l' := by
  rcases h with ⟨horder, haccount⟩
  cases hstep with
  | arrive x =>
      constructor
      · show (l.delivered ++ (l.waiting ++ [x])).Sublist (l.arrived ++ [x])
        rw [<- List.append_assoc]
        exact horder.append (List.Sublist.refl [x])
      · show (l.delivered ++ (l.waiting ++ [x]) ++ l.lost).Perm (l.arrived ++ [x])
        have hmove : (l.delivered ++ (l.waiting ++ [x]) ++ l.lost).Perm
            (l.delivered ++ l.waiting ++ l.lost ++ [x]) := by
          rw [<- List.append_assoc, List.append_assoc _ [x], List.append_assoc _ l.lost]
          exact List.Perm.append_left _ List.perm_append_comm
        exact hmove.trans (haccount.append_right [x])
  | deliver x rest hwaiting =>
      rw [hwaiting] at horder haccount
      constructor
      · show (l.delivered ++ [x] ++ rest).Sublist l.arrived
        rwa [List.append_assoc]
      · show (l.delivered ++ [x] ++ rest ++ l.lost).Perm l.arrived
        rwa [List.append_assoc l.delivered [x]]
  | lose front x rest hwaiting =>
      rw [hwaiting] at horder haccount
      have hsub : (front ++ rest).Sublist (front ++ x :: rest) :=
        List.Sublist.append_left (List.sublist_cons_self x rest) front
      constructor
      · show (l.delivered ++ (front ++ rest)).Sublist l.arrived
        exact (List.Sublist.append_left hsub l.delivered).trans horder
      · show (l.delivered ++ (front ++ rest) ++ (l.lost ++ [x])).Perm l.arrived
        have hmove : (l.delivered ++ (front ++ rest) ++ (l.lost ++ [x])).Perm
            (l.delivered ++ (front ++ x :: rest) ++ l.lost) := by
          have hlast : (rest ++ (l.lost ++ [x])).Perm (x :: (rest ++ l.lost)) := by
            rw [<- List.append_assoc]
            exact List.perm_append_singleton x (rest ++ l.lost)
          have htail := (hlast.append_left front).append_left l.delivered
          simpa [List.append_assoc] using htail
        exact hmove.trans haccount

theorem Kept.steps {l l' : Line α} (h : Kept l) (hsteps : Steps l l') : Kept l' := by
  induction hsteps with
  | refl => exact h
  | tail _ hstep ih => exact ih.step hstep

theorem Kept.pairwise {l : Line α} (h : Kept l) {r : α -> α -> Prop}
    (harrived : l.arrived.Pairwise r) : (l.delivered ++ l.waiting).Pairwise r :=
  harrived.sublist h.order

end Line
