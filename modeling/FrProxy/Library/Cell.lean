import Mathlib.Data.List.Basic

/-!
# Cells that events write and clear

A cell holds a value or nothing.  An event may write a value to it, whatever it
held, or clear it, which may depend on the value.
-/

namespace Cell

variable {ε α : Type _} (writes : ε -> Option α) (clears : ε -> α -> Bool)

@[simp] theorem filter_true {cell : Option α} : (cell.filter fun _ => true) = cell := by
  cases cell with
  | none => rfl
  | some a => rfl

def after (cell : Option α) (e : ε) : Option α :=
  match writes e with
  | some a => some a
  | none => cell.filter fun a => !clears e a

/-- No event of the list writes the cell or clears it of that value. -/
def Untouched (a : α) (events : List ε) : Prop :=
  forall e, e ∈ events -> writes e = none ∧ clears e a = false

/-- The value was written by one of the events, or held before, and not touched since. -/
def Holds (cell : Option α) (events : List ε) (a : α) : Prop :=
  (exists first e rest, events = first ++ e :: rest ∧ writes e = some a ∧
    Untouched writes clears a rest) ∨
  (cell = some a ∧ Untouched writes clears a events)

variable {writes clears}

theorem after_eq_some {cell : Option α} {e : ε} {a : α} :
    after writes clears cell e = some a <->
      writes e = some a ∨ (cell = some a ∧ writes e = none ∧ clears e a = false) := by
  unfold after
  cases writes e with
  | none => simp [Option.filter_eq_some_iff]
  | some b => simp

theorem after_idle {cell : Option α} {e : ε} (hwrites : writes e = none)
    (hclears : forall a, clears e a = false) : after writes clears cell e = cell := by
  apply Option.ext
  intro a
  rw [after_eq_some, hwrites, hclears a]
  simp

theorem untouched_cons {a : α} {e : ε} {rest : List ε} :
    Untouched writes clears a (e :: rest) <->
      (writes e = none ∧ clears e a = false) ∧ Untouched writes clears a rest := by
  unfold Untouched
  exact List.forall_mem_cons

theorem holds_cons {cell : Option α} {e : ε} {rest : List ε} {a : α} :
    Holds writes clears cell (e :: rest) a <->
      Holds writes clears (after writes clears cell e) rest a := by
  unfold Holds
  rw [after_eq_some, untouched_cons]
  constructor
  · intro h
    rcases h with ⟨first, d, tail, hsplit, hwrites, htail⟩ | ⟨hcell, he, hrest⟩
    · cases first with
      | nil =>
          rcases List.cons.inj hsplit with ⟨hd, hrest⟩
          subst hd
          subst hrest
          exact Or.inr ⟨Or.inl hwrites, htail⟩
      | cons b first =>
          rcases List.cons.inj hsplit with ⟨_, hrest⟩
          exact Or.inl ⟨first, d, tail, hrest, hwrites, htail⟩
    · exact Or.inr ⟨Or.inr ⟨hcell, he⟩, hrest⟩
  · intro h
    rcases h with ⟨first, d, tail, hsplit, hwrites, htail⟩ | ⟨hwrites | ⟨hcell, he⟩, hrest⟩
    · exact Or.inl ⟨e :: first, d, tail, by rw [hsplit]; rfl, hwrites, htail⟩
    · exact Or.inl ⟨[], e, rest, rfl, hwrites, hrest⟩
    · exact Or.inr ⟨hcell, he, hrest⟩

theorem foldl_after_eq_some {cell : Option α} {events : List ε} {a : α} :
    events.foldl (after writes clears) cell = some a <->
      Holds writes clears cell events a := by
  induction events generalizing cell with
  | nil => simp [Holds, Untouched]
  | cons e rest ih => rw [List.foldl_cons, ih, holds_cons]

end Cell
