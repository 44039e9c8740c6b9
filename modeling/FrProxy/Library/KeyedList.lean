import Mathlib.Data.List.Nodup

/-!
# Lists identified by a key

A list whose entries are identified by a key, kept in the order of their last
update: an update drops the entry with the same key and appends the new one.
Nothing here is tied to a particular program; the key function and the entry
type are arbitrary.
-/

namespace KeyedList

variable {α κ : Type*} (key : α -> κ)

def Distinct (l : List α) : Prop :=
  (l.map key).Nodup

theorem distinct_nil : Distinct key ([] : List α) :=
  List.nodup_nil

theorem distinct_sublist {l m : List α} (hsub : List.Sublist m l)
    (h : Distinct key l) : Distinct key m :=
  (hsub.map key).nodup h

theorem distinct_filter {l : List α} (p : α -> Bool)
    (h : Distinct key l) : Distinct key (l.filter p) :=
  distinct_sublist key List.filter_sublist h

theorem distinct_inj {l : List α} {x y : α} (h : Distinct key l)
    (hx : x ∈ l) (hy : y ∈ l) (hkey : key x = key y) : x = y :=
  List.inj_on_of_nodup_map h hx hy hkey

/-!
## Updates
-/

variable [DecidableEq κ]

def drop (l : List α) (k : κ) : List α :=
  l.filter fun x => decide (key x ≠ k)

/-- Make `x` the entry under its key, as the most recent one. -/
def touch (l : List α) (x : α) : List α :=
  drop key l (key x) ++ [x]

@[simp] theorem mem_drop {l : List α} {k : κ} {y : α} :
    y ∈ drop key l k <-> y ∈ l ∧ key y ≠ k := by
  simp [drop]

@[simp] theorem mem_touch {l : List α} {x y : α} :
    y ∈ touch key l x <-> (y ∈ l ∧ key y ≠ key x) ∨ y = x := by
  simp [touch]

theorem distinct_drop {l : List α} (k : κ) (h : Distinct key l) :
    Distinct key (drop key l k) :=
  distinct_filter key _ h

theorem distinct_touch {l : List α} (x : α) (h : Distinct key l) :
    Distinct key (touch key l x) := by
  have hdrop : Distinct key (drop key l (key x)) := distinct_drop key (key x) h
  unfold Distinct touch
  rw [List.map_append, List.nodup_append]
  refine ⟨hdrop, List.nodup_singleton _, ?_⟩
  intro a ha b hb hab
  rcases List.mem_map.mp ha with ⟨y, hy, rfl⟩
  have hb' : b = key x := by simpa using hb
  exact ((mem_drop key).mp hy).right (hab.trans hb')

/-!
## Erasing the first match

A program that walks the list and erases the first entry with a given key does
the same as `drop`, as long as keys are distinct.
-/

theorem drop_eq_self {l : List α} {k : κ} (h : forall x, x ∈ l -> key x ≠ k) :
    drop key l k = l := by
  apply List.filter_eq_self.mpr
  intro x hx
  simpa using h x hx

theorem eraseP_eq_drop {l : List α} (k : κ) (h : Distinct key l) :
    l.eraseP (fun x => decide (key x = k)) = drop key l k := by
  induction l with
  | nil => rfl
  | cons x rest ih =>
      have hrest : Distinct key rest :=
        distinct_sublist key (List.sublist_cons_self x rest) h
      by_cases hx : key x = k
      · have habsent : forall y, y ∈ rest -> key y ≠ k := by
          intro y hy hyk
          have hhead : key x ∉ rest.map key := (List.nodup_cons.mp h).left
          exact hhead (List.mem_map.mpr ⟨y, hy, hyk.trans hx.symm⟩)
        have hdrop : drop key (x :: rest) k = drop key rest k := by
          simp [drop, hx]
        rw [hdrop, drop_eq_self key habsent]
        simp [hx]
      · have hdrop : drop key (x :: rest) k = x :: drop key rest k := by
          simp [drop, hx]
        rw [hdrop, <- ih hrest]
        simp [hx]

theorem mem_eraseP_of_unique {p : α -> Bool} {l : List α} (hnodup : l.Nodup)
    (hp : forall x, x ∈ l -> forall y, y ∈ l -> p x = true -> p y = true -> x = y)
    {z : α} : z ∈ l.eraseP p <-> z ∈ l ∧ p z = false := by
  induction l with
  | nil => simp
  | cons x rest ih =>
      rcases List.nodup_cons.mp hnodup with ⟨hx, hrest⟩
      by_cases hpx : p x = true
      · have hother : forall y, y ∈ rest -> p y = false := by
          intro y hy
          by_contra hpy
          have hyx : x = y :=
            hp x List.mem_cons_self y (List.mem_cons_of_mem _ hy) hpx (by simpa using hpy)
          exact hx (hyx ▸ hy)
        rw [List.eraseP_cons_of_pos hpx]
        constructor
        · intro hz
          exact ⟨List.mem_cons_of_mem _ hz, hother z hz⟩
        · intro h
          rcases h with ⟨hz, hpz⟩
          rcases List.mem_cons.mp hz with rfl | hz
          · rw [hpx] at hpz
            cases hpz
          · exact hz
      · have ih' := ih hrest fun a ha b hb =>
          hp a (List.mem_cons_of_mem _ ha) b (List.mem_cons_of_mem _ hb)
        rw [List.eraseP_cons_of_neg hpx, List.mem_cons, List.mem_cons, ih']
        constructor
        · intro h
          rcases h with rfl | ⟨hz, hpz⟩
          · exact ⟨Or.inl rfl, by simpa using hpx⟩
          · exact ⟨Or.inr hz, hpz⟩
        · intro h
          rcases h with ⟨rfl | hz, hpz⟩
          · exact Or.inl rfl
          · exact Or.inr ⟨hz, hpz⟩

theorem filter_touch_self (l : List α) (x : α) :
    (touch key l x).filter (fun y => decide (key y = key x)) = [x] := by
  have hdrop : (drop key l (key x)).filter (fun y => decide (key y = key x)) = [] := by
    apply List.filter_eq_nil_iff.mpr
    intro y hy heq
    exact ((mem_drop key).mp hy).right (of_decide_eq_true heq)
  simp [touch, hdrop]

theorem touch_eq_self_iff {l : List α} {x : α} (h : Distinct key l) :
    touch key l x = l <-> l.getLast? = some x := by
  constructor
  · intro heq
    rw [<- heq, touch, List.getLast?_concat]
  · intro hlast
    have hsplit : l.dropLast ++ [x] = l := List.dropLast_append_getLast? x hlast
    have habsent : forall y, y ∈ l.dropLast -> key y ≠ key x := by
      intro y hy hkey
      unfold Distinct at h
      rw [<- hsplit, List.map_append, List.nodup_append] at h
      exact h.right.right _ (List.mem_map_of_mem hy) _ (List.mem_map_of_mem List.mem_cons_self) hkey
    have hdrop : drop key l (key x) = l.dropLast := by
      have hself := drop_eq_self key habsent
      unfold drop at hself ⊢
      rw [<- hsplit, List.filter_append, hsplit, hself]
      simp
    rw [touch, hdrop, hsplit]

/-!
## Views of part of the list

A part of the list selected by a predicate that only looks at keys evolves like
a list of its own.
-/

theorem filter_drop (p : α -> Bool) (l : List α) (k : κ) :
    (drop key l k).filter p = drop key (l.filter p) k := by
  simp [drop, List.filter_filter, Bool.and_comm]

theorem filter_touch_of_pos (p : α -> Bool) (l : List α) (x : α)
    (hx : p x = true) :
    (touch key l x).filter p = touch key (l.filter p) x := by
  simp [touch, filter_drop, hx]

theorem filter_touch_of_neg (p : α -> Bool) (l : List α) (x : α)
    (hx : p x = false)
    (hp : forall y, y ∈ l -> key y = key x -> p y = p x) :
    (touch key l x).filter p = l.filter p := by
  have habsent : forall y, y ∈ l.filter p -> key y ≠ key x := by
    intro y hy hkey
    rcases List.mem_filter.mp hy with ⟨hyl, hpy⟩
    rw [hp y hyl hkey, hx] at hpy
    cases hpy
  simp [touch, filter_drop, hx, drop_eq_self key habsent]

end KeyedList
