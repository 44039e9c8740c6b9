import Mathlib.Algebra.Group.Nat.Defs
import Std.Data.ExtTreeMap

/-!
# The buffer of running fetches

`SkipBuffer` remembers for each path when a fetch of it was committed.  The
times are kept modulo `2 ^ 32`, and an age is an unsigned difference.
-/

namespace FrProxy

structure SkipBuffer where
  timeout_ : UInt32
  map_ : Std.ExtTreeMap String UInt32 compare

namespace SkipBuffer

def ofTimeout (timeout : UInt32) : SkipBuffer where
  timeout_ := timeout
  map_ := ∅

/-- What the lookup in `insert` takes for too old, `now` being the clock as the caller read it. -/
def expired (b : SkipBuffer) (zkpath : String) (now : UInt32) : Bool :=
  match b.map_[zkpath]? with
  | none => false
  | some token => decide (now - token > b.timeout_)

def erase (b : SkipBuffer) (key : String) : SkipBuffer :=
  { b with map_ := b.map_.erase key }

/-- The locked section of `insert`: the map afterwards, and whether the token was put there. -/
def insert (b : SkipBuffer) (zkpath : String) (now : UInt32) : SkipBuffer × Bool :=
  let b := if b.expired zkpath now then b.erase zkpath else b
  match b.map_[zkpath]? with
  | none => ({ b with map_ := b.map_.insert zkpath now }, true)
  | some _ => (b, false)

/-!
## What the operations do to the tokens
-/

theorem getElem?_erase (b : SkipBuffer) (key path : String) :
    (b.erase key).map_[path]? = if key = path then none else b.map_[path]? := by
  simp [erase, Std.ExtTreeMap.getElem?_erase]

theorem expired_iff {b : SkipBuffer} {zkpath : String} {now : UInt32} :
    b.expired zkpath now = true <->
      exists token, b.map_[zkpath]? = some token ∧ now - token > b.timeout_ := by
  unfold expired
  cases b.map_[zkpath]? with
  | none => simp
  | some token => simp

theorem insert_cases (b : SkipBuffer) (zkpath : String) (now : UInt32) :
    ((exists token, b.map_[zkpath]? = some token ∧ ¬ now - token > b.timeout_) ∧
      b.insert zkpath now = (b, false)) ∨
    ((forall token, b.map_[zkpath]? = some token -> now - token > b.timeout_) ∧
      (b.insert zkpath now).2 = true ∧ (b.insert zkpath now).1.timeout_ = b.timeout_ ∧
      forall path, (b.insert zkpath now).1.map_[path]? =
        if zkpath = path then some now else b.map_[path]?) := by
  cases htoken : b.map_[zkpath]? with
  | none =>
      have hfresh : b.expired zkpath now = false := by
        simp [expired, htoken]
      have hinsert : b.insert zkpath now = ({ b with map_ := b.map_.insert zkpath now }, true) := by
        simp [insert, hfresh, htoken]
      apply Or.inr
      rw [hinsert]
      refine ⟨by simp, rfl, rfl, ?_⟩
      intro path
      simp [Std.ExtTreeMap.getElem?_insert]
  | some token =>
      by_cases hold : now - token > b.timeout_
      · have hexpired : b.expired zkpath now = true :=
          expired_iff.mpr ⟨token, htoken, hold⟩
        have hnone : (b.erase zkpath).map_[zkpath]? = none := by
          rw [getElem?_erase, if_pos rfl]
        have hinsert : b.insert zkpath now =
            ({ b.erase zkpath with map_ := (b.erase zkpath).map_.insert zkpath now }, true) := by
          simp only [insert, hexpired, if_true, hnone]
        apply Or.inr
        rw [hinsert]
        refine ⟨?_, rfl, rfl, ?_⟩
        · intro other hother
          cases hother
          exact hold
        · intro path
          by_cases hpath : zkpath = path
          · simp [hpath]
          · simp [Std.ExtTreeMap.getElem?_insert, getElem?_erase, hpath]
      · have hfresh : b.expired zkpath now = false := by
          unfold expired
          rw [htoken]
          exact decide_eq_false hold
        have hinsert : b.insert zkpath now = (b, false) := by
          simp [insert, hfresh, htoken]
        exact Or.inl ⟨⟨token, rfl, hold⟩, hinsert⟩

theorem age_ofNat (now token : Nat) (h : now < token + 2 ^ 32) (h' : token < now + 2 ^ 32) :
    (UInt32.ofNat now - UInt32.ofNat token).toNat =
      if token ≤ now then now - token else now + 2 ^ 32 - token := by
  rw [UInt32.toNat_sub, UInt32.toNat_ofNat', UInt32.toNat_ofNat']
  split <;> omega

end SkipBuffer

end FrProxy
