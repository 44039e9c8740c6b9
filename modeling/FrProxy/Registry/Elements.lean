import FrProxy.Rapidjson
import FrProxy.Registry

/-!
# The elements of a recovery file

Which of the elements of an array `unserialize` takes, and on which of them one
of the getters fails.
-/

namespace FrProxy

namespace Registry

def portOf : Json -> Option Int
  | .int n => some n
  | .string s => some (toInt (atol s))
  | _ => none

/-- The entry of an object with a string name, a string host and a port. -/
def ofObject (now : Nat) (e : Json) : Option Registry := do
  let name <- (<- e.lookup "name").text
  let host <- (<- e.lookup "host").text
  let port <- portOf (<- e.lookup "port")
  return { name, host, port, ctime := now, mtime := now }

def entriesIn (now : Nat) : Option Json -> List Registry
  | some (.array elements) => elements.filterMap (ofObject now)
  | _ => []

/-- The getters work on the element: the name and the host of an object that has a port are strings. -/
structure Readable (e : Json) : Prop where
  object : e.isObject = true
  strings : forall name host port, e.lookup "name" = some name -> e.lookup "host" = some host ->
    e.lookup "port" = some port -> name.text.isSome = true ∧ host.text.isSome = true

theorem ofElement_of_isObject (now : Nat) {e : Json} (hobject : e.isObject = true) :
    ofElement now e =
      match e.lookup "name", e.lookup "host", e.lookup "port" with
      | some name, some host, some port => do
          let name <- name.getString
          let host <- host.getString
          return (portOf port).map fun port =>
            { name, host, port, ctime := now, mtime := now }
      | _, _, _ => .ok none := by
  unfold ofElement
  simp only [Json.hasMember_of_isObject hobject, ok_bind]
  cases hname : e.lookup "name" with
  | none => rfl
  | some name =>
      cases hhost : e.lookup "host" with
      | none => rfl
      | some host =>
          cases hport : e.lookup "port" with
          | none => rfl
          | some port =>
              simp only [Json.member_of_lookup hname, Json.member_of_lookup hhost,
                Json.member_of_lookup hport, ok_bind]
              cases name.getString with
              | error stop => rfl
              | ok name =>
                  cases host.getString with
                  | error stop => rfl
                  | ok host => cases port <;> rfl

theorem ofElement_of_readable (now : Nat) {e : Json} (h : Readable e) :
    ofElement now e = .ok (ofObject now e) := by
  rw [ofElement_of_isObject now h.object]
  unfold ofObject
  cases hname : e.lookup "name" with
  | none => rfl
  | some name =>
      cases hhost : e.lookup "host" with
      | none => simp
      | some host =>
          cases hport : e.lookup "port" with
          | none => simp
          | some port =>
              rcases h.strings name host port hname hhost hport with ⟨hs, ht⟩
              rcases Option.isSome_iff_exists.mp hs with ⟨s, hs⟩
              rcases Option.isSome_iff_exists.mp ht with ⟨t, ht⟩
              cases hp : portOf port <;> simp [Json.getString_eq, hs, ht, hp]

theorem ofElement_of_not_readable (now : Nat) {e : Json} (h : ¬ Readable e) :
    ofElement now e = .error .assertion := by
  cases hobject : e.isObject with
  | false =>
      unfold ofElement
      rw [Json.hasMember_of_not_isObject hobject]
      rfl
  | true =>
      have hstrings : ¬ forall name host port, e.lookup "name" = some name ->
          e.lookup "host" = some host -> e.lookup "port" = some port ->
          name.text.isSome = true ∧ host.text.isSome = true := fun hs => h ⟨hobject, hs⟩
      rw [ofElement_of_isObject now hobject]
      cases hname : e.lookup "name" with
      | none => simp [hname] at hstrings
      | some name =>
          cases hhost : e.lookup "host" with
          | none => simp [hhost] at hstrings
          | some host =>
              cases hport : e.lookup "port" with
              | none => simp [hport] at hstrings
              | some port =>
                  cases hs : name.text with
                  | none => simp [Json.getString_eq, hs]
                  | some s =>
                      cases ht : host.text with
                      | none => simp [Json.getString_eq, hs, ht]
                      | some t => simp [hname, hhost, hport, hs, ht] at hstrings

/-- The loop returns if every element can be read, and then it takes exactly the entries. -/
theorem ofElements_ok_iff {now : Nat} {elements : List Json} {v : List Registry} :
    ofElements now elements = .ok v <->
      (forall e, e ∈ elements -> Readable e) ∧ v = elements.filterMap (ofObject now) := by
  induction elements generalizing v with
  | nil => simp [ofElements, eq_comm]
  | cons e rest ih =>
      rw [ofElements, List.forall_mem_cons]
      by_cases hread : Readable e
      · rw [ofElement_of_readable now hread, ok_bind]
        cases hrest : ofElements now rest with
        | error stop =>
            have hnot : ¬ forall e', e' ∈ rest -> Readable e' := by
              intro hall
              have hrun := ih.mpr ⟨hall, rfl⟩
              rw [hrest] at hrun
              cases hrun
            simp [hnot]
        | ok tail =>
            rcases ih.mp hrest with ⟨hall, rfl⟩
            cases hhead : ofObject now e with
            | none => simp [hread, and_iff_right hall, hhead, eq_comm]
            | some r => simp [hread, and_iff_right hall, hhead, eq_comm]
      · rw [ofElement_of_not_readable now hread]
        simp [hread]

theorem unserialize_of_array {parse : String -> Option Json} {now : Nat} {text : String}
    {elements : List Json} (h : parse text = some (.array elements)) :
    unserialize parse now text = ofElements now elements := by
  unfold unserialize
  rw [h]

theorem unserialize_of_not_array {parse : String -> Option Json} {now : Nat} {text : String}
    (h : forall elements, parse text ≠ some (.array elements)) :
    unserialize parse now text = .ok [] := by
  unfold unserialize
  split
  · rename_i elements hparse
    exact absurd hparse (h elements)
  · rfl

theorem entriesIn_of_not_array {now : Nat} {root : Option Json}
    (h : forall elements, root ≠ some (.array elements)) : entriesIn now root = [] := by
  unfold entriesIn
  split
  · rename_i elements
    exact absurd rfl (h elements)
  · rfl

section Example

end Example

end Registry

end FrProxy
