import FrProxy.Json

/-!
# Registry entries

One endpoint of a service, the text it is saved and sent as, and the way back
from such a text.
-/

namespace FrProxy

/-- One instance of a service.  Times are in milliseconds, except for a `ctime` read from a znode. -/
structure Registry where
  name : String
  host : String := ""
  port : Int := 0
  ctime : Nat := 0
  mtime : Nat
  ephemeral : String := ""
deriving DecidableEq, Repr

/-- What identifies an instance for its clients. -/
structure Endpoint where
  name : String
  host : String
  port : Int
deriving DecidableEq, Repr

namespace Registry

def endpoint (r : Registry) : Endpoint :=
  { name := r.name, host := r.host, port := r.port }

def equals (r s : Registry) : Bool :=
  r.name == s.name && r.host == s.host && r.port == s.port

theorem equals_iff {r s : Registry} :
    r.equals s = true <-> r.endpoint = s.endpoint := by
  simp [equals, endpoint, and_assoc]

theorem equals_eq_decide (r s : Registry) :
    r.equals s = decide (r.endpoint = s.endpoint) := by
  by_cases h : r.endpoint = s.endpoint
  · simpa [h] using equals_iff.mpr h
  · have hne : ¬ r.equals s = true := fun heq => h (equals_iff.mp heq)
    simpa [h] using hne

/-- The weight at second `now`: it grows for the first five minutes after `ctime`. -/
def weight (now : Nat) (r : Registry) : Int :=
  let elapse : Int := now - r.ctime
  if elapse < 294 ∧ elapse > 0 then 1200 + elapse * elapse / 36 else 3600

/-- The JSON text of one entry at second `now`. -/
def serialize (now : Nat) (r : Registry) : String :=
  "\x7b\"name\":\"" ++ r.name
    ++ "\",\"host\":\"" ++ r.host
    ++ "\",\"port\":" ++ toString r.port
    ++ ",\"weight\":" ++ toString (r.weight now)
    ++ " \x7d"

/-- The loop of the list serializer: `ret` is the text so far. -/
def serializeFrom (now : Nat) : String -> List Registry -> String
  | ret, [] => ret
  | ret, r :: rest =>
      let ret := if ret.length > 2 then ret ++ ",\n" else ret
      serializeFrom now (ret ++ r.serialize now) rest

def serializeAll (now : Nat) (v : List Registry) : String :=
  serializeFrom now "[" v ++ "]"

/-- One element of the array in `unserialize`; `none` when it is skipped. -/
def ofElement (now : Nat) (e : Json) : Except Stop (Option Registry) := do
  if (<- e.hasMember "name") && (<- e.hasMember "host") && (<- e.hasMember "port") then
    let name <- (<- e.member "name").getString
    let host <- (<- e.member "host").getString
    match <- e.member "port" with
    | .int n => return some { name, host, port := n, ctime := now, mtime := now }
    | .string s => return some { name, host, port := toInt (atol s), ctime := now, mtime := now }
    | _ => return none
  else
    return none

def ofElements (now : Nat) : List Json -> Except Stop (List Registry)
  | [] => .ok []
  | e :: rest => do
      let head <- ofElement now e
      let tail <- ofElements now rest
      return head.toList ++ tail

/-- Read a list of entries back from a text, at millisecond `now`. -/
def unserialize (parse : String -> Option Json) (now : Nat) (text : String) :
    Except Stop (List Registry) :=
  match parse text with
  | some (.array elements) => ofElements now elements
  | _ => .ok []

end Registry

end FrProxy
