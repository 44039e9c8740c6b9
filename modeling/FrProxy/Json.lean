import Mathlib.Algebra.Group.Int.Defs
import Mathlib.Algebra.Group.Nat.Defs

/-!
# JSON values as the vendored parser hands them out

A parser is a function from the text to the root of the document, `none` when the
document has a parse error; the vendored one is `Rapidjson.parse`.  A string value
is the C string that `GetString` returns.
-/

namespace FrProxy

/-- Why a call does not come back. -/
inductive Stop where
  /-- The nesting of reconnections went deeper than the bound of the model. -/
  | depth
  /-- A `RAPIDJSON_ASSERT` failed. -/
  | assertion
  /-- A string was read past the end of the buffer that holds it. -/
  | overread
  /-- An object was used after it was deleted. -/
  | dangling
deriving DecidableEq, Repr

@[simp] theorem ok_bind {α β : Type} (a : α) (f : α -> Except Stop β) :
    (Except.ok a >>= f) = f a := rfl

@[simp] theorem error_bind {α β : Type} (stop : Stop) (f : α -> Except Stop β) :
    (Except.error stop >>= f) = Except.error stop := rfl

@[simp] theorem pure_eq_ok {α : Type} (a : α) : (pure a : Except Stop α) = Except.ok a := rfl

inductive Json where
  | null
  | bool (b : Bool)
  /-- A number for which `IsInt` holds. -/
  | int (n : Int)
  /-- Any other number. -/
  | number
  | string (s : String)
  | array (elements : List Json)
  | object (members : List (String × Json))

namespace Json

def isObject : Json -> Bool
  | object _ => true
  | _ => false

/-- `FindMember`: the first member of that name; asserts that the value is an object. -/
def findMember (name : String) : Json -> Except Stop (Option Json)
  | object members => .ok ((members.find? fun m => m.1 == name).map (·.2))
  | _ => .error .assertion

def hasMember (v : Json) (name : String) : Except Stop Bool := do
  let member <- v.findMember name
  return member.isSome

/-- `operator[]`: the null value when there is no such member. -/
def member (v : Json) (name : String) : Except Stop Json := do
  let found <- v.findMember name
  return found.getD null

/-- `GetString`: asserts that the value is a string. -/
def getString : Json -> Except Stop String
  | string s => .ok s
  | _ => .error .assertion

theorem hasMember_of_findMember {v m : Json} {name : String}
    (h : v.findMember name = .ok (some m)) : v.hasMember name = .ok true := by
  unfold hasMember
  rw [h]
  rfl

theorem member_of_findMember {v m : Json} {name : String}
    (h : v.findMember name = .ok (some m)) : v.member name = .ok m := by
  unfold member
  rw [h]
  rfl

/-!
## What a value holds
-/

def lookup (name : String) : Json -> Option Json
  | object members => (members.find? fun m => m.1 == name).map (·.2)
  | _ => none

def text : Json -> Option String
  | string s => some s
  | _ => none

theorem findMember_eq (v : Json) (name : String) :
    v.findMember name = if v.isObject then .ok (v.lookup name) else .error .assertion := by
  cases v <;> rfl

theorem hasMember_of_isObject {v : Json} (h : v.isObject = true) (name : String) :
    v.hasMember name = .ok (v.lookup name).isSome := by
  unfold hasMember
  rw [findMember_eq, if_pos h]
  rfl

theorem hasMember_of_not_isObject {v : Json} (h : v.isObject = false) (name : String) :
    v.hasMember name = .error .assertion := by
  unfold hasMember
  rw [findMember_eq, h]
  rfl

theorem member_of_lookup {v m : Json} {name : String} (h : v.lookup name = some m) :
    v.member name = .ok m := by
  apply member_of_findMember
  cases v with
  | object members => exact congrArg Except.ok h
  | _ => cases h

theorem isObject_of_lookup {v m : Json} {name : String} (h : v.lookup name = some m) :
    v.isObject = true := by
  cases v with
  | object members => rfl
  | _ => cases h

theorem getString_eq (v : Json) :
    v.getString = match v.text with
      | some s => .ok s
      | none => .error .assertion := by
  cases v <;> rfl

end Json

/-- The value that a text has as JSON, where no NUL byte is allowed. -/
def jsonValue (parse : String -> Option Json) (text : String) : Option Json :=
  if '\x00' ∈ text.toList then none else parse text

/-!
## Numbers in strings
-/

def isSpace (c : Char) : Bool :=
  c == ' ' || ('\t' ≤ c && c ≤ '\r')

def digits (acc : Nat) : List Char -> Nat
  | [] => acc
  | c :: rest =>
      if c.isDigit then digits (acc * 10 + (c.toNat - '0'.toNat)) rest else acc

/-- `atol`: blanks, a sign, digits; out of range it gives the nearest `long`. -/
def atol (s : String) : Int :=
  match s.toList.dropWhile isSpace with
  | '-' :: rest => max (-2 ^ 63) (-(digits 0 rest : Int))
  | '+' :: rest => min (2 ^ 63 - 1) (digits 0 rest : Int)
  | rest => min (2 ^ 63 - 1) (digits 0 rest : Int)

def toInt (n : Int) : Int :=
  n.bmod (2 ^ 32)

example : toInt (atol " -12x") = -12 := by decide

end FrProxy
