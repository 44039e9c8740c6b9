/-!
# Typed values on a token stream

A protocol for structures whose fields carry a type and a number, as a sequence
of tokens.  A reader knows some fields, skips the others, and stops behind the
structure.  What it makes of a structure is a fold over the fields.
-/

namespace Wire

inductive Scalar where
  | bool
  | byte
  | i16
  | i64
  | double
deriving DecidableEq, Repr

inductive TType where
  | scalar (type : Scalar)
  | i32
  | string
  | struct
  | map
  | set
  | list
deriving DecidableEq, Repr

inductive MessageType where
  | call
  | reply
  | exception
  | oneway
deriving DecidableEq, Repr

inductive Token where
  | messageBegin (name : String) (type : MessageType) (seqid : Int32)
  | messageEnd
  | structBegin
  | structEnd
  | fieldBegin (type : TType) (id : Int16)
  | fieldEnd
  | fieldStop
  | mapBegin (keys values : TType) (size : Nat)
  | mapEnd
  | setBegin (elements : TType) (size : Nat)
  | setEnd
  | listBegin (elements : TType) (size : Nat)
  | listEnd
  | scalar (type : Scalar) (bits : Nat)
  | i32 (n : Int32)
  | string (s : String)
deriving DecidableEq, Repr

inductive Value where
  | scalar (type : Scalar) (bits : Nat)
  | i32 (n : Int32)
  | string (s : String)
  | struct (fields : List (Int16 × Value))
  | map (keys values : TType) (entries : List (Value × Value))
  | set (type : TType) (elements : List Value)
  | list (type : TType) (elements : List Value)

abbrev Fields : Type :=
  List (Int16 × Value)

namespace Value

def type : Value -> TType
  | scalar type _ => .scalar type
  | i32 _ => .i32
  | string _ => .string
  | struct _ => .struct
  | map _ _ _ => .map
  | set _ _ => .set
  | list _ _ => .list

mutual

def tokens : Value -> List Token
  | scalar type bits => [.scalar type bits]
  | i32 n => [.i32 n]
  | string s => [.string s]
  | struct fields => .structBegin :: (fieldTokens fields ++ [.fieldStop, .structEnd])
  | map keys values entries =>
      .mapBegin keys values entries.length :: (entryTokens entries ++ [.mapEnd])
  | set type elements => .setBegin type elements.length :: (elementTokens elements ++ [.setEnd])
  | list type elements => .listBegin type elements.length :: (elementTokens elements ++ [.listEnd])

def fieldTokens : List (Int16 × Value) -> List Token
  | [] => []
  | (id, v) :: rest => .fieldBegin v.type id :: (tokens v ++ .fieldEnd :: fieldTokens rest)

def entryTokens : List (Value × Value) -> List Token
  | [] => []
  | (k, v) :: rest => tokens k ++ (tokens v ++ entryTokens rest)

def elementTokens : List Value -> List Token
  | [] => []
  | v :: rest => tokens v ++ elementTokens rest

end

mutual

/-- The elements of a container have the types that it announces. -/
def Regular : Value -> Prop
  | scalar _ _ => True
  | i32 _ => True
  | string _ => True
  | struct fields => RegularFields fields
  | map keys values entries => RegularEntries keys values entries
  | set type elements => RegularElements type elements
  | list type elements => RegularElements type elements

def RegularFields : List (Int16 × Value) -> Prop
  | [] => True
  | (_, v) :: rest => Regular v ∧ RegularFields rest

def RegularEntries (keys values : TType) : List (Value × Value) -> Prop
  | [] => True
  | (k, v) :: rest =>
      k.type = keys ∧ Regular k ∧ v.type = values ∧ Regular v ∧ RegularEntries keys values rest

def RegularElements (type : TType) : List Value -> Prop
  | [] => True
  | v :: rest => v.type = type ∧ Regular v ∧ RegularElements type rest

end

end Value

/-!
## Skipping a value
-/

/-- A function that takes a value of that type off the stream. -/
def Skips (skip : TType -> List Token -> Option (List Token)) : Prop :=
  forall (v : Value) (rest : List Token), v.Regular -> skip v.type (v.tokens ++ rest) = some rest

def Token.opens : Token -> Bool
  | structBegin | mapBegin _ _ _ | setBegin _ _ | listBegin _ _ => true
  | _ => false

def Token.closes : Token -> Bool
  | structEnd | mapEnd | setEnd | listEnd => true
  | _ => false

/-- Drop the tokens up to the bracket that closes the outermost of so many open ones. -/
def skipBrackets : Nat -> List Token -> Option (List Token)
  | 0, tokens => some tokens
  | _ + 1, [] => none
  | depth + 1, t :: rest =>
      if t.opens then skipBrackets (depth + 2) rest
      else if t.closes then skipBrackets depth rest
      else skipBrackets (depth + 1) rest

def skipValue : List Token -> Option (List Token)
  | [] => none
  | t :: rest => if t.opens then skipBrackets 1 rest else some rest

@[simp] theorem skipBrackets_zero (tokens : List Token) : skipBrackets 0 tokens = some tokens := by
  cases tokens <;> rfl

theorem skipBrackets_open {t : Token} (h : t.opens = true) (depth : Nat) (rest : List Token) :
    skipBrackets (depth + 1) (t :: rest) = skipBrackets (depth + 2) rest := by
  simp [skipBrackets, h]

theorem skipBrackets_close {t : Token} (h : t.opens = false) (h' : t.closes = true) (depth : Nat)
    (rest : List Token) : skipBrackets (depth + 1) (t :: rest) = skipBrackets depth rest := by
  simp [skipBrackets, h, h']

theorem skipBrackets_other {t : Token} (h : t.opens = false) (h' : t.closes = false) (depth : Nat)
    (rest : List Token) : skipBrackets (depth + 1) (t :: rest) = skipBrackets (depth + 1) rest := by
  simp [skipBrackets, h, h']

mutual

theorem skipBrackets_value (depth : Nat) (v : Value) (rest : List Token) :
    skipBrackets (depth + 1) (v.tokens ++ rest) = skipBrackets (depth + 1) rest := by
  cases v with
  | scalar type bits => exact skipBrackets_other rfl rfl depth rest
  | i32 n => exact skipBrackets_other rfl rfl depth rest
  | string s => exact skipBrackets_other rfl rfl depth rest
  | struct fields =>
      simp only [Value.tokens, List.cons_append, List.append_assoc, List.nil_append]
      rw [skipBrackets_open rfl, skipBrackets_fields, skipBrackets_other rfl rfl,
        skipBrackets_close rfl rfl]
  | map keys values entries =>
      simp only [Value.tokens, List.cons_append, List.append_assoc, List.nil_append]
      rw [skipBrackets_open rfl, skipBrackets_entries, skipBrackets_close rfl rfl]
  | set type elements =>
      simp only [Value.tokens, List.cons_append, List.append_assoc, List.nil_append]
      rw [skipBrackets_open rfl, skipBrackets_elements, skipBrackets_close rfl rfl]
  | list type elements =>
      simp only [Value.tokens, List.cons_append, List.append_assoc, List.nil_append]
      rw [skipBrackets_open rfl, skipBrackets_elements, skipBrackets_close rfl rfl]

theorem skipBrackets_fields (depth : Nat) (fields : Fields) (rest : List Token) :
    skipBrackets (depth + 1) (Value.fieldTokens fields ++ rest) =
      skipBrackets (depth + 1) rest := by
  match fields with
  | [] => rfl
  | (id, v) :: fields =>
      simp only [Value.fieldTokens, List.cons_append, List.append_assoc]
      rw [skipBrackets_other rfl rfl, skipBrackets_value, skipBrackets_other rfl rfl,
        skipBrackets_fields depth fields]

theorem skipBrackets_entries (depth : Nat) (entries : List (Value × Value)) (rest : List Token) :
    skipBrackets (depth + 1) (Value.entryTokens entries ++ rest) =
      skipBrackets (depth + 1) rest := by
  match entries with
  | [] => rfl
  | (k, v) :: entries =>
      simp only [Value.entryTokens, List.append_assoc]
      rw [skipBrackets_value, skipBrackets_value, skipBrackets_entries depth entries]

theorem skipBrackets_elements (depth : Nat) (elements : List Value) (rest : List Token) :
    skipBrackets (depth + 1) (Value.elementTokens elements ++ rest) =
      skipBrackets (depth + 1) rest := by
  match elements with
  | [] => rfl
  | v :: elements =>
      simp only [Value.elementTokens, List.append_assoc]
      rw [skipBrackets_value, skipBrackets_elements depth elements]

end

theorem skips_skipValue : Skips fun _ tokens => skipValue tokens := by
  intro v rest _
  cases v with
  | scalar type bits => rfl
  | i32 n => rfl
  | string s => rfl
  | struct fields =>
      simp only [Value.tokens, List.cons_append, List.append_assoc, List.nil_append]
      show skipBrackets 1 _ = _
      rw [skipBrackets_fields, skipBrackets_other rfl rfl, skipBrackets_close rfl rfl,
        skipBrackets_zero]
  | map keys values entries =>
      simp only [Value.tokens, List.cons_append, List.append_assoc, List.nil_append]
      show skipBrackets 1 _ = _
      rw [skipBrackets_entries, skipBrackets_close rfl rfl,
        skipBrackets_zero]
  | set type elements =>
      simp only [Value.tokens, List.cons_append, List.append_assoc, List.nil_append]
      show skipBrackets 1 _ = _
      rw [skipBrackets_elements, skipBrackets_close rfl rfl,
        skipBrackets_zero]
  | list type elements =>
      simp only [Value.tokens, List.cons_append, List.append_assoc, List.nil_append]
      show skipBrackets 1 _ = _
      rw [skipBrackets_elements, skipBrackets_close rfl rfl,
        skipBrackets_zero]

/-!
## Reading a structure
-/

section Reading

variable {σ : Type _}

/-- A field that a reader knows, and what it does with the value. -/
inductive FieldReader (σ : Type _) where
  | string (id : Int16) (assign : String -> σ -> σ)
  | i32 (id : Int16) (assign : Int32 -> σ -> σ)

def FieldReader.id : FieldReader σ -> Int16
  | string id _ => id
  | i32 id _ => id

def known (fields : List (FieldReader σ)) (id : Int16) : Option (FieldReader σ) :=
  fields.find? fun f => f.id == id

section Loop

variable (skip : TType -> List Token -> Option (List Token)) (fields : List (FieldReader σ))

def readString (assign : String -> σ -> σ) (s : σ) : List Token -> Option (σ × List Token)
  | .string x :: rest => some (assign x s, rest)
  | _ => none

def readI32 (assign : Int32 -> σ -> σ) (s : σ) : List Token -> Option (σ × List Token)
  | .i32 n :: rest => some (assign n s, rest)
  | _ => none

/-- The value of a field: it is read if the field is known and has its type, or skipped. -/
def readField (type : TType) (id : Int16) (s : σ) (tokens : List Token) :
    Option (σ × List Token) :=
  match known fields id with
  | some (.string _ assign) =>
      if type = .string then readString assign s tokens
      else (skip type tokens).map fun rest => (s, rest)
  | some (.i32 _ assign) =>
      if type = .i32 then readI32 assign s tokens
      else (skip type tokens).map fun rest => (s, rest)
  | none => (skip type tokens).map fun rest => (s, rest)

/-- The loop over the fields, with the number of rounds that it may still make. -/
def readFields : Nat -> σ -> List Token -> Option (σ × List Token)
  | 0, _, _ => none
  | rounds + 1, s, .fieldBegin type id :: rest => do
      let (s, rest) <- readField skip fields type id s rest
      match rest with
      | .fieldEnd :: rest => readFields rounds s rest
      | _ => none
  | _ + 1, s, .fieldStop :: rest => some (s, rest)
  | _ + 1, _, _ => none

def readStruct (s : σ) : List Token -> Option (σ × List Token)
  | .structBegin :: rest => do
      let (s, rest) <- readFields skip fields (rest.length + 1) s rest
      match rest with
      | .structEnd :: rest => some (s, rest)
      | _ => none
  | _ => none

end Loop

def FieldReader.put (s : σ) : FieldReader σ -> Value -> σ
  | string _ assign, .string x => assign x s
  | i32 _ assign, .i32 n => assign n s
  | _, _ => s

def assign (fields : List (FieldReader σ)) (s : σ) (field : Int16 × Value) : σ :=
  match known fields field.1 with
  | some f => f.put s field.2
  | none => s

section Meaning

variable {skip : TType -> List Token -> Option (List Token)} {fields : List (FieldReader σ)}

theorem readField_tokens (hskip : Skips skip) (id : Int16) {v : Value} (hv : v.Regular) (s : σ)
    (rest : List Token) :
    readField skip fields v.type id s (v.tokens ++ rest) =
      some (assign fields s (id, v), rest) := by
  have hskipped := hskip v rest hv
  unfold readField assign
  dsimp only
  cases known fields id with
  | none => simp [hskipped]
  | some f =>
      cases f with
      | string _ set =>
          cases v with
          | string x => rfl
          | _ =>
              dsimp only
              rw [if_neg (by simp [Value.type]), hskipped]
              rfl
      | i32 _ set =>
          cases v with
          | i32 n => rfl
          | _ =>
              dsimp only
              rw [if_neg (by simp [Value.type]), hskipped]
              rfl

theorem readFields_tokens (fields : List (FieldReader σ)) (hskip : Skips skip) (list : Fields)
    (hlist : Value.RegularFields list) (s : σ) (rest : List Token) {rounds : Nat}
    (hrounds : list.length < rounds) :
    readFields skip fields rounds s (Value.fieldTokens list ++ .fieldStop :: rest) =
      some (list.foldl (assign fields) s, rest) := by
  induction list generalizing s rounds with
  | nil =>
      cases rounds with
      | zero => cases hrounds
      | succ rounds => rfl
  | cons field list ih =>
      rcases field with ⟨id, v⟩
      cases rounds with
      | zero => cases hrounds
      | succ rounds =>
          rcases hlist with ⟨hv, hlist⟩
          have hrest := ih hlist (assign fields s (id, v)) (Nat.lt_of_succ_lt_succ hrounds)
          simp only [Value.fieldTokens, List.cons_append, List.append_assoc, readFields]
          rw [readField_tokens hskip id hv]
          exact hrest

theorem length_le_fieldTokens (list : Fields) :
    list.length ≤ (Value.fieldTokens list).length := by
  induction list with
  | nil => exact Nat.le_refl 0
  | cons field list ih =>
      rcases field with ⟨id, v⟩
      simp only [Value.fieldTokens, List.length_cons, List.length_append]
      omega

theorem foldl_last {α β : Type _} (step : σ -> α -> σ) (view : σ -> β) (pick : α -> Option β)
    (hstep : forall s a, view (step s a) = (pick a).getD (view s)) (l : List α) (s : σ) :
    view (l.foldl step s) = ((l.filterMap pick).getLast?).getD (view s) := by
  induction l generalizing s with
  | nil => rfl
  | cons a rest ih =>
      rw [List.foldl_cons, ih, hstep]
      cases hpick : pick a with
      | none => rw [List.filterMap_cons_none hpick, Option.getD_none]
      | some b =>
          rw [List.filterMap_cons_some hpick, List.getLast?_cons, Option.getD_some,
            Option.getD_some]

theorem known_eq_some {id : Int16} {f : FieldReader σ} (h : known fields id = some f) :
    f ∈ fields ∧ f.id = id :=
  ⟨List.mem_of_find?_eq_some h, by simpa using List.find?_some h⟩

theorem foldl_assign (fields : List (FieldReader σ)) {β : Type _} (view : σ -> β)
    (pick : Int16 × Value -> Option β)
    (hknown : forall f, f ∈ fields -> forall s v, view (f.put s v) = (pick (f.id, v)).getD (view s))
    (hother : forall id v, known fields id = none -> pick (id, v) = none) (list : Fields) (s : σ) :
    view (list.foldl (assign fields) s) = ((list.filterMap pick).getLast?).getD (view s) := by
  apply foldl_last
  intro s field
  rcases field with ⟨id, v⟩
  unfold assign
  dsimp only
  cases hf : known fields id with
  | none =>
      rw [hother id v hf]
      rfl
  | some f =>
      rcases known_eq_some hf with ⟨hmem, rfl⟩
      exact hknown f hmem s v

theorem readStruct_tokens (hskip : Skips skip) (list : Fields)
    (hlist : Value.RegularFields list) (s : σ) (rest : List Token) :
    readStruct skip fields s ((Value.struct list).tokens ++ rest) =
      some (list.foldl (assign fields) s, rest) := by
  have hrounds : list.length <
      (Value.fieldTokens list ++ .fieldStop :: .structEnd :: rest).length + 1 := by
    have hle := length_le_fieldTokens list
    simp only [List.length_append, List.length_cons]
    omega
  have hread := readFields_tokens fields hskip list hlist s (.structEnd :: rest) hrounds
  simp only [Value.tokens, List.cons_append, List.append_assoc, List.nil_append, readStruct]
  rw [hread]
  rfl

end Meaning

end Reading

end Wire
