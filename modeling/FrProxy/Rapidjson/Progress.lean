import FrProxy.Rapidjson

/-!
# The rounds of the parser suffice

Every part of the parser consumes what it reads, so that the number of rounds
the root starts with is never used up: more rounds give the same document.
-/

namespace FrProxy

namespace Rapidjson

/-- `t` is what is left of `s` behind characters that satisfy `p`. -/
def Reads (p : Char -> Bool) (s t : List Char) : Prop :=
  exists u, s = u ++ t ∧ forall c, c ∈ u -> p c = true

section Reading

variable {p : Char -> Bool} {r s t : List Char}

theorem Reads.refl (s : List Char) : Reads p s s :=
  ⟨[], rfl, by simp⟩

theorem Reads.cons {c : Char} (hc : p c = true) (h : Reads p s t) : Reads p (c :: s) t := by
  rcases h with ⟨u, rfl, hu⟩
  refine ⟨c :: u, rfl, ?_⟩
  intro d hd
  rcases List.mem_cons.mp hd with rfl | hd
  · exact hc
  · exact hu d hd

theorem Reads.trans (h : Reads p r s) (h' : Reads p s t) : Reads p r t := by
  rcases h with ⟨u, rfl, hu⟩
  rcases h' with ⟨v, rfl, hv⟩
  refine ⟨u ++ v, (List.append_assoc u v t).symm, ?_⟩
  intro c hc
  rcases List.mem_append.mp hc with hc | hc
  · exact hu c hc
  · exact hv c hc

theorem Reads.mono {q : Char -> Bool} (h : Reads p s t)
    (hpq : forall {c}, p c = true -> q c = true) : Reads q s t := by
  rcases h with ⟨u, hs, hu⟩
  exact ⟨u, hs, fun c hc => hpq (hu c hc)⟩

theorem Reads.length_le (h : Reads p s t) : t.length ≤ s.length := by
  rcases h with ⟨u, rfl, _⟩
  simp

theorem reads_dropWhile (p : Char -> Bool) (s : List Char) : Reads p s (s.dropWhile p) :=
  ⟨s.takeWhile p, List.takeWhile_append_dropWhile.symm, fun c hc => by
    simpa using List.all_eq_true.mp List.all_takeWhile c hc⟩

end Reading

theorem skipWhitespace_reads (s : List Char) : Reads isWhitespace s (skipWhitespace s) :=
  reads_dropWhile isWhitespace s

theorem skipWhitespace_length (s : List Char) : (skipWhitespace s).length ≤ s.length :=
  (skipWhitespace_reads s).length_le

theorem takeWord_eq {word s t : List Char} (h : takeWord word s = some t) : s = word ++ t := by
  induction word generalizing s with
  | nil =>
      cases h
      rfl
  | cons w word ih =>
      cases s with
      | nil => cases h
      | cons c s =>
          simp only [takeWord, Option.ite_none_right_eq_some] at h
          rw [h.left, ih h.right, List.cons_append]

theorem takeWord_length {word s t : List Char} (h : takeWord word s = some t) :
    t.length + word.length = s.length := by
  rw [takeWord_eq h, List.length_append]
  omega

/-!
## Strings
-/

theorem parseHex_length {n : Nat} {codepoint cp : Nat} {s t : List Char}
    (h : parseHex codepoint n s = some (cp, t)) : t.length + n = s.length := by
  induction n generalizing codepoint s with
  | zero =>
      cases h
      rfl
  | succ n ih =>
      cases s with
      | nil => cases h
      | cons c s =>
          simp only [parseHex] at h
          cases hd : hexDigit c with
          | none =>
              rw [hd] at h
              cases h
          | some d =>
              rw [hd] at h
              have htail := ih h
              simp only [List.length_cons]
              omega

theorem parseUnicode_length {s x t : List Char} (h : parseUnicode s = some (x, t)) :
    t.length < s.length := by
  simp only [parseUnicode, parseHex4, Option.bind_eq_bind, Option.bind_eq_some_iff] at h
  rcases h with ⟨⟨cp, s1⟩, hhex, h⟩
  have hlen := parseHex_length hhex
  dsimp only at h
  split at h
  · rcases Option.bind_eq_some_iff.mp h with ⟨s2, hword, h⟩
    rcases Option.bind_eq_some_iff.mp h with ⟨⟨cp2, s3⟩, hhex2, h⟩
    have hlen2 := takeWord_length hword
    have hlen3 := parseHex_length hhex2
    simp only [Option.ite_none_left_eq_some, Option.pure_def, Option.some.injEq,
      Prod.mk.injEq] at h
    rcases h with ⟨_, _, rfl⟩
    simp only [List.length_cons, List.length_nil] at hlen2
    omega
  · simp only [Option.pure_def, Option.some.injEq, Prod.mk.injEq] at h
    rcases h with ⟨_, rfl⟩
    omega

theorem parseEscape_length {s x t : List Char} (h : parseEscape s = some (x, t)) :
    t.length < s.length := by
  cases s with
  | nil => cases h
  | cons e s =>
      simp only [parseEscape] at h
      split at h
      · cases h
        exact Nat.lt_succ_self _
      · simp only [Option.ite_none_right_eq_some] at h
        exact Nat.lt_succ_of_lt (parseUnicode_length h.right)

theorem stringLoop_length {rounds : Nat} {s x t : List Char}
    (h : stringLoop rounds s = some (x, t)) : t.length < s.length := by
  induction rounds generalizing s x with
  | zero => cases h
  | succ rounds ih =>
      cases s with
      | nil => cases h
      | cons c s =>
          simp only [stringLoop] at h
          split at h
          · rcases Option.bind_eq_some_iff.mp h with ⟨⟨y, s1⟩, hesc, h⟩
            rcases Option.bind_eq_some_iff.mp h with ⟨⟨z, s2⟩, hloop, h⟩
            cases h
            have hlen : s1.length < s.length := parseEscape_length hesc
            have hlen2 : s2.length < s1.length := ih hloop
            simp only [List.length_cons]
            omega
          · split at h
            · cases h
              exact Nat.lt_succ_self _
            · split at h
              · cases h
              · rcases Option.bind_eq_some_iff.mp h with ⟨⟨z, s2⟩, hloop, h⟩
                cases h
                exact Nat.lt_succ_of_lt (ih hloop)

theorem stringLoop_rounds {rounds : Nat} {s : List Char} (h : s.length ≤ rounds) :
    stringLoop (rounds + 1) s = stringLoop rounds s := by
  induction rounds generalizing s with
  | zero =>
      cases s with
      | nil => rfl
      | cons c s => simp at h
  | succ rounds ih =>
      cases s with
      | nil => rfl
      | cons c s =>
          have hs : s.length ≤ rounds := Nat.le_of_succ_le_succ h
          rw [stringLoop, stringLoop, ih hs]
          split
          · cases hesc : parseEscape s with
            | none => rfl
            | some r =>
                have hlen := parseEscape_length (x := r.1) (t := r.2) hesc
                simp only [Option.bind_eq_bind, Option.bind_some]
                rw [ih (by omega)]
          · rfl

/-!
## Numbers
-/

def numeric (c : Char) : Bool :=
  c.isDigit || c == '+' || c == '-' || c == '.' || c == 'e' || c == 'E'

theorem numeric_of_isDigit {c : Char} (h : c.isDigit = true) : numeric c = true := by
  simp [numeric, h]

theorem digitsUpTo_reads (limit last i : Nat) (s : List Char) :
    Reads numeric s (digitsUpTo limit last i s).2.2 := by
  induction s generalizing i with
  | nil => exact Reads.refl _
  | cons c s ih =>
      unfold digitsUpTo
      split
      · rename_i hc
        split
        · exact Reads.refl _
        · exact (ih _).cons (numeric_of_isDigit hc)
      · exact Reads.refl _

theorem bigDigits_reads {d : Float} {s t : List Char} (h : bigDigits d s = some t) :
    Reads numeric s t := by
  induction s generalizing d with
  | nil =>
      cases h
      exact Reads.refl _
  | cons c s ih =>
      simp only [bigDigits] at h
      split at h
      · rename_i hc
        simp only [Option.ite_none_left_eq_some] at h
        exact (ih h.right).cons (numeric_of_isDigit hc)
      · cases h
        exact Reads.refl _

theorem parseFrac_reads {s t : List Char} {b : Bool} (h : parseFrac s = some (b, t)) :
    Reads numeric s t := by
  unfold parseFrac at h
  split at h
  · simp only [Option.ite_none_right_eq_some, Option.some.injEq, Prod.mk.injEq] at h
    rename_i c s
    rcases h with ⟨hc, _, rfl⟩
    have htail : Reads numeric s (s.dropWhile Char.isDigit) :=
      (reads_dropWhile Char.isDigit s).mono numeric_of_isDigit
    exact (htail.cons (numeric_of_isDigit hc)).cons rfl
  · cases h
  · cases h
    exact Reads.refl _

theorem expDigits_reads {exp : Nat} {s t : List Char} (h : expDigits exp s = some t) :
    Reads numeric s t := by
  induction s generalizing exp with
  | nil =>
      cases h
      exact Reads.refl _
  | cons c s ih =>
      simp only [expDigits] at h
      split at h
      · rename_i hc
        simp only [Option.ite_none_left_eq_some] at h
        exact (ih h.right).cons (numeric_of_isDigit hc)
      · cases h
        exact Reads.refl _

theorem expSign_reads (s : List Char) : Reads numeric s (expSign s) := by
  unfold expSign
  split
  · exact (Reads.refl _).cons rfl
  · exact (Reads.refl _).cons rfl
  · exact Reads.refl _

theorem parseExp_reads {s t : List Char} {b : Bool} (h : parseExp s = some (b, t)) :
    Reads numeric s t := by
  cases s with
  | nil =>
      cases h
      exact Reads.refl _
  | cons c s =>
      simp only [parseExp] at h
      split at h
      · rename_i hc
        have hnumeric : numeric c = true := by
          rcases hc with rfl | rfl
          · rfl
          · rfl
        have hsign := expSign_reads s
        split at h
        · cases h
        · rename_i d s' heq
          rw [heq] at hsign
          simp only [Option.ite_none_right_eq_some, Option.map_eq_some_iff] at h
          rcases h with ⟨hd, s2, hdigits, hresult⟩
          cases hresult
          have htail := (expDigits_reads hdigits).cons (numeric_of_isDigit hd)
          exact (hsign.trans htail).cons hnumeric
      · cases h
        exact Reads.refl _

theorem parseInt_reads (minus : Bool) (c : Char) (s : List Char) :
    Reads numeric s (parseInt minus c s).2.2 := by
  unfold parseInt
  split
  · exact Reads.refl _
  · split
    · exact digitsUpTo_reads _ _ _ s
    · exact digitsUpTo_reads _ _ _ s

theorem parseInt64_reads (minus try64bit : Bool) (i : Nat) (s : List Char) :
    Reads numeric s (parseInt64 minus try64bit i s).2.2 := by
  unfold parseInt64
  split
  · split
    · exact digitsUpTo_reads _ _ _ s
    · exact digitsUpTo_reads _ _ _ s
  · exact Reads.refl _

theorem parseBig_reads {useDouble : Bool} {i64 : Nat} {s t : List Char}
    (h : parseBig useDouble i64 s = some t) : Reads numeric s t := by
  cases useDouble with
  | true => exact bigDigits_reads h
  | false =>
      cases h
      exact Reads.refl _

def IsNumber : Json -> Prop
  | .int _ | .number => True
  | _ => False

theorem isNumber_numberValue (minus int32 : Bool) (i : Nat) :
    IsNumber (numberValue minus int32 i) := by
  unfold numberValue
  split
  · trivial
  · split
    · trivial
    · split
      · trivial
      · trivial

theorem parseUnsigned_reads {minus : Bool} {s t : List Char} {v : Json}
    (h : parseUnsigned minus s = some (v, t)) :
    Reads numeric s t ∧ t.length < s.length ∧ IsNumber v := by
  cases s with
  | nil => cases h
  | cons c s =>
      simp only [parseUnsigned, Option.ite_none_right_eq_some, Option.bind_eq_bind,
        Option.bind_eq_some_iff, Option.pure_def, Option.some.injEq, Prod.mk.injEq,
        Prod.exists] at h
      rcases h with ⟨hc, s3, hbig, frac, s4, hfrac, exp, s5, hexp, rfl, rfl⟩
      have hint := parseInt_reads minus c s
      have hint64 := parseInt64_reads minus (parseInt minus c s).2.1 (parseInt minus c s).1
        (parseInt minus c s).2.2
      have hreads : Reads numeric s s5 :=
        (((hint.trans hint64).trans (parseBig_reads hbig)).trans (parseFrac_reads hfrac)).trans
          (parseExp_reads hexp)
      exact ⟨hreads.cons (numeric_of_isDigit hc), Nat.lt_succ_of_le hreads.length_le,
        isNumber_numberValue _ _ _⟩

theorem parseNumber_reads {s t : List Char} {v : Json} (h : parseNumber s = some (v, t)) :
    Reads numeric s t ∧ t.length < s.length ∧ IsNumber v := by
  unfold parseNumber at h
  split at h
  · rcases parseUnsigned_reads h with ⟨hreads, hlen, hv⟩
    exact ⟨hreads.cons rfl, Nat.lt_succ_of_lt hlen, hv⟩
  · exact parseUnsigned_reads h

/-!
## Values

What holds of the text in front of a value, of the value, and of the text
behind it, if it holds branch by branch.
-/

structure ValueRules (value : List Char -> Json -> List Char -> Prop)
    (members : List Char -> List (String × Json) -> List Char -> Prop)
    (elements : List Char -> List Json -> List Char -> Prop) : Prop where
  null : forall t, value ('n' :: ['u', 'l', 'l'] ++ t) .null t
  true : forall t, value ('t' :: ['r', 'u', 'e'] ++ t) (.bool true) t
  false : forall t, value ('f' :: ['a', 'l', 's', 'e'] ++ t) (.bool false) t
  string : forall s cs t, parseString s = some (cs, t) -> value ('"' :: s) (stringValue cs) t
  number : forall s v t, parseNumber s = some (v, t) -> value s v t
  emptyObject : forall s t, skipWhitespace s = '\x7d' :: t -> value ('\x7b' :: s) (.object []) t
  object : forall s ms t, members (skipWhitespace s) ms t -> value ('\x7b' :: s) (.object ms) t
  emptyArray : forall s t, skipWhitespace s = ']' :: t -> value ('[' :: s) (.array []) t
  array : forall s vs t, elements (skipWhitespace s) vs t -> value ('[' :: s) (.array vs) t
  lastMember : forall s key s1 s2 v s3 t, parseString s = some (key, s1) ->
    skipWhitespace s1 = ':' :: s2 -> value (skipWhitespace s2) v s3 ->
    skipWhitespace s3 = '\x7d' :: t -> members ('"' :: s) [(String.ofList key, v)] t
  member : forall s key s1 s2 v s3 s4 ms t, parseString s = some (key, s1) ->
    skipWhitespace s1 = ':' :: s2 -> value (skipWhitespace s2) v s3 ->
    skipWhitespace s3 = ',' :: s4 -> members (skipWhitespace s4) ms t ->
    members ('"' :: s) ((String.ofList key, v) :: ms) t
  lastElement : forall s v s1 t, value s v s1 -> skipWhitespace s1 = ']' :: t ->
    elements s [v] t
  element : forall s v s1 s2 vs t, value s v s1 -> skipWhitespace s1 = ',' :: s2 ->
    elements (skipWhitespace s2) vs t -> elements s (v :: vs) t

section Rules

variable {value : List Char -> Json -> List Char -> Prop}
  {members : List Char -> List (String × Json) -> List Char -> Prop}
  {elements : List Char -> List Json -> List Char -> Prop}

theorem ValueRules.value_succ (rules : ValueRules value members elements) {rounds : Nat}
    (hobject : forall s v t, parseObject rounds (skipWhitespace s) = some (v, t) ->
      value ('\x7b' :: s) v t)
    (harray : forall s v t, parseArray rounds (skipWhitespace s) = some (v, t) ->
      value ('[' :: s) v t)
    {s : List Char} {v : Json} {t : List Char}
    (h : parseValue (rounds + 1) s = some (v, t)) : value s v t := by
  cases s with
  | nil => simp [parseValue] at h
  | cons c s =>
      rw [parseValue] at h
      split at h
      · rename_i hc
        rcases Option.map_eq_some_iff.mp h with ⟨s1, hword, heq⟩
        cases heq
        rw [hc, takeWord_eq hword]
        exact rules.null t
      · split at h
        · rename_i hc
          rcases Option.map_eq_some_iff.mp h with ⟨s1, hword, heq⟩
          cases heq
          rw [hc, takeWord_eq hword]
          exact rules.true t
        · split at h
          · rename_i hc
            rcases Option.map_eq_some_iff.mp h with ⟨s1, hword, heq⟩
            cases heq
            rw [hc, takeWord_eq hword]
            exact rules.false t
          · split at h
            · rename_i hc
              rcases Option.map_eq_some_iff.mp h with ⟨r, hstring, heq⟩
              cases heq
              rw [hc]
              exact rules.string s r.1 r.2 hstring
            · split at h
              · rename_i hc
                rw [hc]
                exact hobject s v t h
              · split at h
                · rename_i hc
                  rw [hc]
                  exact harray s v t h
                · exact rules.number (c :: s) v t h

theorem ValueRules.object_succ (rules : ValueRules value members elements) {rounds : Nat}
    (hmembers : forall s ms t, parseMembers rounds s = some (ms, t) -> members s ms t)
    {s : List Char} {v : Json} {t : List Char}
    (h : parseObject (rounds + 1) (skipWhitespace s) = some (v, t)) :
    value ('\x7b' :: s) v t := by
  cases hs : skipWhitespace s with
  | nil =>
      rw [hs] at h
      simp [parseObject] at h
  | cons c s1 =>
      rw [hs, parseObject] at h
      by_cases hc : c = '\x7d'
      · rw [if_pos hc] at h
        cases h
        exact rules.emptyObject s t (hc ▸ hs)
      · rw [if_neg hc] at h
        rcases Option.map_eq_some_iff.mp h with ⟨r, hms, heq⟩
        cases heq
        apply rules.object
        rw [hs]
        exact hmembers _ _ _ hms

theorem ValueRules.members_succ (rules : ValueRules value members elements) {rounds : Nat}
    (hvalue : forall s v t, parseValue rounds s = some (v, t) -> value s v t)
    (hmembers : forall s ms t, parseMembers rounds s = some (ms, t) -> members s ms t)
    {s : List Char} {ms : List (String × Json)} {t : List Char}
    (h : parseMembers (rounds + 1) s = some (ms, t)) : members s ms t := by
  cases s with
  | nil => simp [parseMembers] at h
  | cons c s =>
      simp only [parseMembers, Option.ite_none_right_eq_some, Option.bind_eq_bind,
        Option.bind_eq_some_iff, Prod.exists] at h
      rcases h with ⟨rfl, key, s1, hkey, s2, hcolon, v, s3, hv, h⟩
      have hcolon' := takeWord_eq hcolon
      have hv' := hvalue _ _ _ hv
      split at h
      · rename_i s4 hs4
        simp only [Option.bind_eq_some_iff, Prod.exists, Option.pure_def,
          Option.some.injEq, Prod.mk.injEq] at h
        rcases h with ⟨tail, s5, htail, rfl, rfl⟩
        exact rules.member s key s1 s2 v s3 s4 tail s5 hkey hcolon' hv' hs4
          (hmembers _ _ _ htail)
      · rename_i s4 hs4
        cases h
        exact rules.lastMember s key s1 s2 v s3 t hkey hcolon' hv' hs4
      · cases h

theorem ValueRules.array_succ (rules : ValueRules value members elements) {rounds : Nat}
    (helements : forall s vs t, parseElements rounds s = some (vs, t) -> elements s vs t)
    {s : List Char} {v : Json} {t : List Char}
    (h : parseArray (rounds + 1) (skipWhitespace s) = some (v, t)) :
    value ('[' :: s) v t := by
  cases hs : skipWhitespace s with
  | nil =>
      rw [hs] at h
      simp [parseArray] at h
  | cons c s1 =>
      rw [hs, parseArray] at h
      by_cases hc : c = ']'
      · rw [if_pos hc] at h
        cases h
        exact rules.emptyArray s t (hc ▸ hs)
      · rw [if_neg hc] at h
        rcases Option.map_eq_some_iff.mp h with ⟨r, hvs, heq⟩
        cases heq
        apply rules.array
        rw [hs]
        exact helements _ _ _ hvs

theorem ValueRules.elements_succ (rules : ValueRules value members elements) {rounds : Nat}
    (hvalue : forall s v t, parseValue rounds s = some (v, t) -> value s v t)
    (helements : forall s vs t, parseElements rounds s = some (vs, t) -> elements s vs t)
    {s : List Char} {vs : List Json} {t : List Char}
    (h : parseElements (rounds + 1) s = some (vs, t)) : elements s vs t := by
  simp only [parseElements, Option.bind_eq_bind, Option.bind_eq_some_iff, Prod.exists] at h
  rcases h with ⟨v, s1, hv, h⟩
  have hv' := hvalue _ _ _ hv
  split at h
  · rename_i s2 hs2
    simp only [Option.bind_eq_some_iff, Prod.exists, Option.pure_def,
      Option.some.injEq, Prod.mk.injEq] at h
    rcases h with ⟨tail, s3, htail, rfl, rfl⟩
    exact rules.element s v s1 s2 tail s3 hv' hs2 (helements _ _ _ htail)
  · rename_i s2 hs2
    cases h
    exact rules.lastElement s v s1 t hv' hs2
  · cases h

theorem ValueRules.hold (rules : ValueRules value members elements) (rounds : Nat) :
    (forall s v t, parseValue rounds s = some (v, t) -> value s v t) ∧
    (forall s v t, parseObject rounds (skipWhitespace s) = some (v, t) ->
      value ('\x7b' :: s) v t) ∧
    (forall s ms t, parseMembers rounds s = some (ms, t) -> members s ms t) ∧
    (forall s v t, parseArray rounds (skipWhitespace s) = some (v, t) ->
      value ('[' :: s) v t) ∧
    (forall s vs t, parseElements rounds s = some (vs, t) -> elements s vs t) := by
  induction rounds with
  | zero =>
      simp [parseValue, parseObject, parseMembers, parseArray, parseElements]
  | succ rounds ih =>
      rcases ih with ⟨hvalue, hobject, hmembers, harray, helements⟩
      exact ⟨fun _ _ _ => rules.value_succ hobject harray, fun _ _ _ => rules.object_succ hmembers,
        fun _ _ _ => rules.members_succ hvalue hmembers, fun _ _ _ => rules.array_succ helements,
        fun _ _ _ => rules.elements_succ hvalue helements⟩

end Rules

/-!
## Enough rounds
-/

theorem lt_of_skipWhitespace {s t : List Char} {c : Char} (h : skipWhitespace s = c :: t) :
    t.length < s.length := by
  have hlen := skipWhitespace_length s
  rw [h] at hlen
  exact hlen

theorem lengthRules : ValueRules (fun s _ t => t.length < s.length)
    (fun s _ t => t.length < s.length) (fun s _ t => t.length < s.length) where
  null := by
    intro t
    simp only [List.length_append, List.length_cons]
    omega
  true := by
    intro t
    simp only [List.length_append, List.length_cons]
    omega
  false := by
    intro t
    simp only [List.length_append, List.length_cons]
    omega
  string := fun s cs t h => Nat.lt_succ_of_lt (stringLoop_length h)
  number := fun s v t h => (parseNumber_reads h).right.left
  emptyObject := fun s t h => Nat.lt_succ_of_lt (lt_of_skipWhitespace h)
  object := fun s _ t h =>
    Nat.lt_succ_of_lt (Nat.lt_of_lt_of_le h (skipWhitespace_length s))
  emptyArray := fun s t h => Nat.lt_succ_of_lt (lt_of_skipWhitespace h)
  array := fun s _ t h =>
    Nat.lt_succ_of_lt (Nat.lt_of_lt_of_le h (skipWhitespace_length s))
  lastMember := by
    intro s key s1 s2 v s3 t hkey hcolon hv hbrace
    have h1 := stringLoop_length hkey
    have h2 := lt_of_skipWhitespace hcolon
    have h3 := skipWhitespace_length s2
    have h4 := lt_of_skipWhitespace hbrace
    simp only [List.length_cons]
    omega
  member := by
    intro s key s1 s2 v s3 s4 ms t hkey hcolon hv hcomma hms
    have h1 := stringLoop_length hkey
    have h2 := lt_of_skipWhitespace hcolon
    have h3 := skipWhitespace_length s2
    have h4 := lt_of_skipWhitespace hcomma
    have h5 := skipWhitespace_length s4
    simp only [List.length_cons]
    omega
  lastElement := fun s v s1 t hv hbracket => Nat.lt_trans (lt_of_skipWhitespace hbracket) hv
  element := by
    intro s v s1 s2 vs t hv hcomma hvs
    have h1 := lt_of_skipWhitespace hcomma
    have h2 := skipWhitespace_length s2
    omega

theorem parseValue_length {rounds : Nat} {s t : List Char} {v : Json}
    (h : parseValue rounds s = some (v, t)) : t.length < s.length :=
  (lengthRules.hold rounds).left s v t h

theorem parseMembers_round {rounds : Nat} {s : List Char}
    (hvalue : forall t : List Char, t.length < s.length ->
      parseValue (rounds + 1) t = parseValue rounds t)
    (hmembers : forall t : List Char, t.length < s.length ->
      parseMembers (rounds + 1) t = parseMembers rounds t) :
    parseMembers (rounds + 2) s = parseMembers (rounds + 1) s := by
  cases s with
  | nil => rfl
  | cons c s =>
      rw [parseMembers, parseMembers]
      split
      · apply Option.bind_congr
        intro key hkey
        have h1 : key.2.length < s.length := stringLoop_length (x := key.1) hkey
        apply Option.bind_congr
        intro s2 hcolon
        have h2 := takeWord_length hcolon
        have h3 := skipWhitespace_length key.2
        have h4 := skipWhitespace_length s2
        simp only [List.length_cons, List.length_nil] at h2
        rw [hvalue _ (by simp only [List.length_cons]; omega)]
        apply Option.bind_congr
        intro r hv
        rcases r with ⟨v, s3⟩
        have h5 := parseValue_length hv
        dsimp only
        split
        · rename_i s4 hs4
          have h6 := lt_of_skipWhitespace hs4
          have h7 := skipWhitespace_length s4
          rw [hmembers _ (by simp only [List.length_cons]; omega)]
        · rfl
        · rfl
      · rfl

theorem parseElements_round {rounds : Nat} {s : List Char}
    (hvalue : parseValue (rounds + 1) s = parseValue rounds s)
    (helements : forall t : List Char, t.length < s.length ->
      parseElements (rounds + 1) t = parseElements rounds t) :
    parseElements (rounds + 2) s = parseElements (rounds + 1) s := by
  rw [parseElements, parseElements, hvalue]
  apply Option.bind_congr
  intro r hv
  rcases r with ⟨v, s1⟩
  have h1 := parseValue_length hv
  dsimp only
  split
  · rename_i s2 hs2
    have h2 := lt_of_skipWhitespace hs2
    have h3 := skipWhitespace_length s2
    rw [helements _ (by omega)]
  · rfl
  · rfl

theorem rounds_suffice (rounds : Nat) :
    (forall s, 3 * s.length ≤ rounds -> parseValue (rounds + 1) s = parseValue rounds s) ∧
    (forall s, 3 * s.length + 2 ≤ rounds ->
      parseObject (rounds + 1) s = parseObject rounds s) ∧
    (forall s, 3 * s.length + 1 ≤ rounds ->
      parseMembers (rounds + 1) s = parseMembers rounds s) ∧
    (forall s, 3 * s.length + 2 ≤ rounds -> parseArray (rounds + 1) s = parseArray rounds s) ∧
    (forall s, 3 * s.length + 1 ≤ rounds ->
      parseElements (rounds + 1) s = parseElements rounds s) := by
  induction rounds with
  | zero =>
      refine ⟨?_, by omega, by omega, by omega, by omega⟩
      intro s hs
      have hnil : s = [] := List.length_eq_zero_iff.mp (by omega)
      rw [hnil]
      rfl
  | succ rounds ih =>
      rcases ih with ⟨hvalue, hobject, hmembers, harray, helements⟩
      refine ⟨?_, ?_, ?_, ?_, ?_⟩
      · intro s hs
        cases s with
        | nil => rfl
        | cons c s =>
            have hlen := skipWhitespace_length s
            simp only [List.length_cons] at hs
            rw [parseValue, parseValue, hobject _ (by omega), harray _ (by omega)]
      · intro s hs
        cases s with
        | nil => rfl
        | cons c s => rw [parseObject, parseObject, hmembers _ (by omega)]
      · intro s hs
        exact parseMembers_round (fun t ht => hvalue t (by omega)) fun t ht =>
          hmembers t (by omega)
      · intro s hs
        cases s with
        | nil => rfl
        | cons c s => rw [parseArray, parseArray, helements _ (by omega)]
      · intro s hs
        exact parseElements_round (hvalue s (by omega)) fun t ht => helements t (by omega)

theorem parseValue_rounds (s : List Char) (extra : Nat) :
    parseValue (3 * s.length + extra) s = parseValue (3 * s.length) s := by
  induction extra with
  | zero => rfl
  | succ extra ih =>
      rw [<- ih]
      exact (rounds_suffice _).left s (Nat.le_add_right _ _)

end Rapidjson

end FrProxy
