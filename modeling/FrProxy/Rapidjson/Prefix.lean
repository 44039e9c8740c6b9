import FrProxy.Rapidjson.Reading

/-!
# The parser leaves alone what is behind a document

What the parser reads is read in the same way when more text stands behind it.
Only a number reads on, unless another character ends it; a document ends with
a bracket.  A text is therefore not accepted if it is cut anywhere inside its
document.
-/

namespace FrProxy

namespace Rapidjson

theorem skipWhitespace_append {s t : List Char} {c : Char} (h : skipWhitespace s = c :: t)
    (x : List Char) : skipWhitespace (s ++ x) = c :: (t ++ x) := by
  induction s with
  | nil => cases h
  | cons d s ih =>
      unfold skipWhitespace at h ih ⊢
      rw [List.cons_append, List.dropWhile_cons]
      rw [List.dropWhile_cons] at h
      split
      · rename_i hd
        rw [if_pos hd] at h
        exact ih h
      · rename_i hd
        rw [if_neg hd] at h
        cases h
        rfl

theorem takeWord_append {word s t : List Char} (h : takeWord word s = some t) (x : List Char) :
    takeWord word (s ++ x) = some (t ++ x) := by
  rw [takeWord_eq h]
  clear h
  induction word with
  | nil => rfl
  | cons w word ih => simpa [takeWord] using ih

/-!
## Strings
-/

theorem parseHex_append {n codepoint cp : Nat} {s t : List Char}
    (h : parseHex codepoint n s = some (cp, t)) (x : List Char) :
    parseHex codepoint n (s ++ x) = some (cp, t ++ x) := by
  induction n generalizing codepoint s with
  | zero =>
      cases h
      rfl
  | succ n ih =>
      cases s with
      | nil => cases h
      | cons c s =>
          rw [parseHex] at h
          rw [List.cons_append, parseHex]
          cases hd : hexDigit c with
          | none =>
              rw [hd] at h
              cases h
          | some d =>
              rw [hd] at h
              exact ih h

theorem parseUnicode_append {s y t : List Char} (h : parseUnicode s = some (y, t))
    (x : List Char) : parseUnicode (s ++ x) = some (y, t ++ x) := by
  simp only [parseUnicode, parseHex4, Option.bind_eq_bind, Option.bind_eq_some_iff] at h
  rcases h with ⟨⟨cp, s1⟩, hhex, h⟩
  simp only [parseUnicode, parseHex4, Option.bind_eq_bind, parseHex_append hhex x,
    Option.bind_some]
  dsimp only at h
  split at h
  · rename_i hhigh
    rcases Option.bind_eq_some_iff.mp h with ⟨s2, hword, h⟩
    rcases Option.bind_eq_some_iff.mp h with ⟨⟨cp2, s3⟩, hhex2, h⟩
    rcases Option.ite_none_left_eq_some.mp h with ⟨hlow, h⟩
    simp only [Option.pure_def, Option.some.injEq, Prod.mk.injEq] at h
    rcases h with ⟨rfl, rfl⟩
    simp only [if_pos hhigh, takeWord_append hword x, parseHex_append hhex2 x, Option.bind_some,
      if_neg hlow, Option.pure_def]
  · rename_i hhigh
    cases h
    simp only [if_neg hhigh, Option.pure_def]

theorem parseEscape_append {s y t : List Char} (h : parseEscape s = some (y, t))
    (x : List Char) : parseEscape (s ++ x) = some (y, t ++ x) := by
  cases s with
  | nil => cases h
  | cons e s =>
      rw [parseEscape] at h
      rw [List.cons_append, parseEscape]
      cases he : escape e with
      | some c =>
          rw [he] at h
          cases h
          rfl
      | none =>
          rw [he] at h
          rcases Option.ite_none_right_eq_some.mp h with ⟨hu, h⟩
          exact (if_pos hu).trans (parseUnicode_append h x)

theorem stringLoop_append {rounds : Nat} {s y t : List Char}
    (h : stringLoop rounds s = some (y, t)) (extra : Nat) (x : List Char) :
    stringLoop (rounds + extra) (s ++ x) = some (y, t ++ x) := by
  induction rounds generalizing s y with
  | zero => cases h
  | succ rounds ih =>
      cases s with
      | nil => cases h
      | cons c s =>
          rw [stringLoop] at h
          rw [Nat.add_right_comm, List.cons_append, stringLoop]
          split at h
          · rename_i hc
            rcases Option.bind_eq_some_iff.mp h with ⟨⟨y1, s1⟩, hesc, h⟩
            rcases Option.bind_eq_some_iff.mp h with ⟨⟨y2, s2⟩, hloop, h⟩
            cases h
            simp only [if_pos hc, parseEscape_append hesc x, Option.bind_eq_bind,
              Option.bind_some, ih hloop, Option.pure_def]
          · rename_i hc
            rw [if_neg hc]
            split at h
            · rename_i hquote
              cases h
              rw [if_pos hquote]
            · rename_i hquote
              rcases Option.ite_none_left_eq_some.mp h with ⟨hcontrol, h⟩
              rcases Option.bind_eq_some_iff.mp h with ⟨⟨y2, s2⟩, hloop, h⟩
              cases h
              simp only [if_neg hquote, if_neg hcontrol, ih hloop, Option.bind_eq_bind,
                Option.bind_some, Option.pure_def]

theorem parseString_append {s y t : List Char} (h : parseString s = some (y, t))
    (x : List Char) : parseString (s ++ x) = some (y, t ++ x) := by
  rw [parseString, List.length_append]
  exact stringLoop_append h x.length x

/-!
## Numbers

A character that does not belong to the number must end it.
-/

theorem Reads.ne_nil {p : Char -> Bool} {s t : List Char} (h : Reads p s t) (ht : t ≠ []) :
    s ≠ [] := by
  intro hs
  have hlen := h.length_le
  rw [hs, List.length_nil, Nat.le_zero_eq, List.length_eq_zero_iff] at hlen
  exact ht hlen

theorem digitsUpTo_append {limit last i j : Nat} {s t : List Char} {b : Bool}
    (h : digitsUpTo limit last i s = (j, b, t)) (ht : t ≠ []) (x : List Char) :
    digitsUpTo limit last i (s ++ x) = (j, b, t ++ x) := by
  induction s generalizing i with
  | nil =>
      cases h
      exact absurd rfl ht
  | cons c s ih =>
      rw [digitsUpTo] at h
      rw [List.cons_append, digitsUpTo]
      split at h
      · rename_i hc
        rw [if_pos hc]
        split at h
        · rename_i hfull
          cases h
          rw [if_pos hfull]
          rfl
        · rename_i hfull
          rw [if_neg hfull]
          exact ih h
      · rename_i hc
        cases h
        rw [if_neg hc]
        rfl

theorem bigDigits_append {d : Float} {s t : List Char} (h : bigDigits d s = some t)
    (ht : t ≠ []) (x : List Char) : bigDigits d (s ++ x) = some (t ++ x) := by
  induction s generalizing d with
  | nil =>
      cases h
      exact absurd rfl ht
  | cons c s ih =>
      rw [bigDigits] at h
      rw [List.cons_append, bigDigits]
      split at h
      · rename_i hc
        rcases Option.ite_none_left_eq_some.mp h with ⟨hsmall, h⟩
        rw [if_pos hc, if_neg hsmall]
        exact ih h
      · rename_i hc
        cases h
        rw [if_neg hc]
        rfl

theorem dropWhile_append {p : Char -> Bool} {s : List Char} (h : s.dropWhile p ≠ [])
    (x : List Char) : (s ++ x).dropWhile p = s.dropWhile p ++ x := by
  rw [List.dropWhile_append, if_neg (fun hnil => h (List.isEmpty_iff.mp hnil))]

theorem parseFrac_append {s t : List Char} {b : Bool} (h : parseFrac s = some (b, t))
    (ht : t ≠ []) (x : List Char) : parseFrac (s ++ x) = some (b, t ++ x) := by
  unfold parseFrac at h
  split at h
  · rename_i c s
    rcases Option.ite_none_right_eq_some.mp h with ⟨hc, h⟩
    cases h
    rw [List.cons_append, List.cons_append, parseFrac, if_pos hc, dropWhile_append ht]
  · cases h
  · rename_i hpoint hend
    cases h
    cases s with
    | nil => exact absurd rfl ht
    | cons c s =>
        have hc : c ≠ '.' := by
          intro heq
          rw [heq] at hpoint hend
          cases s with
          | nil => exact hend rfl
          | cons d s => exact hpoint d s rfl
        rw [List.cons_append]
        unfold parseFrac
        split
        · rename_i heq
          exact absurd (List.cons.inj heq).left hc
        · rename_i heq
          exact absurd (List.cons.inj heq).left hc
        · rfl

theorem expDigits_append {exp : Nat} {s t : List Char} (h : expDigits exp s = some t)
    (ht : t ≠ []) (x : List Char) : expDigits exp (s ++ x) = some (t ++ x) := by
  induction s generalizing exp with
  | nil =>
      cases h
      exact absurd rfl ht
  | cons c s ih =>
      rw [expDigits] at h
      rw [List.cons_append, expDigits]
      split at h
      · rename_i hc
        rcases Option.ite_none_left_eq_some.mp h with ⟨hsmall, h⟩
        rw [if_pos hc, if_neg hsmall]
        exact ih h
      · rename_i hc
        cases h
        rw [if_neg hc]
        rfl

theorem expSign_append {s t : List Char} {c : Char} (h : expSign s = c :: t) (x : List Char) :
    expSign (s ++ x) = c :: (t ++ x) := by
  unfold expSign at h
  split at h
  · rw [h]
    rfl
  · rw [h]
    rfl
  · rename_i hplus hminus
    rw [h, List.cons_append]
    unfold expSign
    split
    · rename_i heq
      rw [(List.cons.inj heq).left] at h
      exact absurd h (hplus _)
    · rename_i heq
      rw [(List.cons.inj heq).left] at h
      exact absurd h (hminus _)
    · rfl

theorem parseExp_append {s t : List Char} {b : Bool} (h : parseExp s = some (b, t))
    (ht : t ≠ []) (x : List Char) : parseExp (s ++ x) = some (b, t ++ x) := by
  cases s with
  | nil =>
      cases h
      exact absurd rfl ht
  | cons c s =>
      rw [parseExp] at h
      rw [List.cons_append, parseExp]
      split at h
      · rename_i hc
        rw [if_pos hc]
        cases hsign : expSign s with
        | nil =>
            rw [hsign] at h
            cases h
        | cons d s1 =>
            rw [hsign] at h
            rw [expSign_append hsign]
            rcases Option.ite_none_right_eq_some.mp h with ⟨hd, h⟩
            rcases Option.map_eq_some_iff.mp h with ⟨s2, hdigits, heq⟩
            cases heq
            dsimp only
            rw [if_pos hd, expDigits_append hdigits ht, Option.map_some]
      · rename_i hc
        cases h
        rw [if_neg hc]
        rfl

theorem parseInt_append {minus b : Bool} {c : Char} {i : Nat} {s t : List Char}
    (h : parseInt minus c s = (i, b, t)) (ht : t ≠ []) (x : List Char) :
    parseInt minus c (s ++ x) = (i, b, t ++ x) := by
  unfold parseInt at h ⊢
  split at h
  · rename_i hc
    cases h
    rw [if_pos hc]
  · rename_i hc
    rw [if_neg hc]
    cases minus with
    | true => exact digitsUpTo_append h ht x
    | false => exact digitsUpTo_append h ht x

theorem parseInt64_append {minus try64bit b : Bool} {i j : Nat} {s t : List Char}
    (h : parseInt64 minus try64bit i s = (j, b, t)) (ht : t ≠ []) (x : List Char) :
    parseInt64 minus try64bit i (s ++ x) = (j, b, t ++ x) := by
  unfold parseInt64 at h ⊢
  cases try64bit with
  | true =>
      cases minus with
      | true => exact digitsUpTo_append h ht x
      | false => exact digitsUpTo_append h ht x
  | false =>
      cases h
      rfl

theorem parseBig_append {useDouble : Bool} {i64 : Nat} {s t : List Char}
    (h : parseBig useDouble i64 s = some t) (ht : t ≠ []) (x : List Char) :
    parseBig useDouble i64 (s ++ x) = some (t ++ x) := by
  cases useDouble with
  | true => exact bigDigits_append h ht x
  | false =>
      cases h
      rfl

theorem parseUnsigned_append {minus : Bool} {s t : List Char} {v : Json}
    (h : parseUnsigned minus s = some (v, t)) (ht : t ≠ []) (x : List Char) :
    parseUnsigned minus (s ++ x) = some (v, t ++ x) := by
  cases s with
  | nil => cases h
  | cons c s =>
      rw [parseUnsigned] at h
      rw [List.cons_append, parseUnsigned]
      rcases Option.ite_none_right_eq_some.mp h with ⟨hc, h⟩
      rcases hint : parseInt minus c s with ⟨i, try64bit, s1⟩
      rcases hint64 : parseInt64 minus try64bit i s1 with ⟨i64, useDouble, s2⟩
      simp only [hint, hint64, Option.bind_eq_bind, Option.bind_eq_some_iff, Option.pure_def,
        Option.some.injEq, Prod.mk.injEq, Prod.exists] at h
      rcases h with ⟨s3, hbig, frac, s4, hfrac, exp, s5, hexp, rfl, rfl⟩
      have ht4 := (parseExp_reads hexp).ne_nil ht
      have ht3 := (parseFrac_reads hfrac).ne_nil ht4
      have ht2 := (parseBig_reads hbig).ne_nil ht3
      have hreads := parseInt64_reads minus try64bit i s1
      rw [hint64] at hreads
      have ht1 := hreads.ne_nil ht2
      rw [if_pos hc]
      simp only [parseInt_append hint ht1 x, parseInt64_append hint64 ht2 x,
        parseBig_append hbig ht3 x, parseFrac_append hfrac ht4 x, parseExp_append hexp ht x,
        Option.bind_eq_bind, Option.bind_some, Option.pure_def]

theorem parseNumber_append {s t : List Char} {v : Json} (h : parseNumber s = some (v, t))
    (ht : t ≠ []) (x : List Char) : parseNumber (s ++ x) = some (v, t ++ x) := by
  unfold parseNumber at h
  split at h
  · exact parseUnsigned_append h ht x
  · rename_i hminus
    have hread := parseUnsigned_append h ht x
    cases s with
    | nil => cases h
    | cons c s =>
        rw [List.cons_append] at hread ⊢
        unfold parseNumber
        split
        · rename_i heq
          rw [(List.cons.inj heq).left] at hminus
          exact absurd rfl (hminus s)
        · exact hread

theorem parseNumber_head {s t : List Char} {v : Json} (h : parseNumber s = some (v, t)) :
    exists c s', s = c :: s' ∧ numeric c = true := by
  rcases parseNumber_reads h with ⟨⟨u, hs, hu⟩, hlen, _⟩
  cases u with
  | nil =>
      rw [hs] at hlen
      exact absurd hlen (Nat.lt_irrefl _)
  | cons c u => exact ⟨c, u ++ t, hs, hu c List.mem_cons_self⟩

/-!
## Values
-/

/-- What is read of `s` is read of it in front of any text, with enough rounds. -/
def ReadOn {α : Type} (read : Nat -> List Char -> Option (α × List Char)) (s : List Char) (a : α)
    (t : List Char) : Prop :=
  forall x, exists n, forall extra, read (n + extra) (s ++ x) = some (a, t ++ x)

/-- The text of a value is no closing bracket; if it is a number, something must end it. -/
def ValueOn (s : List Char) (v : Json) (t : List Char) : Prop :=
  exists c s', s = c :: s' ∧ c ≠ ']' ∧ ((numeric c = true -> t ≠ []) -> ReadOn parseValue s v t)

def MembersOn (s : List Char) (ms : List (String × Json)) (t : List Char) : Prop :=
  (exists s', s = '"' :: s') ∧ ReadOn parseMembers s ms t

def ElementsOn (s : List Char) (vs : List Json) (t : List Char) : Prop :=
  (exists c s', s = c :: s' ∧ c ≠ ']') ∧ ReadOn parseElements s vs t

theorem valueOn_of_readOn {c : Char} {s t : List Char} {v : Json} (hc : c ≠ ']')
    (h : ReadOn parseValue (c :: s) v t) : ValueOn (c :: s) v t :=
  ⟨c, s, rfl, hc, fun _ => h⟩

theorem ValueOn.readOn {s t t' : List Char} {v : Json} {c : Char} (h : ValueOn s v t)
    (ht : skipWhitespace t = c :: t') : ReadOn parseValue s v t := by
  rcases h with ⟨_, _, _, _, h⟩
  apply h
  intro _ hnil
  rw [hnil] at ht
  cases ht

theorem takeWord_mark {s t : List Char} {c : Char} (h : skipWhitespace s = c :: t)
    (x : List Char) : takeWord [c] (skipWhitespace (s ++ x)) = some (t ++ x) := by
  rw [skipWhitespace_append h x]
  simp [takeWord]

theorem valueOn_number {s t : List Char} {v : Json} (h : parseNumber s = some (v, t)) :
    ValueOn s v t := by
  rcases parseNumber_head h with ⟨c, s', rfl, hc⟩
  refine ⟨c, s', rfl, ?_, ?_⟩
  · intro heq
    rw [heq] at hc
    cases hc
  · intro ht x
    refine ⟨1, fun extra => ?_⟩
    have hread := parseNumber_append h (ht hc) x
    rw [Nat.add_comm, List.cons_append, parseValue_numeric hc]
    exact hread

theorem valueOn_object {s t : List Char} {ms : List (String × Json)}
    (h : MembersOn (skipWhitespace s) ms t) : ValueOn ('\x7b' :: s) (.object ms) t := by
  apply valueOn_of_readOn (by decide)
  intro x
  rcases h with ⟨⟨s', hs⟩, hread⟩
  rcases hread x with ⟨n, hn⟩
  refine ⟨n + 2, fun extra => ?_⟩
  have hms := hn extra
  rw [hs, List.cons_append] at hms
  rw [Nat.add_right_comm, List.cons_append, parseValue_brace, skipWhitespace_append hs x,
    parseObject, if_neg (by decide), hms, Option.map_some]

theorem valueOn_array {s t : List Char} {vs : List Json}
    (h : ElementsOn (skipWhitespace s) vs t) : ValueOn ('[' :: s) (.array vs) t := by
  apply valueOn_of_readOn (by decide)
  intro x
  rcases h with ⟨⟨c, s', hs, hc⟩, hread⟩
  rcases hread x with ⟨n, hn⟩
  refine ⟨n + 2, fun extra => ?_⟩
  have hvs := hn extra
  rw [hs, List.cons_append] at hvs
  rw [Nat.add_right_comm, List.cons_append, parseValue_bracket, skipWhitespace_append hs x,
    parseArray, if_neg hc, hvs, Option.map_some]

section Members

variable {s key s1 s2 s3 t : List Char} {v : Json} (hkey : parseString s = some (key, s1))
  (hcolon : skipWhitespace s1 = ':' :: s2) (hv : ValueOn (skipWhitespace s2) v s3)

include hkey hcolon hv

theorem membersOn_last (hbrace : skipWhitespace s3 = '\x7d' :: t) :
    MembersOn ('"' :: s) [(String.ofList key, v)] t := by
  refine ⟨⟨s, rfl⟩, ?_⟩
  intro x
  rcases hv.readOn hbrace x with ⟨n, hn⟩
  rcases hv with ⟨c, s', hs2, _⟩
  refine ⟨n + 1, fun extra => ?_⟩
  have hvalue := hn extra
  rw [hs2, List.cons_append] at hvalue
  rw [Nat.add_right_comm, List.cons_append, parseMembers, if_pos rfl]
  simp only [parseString_append hkey x, takeWord_mark hcolon x, skipWhitespace_append hs2 x,
    hvalue, skipWhitespace_append hbrace x, Option.bind_eq_bind, Option.bind_some,
    Option.pure_def]

theorem membersOn_cons {s4 : List Char} {ms : List (String × Json)}
    (hcomma : skipWhitespace s3 = ',' :: s4) (hms : MembersOn (skipWhitespace s4) ms t) :
    MembersOn ('"' :: s) ((String.ofList key, v) :: ms) t := by
  refine ⟨⟨s, rfl⟩, ?_⟩
  intro x
  rcases hv.readOn hcomma x with ⟨n, hn⟩
  rcases hv with ⟨c, s', hs2, _⟩
  rcases hms with ⟨⟨s4', hs4⟩, hread⟩
  rcases hread x with ⟨m, hm⟩
  refine ⟨n + m + 1, fun extra => ?_⟩
  have hvalue := hn (m + extra)
  have hmembers := hm (n + extra)
  rw [hs2, List.cons_append, <- Nat.add_assoc] at hvalue
  rw [hs4, List.cons_append, <- Nat.add_assoc, Nat.add_comm m n] at hmembers
  rw [Nat.add_right_comm, List.cons_append, parseMembers, if_pos rfl]
  simp only [parseString_append hkey x, takeWord_mark hcolon x, skipWhitespace_append hs2 x,
    hvalue, skipWhitespace_append hcomma x, skipWhitespace_append hs4 x, hmembers,
    Option.bind_eq_bind, Option.bind_some, Option.pure_def]

end Members

theorem elementsOn_last {s s1 t : List Char} {v : Json} (hv : ValueOn s v s1)
    (hbracket : skipWhitespace s1 = ']' :: t) : ElementsOn s [v] t := by
  have hread := hv.readOn hbracket
  rcases hv with ⟨c, s', hs, hc, _⟩
  refine ⟨⟨c, s', hs, hc⟩, ?_⟩
  intro x
  rcases hread x with ⟨n, hn⟩
  refine ⟨n + 1, fun extra => ?_⟩
  rw [Nat.add_right_comm, parseElements]
  simp only [hn extra, skipWhitespace_append hbracket x, Option.bind_eq_bind,
    Option.bind_some, Option.pure_def]

theorem elementsOn_cons {s s1 s2 t : List Char} {v : Json} {vs : List Json} (hv : ValueOn s v s1)
    (hcomma : skipWhitespace s1 = ',' :: s2) (hvs : ElementsOn (skipWhitespace s2) vs t) :
    ElementsOn s (v :: vs) t := by
  have hread := hv.readOn hcomma
  rcases hv with ⟨c, s', hs, hc, _⟩
  refine ⟨⟨c, s', hs, hc⟩, ?_⟩
  intro x
  rcases hvs with ⟨⟨d, s2', hs2, _⟩, hrest⟩
  rcases hread x with ⟨n, hn⟩
  rcases hrest x with ⟨m, hm⟩
  refine ⟨n + m + 1, fun extra => ?_⟩
  have hvalue := hn (m + extra)
  have helements := hm (n + extra)
  rw [<- Nat.add_assoc] at hvalue
  rw [hs2, List.cons_append, <- Nat.add_assoc, Nat.add_comm m n] at helements
  rw [Nat.add_right_comm, parseElements]
  simp only [hvalue, skipWhitespace_append hcomma x, skipWhitespace_append hs2 x, helements,
    Option.bind_eq_bind, Option.bind_some, Option.pure_def]

theorem valueOn_of_one {c : Char} {s t : List Char} {v : Json} (hc : c ≠ ']')
    (h : forall x rounds, parseValue (rounds + 1) (c :: s ++ x) = some (v, t ++ x)) :
    ValueOn (c :: s) v t := by
  apply valueOn_of_readOn hc
  intro x
  refine ⟨1, fun extra => ?_⟩
  rw [Nat.add_comm]
  exact h x extra

theorem prefixRules : ValueRules ValueOn MembersOn ElementsOn where
  null := fun _ => valueOn_of_one (by decide) fun _ _ => rfl
  true := fun _ => valueOn_of_one (by decide) fun _ _ => rfl
  false := fun _ => valueOn_of_one (by decide) fun _ _ => rfl
  string := by
    intro s cs t h
    apply valueOn_of_one (by decide)
    intro x rounds
    rw [List.cons_append, parseValue_quote, parseString_append h x, Option.map_some]
  number := fun _ _ _ h => valueOn_number h
  emptyObject := by
    intro s t h
    apply valueOn_of_readOn (by decide)
    intro x
    refine ⟨2, fun extra => ?_⟩
    rw [Nat.add_comm, List.cons_append, parseValue_brace, skipWhitespace_append h x, parseObject,
      if_pos rfl]
  object := fun _ _ _ h => valueOn_object h
  emptyArray := by
    intro s t h
    apply valueOn_of_readOn (by decide)
    intro x
    refine ⟨2, fun extra => ?_⟩
    rw [Nat.add_comm, List.cons_append, parseValue_bracket, skipWhitespace_append h x, parseArray,
      if_pos rfl]
  array := fun _ _ _ h => valueOn_array h
  lastMember := fun _ _ _ _ _ _ _ hkey hcolon hv hbrace => membersOn_last hkey hcolon hv hbrace
  member := fun _ _ _ _ _ _ _ _ _ hkey hcolon hv hcomma hms =>
    membersOn_cons hkey hcolon hv hcomma hms
  lastElement := fun _ _ _ _ hv hbracket => elementsOn_last hv hbracket
  element := fun _ _ _ _ _ _ hv hcomma hvs => elementsOn_cons hv hcomma hvs

/-!
## Documents
-/

theorem parseRoot_append {s t : List Char} {v : Json} (h : parseRoot s = some (v, t))
    (x : List Char) : parseRoot (s ++ x) = some (v, t ++ x) := by
  have hread : forall c s', s = c :: s' -> numeric c = false ->
      parseValue (3 * s.length) s = some (v, t) ->
      parseValue (3 * (s ++ x).length) (s ++ x) = some (v, t ++ x) := by
    intro c s' hs hc hparse
    rcases (prefixRules.hold _).left s v t hparse with ⟨d, s'', hs', _, hon⟩
    rw [hs] at hs'
    cases hs'
    have hend : numeric c = true -> t ≠ [] := by
      intro hnumeric
      rw [hc] at hnumeric
      cases hnumeric
    rcases hon hend x with ⟨n, hn⟩
    rw [<- parseValue_rounds _ n, Nat.add_comm]
    exact hn _
  unfold parseRoot at h
  split at h
  · rename_i s'
    exact hread '\x7b' s' rfl rfl h
  · rename_i s'
    exact hread '[' s' rfl rfl h
  · cases h

theorem parse_ofList {cs : List Char} (h : '\x00' ∉ cs) (v : Json) :
    parse (String.ofList cs) = some v <->
      exists t, parseRoot (skipWhitespace cs) = some (v, t) ∧ skipWhitespace t = [] := by
  unfold parse
  rw [String.toList_ofList, takeWhile_ne_nul fun c hc heq => h (heq ▸ hc)]
  cases hroot : parseRoot (skipWhitespace cs) with
  | none => simp
  | some r =>
      rcases r with ⟨w, t⟩
      simp only [Option.ite_none_right_eq_some, Option.some.injEq, Prod.mk.injEq]
      constructor
      · intro h
        rcases h with ⟨hend, rfl⟩
        exact ⟨t, ⟨rfl, rfl⟩, hend⟩
      · intro h
        rcases h with ⟨_, ⟨rfl, rfl⟩, hend⟩
        exact ⟨hend, rfl⟩

/-- Only blanks can be behind a part of a document that is a document itself. -/
theorem parse_prefix {cs x : List Char} (hnul : '\x00' ∉ cs ++ x) {v w : Json}
    (h : parse (String.ofList cs) = some v) (h' : parse (String.ofList (cs ++ x)) = some w) :
    skipWhitespace x = [] := by
  have hcs : '\x00' ∉ cs := fun hmem => hnul (List.mem_append_left x hmem)
  rcases (parse_ofList hcs v).mp h with ⟨t, hroot, ht⟩
  rcases (parse_ofList hnul w).mp h' with ⟨t', hroot', ht'⟩
  cases hs : skipWhitespace cs with
  | nil =>
      rw [hs] at hroot
      cases hroot
  | cons c s =>
      rw [hs] at hroot
      rw [skipWhitespace_append hs x, <- List.cons_append, parseRoot_append hroot x] at hroot'
      cases hroot'
      have hblank : skipWhitespace (t ++ x) = skipWhitespace x := by
        unfold skipWhitespace at ht ⊢
        rw [List.dropWhile_append, ht]
        rfl
      rw [<- hblank]
      exact ht'

end Rapidjson

end FrProxy
