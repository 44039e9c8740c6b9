import FrProxy.Rapidjson.Progress
import Mathlib.Data.List.TakeWhile

/-!
# What the quotes of a text allow

A reader of quotes and backslashes only.  It follows every text that the parser
accepts, and it counts the characters inside strings: the strings of the
document are never longer than that in all.
-/

namespace FrProxy

/-!
## The length of the strings of a document
-/

mutual

/-- The number of characters in all string values. -/
def Json.held : Json -> Nat
  | .string s => s.length
  | .array elements => heldElements elements
  | .object members => heldMembers members
  | _ => 0

def Json.heldElements : List Json -> Nat
  | [] => 0
  | v :: rest => v.held + heldElements rest

def Json.heldMembers : List (String × Json) -> Nat
  | [] => 0
  | (_, v) :: rest => v.held + heldMembers rest

end

namespace Rapidjson

/-- Outside of strings; in a string, behind `n` of its characters; behind a backslash in it. -/
inductive Lexed where
  /-- `kept` characters stood in strings, the last of them had `last` more. -/
  | outside (kept last : Nat)
  | inside (kept n : Nat)
  | escaped (kept n : Nat)

/-- The characters that the parser accepts outside of strings, except for quotes and colons. -/
def structural (c : Char) : Bool :=
  isWhitespace c || numeric c || "\x7b\x7d[],truefalsn".toList.contains c

/-- A colon makes the last string the name of a member, which is no value. -/
def lexStep : Lexed -> Char -> Option Lexed
  | .outside kept last, c =>
      if c = '"' then some (.inside (kept + last) 0)
      else if c = ':' then some (.outside kept 0)
      else if structural c then some (.outside kept last)
      else none
  | .inside kept n, c =>
      if c = '\\' then some (.escaped kept n)
      else if c = '"' then some (.outside kept n)
      else if c.toNat < 0x20 then none
      else some (.inside kept (n + 1))
  | .escaped kept n, c =>
      if (escape c).isSome || c == 'u' then some (.inside kept (n + 1)) else none

def lex : Lexed -> List Char -> Option Lexed
  | st, [] => some st
  | st, c :: s => (lexStep st c).bind fun st => lex st s

theorem lex_append (st : Lexed) (s t : List Char) :
    lex st (s ++ t) = (lex st s).bind fun st => lex st t := by
  induction s generalizing st with
  | nil => rfl
  | cons c s ih =>
      simp only [List.cons_append, lex, Option.bind_assoc]
      apply Option.bind_congr
      intro st' _
      exact ih st'

/-!
## Outside of strings
-/

theorem structural_of_whitespace {c : Char} (h : isWhitespace c = true) :
    structural c = true := by
  simp [structural, h]

theorem structural_of_numeric {c : Char} (h : numeric c = true) : structural c = true := by
  simp [structural, h]

theorem lexStep_structural {c : Char} (h : structural c = true) (kept last : Nat) :
    lexStep (.outside kept last) c = some (.outside kept last) := by
  have hquote : c ≠ '"' := by
    intro heq
    rw [heq] at h
    revert h
    decide
  have hcolon : c ≠ ':' := by
    intro heq
    rw [heq] at h
    revert h
    decide
  simp [lexStep, hquote, hcolon, h]

theorem lex_reads {p : Char -> Bool} (hp : forall {c}, p c = true -> structural c = true)
    {s t : List Char} (h : Reads p s t) (kept last : Nat) :
    lex (.outside kept last) s = lex (.outside kept last) t := by
  rcases h with ⟨u, rfl, hu⟩
  induction u with
  | nil => rfl
  | cons c u ih =>
      rw [List.cons_append, lex, lexStep_structural (hp (hu c List.mem_cons_self))]
      exact ih fun d hd => hu d (List.mem_cons_of_mem _ hd)

theorem lex_skipWhitespace (s : List Char) (kept last : Nat) :
    lex (.outside kept last) s = lex (.outside kept last) (skipWhitespace s) :=
  lex_reads structural_of_whitespace (skipWhitespace_reads s) kept last

theorem lex_word (word : List Char) {t : List Char} (hword : word.all structural = true)
    (kept last : Nat) :
    lex (.outside kept last) (word ++ t) = lex (.outside kept last) t :=
  lex_reads (p := structural) (fun h => h) ⟨word, rfl, List.all_eq_true.mp hword⟩ kept last

/-!
## Strings
-/

def Plain (c : Char) : Prop :=
  c ≠ '"' ∧ c ≠ '\\' ∧ 0x20 ≤ c.toNat

instance (c : Char) : Decidable (Plain c) :=
  inferInstanceAs (Decidable (c ≠ '"' ∧ c ≠ '\\' ∧ 0x20 ≤ c.toNat))

theorem lexStep_plain {c : Char} (h : Plain c) (kept m : Nat) :
    lexStep (.inside kept m) c = some (.inside kept (m + 1)) := by
  have hlow : ¬ c.toNat < 0x20 := Nat.not_lt.mpr h.right.right
  simp [lexStep, h.left, h.right.left, hlow]

theorem plain_of_hexDigit {c : Char} {d : Nat} (h : hexDigit c = some d) : Plain c := by
  have hrange : 48 ≤ c.toNat ∧ c.toNat ≤ 102 ∧ c.toNat ≠ 92 := by
    unfold hexDigit at h
    split at h
    · rename_i hc
      have hlow : 48 ≤ c.toNat := hc.left
      have hhigh : c.toNat ≤ 57 := hc.right
      omega
    · split at h
      · rename_i hc
        have hlow : 65 ≤ c.toNat := hc.left
        have hhigh : c.toNat ≤ 70 := hc.right
        omega
      · split at h
        · rename_i hc
          have hlow : 97 ≤ c.toNat := hc.left
          have hhigh : c.toNat ≤ 102 := hc.right
          omega
        · cases h
  refine ⟨?_, ?_, by omega⟩
  · intro heq
    rw [heq] at hrange
    exact absurd hrange.left (by decide)
  · intro heq
    rw [heq] at hrange
    exact hrange.right.right rfl

theorem lex_parseHex {n codepoint cp : Nat} {s t : List Char}
    (h : parseHex codepoint n s = some (cp, t)) (kept m : Nat) :
    lex (.inside kept m) s = lex (.inside kept (m + n)) t := by
  induction n generalizing codepoint s m with
  | zero =>
      cases h
      rfl
  | succ n ih =>
      cases s with
      | nil => cases h
      | cons c s =>
          simp only [parseHex] at h
          cases hd : hexDigit c with
          | none =>
              rw [hd] at h
              cases h
          | some d =>
              rw [hd] at h
              rw [lex, lexStep_plain (plain_of_hexDigit hd), Option.bind_some, ih h (m + 1)]
              congr 2
              omega

theorem encode_length (codepoint : Nat) : (encode codepoint).length ≤ 4 := by
  unfold encode
  split
  · exact Nat.le_of_ble_eq_true rfl
  · split
    · exact Nat.le_of_ble_eq_true rfl
    · split
      · exact Nat.le_of_ble_eq_true rfl
      · exact Nat.le_of_ble_eq_true rfl

theorem lex_parseUnicode {s x t : List Char} (h : parseUnicode s = some (x, t))
    (kept m : Nat) :
    exists m', m + x.length ≤ m' ∧ lex (.inside kept m) s = lex (.inside kept m') t := by
  simp only [parseUnicode, parseHex4, Option.bind_eq_bind, Option.bind_eq_some_iff] at h
  rcases h with ⟨⟨cp, s1⟩, hhex, h⟩
  have hfour := lex_parseHex hhex kept m
  dsimp only at h
  split at h
  · rcases Option.bind_eq_some_iff.mp h with ⟨s2, hword, h⟩
    rcases Option.bind_eq_some_iff.mp h with ⟨⟨cp2, s3⟩, hhex2, h⟩
    have hfour2 := lex_parseHex hhex2 kept (m + 4 + 1)
    have hs1 := takeWord_eq hword
    simp only [Option.ite_none_left_eq_some, Option.pure_def, Option.some.injEq,
      Prod.mk.injEq] at h
    rcases h with ⟨_, rfl, rfl⟩
    refine ⟨m + 4 + 1 + 4, ?_, ?_⟩
    · have hlen := encode_length (((cp - 0xD800) <<< 10 ||| (cp2 - 0xDC00)) + 0x10000)
      omega
    · rw [hfour, hs1, <- hfour2]
      rfl
  · simp only [Option.pure_def, Option.some.injEq, Prod.mk.injEq] at h
    rcases h with ⟨rfl, rfl⟩
    have hlen := encode_length cp
    exact ⟨m + 4, by omega, hfour⟩

theorem lex_parseEscape {s x t : List Char} (h : parseEscape s = some (x, t)) (kept m : Nat) :
    exists m', m + x.length ≤ m' ∧ lex (.escaped kept m) s = lex (.inside kept m') t := by
  cases s with
  | nil => cases h
  | cons e s =>
      simp only [parseEscape] at h
      cases he : escape e with
      | some c =>
          rw [he] at h
          cases h
          refine ⟨m + 1, Nat.le_refl _, ?_⟩
          simp [lex, lexStep, he]
      | none =>
          rw [he] at h
          simp only [Option.ite_none_right_eq_some] at h
          rcases h with ⟨rfl, h⟩
          rcases lex_parseUnicode h kept (m + 1) with ⟨m', hle, hlex⟩
          refine ⟨m', by omega, ?_⟩
          rw [<- hlex]
          rfl

theorem lex_stringLoop {rounds : Nat} {s x t : List Char}
    (h : stringLoop rounds s = some (x, t)) (kept m : Nat) :
    exists m', m + x.length ≤ m' ∧ lex (.inside kept m) s = lex (.outside kept m') t := by
  induction rounds generalizing s x m with
  | zero => cases h
  | succ rounds ih =>
      cases s with
      | nil => cases h
      | cons c s =>
          simp only [stringLoop] at h
          split at h
          · rename_i hc
            rcases Option.bind_eq_some_iff.mp h with ⟨⟨y, s1⟩, hesc, h⟩
            rcases Option.bind_eq_some_iff.mp h with ⟨⟨z, s2⟩, hloop, h⟩
            cases h
            rcases lex_parseEscape hesc kept m with ⟨m1, hle1, hlex1⟩
            rcases ih hloop m1 with ⟨m2, hle2, hlex2⟩
            refine ⟨m2, ?_, ?_⟩
            · show m + (y ++ z).length ≤ m2
              rw [List.length_append]
              omega
            · rw [<- hlex2, <- hlex1, hc]
              rfl
          · rename_i hbackslash
            split at h
            · rename_i hc
              cases h
              refine ⟨m, Nat.le_refl _, ?_⟩
              rw [hc]
              rfl
            · rename_i hquote
              split at h
              · cases h
              · rename_i hlow
                rcases Option.bind_eq_some_iff.mp h with ⟨⟨z, s2⟩, hloop, h⟩
                cases h
                rcases ih hloop (m + 1) with ⟨m2, hle2, hlex2⟩
                refine ⟨m2, ?_, ?_⟩
                · show m + (c :: z).length ≤ m2
                  rw [List.length_cons]
                  omega
                · have hplain : Plain c := ⟨hquote, hbackslash, Nat.not_lt.mp hlow⟩
                  rw [<- hlex2, lex, lexStep_plain hplain]
                  rfl

/-!
## Values
-/

/-- Reading from `s` to `t`, at least `n` more characters of strings are counted. -/
def Counts (n : Nat) (s t : List Char) : Prop :=
  forall kept last, exists kept' last', kept + last + n ≤ kept' + last' ∧
    lex (.outside kept last) s = lex (.outside kept' last') t

theorem Counts.mono {m n : Nat} {s t : List Char} (h : Counts n s t) (hmn : m ≤ n) :
    Counts m s t := by
  intro kept last
  rcases h kept last with ⟨kept', last', hle, hlex⟩
  exact ⟨kept', last', by omega, hlex⟩

theorem Counts.trans {m n : Nat} {r s t : List Char} (h : Counts m r s) (h' : Counts n s t) :
    Counts (m + n) r t := by
  intro kept last
  rcases h kept last with ⟨kept1, last1, hle1, hlex1⟩
  rcases h' kept1 last1 with ⟨kept2, last2, hle2, hlex2⟩
  exact ⟨kept2, last2, by omega, hlex1.trans hlex2⟩

theorem counts_of_lex {s t : List Char}
    (h : forall kept last, lex (.outside kept last) s = lex (.outside kept last) t) :
    Counts 0 s t :=
  fun kept last => ⟨kept, last, Nat.le_refl _, h kept last⟩

theorem counts_string {s cs t : List Char} (h : parseString s = some (cs, t)) :
    Counts cs.length ('"' :: s) t := by
  intro kept last
  rcases lex_stringLoop h (kept + last) 0 with ⟨m, hle, hlex⟩
  exact ⟨kept + last, m, by omega, hlex⟩

theorem counts_key {s key s1 s2 : List Char} (hkey : parseString s = some (key, s1))
    (hcolon : skipWhitespace s1 = ':' :: s2) : Counts 0 ('"' :: s) (skipWhitespace s2) := by
  intro kept last
  rcases lex_stringLoop hkey (kept + last) 0 with ⟨m, _, hlex⟩
  refine ⟨kept + last, 0, by omega, ?_⟩
  show lex (.inside (kept + last) 0) s = _
  rw [hlex, lex_skipWhitespace, hcolon, <- lex_skipWhitespace]
  rfl

theorem held_stringValue (cs : List Char) : (stringValue cs).held ≤ cs.length := by
  show (String.ofList (cs.takeWhile (· ≠ '\x00'))).length ≤ cs.length
  rw [String.length_ofList]
  exact (List.takeWhile_prefix _).length_le

theorem held_of_isNumber {v : Json} (h : IsNumber v) : v.held = 0 := by
  cases v with
  | int n => rfl
  | number => rfl
  | _ => exact h.elim

theorem counts_structural {c : Char} (hc : structural c = true) (s : List Char) :
    Counts 0 (c :: s) s := by
  apply counts_of_lex
  intro kept last
  rw [lex, lexStep_structural hc]
  rfl

theorem counts_blank (s : List Char) : Counts 0 s (skipWhitespace s) :=
  counts_of_lex (lex_skipWhitespace s)

theorem counts_mark {s t : List Char} {c : Char} (h : skipWhitespace s = c :: t)
    (hc : structural c = true) : Counts 0 s t := by
  have hblank := counts_blank s
  rw [h] at hblank
  exact hblank.trans (counts_structural hc t)

theorem lexRules : ValueRules (fun s v t => Counts v.held s t)
    (fun s ms t => Counts (Json.heldMembers ms) s t)
    (fun s vs t => Counts (Json.heldElements vs) s t) where
  null := fun t => counts_of_lex (lex_word ['n', 'u', 'l', 'l'] (by decide))
  true := fun t => counts_of_lex (lex_word ['t', 'r', 'u', 'e'] (by decide))
  false := fun t => counts_of_lex (lex_word ['f', 'a', 'l', 's', 'e'] (by decide))
  string := fun s cs t h => (counts_string h).mono (held_stringValue cs)
  number := by
    intro s v t h
    rcases parseNumber_reads h with ⟨hreads, _, hnumber⟩
    rw [held_of_isNumber hnumber]
    exact counts_of_lex (lex_reads structural_of_numeric hreads)
  emptyObject := fun s t h => (counts_structural (by decide) s).trans (counts_mark h (by decide))
  object := by
    intro s ms t h
    have hopen := (counts_structural (c := '\x7b') (by decide) s).trans (counts_blank s)
    exact (hopen.trans h).mono (Nat.le_add_left _ _)
  emptyArray := fun s t h => (counts_structural (by decide) s).trans (counts_mark h (by decide))
  array := by
    intro s vs t h
    have hopen := (counts_structural (c := '[') (by decide) s).trans (counts_blank s)
    exact (hopen.trans h).mono (Nat.le_add_left _ _)
  lastMember := by
    intro s key s1 s2 v s3 t hkey hcolon hv hbrace
    have hclose := counts_mark hbrace (by decide)
    apply (((counts_key hkey hcolon).trans hv).trans hclose).mono
    simp [Json.heldMembers]
  member := by
    intro s key s1 s2 v s3 s4 ms t hkey hcolon hv hcomma hms
    have hnext := (counts_mark hcomma (by decide)).trans (counts_blank s4)
    apply (((counts_key hkey hcolon).trans hv).trans (hnext.trans hms)).mono
    simp [Json.heldMembers]
  lastElement := by
    intro s v s1 t hv hbracket
    apply (hv.trans (counts_mark hbracket (by decide))).mono
    simp [Json.heldElements]
  element := by
    intro s v s1 s2 vs t hv hcomma hvs
    have hnext := (counts_mark hcomma (by decide)).trans (counts_blank s2)
    apply (hv.trans (hnext.trans hvs)).mono
    simp [Json.heldElements]

theorem takeWhile_ne_nul {cs : List Char} (h : forall c, c ∈ cs -> c ≠ '\x00') :
    cs.takeWhile (· ≠ '\x00') = cs := by
  apply List.takeWhile_eq_self_iff.mpr
  intro c hc
  simpa using h c hc

/-- A text that the parser accepts is lexed, and counts at least for what it holds. -/
theorem parse_lexes {text : String} {v : Json} (h : parse text = some v)
    (hnul : forall c, c ∈ text.toList -> c ≠ '\x00') :
    exists kept last, v.held ≤ kept + last ∧
      lex (.outside 0 0) text.toList = some (.outside kept last) := by
  rw [parse, takeWhile_ne_nul hnul] at h
  cases hroot : parseRoot (skipWhitespace text.toList) with
  | none =>
      rw [hroot] at h
      cases h
  | some r =>
      rcases r with ⟨w, t⟩
      rw [hroot] at h
      dsimp only at h
      split at h
      · rename_i hend
        cases h
        have hvalue : Counts v.held (skipWhitespace text.toList) t := by
          unfold parseRoot at hroot
          split at hroot
          · exact (lexRules.hold _).left _ _ _ hroot
          · exact (lexRules.hold _).left _ _ _ hroot
          · cases hroot
        have hall := ((counts_blank text.toList).trans hvalue).trans (counts_blank t)
        rcases hall 0 0 with ⟨kept, last, hle, hlex⟩
        refine ⟨kept, last, by omega, ?_⟩
        rw [hlex, hend]
        rfl
      · cases h

/-!
## The most that a text can count for
-/

def Lexed.total : Lexed -> Nat
  | .outside kept last => kept + last
  | .inside kept n => kept + n
  | .escaped kept n => kept + n

theorem lexStep_total {st st' : Lexed} {c : Char} (h : lexStep st c = some st') :
    st'.total ≤ st.total + 1 := by
  cases st with
  | outside kept last =>
      simp only [lexStep] at h
      split at h
      · cases h
        simp [Lexed.total]
      · split at h
        · cases h
          simp only [Lexed.total]
          omega
        · split at h
          · cases h
            exact Nat.le_succ _
          · cases h
  | inside kept n =>
      simp only [lexStep] at h
      split at h
      · cases h
        exact Nat.le_succ _
      · split at h
        · cases h
          exact Nat.le_succ _
        · split at h
          · cases h
          · cases h
            exact Nat.le_refl _
  | escaped kept n =>
      simp only [lexStep, Option.ite_none_right_eq_some] at h
      rcases h with ⟨_, h⟩
      cases h
      exact Nat.le_refl _

theorem lex_total {st st' : Lexed} {s : List Char} (h : lex st s = some st') :
    st'.total ≤ st.total + s.length := by
  induction s generalizing st with
  | nil =>
      cases h
      exact Nat.le_refl _
  | cons c s ih =>
      rcases Option.bind_eq_some_iff.mp h with ⟨st1, hstep, hrest⟩
      have hone := lexStep_total hstep
      have htail := ih hrest
      simp only [List.length_cons]
      omega

/-- A character in a string that does not stand for itself counts for less than it takes. -/
theorem lex_total_lt {kept n : Nat} {st : Lexed} {s : List Char}
    (h : lex (.inside kept n) s = some st) (hs : ¬ forall c, c ∈ s -> Plain c) :
    st.total < kept + n + s.length := by
  induction s generalizing n with
  | nil => exact absurd (by simp) hs
  | cons c s ih =>
      rcases Option.bind_eq_some_iff.mp h with ⟨st1, hstep, hrest⟩
      simp only [List.length_cons]
      by_cases hc : Plain c
      · rw [lexStep_plain hc] at hstep
        cases hstep
        have htail := ih hrest fun hall => hs (List.forall_mem_cons.mpr ⟨hc, hall⟩)
        omega
      · have htail := lex_total hrest
        have hsame : st1.total = kept + n := by
          simp only [lexStep] at hstep
          split at hstep
          · cases hstep
            rfl
          · rename_i hbackslash
            split at hstep
            · cases hstep
              rfl
            · rename_i hquote
              split at hstep
              · cases hstep
              · rename_i hlow
                exact absurd ⟨hquote, hbackslash, Nat.not_lt.mp hlow⟩ hc
        omega

end Rapidjson

end FrProxy
