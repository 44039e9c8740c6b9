import FrProxy.Rapidjson.Lexing

/-!
# Reading what a program wrote

Strings that need no escapes, and integers in decimal digits, come back as they
were written.
-/

namespace FrProxy

namespace Rapidjson

/-!
## Strings
-/

theorem stringLoop_plain {cs : List Char} (h : forall c, c ∈ cs -> Plain c) (t : List Char)
    {rounds : Nat} (hrounds : cs.length < rounds) :
    stringLoop rounds (cs ++ '"' :: t) = some (cs, t) := by
  induction cs generalizing rounds with
  | nil =>
      cases rounds with
      | zero => exact absurd hrounds (Nat.not_lt_zero _)
      | succ rounds => rfl
  | cons c cs ih =>
      rcases List.forall_mem_cons.mp h with ⟨hc, hcs⟩
      cases rounds with
      | zero => exact absurd hrounds (Nat.not_lt_zero _)
      | succ rounds =>
          have hlow : ¬ c.toNat < 0x20 := Nat.not_lt.mpr hc.right.right
          have htail := ih hcs (Nat.lt_of_succ_lt_succ hrounds)
          simp [stringLoop, hc.left, hc.right.left, hlow, htail]

theorem parseString_plain {cs : List Char} (h : forall c, c ∈ cs -> Plain c) (t : List Char) :
    parseString (cs ++ '"' :: t) = some (cs, t) := by
  apply stringLoop_plain h
  simp only [List.length_append, List.length_cons]
  omega

theorem plain_ne_nul {c : Char} (h : Plain c) : c ≠ '\x00' := by
  intro heq
  rw [heq] at h
  exact absurd h (by decide)

theorem stringValue_plain {s : String} (h : forall c, c ∈ s.toList -> Plain c) :
    stringValue s.toList = .string s := by
  rw [stringValue, takeWhile_ne_nul fun c hc => plain_ne_nul (h c hc), String.ofList_toList]

/-!
## Integers
-/

theorem ofDigitChars_digit (c : Char) (ds : List Char) (i : Nat) :
    Nat.ofDigitChars 10 (c :: ds) i = Nat.ofDigitChars 10 ds (i * 10 + digit c) := by
  rw [Nat.ofDigitChars_cons, Nat.mul_comm]
  rfl

theorem le_ofDigitChars (ds : List Char) (i : Nat) : i ≤ Nat.ofDigitChars 10 ds i := by
  induction ds generalizing i with
  | nil => simp
  | cons c ds ih =>
      rw [ofDigitChars_digit]
      have htail := ih (i * 10 + digit c)
      omega

theorem digitsUpTo_digits (limit : Nat) {last : Nat} (hlast : last ≤ 9) {ds : List Char}
    (hds : forall c, c ∈ ds -> c.isDigit = true) {e : Char} (he : e.isDigit = false)
    (t : List Char) {i : Nat} (hle : Nat.ofDigitChars 10 ds i ≤ 10 * limit + last) :
    digitsUpTo limit last i (ds ++ e :: t) = (Nat.ofDigitChars 10 ds i, false, e :: t) := by
  induction ds generalizing i with
  | nil => simp [digitsUpTo, he]
  | cons c ds ih =>
      rcases List.forall_mem_cons.mp hds with ⟨hc, hrest⟩
      rw [ofDigitChars_digit] at hle ⊢
      have hgrow := le_ofDigitChars ds (i * 10 + digit c)
      have hroom : ¬ (limit ≤ i ∧ (i ≠ limit ∨ last < digit c)) := by
        omega
      rw [List.cons_append, digitsUpTo, if_pos hc, if_neg hroom]
      exact ih hrest hle

theorem toDigits_head {n : Nat} (hn : n ≠ 0) :
    exists c ds, Nat.toDigits 10 n = c :: ds ∧ c ≠ '0' := by
  induction n using Nat.strongRecOn with
  | ind n ih =>
      rw [Nat.toDigits_eq_if (by decide)]
      by_cases hlow : n < 10
      · rw [if_pos hlow]
        exact ⟨_, _, rfl, fun heq => hn (Nat.digitChar_eq_zero.mp heq)⟩
      · rw [if_neg hlow]
        rcases ih (n / 10) (by omega) (by omega) with ⟨c, ds, hdigits, hc⟩
        exact ⟨c, ds ++ [Nat.digitChar (n % 10)], by rw [hdigits]; rfl, hc⟩

/-- The greatest absolute value that `ParseNumber` takes for a 32-bit integer. -/
def intLimit (minus : Bool) : Nat :=
  if minus then 2147483648 else 4294967295

theorem parseInt_toDigits {minus : Bool} {n : Nat} (hn : n ≤ intLimit minus) {e : Char}
    (he : e.isDigit = false) (t : List Char) :
    exists c ds, Nat.toDigits 10 n = c :: ds ∧ c.isDigit = true ∧
      parseInt minus c (ds ++ e :: t) = (n, false, e :: t) := by
  by_cases hzero : n = 0
  · refine ⟨'0', [], by rw [hzero]; rfl, rfl, ?_⟩
    rw [hzero]
    rfl
  · rcases toDigits_head hzero with ⟨c, ds, hdigits, hc⟩
    have hall : forall d, d ∈ c :: ds -> d.isDigit = true := by
      intro d hd
      rw [<- hdigits] at hd
      exact Nat.isDigit_of_mem_toDigits (by decide) (by decide) hd
    rcases List.forall_mem_cons.mp hall with ⟨hcd, hds⟩
    have hvalue : Nat.ofDigitChars 10 ds (digit c) = n := by
      have hn' := Nat.ofDigitChars_ten_toDigits (n := n)
      rw [hdigits, ofDigitChars_digit] at hn'
      simpa using hn'
    refine ⟨c, ds, hdigits, hcd, ?_⟩
    unfold parseInt
    rw [if_neg hc]
    cases minus with
    | true =>
        have htake := digitsUpTo_digits 214748364 (show 8 ≤ 9 by decide) hds he t
          (i := digit c) (by rw [hvalue]; exact hn)
        rw [if_pos rfl, htake, hvalue]
    | false =>
        have htake := digitsUpTo_digits 429496729 (show 5 ≤ 9 by decide) hds he t
          (i := digit c) (by rw [hvalue]; exact hn)
        rw [if_neg Bool.false_ne_true, htake, hvalue]

theorem parseUnsigned_toDigits {minus : Bool} {n : Nat} (hn : n ≤ intLimit minus) {e : Char}
    (he : numeric e = false) (t : List Char) :
    parseUnsigned minus (Nat.toDigits 10 n ++ e :: t) =
      some (numberValue minus true n, e :: t) := by
  have hnone : e.isDigit = false ∧ e ≠ '.' ∧ ¬ (e = 'e' ∨ e = 'E') := by
    simp only [numeric, Bool.or_eq_false_iff, beq_eq_false_iff_ne] at he
    rcases he with ⟨⟨⟨⟨⟨hdigit, _⟩, _⟩, hpoint⟩, he⟩, hE⟩
    exact ⟨hdigit, hpoint, fun h => h.elim he hE⟩
  rcases parseInt_toDigits hn hnone.left t with ⟨c, ds, hdigits, hc, hint⟩
  have hfrac : parseFrac (e :: t) = some (false, e :: t) := by
    unfold parseFrac
    split
    · rename_i heq
      exact absurd (List.cons.inj heq).left hnone.right.left
    · rename_i heq
      exact absurd (List.cons.inj heq).left hnone.right.left
    · rfl
  have hexp : parseExp (e :: t) = some (false, e :: t) := by
    rw [parseExp, if_neg hnone.right.right]
  rw [hdigits, List.cons_append]
  simp [parseUnsigned, hc, hint, parseInt64, parseBig, hfrac, hexp]

theorem toList_toString_nat (n : Nat) : (toString (n : Int)).toList = Nat.toDigits 10 n :=
  Nat.toList_repr

theorem toList_toString_neg (n : Nat) :
    (toString (Int.negSucc n)).toList = '-' :: Nat.toDigits 10 (n + 1) := by
  show ("-" ++ (n + 1).repr).toList = _
  rw [String.toList_append, Nat.toList_repr]
  rfl

theorem parseNumber_int {n : Int} (hlow : -2 ^ 31 ≤ n) (hhigh : n < 2 ^ 31) {e : Char}
    (he : numeric e = false) (t : List Char) :
    parseNumber ((toString n).toList ++ e :: t) = some (.int n, e :: t) := by
  cases n with
  | ofNat n =>
      have hn : n < 2 ^ 31 := Int.ofNat_lt.mp hhigh
      have hlimit : n ≤ intLimit false := by
        show n ≤ 4294967295
        omega
      have hread := parseUnsigned_toDigits hlimit he t
      rcases parseInt_toDigits hlimit (e := ',') rfl t with ⟨c, ds, hdigits, hc, _⟩
      have hminus : c ≠ '-' := by
        intro heq
        rw [heq] at hc
        cases hc
      show parseNumber ((toString (n : Int)).toList ++ e :: t) = _
      rw [toList_toString_nat]
      have hnumber : parseNumber (Nat.toDigits 10 n ++ e :: t) =
          parseUnsigned false (Nat.toDigits 10 n ++ e :: t) := by
        rw [hdigits]
        unfold parseNumber
        split
        · rename_i heq
          exact absurd (List.cons.inj heq).left hminus
        · rfl
      rw [hnumber, hread]
      simp only [numberValue, Bool.true_eq_false, Bool.false_eq_true, if_false, if_pos hn]
      rfl
  | negSucc n =>
      have hlimit : n + 1 ≤ intLimit true := by
        show n + 1 ≤ 2147483648
        omega
      have hread := parseUnsigned_toDigits hlimit he t
      rw [toList_toString_neg, List.cons_append, parseNumber, hread]
      rfl

/-!
## Values
-/

theorem skipWhitespace_cons {c : Char} (hc : isWhitespace c = false) (s : List Char) :
    skipWhitespace (c :: s) = c :: s := by
  simp [skipWhitespace, hc]

theorem skipWhitespace_newline (s : List Char) :
    skipWhitespace ('\n' :: s) = skipWhitespace s := by
  rfl

theorem parseValue_numeric {c : Char} (hc : numeric c = true) (s : List Char) (rounds : Nat) :
    parseValue (rounds + 1) (c :: s) = parseNumber (c :: s) := by
  have hother : forall d, numeric d = false -> c ≠ d := by
    intro d hd heq
    rw [heq, hd] at hc
    cases hc
  rw [parseValue, if_neg (hother 'n' rfl), if_neg (hother 't' rfl), if_neg (hother 'f' rfl),
    if_neg (hother '"' rfl), if_neg (hother '\x7b' rfl), if_neg (hother '[' rfl)]

theorem parseValue_quote (s : List Char) (rounds : Nat) :
    parseValue (rounds + 1) ('"' :: s) =
      (parseString s).map fun r => (stringValue r.1, r.2) := by
  rw [parseValue, if_neg (by decide), if_neg (by decide), if_neg (by decide), if_pos rfl]

theorem parseValue_brace (s : List Char) (rounds : Nat) :
    parseValue (rounds + 1) ('\x7b' :: s) = parseObject rounds (skipWhitespace s) := by
  rw [parseValue, if_neg (by decide), if_neg (by decide), if_neg (by decide),
    if_neg (by decide), if_pos rfl]

theorem parseValue_bracket (s : List Char) (rounds : Nat) :
    parseValue (rounds + 1) ('[' :: s) = parseArray rounds (skipWhitespace s) := by
  rw [parseValue, if_neg (by decide), if_neg (by decide), if_neg (by decide),
    if_neg (by decide), if_neg (by decide), if_pos rfl]

theorem numeric_toString {n : Int} {c : Char} (hc : c ∈ (toString n).toList) :
    numeric c = true := by
  cases n with
  | ofNat n =>
      have hdigits : c ∈ Nat.toDigits 10 n := toList_toString_nat n ▸ hc
      exact numeric_of_isDigit (Nat.isDigit_of_mem_toDigits (by decide) (by decide) hdigits)
  | negSucc n =>
      rw [toList_toString_neg] at hc
      rcases List.mem_cons.mp hc with rfl | hdigits
      · rfl
      · exact numeric_of_isDigit (Nat.isDigit_of_mem_toDigits (by decide) (by decide) hdigits)

theorem toString_int_head (n : Int) :
    exists c s, (toString n).toList = c :: s ∧ numeric c = true := by
  cases hs : (toString n).toList with
  | nil =>
      exfalso
      cases n with
      | ofNat n =>
          have hdigits : Nat.toDigits 10 n = [] := toList_toString_nat n ▸ hs
          exact Nat.toDigits_ne_nil hdigits
      | negSucc n =>
          rw [toList_toString_neg] at hs
          cases hs
  | cons c s =>
      have hc : c ∈ (toString n).toList := by
        rw [hs]
        exact List.mem_cons_self
      exact ⟨c, s, rfl, numeric_toString hc⟩

/-- The text of a value, in front of any text that ends a value. -/
def ReadAs (text : List Char) (v : Json) : Prop :=
  (forall rounds e t, numeric e = false ->
    parseValue (rounds + 1) (text ++ e :: t) = some (v, e :: t)) ∧
  forall t, skipWhitespace (text ++ t) = text ++ t

theorem readAs_int {n : Int} (hlow : -2 ^ 31 ≤ n) (hhigh : n < 2 ^ 31) :
    ReadAs (toString n).toList (.int n) := by
  rcases toString_int_head n with ⟨c, s, hs, hc⟩
  constructor
  · intro rounds e t he
    have hread := parseNumber_int hlow hhigh he t
    rw [hs, List.cons_append] at hread ⊢
    rw [parseValue_numeric hc, hread]
  · intro t
    rw [hs]
    apply skipWhitespace_cons
    apply Bool.eq_false_iff.mpr
    intro hblank
    have hcase : c = ' ' ∨ c = '\n' ∨ c = '\r' ∨ c = '\t' := by
      simpa [isWhitespace, or_assoc] using hblank
    rcases hcase with rfl | rfl | rfl | rfl <;> cases hc

def stringText (cs t : List Char) : List Char :=
  '"' :: (cs ++ '"' :: t)

theorem readAs_string {s : String} (h : forall c, c ∈ s.toList -> Plain c) :
    ReadAs (stringText s.toList []) (.string s) := by
  constructor
  · intro rounds e t _
    have hread := parseString_plain h (e :: t)
    have htext : stringText s.toList [] ++ e :: t = '"' :: (s.toList ++ '"' :: e :: t) := by
      simp [stringText]
    rw [htext, parseValue_quote, hread, Option.map_some, stringValue_plain h]
  · intro t
    exact skipWhitespace_cons rfl _

def memberText (key text t : List Char) : List Char :=
  stringText key (':' :: (text ++ t))

theorem skipWhitespace_memberText (key text t : List Char) :
    skipWhitespace (memberText key text t) = memberText key text t :=
  skipWhitespace_cons rfl _

theorem parseMembers_next (key : List Char) {text t : List Char} {v : Json}
    (hkey : forall c, c ∈ key -> Plain c) (hv : ReadAs text v) (ht : skipWhitespace t = t)
    (rounds : Nat) :
    parseMembers (rounds + 2) (memberText key text (',' :: t)) =
      (parseMembers (rounds + 1) t).map fun r => ((String.ofList key, v) :: r.1, r.2) := by
  have hvalue := hv.left rounds ',' t rfl
  rw [memberText, stringText, parseMembers, if_pos rfl, parseString_plain hkey]
  simp only [Option.bind_eq_bind, Option.bind_some, skipWhitespace_cons (c := ':') rfl, takeWord,
    if_true, hv.right, hvalue, skipWhitespace_cons (c := ',') rfl, ht]
  cases parseMembers (rounds + 1) t <;> rfl

theorem parseMembers_last (key : List Char) {text : List Char} {v : Json}
    (hkey : forall c, c ∈ key -> Plain c) (hv : ReadAs text v) (rounds : Nat) (t : List Char) :
    parseMembers (rounds + 2) (memberText key text (' ' :: '\x7d' :: t)) =
      some ([(String.ofList key, v)], t) := by
  have hvalue := hv.left rounds ' ' ('\x7d' :: t) rfl
  have hblank : skipWhitespace (' ' :: '\x7d' :: t) = '\x7d' :: t := rfl
  rw [memberText, stringText, parseMembers, if_pos rfl, parseString_plain hkey]
  simp only [Option.bind_eq_bind, Option.bind_some, skipWhitespace_cons (c := ':') rfl, takeWord,
    if_true, hv.right, hvalue, hblank]
  rfl

theorem parseValue_object (key text t : List Char) (rounds : Nat) :
    parseValue (rounds + 2) ('\x7b' :: memberText key text t) =
      (parseMembers rounds (memberText key text t)).map fun r => (.object r.1, r.2) := by
  rw [parseValue_brace, skipWhitespace_memberText, memberText, stringText, parseObject,
    if_neg (by decide)]

end Rapidjson

end FrProxy
