import FrProxy.Rapidjson.Reading

/-!
# The grammar of JSON

The texts of JSON with the values that they stand for, rule by rule, and with
the limits that the parser sets: the root is an object or an array, an exponent
is at most 308, and the digits of an integer can be added up in a double.
-/

namespace FrProxy

namespace Rapidjson

/-!
## Strings
-/

def utf8 (c : Char) : List Char :=
  (String.utf8EncodeChar c).map fun b => Char.ofNat b.toNat

/-- `4HEXDIG` -/
inductive HexText : List Char -> Nat -> Prop where
  | four {a b c d : Char} {i j k l : Nat} : hexDigit a = some i -> hexDigit b = some j ->
      hexDigit c = some k -> hexDigit d = some l ->
      HexText [a, b, c, d] (((i * 16 + j) * 16 + k) * 16 + l)

def HighSurrogate (n : Nat) : Prop :=
  0xD800 ≤ n ∧ n ≤ 0xDBFF

def LowSurrogate (n : Nat) : Prop :=
  0xDC00 ≤ n ∧ n ≤ 0xDFFF

inductive CharText : List Char -> List Char -> Prop where
  | plain {c : Char} : Plain c -> CharText [c] [c]
  | escaped {e c : Char} : escape e = some c -> CharText ['\\', e] [c]
  | unicode {ds : List Char} {c : Char} : HexText ds c.toNat -> CharText ('\\' :: 'u' :: ds) (utf8 c)
  | pair {ds es : List Char} {high low : Nat} {c : Char} : HexText ds high -> HexText es low ->
      HighSurrogate high -> LowSurrogate low ->
      c.toNat = 0x10000 + (high - 0xD800) * 0x400 + (low - 0xDC00) ->
      CharText ('\\' :: 'u' :: ds ++ '\\' :: 'u' :: es) (utf8 c)
  -- No character has this number, but it is encoded like one.
  | low {ds : List Char} {n : Nat} : HexText ds n -> LowSurrogate n ->
      CharText ('\\' :: 'u' :: ds) (encode n)

inductive StringText : List Char -> List Char -> Prop where
  | nil : StringText [] []
  | cons {s x cs xs : List Char} : CharText s x -> StringText cs xs -> StringText (s ++ cs) (x ++ xs)

/-!
## Numbers
-/

def Digits (ds : List Char) : Prop :=
  forall d, d ∈ ds -> d.isDigit = true

def natOf (ds : List Char) : Nat :=
  Nat.ofDigitChars 10 ds 0

/-- `zero / ( digit1-9 *DIGIT )` -/
inductive IntText : List Char -> Prop where
  | zero : IntText ['0']
  | digits {d : Char} {ds : List Char} : d ≠ '0' -> Digits (d :: ds) -> IntText (d :: ds)

/-- `decimal-point 1*DIGIT` -/
inductive FracText : List Char -> Prop where
  | point {d : Char} {ds : List Char} : Digits (d :: ds) -> FracText ('.' :: d :: ds)

/-- `e [ minus / plus ] 1*DIGIT` -/
inductive ExpText : List Char -> Prop where
  | exp {e d : Char} {sign ds : List Char} : e = 'e' ∨ e = 'E' -> sign ∈ [[], ['+'], ['-']] ->
      Digits (d :: ds) -> natOf (d :: ds) ≤ 308 -> ExpText (e :: (sign ++ d :: ds))

/-- The greatest absolute value that `ParseNumber` takes for a 64-bit integer. -/
def int64Limit (minus : Bool) : Nat :=
  if minus then 9223372036854775808 else 18446744073709551615

/-- `p` is as much of the digits `p ++ q` as stays within the limit. -/
structure Longest (limit : Nat) (p q : List Char) : Prop where
  within : natOf p ≤ limit
  beyond : forall c s, q = c :: s -> limit < natOf (p ++ [c])

/-- The digits that are too many for 64 bits can be added up in a double. -/
def Storable (minus : Bool) (ds : List Char) : Prop :=
  forall p q, ds = p ++ q -> Longest (int64Limit minus) p q ->
    bigDigits (Float.ofNat (natOf p)) q = some []

def integerValue (n : Int) : Json :=
  if -2 ^ 31 ≤ n ∧ n < 2 ^ 31 then .int n else .number

inductive UnsignedText (minus : Bool) : List Char -> Json -> Prop where
  | integer {ds : List Char} : IntText ds -> Storable minus ds ->
      UnsignedText minus ds (integerValue (if minus then -natOf ds else natOf ds))
  | double {ds frac exp : List Char} : IntText ds -> Storable minus ds ->
      (frac = [] ∨ FracText frac) -> (exp = [] ∨ ExpText exp) -> frac ++ exp ≠ [] ->
      UnsignedText minus (ds ++ (frac ++ exp)) .number

/-- `[ minus ] int [ frac ] [ exp ]` -/
inductive NumberText : List Char -> Json -> Prop where
  | positive {cs : List Char} {v : Json} : UnsignedText false cs v -> NumberText cs v
  | negative {cs : List Char} {v : Json} : UnsignedText true cs v -> NumberText ('-' :: cs) v

/-!
## Values
-/

def Blank (cs : List Char) : Prop :=
  forall c, c ∈ cs -> isWhitespace c = true

mutual

inductive ValueText : List Char -> Json -> Prop where
  | null : ValueText ['n', 'u', 'l', 'l'] .null
  | true : ValueText ['t', 'r', 'u', 'e'] (.bool true)
  | false : ValueText ['f', 'a', 'l', 's', 'e'] (.bool false)
  | string {cs xs : List Char} : StringText cs xs -> ValueText ('"' :: (cs ++ ['"'])) (stringValue xs)
  | number {cs : List Char} {v : Json} : NumberText cs v -> ValueText cs v
  | emptyObject {b : List Char} : Blank b -> ValueText ('\x7b' :: (b ++ ['\x7d'])) (.object [])
  | object {b cs : List Char} {ms : List (String × Json)} : Blank b -> MembersText cs ms ->
      ValueText ('\x7b' :: (b ++ cs ++ ['\x7d'])) (.object ms)
  | emptyArray {b : List Char} : Blank b -> ValueText ('[' :: (b ++ [']'])) (.array [])
  | array {b cs : List Char} {vs : List Json} : Blank b -> ElementsText cs vs ->
      ValueText ('[' :: (b ++ cs ++ [']'])) (.array vs)

inductive MemberText : List Char -> String -> Json -> Prop where
  | member {key xs b b' cs b'' : List Char} {v : Json} : StringText key xs -> Blank b -> Blank b' ->
      ValueText cs v -> Blank b'' ->
      MemberText ('"' :: (key ++ '"' :: (b ++ ':' :: (b' ++ cs ++ b'')))) (String.ofList xs) v

inductive MembersText : List Char -> List (String × Json) -> Prop where
  | last {cs : List Char} {key : String} {v : Json} : MemberText cs key v -> MembersText cs [(key, v)]
  | cons {cs b cs' : List Char} {key : String} {v : Json} {ms : List (String × Json)} :
      MemberText cs key v -> Blank b -> MembersText cs' ms ->
      MembersText (cs ++ ',' :: (b ++ cs')) ((key, v) :: ms)

/-- The elements of an array, each with the blanks behind it. -/
inductive ElementsText : List Char -> List Json -> Prop where
  | last {cs b : List Char} {v : Json} : ValueText cs v -> Blank b -> ElementsText (cs ++ b) [v]
  | cons {cs b b' cs' : List Char} {v : Json} {vs : List Json} : ValueText cs v -> Blank b ->
      Blank b' -> ElementsText cs' vs -> ElementsText (cs ++ b ++ ',' :: (b' ++ cs')) (v :: vs)

end

def IsRoot : Json -> Prop
  | .object _ | .array _ => True
  | _ => False

inductive DocumentText : List Char -> Json -> Prop where
  | document {b cs b' : List Char} {v : Json} : Blank b -> ValueText cs v -> IsRoot v -> Blank b' ->
      DocumentText (b ++ cs ++ b') v

/-!
## The parser on strings
-/

theorem byte_of_bits {i a b : Nat} (hb : b < 2 ^ i) (hbyte : 2 ^ i * a + b < 256) :
    Char.ofNat (2 ^ i * a ||| b) = Char.ofNat (UInt8.ofNat (b + 2 ^ i * a)).toNat := by
  rw [<- Nat.two_pow_add_eq_or_of_lt hb, UInt8.toNat_ofNat', Nat.add_comm b,
    Nat.mod_eq_of_lt hbyte]

theorem tail_byte (n : Nat) :
    Char.ofNat (0x80 ||| (n &&& 0x3F)) = Char.ofNat (UInt8.ofNat (n % 0x40 + 0x80)).toNat := by
  have hlow : n % 0x40 < 2 ^ 6 := Nat.mod_lt n (by decide)
  rw [Nat.and_two_pow_sub_one_eq_mod n 6]
  exact byte_of_bits (a := 2) hlow (Nat.lt_trans (Nat.add_lt_add_left hlow _) (by decide))

theorem lead_byte {i a n : Nat} (hn : n < 2 ^ i) (hbyte : 2 ^ i * a + 2 ^ i ≤ 256) :
    Char.ofNat (2 ^ i * a ||| (n &&& 0xFF)) =
      Char.ofNat (UInt8.ofNat (n % 2 ^ i + 2 ^ i * a)).toNat := by
  have hsmall : 2 ^ i * a + n < 256 := Nat.lt_of_lt_of_le (Nat.add_lt_add_left hn _) hbyte
  rw [Nat.and_two_pow_sub_one_eq_mod n 8, Nat.mod_eq_of_lt hn,
    Nat.mod_eq_of_lt (show n < 2 ^ 8 by omega)]
  exact byte_of_bits hn hsmall

theorem encode_toNat (c : Char) : encode c.toNat = utf8 c := by
  have hmax : c.toNat < 0x110000 := by
    rcases c.valid with h | h
    · exact Nat.lt_trans h (by decide)
    · exact h.right
  unfold encode utf8 String.utf8EncodeChar
  simp only [show c.val.toNat = c.toNat from rfl, Nat.shiftRight_eq_div_pow]
  generalize c.toNat = n at hmax
  split
  · rw [Nat.and_two_pow_sub_one_eq_mod _ 8, List.map_singleton, UInt8.toNat_ofNat']
  · split
    · have hlead : Char.ofNat (0xC0 ||| (n / 2 ^ 6 &&& 0xFF)) = _ :=
        lead_byte (i := 5) (a := 6) (by omega) (by decide)
      rw [hlead, tail_byte]
      rfl
    · split
      · have hlead : Char.ofNat (0xE0 ||| (n / 2 ^ 12 &&& 0xFF)) = _ :=
          lead_byte (i := 4) (a := 14) (by omega) (by decide)
        rw [hlead, tail_byte, tail_byte]
        rfl
      · have hlead : Char.ofNat (0xF0 ||| (n / 2 ^ 18 &&& 0xFF)) = _ :=
          lead_byte (i := 3) (a := 30) (by omega) (by decide)
        rw [hlead, tail_byte, tail_byte, tail_byte]
        rfl

theorem parseHex_succ {k codepoint n : Nat} {s t : List Char}
    (h : parseHex codepoint (k + 1) s = some (n, t)) :
    exists c d s', s = c :: s' ∧ hexDigit c = some d ∧
      parseHex (codepoint * 16 + d) k s' = some (n, t) := by
  cases s with
  | nil => cases h
  | cons c s =>
      simp only [parseHex] at h
      cases hd : hexDigit c with
      | none =>
          rw [hd] at h
          cases h
      | some d =>
          rw [hd] at h
          exact ⟨c, d, s, rfl, hd, h⟩

theorem hexText_of_parseHex4 {s t : List Char} {n : Nat} (h : parseHex4 s = some (n, t)) :
    exists ds, s = ds ++ t ∧ HexText ds n := by
  rcases parseHex_succ h with ⟨a, i, s1, rfl, hi, h⟩
  rcases parseHex_succ h with ⟨b, j, s2, rfl, hj, h⟩
  rcases parseHex_succ h with ⟨c, k, s3, rfl, hk, h⟩
  rcases parseHex_succ h with ⟨d, l, s4, rfl, hl, h⟩
  rw [parseHex, Option.some.injEq, Prod.mk.injEq, Nat.zero_mul, Nat.zero_add] at h
  rcases h with ⟨rfl, rfl⟩
  exact ⟨[a, b, c, d], rfl, .four hi hj hk hl⟩

theorem HexText.parse {ds : List Char} {n : Nat} (h : HexText ds n) (t : List Char) :
    parseHex4 (ds ++ t) = some (n, t) := by
  cases h with
  | four hi hj hk hl => simp [parseHex4, parseHex, hi, hj, hk, hl]

theorem hexDigit_lt {c : Char} {d : Nat} (h : hexDigit c = some d) : d < 16 := by
  have hle {a b : Char} (hab : a ≤ b) : a.toNat ≤ b.toNat := hab
  unfold hexDigit at h
  split at h
  · rename_i hc
    cases h
    have hhigh := hle hc.right
    simp only [Char.reduceToNat] at hhigh ⊢
    omega
  · split at h
    · rename_i hc
      cases h
      have hhigh := hle hc.right
      simp only [Char.reduceToNat] at hhigh ⊢
      omega
    · split at h
      · rename_i hc
        cases h
        have hhigh := hle hc.right
        simp only [Char.reduceToNat] at hhigh ⊢
        omega
      · cases h

theorem HexText.lt {ds : List Char} {n : Nat} (h : HexText ds n) : n < 0x10000 := by
  cases h with
  | four hi hj hk hl =>
      have hi' := hexDigit_lt hi
      have hj' := hexDigit_lt hj
      have hk' := hexDigit_lt hk
      have hl' := hexDigit_lt hl
      omega

theorem exists_char {n : Nat} (h : n.isValidChar) : exists c : Char, c.toNat = n := by
  refine ⟨Char.ofNat n, ?_⟩
  rw [Char.ofNat, dif_pos h]
  rfl

theorem pair_eq {high low : Nat} (hlow : LowSurrogate low) :
    ((high - 0xD800) <<< 10 ||| (low - 0xDC00)) + 0x10000 =
      0x10000 + (high - 0xD800) * 0x400 + (low - 0xDC00) := by
  have hbits : low - 0xDC00 < 2 ^ 10 := by
    have h := hlow.right
    omega
  rw [Nat.shiftLeft_eq, Nat.mul_comm, <- Nat.two_pow_add_eq_or_of_lt hbits]
  omega

theorem charText_of_parseUnicode {s x t : List Char} (h : parseUnicode s = some (x, t)) :
    exists ds, s = ds ++ t ∧ CharText ('\\' :: 'u' :: ds) x := by
  rcases Option.bind_eq_some_iff.mp h with ⟨⟨n, s1⟩, hhex, hrest⟩
  rcases hexText_of_parseHex4 hhex with ⟨ds, rfl, hds⟩
  dsimp only at hrest
  split at hrest
  · rename_i hhigh
    rcases Option.bind_eq_some_iff.mp hrest with ⟨s2, hword, hrest⟩
    rcases Option.bind_eq_some_iff.mp hrest with ⟨⟨m, s3⟩, hhex2, hlast⟩
    rcases hexText_of_parseHex4 hhex2 with ⟨es, rfl, hes⟩
    dsimp only at hlast
    split at hlast
    · cases hlast
    · rename_i hnot
      have hlow : LowSurrogate m := by
        unfold LowSurrogate
        omega
      rw [Option.pure_def, Option.some.injEq, Prod.mk.injEq] at hlast
      rcases hlast with ⟨rfl, rfl⟩
      have hvalid : (0x10000 + (n - 0xD800) * 0x400 + (m - 0xDC00)).isValidChar := by
        have hm := hlow.right
        exact Or.inr ⟨by omega, by omega⟩
      rcases exists_char hvalid with ⟨c, hc⟩
      refine ⟨ds ++ '\\' :: 'u' :: es, ?_, ?_⟩
      · rw [takeWord_eq hword]
        simp
      · rw [pair_eq hlow, <- hc, encode_toNat]
        exact .pair hds hes hhigh hlow hc
  · rename_i hhigh
    cases hrest
    refine ⟨ds, rfl, ?_⟩
    by_cases hlow : LowSurrogate n
    · exact .low hds hlow
    · have hvalid : n.isValidChar := by
        have hn := hds.lt
        unfold LowSurrogate at hlow
        unfold Nat.isValidChar
        omega
      rcases exists_char hvalid with ⟨c, hc⟩
      rw [<- hc] at hds ⊢
      rw [encode_toNat]
      exact .unicode hds

theorem charText_of_parseEscape {s x t : List Char} (h : parseEscape s = some (x, t)) :
    exists cs, s = cs ++ t ∧ CharText ('\\' :: cs) x := by
  cases s with
  | nil => cases h
  | cons e s =>
      simp only [parseEscape] at h
      split at h
      · rename_i c hc
        cases h
        exact ⟨[e], rfl, .escaped hc⟩
      · simp only [Option.ite_none_right_eq_some] at h
        rcases h with ⟨rfl, h⟩
        rcases charText_of_parseUnicode h with ⟨ds, rfl, hds⟩
        exact ⟨'u' :: ds, rfl, hds⟩

theorem stringText_of_stringLoop {rounds : Nat} {s xs t : List Char}
    (h : stringLoop rounds s = some (xs, t)) :
    exists cs, s = cs ++ '"' :: t ∧ StringText cs xs := by
  induction rounds generalizing s xs with
  | zero => cases h
  | succ rounds ih =>
      cases s with
      | nil => cases h
      | cons c s =>
          simp only [stringLoop] at h
          split at h
          · rename_i hc
            rcases Option.bind_eq_some_iff.mp h with ⟨⟨y, s1⟩, hesc, h⟩
            rcases Option.bind_eq_some_iff.mp h with ⟨⟨z, s2⟩, hloop, h⟩
            cases h
            rcases charText_of_parseEscape hesc with ⟨cs, rfl, hcs⟩
            rcases ih hloop with ⟨ds, rfl, hds⟩
            rw [hc]
            exact ⟨'\\' :: cs ++ ds, by simp, .cons hcs hds⟩
          · split at h
            · rename_i hc
              cases h
              rw [hc]
              exact ⟨[], rfl, .nil⟩
            · split at h
              · cases h
              · rename_i hslash hquote hlow
                rcases Option.bind_eq_some_iff.mp h with ⟨⟨z, s2⟩, hloop, h⟩
                cases h
                rcases ih hloop with ⟨ds, rfl, hds⟩
                exact ⟨[c] ++ ds, rfl, .cons (.plain ⟨hquote, hslash, Nat.not_lt.mp hlow⟩) hds⟩

theorem CharText.step {s x : List Char} (h : CharText s x) (rounds : Nat) (t : List Char) :
    stringLoop (rounds + 1) (s ++ t) =
      (stringLoop rounds t).map fun r => (x ++ r.1, r.2) := by
  have hescaped {cs : List Char} (hcs : parseEscape (cs ++ t) = some (x, t)) :
      stringLoop (rounds + 1) ('\\' :: cs ++ t) =
        (stringLoop rounds t).map fun r => (x ++ r.1, r.2) := by
    rw [List.cons_append, stringLoop, if_pos rfl, hcs]
    simp only [Option.bind_eq_bind, Option.bind_some]
    cases stringLoop rounds t with
    | none => rfl
    | some r => rfl
  have hunicode {cs : List Char} (hcs : parseUnicode (cs ++ t) = some (x, t)) :
      stringLoop (rounds + 1) ('\\' :: 'u' :: cs ++ t) =
        (stringLoop rounds t).map fun r => (x ++ r.1, r.2) := hescaped hcs
  cases h with
  | @plain c hc =>
      have hlow : ¬ c.toNat < 0x20 := Nat.not_lt.mpr hc.right.right
      rw [List.singleton_append, stringLoop, if_neg hc.right.left, if_neg hc.left, if_neg hlow]
      cases stringLoop rounds t with
      | none => rfl
      | some r => rfl
  | @escaped e c he =>
      apply hescaped
      simp [parseEscape, he]
  | @unicode ds c hds =>
      apply hunicode
      have hnot : ¬ (0xD800 ≤ c.toNat ∧ c.toNat ≤ 0xDBFF) := by
        intro hhigh
        rcases c.valid with hc | hc
        · exact absurd hhigh.left (Nat.not_le.mpr hc)
        · exact absurd hhigh.right (Nat.not_le.mpr (Nat.lt_trans (by decide) hc.left))
      simp [parseUnicode, hds.parse, hnot, encode_toNat]
  | @low ds n hds hlow =>
      apply hunicode
      have hnot : ¬ (0xD800 ≤ n ∧ n ≤ 0xDBFF) := by
        have h := hlow.left
        omega
      simp [parseUnicode, hds.parse, hnot]
  | @pair ds es high low c hds hes hhigh hlow hc =>
      have htext : '\\' :: 'u' :: ds ++ '\\' :: 'u' :: es = '\\' :: 'u' :: (ds ++ '\\' :: 'u' :: es) := by
        simp
      rw [htext]
      apply hunicode
      have hnot : ¬ (low < 0xDC00 ∨ low > 0xDFFF) := by
        have h := hlow
        unfold LowSurrogate at h
        omega
      have hvalue : ((high - 0xD800) <<< 10 ||| (low - 0xDC00)) + 0x10000 = c.toNat :=
        (pair_eq hlow).trans hc.symm
      rw [List.append_assoc, parseUnicode, hds.parse]
      simp only [Option.bind_eq_bind, Option.bind_some, List.cons_append]
      rw [if_pos (show 0xD800 ≤ high ∧ high ≤ 0xDBFF from hhigh)]
      simp only [takeWord, if_true, Option.bind_some, hes.parse]
      rw [if_neg hnot, hvalue, encode_toNat]
      rfl

theorem CharText.length_pos {s x : List Char} (h : CharText s x) : 0 < s.length := by
  cases h with
  | plain => exact Nat.one_pos
  | escaped => exact Nat.succ_pos _
  | unicode => exact Nat.succ_pos _
  | pair => exact Nat.succ_pos _
  | low => exact Nat.succ_pos _

theorem StringText.loop {cs xs : List Char} (h : StringText cs xs) (t : List Char) {rounds : Nat}
    (hrounds : cs.length < rounds) : stringLoop rounds (cs ++ '"' :: t) = some (xs, t) := by
  induction h generalizing rounds with
  | nil =>
      cases rounds with
      | zero => exact absurd hrounds (Nat.not_lt_zero _)
      | succ rounds => rfl
  | @cons s x cs xs hs hcs ih =>
      have hpos := hs.length_pos
      rw [List.length_append] at hrounds
      cases rounds with
      | zero => exact absurd hrounds (Nat.not_lt_zero _)
      | succ rounds =>
          rw [List.append_assoc, hs.step, ih (by omega)]
          rfl

theorem StringText.parse {cs xs : List Char} (h : StringText cs xs) (t : List Char) :
    parseString (cs ++ '"' :: t) = some (xs, t) := by
  apply h.loop
  simp only [List.length_append, List.length_cons]
  omega

end Rapidjson

end FrProxy
