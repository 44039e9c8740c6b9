import FrProxy.Rapidjson.Grammar

/-!
# The parser on numbers

The parser reads integers in up to three loops, and then a fraction and an
exponent.  Each part takes as many digits as there are, so that the whole is a
number of the grammar, and every number of the grammar is read to its end.
-/

namespace FrProxy

namespace Rapidjson

/-!
## Digits
-/

/-- None of the characters comes next. -/
def Ends (p : Char -> Bool) (t : List Char) : Prop :=
  forall c s, t = c :: s -> p c = false

theorem natOf_concat (p : List Char) (c : Char) : natOf (p ++ [c]) = natOf p * 10 + digit c := by
  unfold natOf
  rw [Nat.ofDigitChars_append, ofDigitChars_digit, Nat.ofDigitChars_nil]

theorem natOf_le_append (p q : List Char) : natOf p ≤ natOf (p ++ q) := by
  unfold natOf
  rw [Nat.ofDigitChars_append]
  exact le_ofDigitChars q _

theorem digit_le {c : Char} (h : c.isDigit = true) : digit c ≤ 9 := by
  have hle := (Char.isDigit_iff_toNat.mp h).right
  unfold digit
  simp only [Char.reduceToNat] at hle ⊢
  omega

theorem takeWhile_digits (s : List Char) : Digits (s.takeWhile Char.isDigit) :=
  fun _ hd => List.mem_takeWhile_imp hd

theorem dropWhile_ends (s : List Char) : Ends Char.isDigit (s.dropWhile Char.isDigit) := by
  intro c t heq
  have h := List.head?_dropWhile_not Char.isDigit s
  rw [heq] at h
  simpa using h

theorem dropWhile_digits {ds t : List Char} (hds : Digits ds) (ht : Ends Char.isDigit t) :
    (ds ++ t).dropWhile Char.isDigit = t := by
  rw [List.dropWhile_append_of_pos hds]
  cases t with
  | nil => rfl
  | cons c t => rw [List.dropWhile_cons, if_neg (by simp [ht c t rfl])]

theorem digits_cons {c : Char} {ds : List Char} : Digits (c :: ds) <-> c.isDigit = true ∧ Digits ds :=
  List.forall_mem_cons

theorem digitsUpTo_ends (limit last : Nat) (ds : List Char) {t : List Char}
    (ht : Ends Char.isDigit t) (i : Nat) :
    digitsUpTo limit last i (ds ++ t) =
      ((digitsUpTo limit last i ds).1, (digitsUpTo limit last i ds).2.1,
        (digitsUpTo limit last i ds).2.2 ++ t) := by
  induction ds generalizing i with
  | nil =>
      cases t with
      | nil => rfl
      | cons c t => simp [digitsUpTo, ht c t rfl]
  | cons c ds ih =>
      rw [List.cons_append, digitsUpTo, digitsUpTo]
      split
      · split
        · rfl
        · exact ih _
      · rfl

theorem digitsUpTo_longest {limit last : Nat} (hlast : last ≤ 9) {ds : List Char} (hds : Digits ds)
    {p : List Char} (hp : natOf p ≤ 10 * limit + last) :
    exists q r, ds = q ++ r ∧ Longest (10 * limit + last) (p ++ q) r ∧
      digitsUpTo limit last (natOf p) ds = (natOf (p ++ q), !r.isEmpty, r) := by
  induction ds generalizing p with
  | nil =>
      refine ⟨[], [], rfl, ⟨?_, ?_⟩, ?_⟩
      · simpa using hp
      · intro c s heq
        cases heq
      · simp [digitsUpTo]
  | cons c ds ih =>
      rcases List.forall_mem_cons.mp hds with ⟨hc, hrest⟩
      have hdigit : digit c ≤ 9 := digit_le hc
      by_cases hstop : limit ≤ natOf p ∧ (natOf p ≠ limit ∨ last < digit c)
      · refine ⟨[], c :: ds, rfl, ⟨?_, ?_⟩, ?_⟩
        · simpa using hp
        · intro d s heq
          cases heq
          rw [List.append_nil, natOf_concat]
          omega
        · rw [digitsUpTo, if_pos hc, if_pos hstop, List.append_nil]
          rfl
      · have hnext : natOf (p ++ [c]) ≤ 10 * limit + last := by
          rw [natOf_concat]
          omega
        rcases ih hrest hnext with ⟨q, r, hsplit, hlongest, hrun⟩
        refine ⟨c :: q, r, by rw [hsplit]; rfl, ?_, ?_⟩
        · rwa [List.append_cons]
        · rw [digitsUpTo, if_pos hc, if_neg hstop, <- natOf_concat, hrun, <- List.append_cons]

theorem Longest.unique {limit : Nat} {p q p' q' : List Char} (h : Longest limit p q)
    (h' : Longest limit p' q') (heq : p ++ q = p' ++ q') : p = p' ∧ q = q' := by
  have hends {p q r : List Char} (h : Longest limit p (r ++ q)) (h' : Longest limit (p ++ r) q) :
      r = [] := by
    cases r with
    | nil => rfl
    | cons c r =>
        have hover := h.beyond c (r ++ q) rfl
        have hgrow := natOf_le_append (p ++ [c]) r
        rw [<- List.append_cons] at hgrow
        exact absurd h'.within (Nat.not_le.mpr (Nat.lt_of_lt_of_le hover hgrow))
  rcases List.append_eq_append_iff.mp heq with ⟨r, rfl, rfl⟩ | ⟨r, rfl, rfl⟩
  · rw [hends h h']
    simp
  · rw [hends h' h]
    simp

theorem bigDigits_ends (d : Float) {ds t : List Char} (hds : Digits ds) (ht : Ends Char.isDigit t)
    (s : List Char) :
    bigDigits d (ds ++ t) = some s <-> bigDigits d ds = some [] ∧ s = t := by
  induction ds generalizing d with
  | nil =>
      have hnone : bigDigits d t = some t := by
        cases t with
        | nil => rfl
        | cons c t => simp [bigDigits, ht c t rfl]
      rw [List.nil_append, hnone, Option.some.injEq]
      exact ⟨fun h => ⟨rfl, h.symm⟩, fun h => h.right.symm⟩
  | cons c ds ih =>
      rcases digits_cons.mp hds with ⟨hc, hrest⟩
      rw [List.cons_append, bigDigits, bigDigits, if_pos hc, if_pos hc]
      split
      · simp
      · exact ih _ hrest

/-!
## Integers
-/

section Integers

variable {minus : Bool} {ds t : List Char}

theorem storable_of_le (h : natOf ds ≤ int64Limit minus) : Storable minus ds := by
  intro p q hsplit hlongest
  cases q with
  | nil => rfl
  | cons c q =>
      have hover := hlongest.beyond c q rfl
      have hgrow := natOf_le_append (p ++ [c]) q
      rw [<- List.append_cons, <- hsplit] at hgrow
      omega

theorem parseInt_longest (minus : Bool) {d : Char} (hd : d ≠ '0') (hds : Digits (d :: ds))
    (ht : Ends Char.isDigit t) :
    exists q r, ds = q ++ r ∧ Longest (intLimit minus) (d :: q) r ∧
      parseInt minus d (ds ++ t) = (natOf (d :: q), !r.isEmpty, r ++ t) := by
  rcases digits_cons.mp hds with ⟨hdigit, hrest⟩
  have hfirst : natOf [d] = digit d := by
    rw [<- List.nil_append [d], natOf_concat]
    show 0 * 10 + digit d = digit d
    omega
  have hsmall : natOf [d] ≤ 9 := hfirst ▸ digit_le hdigit
  unfold parseInt
  rw [if_neg hd, digitsUpTo_ends _ _ _ ht, digitsUpTo_ends _ _ _ ht, <- hfirst]
  cases minus with
  | true =>
      have hwithin : natOf [d] ≤ 10 * 214748364 + 8 := Nat.le_trans hsmall (by decide)
      rcases digitsUpTo_longest (by decide) hrest hwithin with ⟨q, r, hsplit, hlongest, hrun⟩
      refine ⟨q, r, hsplit, hlongest, ?_⟩
      rw [if_pos rfl, hrun]
      rfl
  | false =>
      have hwithin : natOf [d] ≤ 10 * 429496729 + 5 := Nat.le_trans hsmall (by decide)
      rcases digitsUpTo_longest (by decide) hrest hwithin with ⟨q, r, hsplit, hlongest, hrun⟩
      refine ⟨q, r, hsplit, hlongest, ?_⟩
      rw [if_neg Bool.false_ne_true, hrun]
      rfl

theorem parseInt64_longest {p : List Char} (hp : natOf p ≤ int64Limit minus) (hds : Digits ds)
    (ht : Ends Char.isDigit t) :
    exists q r, ds = q ++ r ∧ Longest (int64Limit minus) (p ++ q) r ∧
      parseInt64 minus (!ds.isEmpty) (natOf p) (ds ++ t) = (natOf (p ++ q), !r.isEmpty, r ++ t) := by
  cases hempty : ds.isEmpty with
  | true =>
      rw [List.isEmpty_iff.mp hempty]
      refine ⟨[], [], rfl, ⟨?_, ?_⟩, ?_⟩
      · rwa [List.append_nil]
      · intro c s heq
        cases heq
      · rw [List.append_nil]
        rfl
  | false =>
      unfold parseInt64
      rw [Bool.not_false, if_pos rfl, digitsUpTo_ends _ _ _ ht, digitsUpTo_ends _ _ _ ht]
      cases minus with
      | true =>
          have hwithin : natOf p ≤ 10 * 922337203685477580 + 8 := hp
          rcases digitsUpTo_longest (by decide) hds hwithin with ⟨q, r, hsplit, hlongest, hrun⟩
          refine ⟨q, r, hsplit, hlongest, ?_⟩
          rw [if_pos rfl, hrun]
      | false =>
          have hwithin : natOf p ≤ 10 * 1844674407370955161 + 5 := hp
          rcases digitsUpTo_longest (by decide) hds hwithin with ⟨q, r, hsplit, hlongest, hrun⟩
          refine ⟨q, r, hsplit, hlongest, ?_⟩
          rw [if_neg Bool.false_ne_true, hrun]

theorem parseBig_iff (i : Nat) (hds : Digits ds) (ht : ds = [] ∨ Ends Char.isDigit t)
    (s : List Char) :
    parseBig (!ds.isEmpty) i (ds ++ t) = some s <->
      bigDigits (Float.ofNat i) ds = some [] ∧ s = t := by
  cases hempty : ds.isEmpty with
  | true =>
      rw [List.isEmpty_iff.mp hempty]
      show some t = some s <-> some [] = some [] ∧ s = t
      rw [Option.some.injEq]
      exact ⟨fun h => ⟨rfl, h.symm⟩, fun h => h.right.symm⟩
  | false =>
      have hne : ds ≠ [] := by
        intro heq
        rw [heq] at hempty
        cases hempty
      exact bigDigits_ends _ hds (ht.resolve_left hne) s

theorem numberValue_integer {n : Nat} (h : n ≤ intLimit minus) :
    numberValue minus true n = integerValue (if minus then -n else n) := by
  cases minus with
  | true =>
      have hn : n ≤ 2147483648 := h
      simp only [numberValue, integerValue, if_true, Bool.true_eq_false, if_false]
      rw [if_pos (by omega)]
  | false =>
      simp only [numberValue, integerValue, Bool.true_eq_false, Bool.false_eq_true, if_false]
      by_cases hn : n < 2 ^ 31
      · rw [if_pos hn, if_pos (by omega)]
      · rw [if_neg hn, if_neg (by omega)]

theorem integerValue_beyond {n : Nat} (h : intLimit minus < n) :
    integerValue (if minus then -n else n) = .number := by
  cases minus with
  | true =>
      have hn : 2147483648 < n := h
      simp only [integerValue, if_true]
      rw [if_neg (by omega)]
  | false =>
      have hn : 4294967295 < n := h
      simp only [integerValue, Bool.false_eq_true, if_false]
      rw [if_neg (by omega)]

def Finished (value : Bool -> Json) (t : List Char) (v : Json) (u : List Char) : Prop :=
  exists frac s exp, parseFrac t = some (frac, s) ∧ parseExp s = some (exp, u) ∧
    v = value (frac || exp)

theorem parseUnsigned_parts {d : Char} {s r r' : List Char} {i i64 : Nat}
    (hd : d.isDigit = true) (hint : parseInt minus d s = (i, !r.isEmpty, r ++ t))
    (hint64 : parseInt64 minus (!r.isEmpty) i (r ++ t) = (i64, !r'.isEmpty, r' ++ t))
    (hr' : Digits r') (ht : r' = [] ∨ Ends Char.isDigit t) (v : Json) (u : List Char) :
    parseUnsigned minus (d :: s) = some (v, u) <->
      bigDigits (Float.ofNat i64) r' = some [] ∧
        Finished (fun double => numberValue minus (!(!r.isEmpty || double)) i) t v u := by
  simp only [parseUnsigned, if_pos hd, hint, hint64, Option.bind_eq_bind, Option.bind_eq_some_iff,
    parseBig_iff i64 hr' ht, Option.pure_def, Option.some.injEq, Prod.mk.injEq, Prod.exists]
  constructor
  · rintro ⟨_, ⟨hbig, rfl⟩, frac, s, hfrac, exp, s', hexp, rfl, rfl⟩
    exact ⟨hbig, frac, s, exp, hfrac, hexp, by rw [Bool.or_assoc]⟩
  · rintro ⟨hbig, frac, s, exp, hfrac, hexp, rfl⟩
    exact ⟨_, ⟨hbig, rfl⟩, frac, s, hfrac, exp, u, hexp, by rw [Bool.or_assoc], rfl⟩

/-- An integer of 32 bits is its value, and all other numbers are the same. -/
def finishedValue (minus : Bool) (ds : List Char) (double : Bool) : Json :=
  if double then .number else integerValue (if minus then -natOf ds else natOf ds)

theorem parseUnsigned_iff (hint : IntText ds) (ht : ds = ['0'] ∨ Ends Char.isDigit t) (v : Json)
    (u : List Char) :
    parseUnsigned minus (ds ++ t) = some (v, u) <->
      Storable minus ds ∧ Finished (finishedValue minus ds) t v u := by
  cases hint with
  | zero =>
      have hzero : natOf ['0'] = 0 := rfl
      have hstorable : Storable minus ['0'] := storable_of_le (hzero ▸ Nat.zero_le _)
      have hvalue : finishedValue minus ['0'] =
          fun double => numberValue minus (!(!([] : List Char).isEmpty || double)) 0 := by
        funext double
        cases double with
        | true => rfl
        | false => exact (numberValue_integer (Nat.zero_le _)).symm
      have hparts : parseUnsigned minus ('0' :: t) = some (v, u) <->
          bigDigits (Float.ofNat 0) [] = some [] ∧
            Finished (fun double => numberValue minus (!(!([] : List Char).isEmpty || double)) 0) t v u :=
        parseUnsigned_parts rfl rfl rfl (by simp [Digits]) (Or.inl rfl) v u
      rw [List.singleton_append, hvalue, hparts]
      exact ⟨fun h => ⟨hstorable, h.right⟩, fun h => ⟨rfl, h.right⟩⟩
  | @digits d ds hd hds =>
      have hends : Ends Char.isDigit t := by
        refine ht.resolve_left ?_
        intro heq
        exact hd (List.cons.inj heq).left
      rcases digits_cons.mp hds with ⟨hdigit, hrest⟩
      rcases parseInt_longest minus hd hds hends with ⟨q, r, rfl, hlongest, hrun⟩
      have hwithin : natOf (d :: q) ≤ int64Limit minus :=
        Nat.le_trans hlongest.within (by cases minus <;> decide)
      have hr : Digits r := fun c hc => hrest c (List.mem_append_right q hc)
      rcases parseInt64_longest hwithin hr hends with ⟨q', r', rfl, hlongest', hrun'⟩
      have hr' : Digits r' := fun c hc => hr c (List.mem_append_right q' hc)
      have hstorable : Storable minus (d :: (q ++ (q' ++ r'))) <->
          bigDigits (Float.ofNat (natOf (d :: q ++ q'))) r' = some [] := by
        constructor
        · intro h
          exact h (d :: q ++ q') r' (by simp) hlongest'
        · intro h p s hsplit hp
          rcases hp.unique hlongest' (by rw [<- hsplit]; simp) with ⟨rfl, rfl⟩
          exact h
      have hvalue : finishedValue minus (d :: (q ++ (q' ++ r'))) = fun double =>
          numberValue minus (!(!(q' ++ r').isEmpty || double)) (natOf (d :: q)) := by
        funext double
        cases double with
        | true => 
            rw [Bool.or_true]
            rfl
        | false =>
            rw [Bool.or_false, Bool.not_not]
            cases hempty : q' ++ r' with
            | nil =>
                rw [List.append_nil]
                exact (numberValue_integer hlongest.within).symm
            | cons c s =>
                have hover := hlongest.beyond c s hempty
                have hgrow := natOf_le_append (d :: q ++ [c]) s
                rw [<- List.append_cons] at hgrow
                exact integerValue_beyond (Nat.lt_of_lt_of_le hover hgrow)
      rw [List.cons_append, hstorable, hvalue]
      exact parseUnsigned_parts hdigit hrun hrun' hr' (Or.inr hends) v u

end Integers

/-!
## Fractions and exponents
-/

theorem parseFrac_iff {s t : List Char} {b : Bool} :
    parseFrac s = some (b, t) <->
      (b = false ∧ s = t ∧ Ends (· == '.') t) ∨
        (b = true ∧ exists cs, FracText cs ∧ s = cs ++ t ∧ Ends Char.isDigit t) := by
  cases s with
  | nil =>
      simp only [parseFrac, Option.some.injEq, Prod.mk.injEq]
      constructor
      · rintro ⟨rfl, rfl⟩
        refine Or.inl ⟨rfl, rfl, ?_⟩
        intro c s heq
        cases heq
      · rintro (⟨rfl, rfl, _⟩ | ⟨_, cs, hcs, heq, _⟩)
        · exact ⟨rfl, rfl⟩
        · cases hcs
          cases heq
  | cons p s =>
      by_cases hp : p = '.'
      · rw [hp]
        cases s with
        | nil =>
            simp only [parseFrac]
            constructor
            · intro h
              cases h
            · rintro (⟨_, rfl, hends⟩ | ⟨_, cs, hcs, heq, _⟩)
              · cases hends '.' [] rfl
              · cases hcs
                cases heq
        | cons c s =>
            simp only [parseFrac, Option.ite_none_right_eq_some, Option.some.injEq, Prod.mk.injEq]
            constructor
            · rintro ⟨hc, rfl, rfl⟩
              refine Or.inr ⟨rfl, '.' :: c :: s.takeWhile Char.isDigit, ?_, ?_, dropWhile_ends s⟩
              · exact .point (digits_cons.mpr ⟨hc, takeWhile_digits s⟩)
              · simp [List.takeWhile_append_dropWhile]
            · rintro (⟨_, rfl, hends⟩ | ⟨rfl, cs, hcs, heq, ht⟩)
              · cases hends '.' (c :: s) rfl
              · cases hcs with
                | point hds =>
                    rcases digits_cons.mp hds with ⟨hd, hrest⟩
                    simp only [List.cons_append, List.cons.injEq, true_and] at heq
                    rcases heq with ⟨rfl, rfl⟩
                    exact ⟨hd, rfl, dropWhile_digits hrest ht⟩
      · have hnone : parseFrac (p :: s) = some (false, p :: s) := by
          unfold parseFrac
          split
          · rename_i heq
            exact absurd (List.cons.inj heq).left hp
          · rename_i heq
            exact absurd (List.cons.inj heq).left hp
          · rfl
        rw [hnone, Option.some.injEq, Prod.mk.injEq]
        constructor
        · rintro ⟨rfl, rfl⟩
          refine Or.inl ⟨rfl, rfl, ?_⟩
          intro c t heq
          cases heq
          simpa using hp
        · rintro (⟨rfl, rfl, _⟩ | ⟨_, cs, hcs, heq, _⟩)
          · exact ⟨rfl, rfl⟩
          · cases hcs
            exact absurd (List.cons.inj heq).left hp

theorem expDigits_iff {exp : Nat} (hexp : exp ≤ 308) {s t : List Char} :
    expDigits exp s = some t <->
      exists ds, Digits ds ∧ Nat.ofDigitChars 10 ds exp ≤ 308 ∧ s = ds ++ t ∧ Ends Char.isDigit t := by
  induction s generalizing exp with
  | nil =>
      simp only [expDigits, Option.some.injEq]
      constructor
      · rintro rfl
        refine ⟨[], by simp [Digits], by simpa using hexp, rfl, ?_⟩
        intro c s heq
        cases heq
      · rintro ⟨ds, _, _, heq, _⟩
        exact (List.append_eq_nil_iff.mp heq.symm).right.symm
  | cons c s ih =>
      rw [expDigits]
      split
      · rename_i hc
        split
        · rename_i hover
          constructor
          · intro h
            cases h
          · rintro ⟨ds, hds, hle, heq, ht⟩
            cases ds with
            | nil =>
                rw [ht c s heq.symm] at hc
                cases hc
            | cons d ds =>
                cases heq
                rw [ofDigitChars_digit] at hle
                exact absurd (Nat.le_trans (le_ofDigitChars _ _) hle) (Nat.not_le.mpr hover)
        · rename_i hover
          rw [ih (Nat.not_lt.mp hover)]
          constructor
          · rintro ⟨ds, hds, hle, rfl, ht⟩
            refine ⟨c :: ds, digits_cons.mpr ⟨hc, hds⟩, ?_, rfl, ht⟩
            rwa [ofDigitChars_digit]
          · rintro ⟨ds, hds, hle, heq, ht⟩
            cases ds with
            | nil =>
                rw [ht c s heq.symm] at hc
                cases hc
            | cons d ds =>
                cases heq
                rw [ofDigitChars_digit] at hle
                exact ⟨ds, (digits_cons.mp hds).right, hle, rfl, ht⟩
      · rename_i hc
        rw [Option.some.injEq]
        constructor
        · rintro rfl
          refine ⟨[], by simp [Digits], by simpa using hexp, rfl, ?_⟩
          intro d t heq
          cases heq
          simpa using hc
        · rintro ⟨ds, hds, _, heq, _⟩
          cases ds with
          | nil => exact heq
          | cons d ds =>
              cases heq
              exact absurd (digits_cons.mp hds).left hc

theorem expSign_digit {c : Char} (hc : c.isDigit = true) (s : List Char) :
    expSign (c :: s) = c :: s := by
  unfold expSign
  split
  · rename_i heq
    cases heq
    cases hc
  · rename_i heq
    cases heq
    cases hc
  · rfl

theorem expSign_split (s : List Char) :
    exists sign, sign ∈ [[], ['+'], ['-']] ∧ s = sign ++ expSign s := by
  unfold expSign
  split
  · exact ⟨['+'], by simp, rfl⟩
  · exact ⟨['-'], by simp, rfl⟩
  · exact ⟨[], by simp, rfl⟩

theorem parseExp_iff {s t : List Char} {b : Bool} :
    parseExp s = some (b, t) <->
      (b = false ∧ s = t ∧ Ends (fun c => c == 'e' || c == 'E') t) ∨
        (b = true ∧ exists cs, ExpText cs ∧ s = cs ++ t ∧ Ends Char.isDigit t) := by
  cases s with
  | nil =>
      simp only [parseExp, Option.some.injEq, Prod.mk.injEq]
      constructor
      · rintro ⟨rfl, rfl⟩
        refine Or.inl ⟨rfl, rfl, ?_⟩
        intro c s heq
        cases heq
      · rintro (⟨rfl, rfl, _⟩ | ⟨_, cs, hcs, heq, _⟩)
        · exact ⟨rfl, rfl⟩
        · cases hcs
          cases heq
  | cons e s =>
      rw [parseExp]
      split
      · rename_i he
        constructor
        · intro h
          rcases expSign_split s with ⟨sign, hsign, hs⟩
          split at h
          · cases h
          · rename_i c s' heq
            simp only [Option.ite_none_right_eq_some, Option.map_eq_some_iff] at h
            rcases h with ⟨hc, s2, hdigits, hresult⟩
            cases hresult
            have hsmall : digit c ≤ 308 := Nat.le_trans (digit_le hc) (by decide)
            rcases (expDigits_iff hsmall).mp hdigits with ⟨ds, hds, hle, rfl, ht⟩
            refine Or.inr ⟨rfl, e :: (sign ++ c :: ds), ?_, ?_, ht⟩
            · refine .exp he hsign (digits_cons.mpr ⟨hc, hds⟩) ?_
              unfold natOf
              rw [ofDigitChars_digit, Nat.zero_mul, Nat.zero_add]
              exact hle
            · rw [hs, heq]
              simp
        · rintro (⟨_, rfl, hends⟩ | ⟨rfl, cs, hcs, heq, ht⟩)
          · have h := hends e s rfl
            rcases he with rfl | rfl
            · cases h
            · cases h
          · cases hcs with
            | @exp e' d sign ds he' hsign hds hle =>
                rcases digits_cons.mp hds with ⟨hd, hds⟩
                have hsmall : digit d ≤ 308 := Nat.le_trans (digit_le hd) (by decide)
                have hrest : expSign s = d :: (ds ++ t) := by
                  rw [(List.cons.inj heq).right]
                  simp only [List.mem_cons, List.not_mem_nil, or_false] at hsign
                  rcases hsign with rfl | rfl | rfl
                  · exact expSign_digit hd _
                  · rfl
                  · rfl
                unfold natOf at hle
                rw [ofDigitChars_digit, Nat.zero_mul, Nat.zero_add] at hle
                rw [hrest]
                simp only [if_pos hd]
                rw [(expDigits_iff hsmall).mpr ⟨ds, hds, hle, rfl, ht⟩]
                rfl
      · rename_i he
        rw [Option.some.injEq, Prod.mk.injEq]
        constructor
        · rintro ⟨rfl, rfl⟩
          refine Or.inl ⟨rfl, rfl, ?_⟩
          intro c t heq
          cases heq
          simpa [not_or] using he
        · rintro (⟨rfl, rfl, _⟩ | ⟨_, cs, hcs, heq, _⟩)
          · exact ⟨rfl, rfl⟩
          · cases hcs with
            | exp he' =>
                rw [(List.cons.inj heq).left] at he
                exact absurd he' he

/-!
## Numbers
-/

section Numbers

variable {minus : Bool} {cs s t u : List Char} {v : Json}

theorem Ends.mono {p q : Char -> Bool} (h : Ends p t) (hqp : forall {c}, q c = true -> p c = true) :
    Ends q t := by
  intro c s heq
  by_contra hq
  have hp := hqp (eq_true_of_ne_false hq)
  rw [h c s heq] at hp
  cases hp

theorem Ends.cons {p : Char -> Bool} {c : Char} (hc : p c = false) (t : List Char) :
    Ends p (c :: t) := by
  intro d s heq
  rw [<- (List.cons.inj heq).left]
  exact hc

theorem ends_exp {p : Char -> Bool} (hp : p 'e' = false ∧ p 'E' = false) (hcs : cs = [] ∨ ExpText cs)
    (ht : Ends p t) : Ends p (cs ++ t) := by
  rcases hcs with rfl | hcs
  · exact ht
  · cases hcs with
    | exp he =>
        rcases he with rfl | rfl
        · exact Ends.cons hp.left _
        · exact Ends.cons hp.right _

theorem ends_frac {p : Char -> Bool} (hp : p '.' = false) (hcs : cs = [] ∨ FracText cs)
    (ht : Ends p t) : Ends p (cs ++ t) := by
  rcases hcs with rfl | hcs
  · exact ht
  · cases hcs with
    | point => exact Ends.cons hp _

theorem Finished.split {value : Bool -> Json} (h : Finished value t v u) :
    exists frac exp, (frac = [] ∨ FracText frac) ∧ (exp = [] ∨ ExpText exp) ∧
      t = frac ++ exp ++ u ∧ v = value (!(frac ++ exp).isEmpty) := by
  rcases h with ⟨b, s, b', hfrac, hexp, rfl⟩
  rcases parseFrac_iff.mp hfrac with ⟨rfl, rfl, _⟩ | ⟨rfl, frac, hf, rfl, _⟩
  · rcases parseExp_iff.mp hexp with ⟨rfl, rfl, _⟩ | ⟨rfl, exp, he, rfl, _⟩
    · exact ⟨[], [], Or.inl rfl, Or.inl rfl, rfl, rfl⟩
    · refine ⟨[], exp, Or.inl rfl, Or.inr he, rfl, ?_⟩
      cases he
      rfl
  · rcases parseExp_iff.mp hexp with ⟨rfl, rfl, _⟩ | ⟨rfl, exp, he, rfl, _⟩
    · refine ⟨frac, [], Or.inr hf, Or.inl rfl, by simp, ?_⟩
      cases hf
      rfl
    · refine ⟨frac, exp, Or.inr hf, Or.inr he, by simp, ?_⟩
      cases hf
      rfl

theorem finished_text (value : Bool -> Json) {frac exp : List Char} (hf : frac = [] ∨ FracText frac)
    (he : exp = [] ∨ ExpText exp) (hu : Ends numeric u) :
    Finished value (frac ++ exp ++ u) (value (!(frac ++ exp).isEmpty)) u := by
  have hdigit : Ends Char.isDigit u := hu.mono numeric_of_isDigit
  have hexp : parseExp (exp ++ u) = some (!exp.isEmpty, u) := by
    apply parseExp_iff.mpr
    rcases he with rfl | he
    · refine Or.inl ⟨rfl, rfl, hu.mono fun h => ?_⟩
      simp only [numeric, Bool.or_eq_true] at h ⊢
      exact h.elim (fun h => Or.inl (Or.inr h)) Or.inr
    · refine Or.inr ⟨?_, exp, he, rfl, hdigit⟩
      cases he
      rfl
  have hfrac : parseFrac (frac ++ (exp ++ u)) = some (!frac.isEmpty, exp ++ u) := by
    apply parseFrac_iff.mpr
    rcases hf with rfl | hf
    · refine Or.inl ⟨rfl, rfl, ends_exp ⟨rfl, rfl⟩ he (hu.mono fun h => ?_)⟩
      simp only [numeric, Bool.or_eq_true]
      exact Or.inl (Or.inl (Or.inr h))
    · refine Or.inr ⟨?_, frac, hf, rfl, ends_exp ⟨rfl, rfl⟩ he hdigit⟩
      cases hf
      rfl
  rw [List.append_assoc]
  refine ⟨_, _, _, hfrac, hexp, ?_⟩
  cases frac with
  | nil => rfl
  | cons c frac => rfl

theorem unsignedText_of_parse (h : parseUnsigned minus s = some (v, u)) :
    exists cs, s = cs ++ u ∧ UnsignedText minus cs v := by
  have htext {ds t : List Char} (hint : IntText ds) (ht : ds = ['0'] ∨ Ends Char.isDigit t)
      (hs : s = ds ++ t) : exists cs, s = cs ++ u ∧ UnsignedText minus cs v := by
    rw [hs] at h
    rcases (parseUnsigned_iff hint ht v u).mp h with ⟨hstorable, hfinished⟩
    rcases hfinished.split with ⟨frac, exp, hf, he, rfl, rfl⟩
    cases hempty : (frac ++ exp).isEmpty with
    | true =>
        rw [List.isEmpty_iff] at hempty
        exact ⟨ds, by rw [hs, hempty]; rfl, .integer hint hstorable⟩
    | false =>
        have hne : frac ++ exp ≠ [] := by
          intro heq
          rw [heq] at hempty
          cases hempty
        exact ⟨ds ++ (frac ++ exp), by rw [hs]; simp, .double hint hstorable hf he hne⟩
  cases s with
  | nil => cases h
  | cons c s =>
      have hc : c.isDigit = true := by
        simp only [parseUnsigned, Option.ite_none_right_eq_some] at h
        exact h.left
      by_cases hzero : c = '0'
      · refine htext .zero (Or.inl rfl) (t := s) ?_
        rw [hzero]
        rfl
      · refine htext (.digits hzero (digits_cons.mpr ⟨hc, takeWhile_digits s⟩))
          (Or.inr (dropWhile_ends s)) ?_
        rw [List.cons_append, List.takeWhile_append_dropWhile]

theorem UnsignedText.parse (h : UnsignedText minus cs v) (ht : Ends numeric t) :
    parseUnsigned minus (cs ++ t) = some (v, t) := by
  have hdigit : Ends Char.isDigit t := ht.mono numeric_of_isDigit
  cases h with
  | integer hint hstorable =>
      refine (parseUnsigned_iff hint (Or.inr hdigit) _ t).mpr ⟨hstorable, ?_⟩
      exact finished_text (finishedValue minus cs) (Or.inl rfl) (Or.inl rfl) ht
  | @double ds frac exp hint hstorable hf he hne =>
      have hends : Ends Char.isDigit (frac ++ exp ++ t) := by
        rw [List.append_assoc]
        exact ends_frac rfl hf (ends_exp ⟨rfl, rfl⟩ he hdigit)
      have hvalue : finishedValue minus ds (!(frac ++ exp).isEmpty) = .number := by
        rw [List.isEmpty_eq_false_iff.mpr hne]
        rfl
      have hfinished := finished_text (finishedValue minus ds) hf he ht
      rw [hvalue] at hfinished
      rw [List.append_assoc]
      exact (parseUnsigned_iff hint (Or.inr hends) _ t).mpr ⟨hstorable, hfinished⟩

theorem UnsignedText.head (h : UnsignedText minus cs v) :
    exists c s, cs = c :: s ∧ c.isDigit = true := by
  have hint {ds : List Char} (hds : IntText ds) : exists c s, ds = c :: s ∧ c.isDigit = true := by
    cases hds with
    | zero => exact ⟨'0', [], rfl, rfl⟩
    | digits _ hds => exact ⟨_, _, rfl, (digits_cons.mp hds).left⟩
  cases h with
  | integer hds _ => exact hint hds
  | double hds _ _ _ _ =>
      rcases hint hds with ⟨c, s, rfl, hc⟩
      exact ⟨c, _, rfl, hc⟩

theorem parseNumber_digit {c : Char} (hc : c.isDigit = true) (s : List Char) :
    parseNumber (c :: s) = parseUnsigned false (c :: s) := by
  unfold parseNumber
  split
  · rename_i heq
    cases heq
    cases hc
  · rfl

theorem numberText_of_parse (h : parseNumber s = some (v, u)) :
    exists cs, s = cs ++ u ∧ NumberText cs v := by
  unfold parseNumber at h
  split at h
  · rcases unsignedText_of_parse h with ⟨cs, rfl, hcs⟩
    exact ⟨'-' :: cs, rfl, .negative hcs⟩
  · rcases unsignedText_of_parse h with ⟨cs, rfl, hcs⟩
    exact ⟨cs, rfl, .positive hcs⟩

theorem NumberText.parse (h : NumberText cs v) (ht : Ends numeric t) :
    parseNumber (cs ++ t) = some (v, t) := by
  cases h with
  | positive hcs =>
      rcases hcs.head with ⟨c, s, rfl, hc⟩
      rw [List.cons_append, parseNumber_digit hc]
      exact hcs.parse ht
  | negative hcs => exact hcs.parse ht

theorem NumberText.head (h : NumberText cs v) : exists c s, cs = c :: s ∧ numeric c = true := by
  cases h with
  | positive hcs =>
      rcases hcs.head with ⟨c, s, rfl, hc⟩
      exact ⟨c, s, rfl, numeric_of_isDigit hc⟩
  | negative => exact ⟨'-', _, rfl, rfl⟩

end Numbers

end Rapidjson

end FrProxy
