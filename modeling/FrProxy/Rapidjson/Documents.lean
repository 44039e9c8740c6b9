import FrProxy.Rapidjson.Numbers
import FrProxy.Rapidjson.Prefix

/-!
# The parser and the grammar

The parser accepts the documents of the grammar and no other texts, and the
value that it returns is the one that the grammar gives.
-/

namespace FrProxy

namespace Rapidjson

/-!
## What is read is in the grammar
-/

theorem blank_skipWhitespace {s t : List Char} (h : skipWhitespace s = t) :
    exists b, s = b ++ t ∧ Blank b := by
  have hreads := skipWhitespace_reads s
  rw [h] at hreads
  exact hreads

def ValueIn (s : List Char) (v : Json) (t : List Char) : Prop :=
  exists cs, s = cs ++ t ∧ ValueText cs v

def MembersIn (s : List Char) (ms : List (String × Json)) (t : List Char) : Prop :=
  exists cs, s = cs ++ '\x7d' :: t ∧ MembersText cs ms

def ElementsIn (s : List Char) (vs : List Json) (t : List Char) : Prop :=
  exists cs, s = cs ++ ']' :: t ∧ ElementsText cs vs

theorem memberText_of_parse {s key s1 s2 s3 t : List Char} {v : Json} {c : Char}
    (hkey : parseString s = some (key, s1)) (hcolon : skipWhitespace s1 = ':' :: s2)
    (hv : ValueIn (skipWhitespace s2) v s3) (hc : skipWhitespace s3 = c :: t) :
    exists cs, '"' :: s = cs ++ c :: t ∧ MemberText cs (String.ofList key) v := by
  rcases stringText_of_stringLoop hkey with ⟨ks, rfl, hks⟩
  rcases blank_skipWhitespace hcolon with ⟨b, rfl, hb⟩
  rcases hv with ⟨cs, hcs, hv⟩
  rcases blank_skipWhitespace hcs with ⟨b', rfl, hb'⟩
  rcases blank_skipWhitespace hc with ⟨b'', rfl, hb''⟩
  exact ⟨_, by simp, .member hks hb hb' hv hb''⟩

theorem grammarRules : ValueRules ValueIn MembersIn ElementsIn where
  null := fun t => ⟨_, rfl, .null⟩
  true := fun t => ⟨_, rfl, .true⟩
  false := fun t => ⟨_, rfl, .false⟩
  string := by
    intro s xs t h
    rcases stringText_of_stringLoop h with ⟨cs, rfl, hcs⟩
    exact ⟨_, by simp, .string hcs⟩
  number := by
    intro s v t h
    rcases numberText_of_parse h with ⟨cs, rfl, hcs⟩
    exact ⟨cs, rfl, .number hcs⟩
  emptyObject := by
    intro s t h
    rcases blank_skipWhitespace h with ⟨b, rfl, hb⟩
    exact ⟨_, by simp, .emptyObject hb⟩
  object := by
    rintro s ms t ⟨cs, hs, hms⟩
    rcases blank_skipWhitespace hs with ⟨b, rfl, hb⟩
    exact ⟨_, by simp, .object hb hms⟩
  emptyArray := by
    intro s t h
    rcases blank_skipWhitespace h with ⟨b, rfl, hb⟩
    exact ⟨_, by simp, .emptyArray hb⟩
  array := by
    rintro s vs t ⟨cs, hs, hvs⟩
    rcases blank_skipWhitespace hs with ⟨b, rfl, hb⟩
    exact ⟨_, by simp, .array hb hvs⟩
  lastMember := by
    intro s key s1 s2 v s3 t hkey hcolon hv hbrace
    rcases memberText_of_parse hkey hcolon hv hbrace with ⟨cs, hs, hcs⟩
    exact ⟨cs, hs, .last hcs⟩
  member := by
    intro s key s1 s2 v s3 s4 ms t hkey hcolon hv hcomma hms
    rcases memberText_of_parse hkey hcolon hv hcomma with ⟨cs, hs, hcs⟩
    rcases hms with ⟨cs', hs', hms⟩
    rcases blank_skipWhitespace hs' with ⟨b, rfl, hb⟩
    exact ⟨_, by rw [hs]; simp, .cons hcs hb hms⟩
  lastElement := by
    rintro s v s1 t ⟨cs, rfl, hv⟩ hbracket
    rcases blank_skipWhitespace hbracket with ⟨b, rfl, hb⟩
    exact ⟨cs ++ b, by simp, .last hv hb⟩
  element := by
    rintro s v s1 s2 vs t ⟨cs, rfl, hv⟩ hcomma ⟨cs', hs', hvs⟩
    rcases blank_skipWhitespace hcomma with ⟨b, rfl, hb⟩
    rcases blank_skipWhitespace hs' with ⟨b', rfl, hb'⟩
    exact ⟨_, by simp, .cons hv hb hb' hvs⟩

/-!
## What is in the grammar is read
-/

/-- The text does not begin with a blank. -/
def Starts (cs : List Char) : Prop :=
  exists c s, cs = c :: s ∧ isWhitespace c = false

/-- A text that is read as a value in front of whatever ends it. -/
def ValueRead (cs : List Char) (v : Json) : Prop :=
  Starts cs ∧ forall t, Ends numeric t -> ValueOn (cs ++ t) v t

def MembersRead (cs : List Char) (ms : List (String × Json)) : Prop :=
  forall t, MembersOn (cs ++ '\x7d' :: t) ms t

/-- A member is read at the end, and in front of further members. -/
def MemberRead (cs : List Char) (key : String) (v : Json) : Prop :=
  MembersRead cs [(key, v)] ∧ forall s ms t, MembersOn (skipWhitespace s) ms t ->
    MembersOn (cs ++ ',' :: s) ((key, v) :: ms) t

def ElementsRead (cs : List Char) (vs : List Json) : Prop :=
  Starts cs ∧ forall t, ElementsOn (cs ++ ']' :: t) vs t

theorem Starts.skip {cs : List Char} (h : Starts cs) (t : List Char) :
    skipWhitespace (cs ++ t) = cs ++ t := by
  rcases h with ⟨c, s, rfl, hc⟩
  exact skipWhitespace_cons hc _

theorem Starts.append {cs : List Char} (h : Starts cs) (t : List Char) : Starts (cs ++ t) := by
  rcases h with ⟨c, s, rfl, hc⟩
  exact ⟨c, s ++ t, rfl, hc⟩

theorem skip_blank {b : List Char} (hb : Blank b) (s : List Char) :
    skipWhitespace (b ++ s) = skipWhitespace s :=
  List.dropWhile_append_of_pos hb

theorem skip_mark {b : List Char} (hb : Blank b) {c : Char} (hc : isWhitespace c = false)
    (s : List Char) : skipWhitespace (b ++ c :: s) = c :: s :=
  (skip_blank hb _).trans (skipWhitespace_cons hc s)

theorem MembersOn.skip {s t : List Char} {ms : List (String × Json)} (h : MembersOn s ms t) :
    skipWhitespace s = s := by
  rcases h with ⟨⟨s', rfl⟩, _⟩
  exact skipWhitespace_cons rfl _

theorem not_numeric_of_whitespace {c : Char} (h : isWhitespace c = true) : numeric c = false := by
  have hcase : c = ' ' ∨ c = '\n' ∨ c = '\r' ∨ c = '\t' := by
    simpa [isWhitespace, or_assoc] using h
  rcases hcase with rfl | rfl | rfl | rfl
  · rfl
  · rfl
  · rfl
  · rfl

theorem ends_blank {b t : List Char} (hb : Blank b) (ht : Ends numeric t) :
    Ends numeric (b ++ t) := by
  cases b with
  | nil => exact ht
  | cons c b => exact Ends.cons (not_numeric_of_whitespace (hb c List.mem_cons_self)) _

section Reading

variable {key xs b b' b'' cs cs' : List Char} {k : String} {v : Json} {vs : List Json}
  {ms : List (String × Json)}

theorem numberRead (h : NumberText cs v) : ValueRead cs v := by
  rcases h.head with ⟨c, s, hs, hc⟩
  constructor
  · refine ⟨c, s, hs, ?_⟩
    cases hblank : isWhitespace c with
    | false => rfl
    | true =>
        rw [not_numeric_of_whitespace hblank] at hc
        cases hc
  · intro t ht
    exact valueOn_number (h.parse ht)

theorem stringRead (h : StringText cs xs) : ValueRead ('"' :: (cs ++ ['"'])) (stringValue xs) := by
  refine ⟨⟨_, _, rfl, rfl⟩, fun t _ => ?_⟩
  rw [List.cons_append, List.append_assoc]
  exact prefixRules.string _ xs t (h.parse t)

theorem emptyObjectRead (hb : Blank b) : ValueRead ('\x7b' :: (b ++ ['\x7d'])) (.object []) := by
  refine ⟨⟨_, _, rfl, rfl⟩, fun t _ => ?_⟩
  rw [List.cons_append, List.append_assoc]
  exact prefixRules.emptyObject _ t (skip_mark hb rfl t)

theorem objectRead (hb : Blank b) (h : MembersRead cs ms) :
    ValueRead ('\x7b' :: (b ++ cs ++ ['\x7d'])) (.object ms) := by
  refine ⟨⟨_, _, rfl, rfl⟩, fun t _ => ?_⟩
  rw [List.cons_append, List.append_assoc, List.append_assoc]
  apply prefixRules.object
  rw [skip_blank hb, List.singleton_append, (h t).skip]
  exact h t

theorem emptyArrayRead (hb : Blank b) : ValueRead ('[' :: (b ++ [']'])) (.array []) := by
  refine ⟨⟨_, _, rfl, rfl⟩, fun t _ => ?_⟩
  rw [List.cons_append, List.append_assoc]
  exact prefixRules.emptyArray _ t (skip_mark hb rfl t)

theorem arrayRead (hb : Blank b) (h : ElementsRead cs vs) :
    ValueRead ('[' :: (b ++ cs ++ [']'])) (.array vs) := by
  refine ⟨⟨_, _, rfl, rfl⟩, fun t _ => ?_⟩
  rw [List.cons_append, List.append_assoc, List.append_assoc]
  apply prefixRules.array
  rw [skip_blank hb, List.singleton_append, h.left.skip]
  exact h.right t

theorem memberRead (hkey : StringText key xs) (hb : Blank b) (hb' : Blank b')
    (hv : ValueRead cs v) (hb'' : Blank b'') :
    MemberRead ('"' :: (key ++ '"' :: (b ++ ':' :: (b' ++ cs ++ b'')))) (String.ofList xs) v := by
  have hvalue (c : Char) (hc : numeric c = false) (t : List Char) :
      ValueOn (skipWhitespace (b' ++ (cs ++ (b'' ++ c :: t)))) v (b'' ++ c :: t) := by
    rw [skip_blank hb', hv.left.skip]
    exact hv.right _ (ends_blank hb'' (Ends.cons hc t))
  constructor
  · intro t
    simp only [List.cons_append, List.append_assoc]
    exact prefixRules.lastMember _ xs _ _ v _ t (hkey.parse _) (skip_mark hb rfl _)
      (hvalue '\x7d' rfl t) (skip_mark hb'' rfl t)
  · intro s ms t hms
    simp only [List.cons_append, List.append_assoc]
    exact prefixRules.member _ xs _ _ v _ s ms t (hkey.parse _) (skip_mark hb rfl _)
      (hvalue ',' rfl s) (skip_mark hb'' rfl s) hms

theorem membersRead_cons (h : MemberRead cs k v) (hb : Blank b) (hms : MembersRead cs' ms) :
    MembersRead (cs ++ ',' :: (b ++ cs')) ((k, v) :: ms) := by
  intro t
  rw [List.append_assoc, List.cons_append, List.append_assoc]
  apply h.right
  rw [skip_blank hb, (hms t).skip]
  exact hms t

theorem elementsRead_last (h : ValueRead cs v) (hb : Blank b) : ElementsRead (cs ++ b) [v] := by
  refine ⟨h.left.append b, fun t => ?_⟩
  rw [List.append_assoc]
  exact prefixRules.lastElement _ v _ t (h.right _ (ends_blank hb (Ends.cons rfl t)))
    (skip_mark hb rfl t)

theorem elementsRead_cons (h : ValueRead cs v) (hb : Blank b) (hb' : Blank b')
    (hvs : ElementsRead cs' vs) : ElementsRead (cs ++ b ++ ',' :: (b' ++ cs')) (v :: vs) := by
  refine ⟨(h.left.append b).append _, fun t => ?_⟩
  simp only [List.append_assoc, List.cons_append]
  refine prefixRules.element _ v _ _ vs t (h.right _ (ends_blank hb (Ends.cons rfl _)))
    (skip_mark hb rfl _) ?_
  rw [skip_blank hb', hvs.left.skip]
  exact hvs.right t

theorem ValueText.read (h : ValueText cs v) : ValueRead cs v := by
  refine @ValueText.rec (fun cs v _ => ValueRead cs v) (fun cs key v _ => MemberRead cs key v)
    (fun cs ms _ => MembersRead cs ms) (fun cs vs _ => ElementsRead cs vs)
    ?_ ?_ ?_ (fun h => stringRead h) (fun h => numberRead h) (fun hb => emptyObjectRead hb)
    (fun hb _ ih => objectRead hb ih) (fun hb => emptyArrayRead hb) (fun hb _ ih => arrayRead hb ih)
    (fun hkey hb hb' _ hb'' ih => memberRead hkey hb hb' ih hb'')
    (fun _ ih => ih.left) (fun _ hb _ ih ihs => membersRead_cons ih hb ihs)
    (fun _ hb ih => elementsRead_last ih hb)
    (fun _ hb hb' _ ih ihs => elementsRead_cons ih hb hb' ihs) cs v h
  · exact ⟨⟨_, _, rfl, rfl⟩, fun t _ => prefixRules.null t⟩
  · exact ⟨⟨_, _, rfl, rfl⟩, fun t _ => prefixRules.true t⟩
  · exact ⟨⟨_, _, rfl, rfl⟩, fun t _ => prefixRules.false t⟩

end Reading

/-!
## Documents
-/

theorem rootRules : ValueRules
    (fun s v _ => (exists s', s = '\x7b' :: s' ∨ s = '[' :: s') -> IsRoot v)
    (fun _ _ _ => True) (fun _ _ _ => True) where
  null := by
    rintro t ⟨s', h | h⟩
    · cases h
    · cases h
  true := by
    rintro t ⟨s', h | h⟩
    · cases h
    · cases h
  false := by
    rintro t ⟨s', h | h⟩
    · cases h
    · cases h
  string := by
    rintro s cs t _ ⟨s', h | h⟩
    · cases h
    · cases h
  number := by
    intro s v t hnumber hbracket
    rcases parseNumber_head hnumber with ⟨c, s1, rfl, hc⟩
    rcases hbracket with ⟨s', h | h⟩
    · rw [(List.cons.inj h).left] at hc
      cases hc
    · rw [(List.cons.inj h).left] at hc
      cases hc
  emptyObject := fun _ _ _ _ => trivial
  object := fun _ _ _ _ _ => trivial
  emptyArray := fun _ _ _ _ => trivial
  array := fun _ _ _ _ _ => trivial
  lastMember := fun _ _ _ _ _ _ _ _ _ _ _ => trivial
  member := fun _ _ _ _ _ _ _ _ _ _ _ _ _ _ => trivial
  lastElement := fun _ _ _ _ _ _ => trivial
  element := fun _ _ _ _ _ _ _ _ _ => trivial

theorem isRoot_of_parseRoot {s t : List Char} {v : Json} (h : parseRoot s = some (v, t)) :
    IsRoot v := by
  unfold parseRoot at h
  split at h
  · exact (rootRules.hold _).left _ v t h ⟨_, Or.inl rfl⟩
  · exact (rootRules.hold _).left _ v t h ⟨_, Or.inr rfl⟩
  · cases h

theorem valueText_of_parseRoot {s t : List Char} {v : Json} (h : parseRoot s = some (v, t)) :
    exists cs, s = cs ++ t ∧ ValueText cs v := by
  unfold parseRoot at h
  split at h
  · exact (grammarRules.hold _).left _ v t h
  · exact (grammarRules.hold _).left _ v t h
  · cases h

theorem isNumber_integerValue (n : Int) : IsNumber (integerValue n) := by
  unfold integerValue
  split
  · trivial
  · trivial

theorem isNumber_of_numberText {cs : List Char} {v : Json} (h : NumberText cs v) : IsNumber v := by
  have hunsigned {minus : Bool} {cs : List Char} {v : Json} (h : UnsignedText minus cs v) :
      IsNumber v := by
    cases h with
    | integer _ _ => exact isNumber_integerValue _
    | double _ _ _ _ _ => trivial
  cases h with
  | positive h => exact hunsigned h
  | negative h => exact hunsigned h

theorem valueText_root {cs : List Char} {v : Json} (h : ValueText cs v) (hv : IsRoot v) :
    exists s, cs = '\x7b' :: s ∨ cs = '[' :: s := by
  cases h with
  | null => exact hv.elim
  | true => exact hv.elim
  | false => exact hv.elim
  | string _ => exact hv.elim
  | number hcs =>
      have hnumber := isNumber_of_numberText hcs
      cases v with
      | null => exact hv.elim
      | bool _ => exact hv.elim
      | string _ => exact hv.elim
      | int _ => exact hv.elim
      | number => exact hv.elim
      | array _ => exact hnumber.elim
      | object _ => exact hnumber.elim
  | emptyObject _ => exact ⟨_, Or.inl rfl⟩
  | object _ _ => exact ⟨_, Or.inl rfl⟩
  | emptyArray _ => exact ⟨_, Or.inr rfl⟩
  | array _ _ => exact ⟨_, Or.inr rfl⟩

theorem parseRoot_text {cs b : List Char} {v : Json} (h : ValueText cs v) (hv : IsRoot v)
    (hb : Blank b) : parseRoot (cs ++ b) = some (v, b) := by
  have hends : Ends numeric b := by
    have hnil : Ends numeric [] := by
      intro c s heq
      cases heq
    rw [<- List.append_nil b]
    exact ends_blank hb hnil
  have hread : parseValue (3 * (cs ++ b).length) (cs ++ b) = some (v, b) := by
    rcases h.read.right b hends with ⟨c, s, hs, _, hon⟩
    have hnumeric : numeric c = true -> b ≠ [] := by
      intro hc
      rcases valueText_root h hv with ⟨s', rfl | rfl⟩
      · cases hs
        cases hc
      · cases hs
        cases hc
    rcases hon hnumeric [] with ⟨n, hn⟩
    rw [<- parseValue_rounds _ n, Nat.add_comm]
    simpa using hn (3 * (cs ++ b).length)
  rcases valueText_root h hv with ⟨s, rfl | rfl⟩
  · exact hread
  · exact hread

theorem parse_takeWhile (text : String) :
    parse text = parse (String.ofList (text.toList.takeWhile (· ≠ '\x00'))) := by
  unfold parse
  rw [String.toList_ofList, List.takeWhile_takeWhile]
  simp

/--
The parser accepts exactly the documents of the grammar, up to the terminating NUL,
and returns the value of the document.
-/
theorem parse_iff (text : String) (v : Json) :
    parse text = some v <-> DocumentText (text.toList.takeWhile (· ≠ '\x00')) v := by
  have hnul : '\x00' ∉ text.toList.takeWhile (· ≠ '\x00') := by
    intro hmem
    simpa using List.mem_takeWhile_imp hmem
  rw [parse_takeWhile, parse_ofList hnul]
  generalize text.toList.takeWhile (· ≠ '\x00') = cs
  constructor
  · rintro ⟨t, hroot, ht⟩
    rcases valueText_of_parseRoot hroot with ⟨cs', hcs', htext⟩
    rcases blank_skipWhitespace hcs' with ⟨b, rfl, hb⟩
    rcases blank_skipWhitespace ht with ⟨b', rfl, hb'⟩
    rw [List.append_nil, <- List.append_assoc]
    exact .document hb htext (isRoot_of_parseRoot hroot) hb'
  · intro h
    cases h with
    | @document b cs b' v hb htext hv hb' =>
        refine ⟨b', ?_, ?_⟩
        · rw [List.append_assoc, skip_blank hb, htext.read.left.skip]
          exact parseRoot_text htext hv hb'
        · rw [<- List.append_nil b', skip_blank hb']
          rfl

end Rapidjson

end FrProxy
