import FrProxy.Rapidjson.Reading
import FrProxy.Registry
import Mathlib.Data.Bool.AllAny

/-!
# Entries on the way to a text and back

The serializer puts names and hosts between quotes as they are, and the parser
undoes escapes.  A list of entries comes back from its text exactly when no name
and no host has a quote, a backslash or a control character.
-/

namespace FrProxy

namespace Registry

open Rapidjson

/-!
## The text of an entry
-/

def nameKey : List Char :=
  ['n', 'a', 'm', 'e']

def hostKey : List Char :=
  ['h', 'o', 's', 't']

def portKey : List Char :=
  ['p', 'o', 'r', 't']

def weightKey : List Char :=
  ['w', 'e', 'i', 'g', 'h', 't']

def nameText : List Char :=
  '\x7b' :: '"' :: (nameKey ++ ['"', ':', '"'])

def hostText : List Char :=
  '"' :: ',' :: '"' :: (hostKey ++ ['"', ':', '"'])

def portText : List Char :=
  '"' :: ',' :: '"' :: (portKey ++ ['"', ':'])

def weightText : List Char :=
  ',' :: '"' :: (weightKey ++ ['"', ':'])

theorem toList_join (a b c d e f g h i : String) (t : List Char) :
    (a ++ b ++ c ++ d ++ e ++ f ++ g ++ h ++ i).toList ++ t =
      a.toList ++ (b.toList ++ (c.toList ++ (d.toList ++ (e.toList ++ (f.toList ++ (g.toList ++
        (h.toList ++ (i.toList ++ t)))))))) := by
  simp only [String.toList_append, List.append_assoc]

theorem serialize_toList (now : Nat) (r : Registry) (t : List Char) :
    (r.serialize now).toList ++ t =
      nameText ++ (r.name.toList ++ (hostText ++ (r.host.toList ++ (portText ++
        ((toString r.port).toList ++ (weightText ++ ((toString (r.weight now)).toList ++
          ' ' :: '\x7d' :: t))))))) := by
  apply (toList_join _ _ _ _ _ _ _ _ _ t).trans
  rfl

theorem serialize_members (now : Nat) (r : Registry) (t : List Char) :
    (r.serialize now).toList ++ t = '\x7b' ::
      memberText nameKey (stringText r.name.toList []) (',' ::
        memberText hostKey (stringText r.host.toList []) (',' ::
          memberText portKey (toString r.port).toList (',' ::
            memberText weightKey (toString (r.weight now)).toList (' ' :: '\x7d' :: t)))) := by
  rw [serialize_toList]
  simp only [nameText, hostText, portText, weightText, memberText, stringText, List.cons_append,
    List.nil_append, List.append_assoc]

/-- The entries behind the first one. -/
def restText (now : Nat) : List Registry -> List Char
  | [] => []
  | r :: rest => ',' :: '\n' :: ((r.serialize now).toList ++ restText now rest)

theorem serializeFrom_toList (now : Nat) {ret : String} (h : 2 < ret.length)
    (v : List Registry) :
    (serializeFrom now ret v).toList = ret.toList ++ restText now v := by
  induction v generalizing ret with
  | nil => simp [serializeFrom, restText]
  | cons r rest ih =>
      have hnext : 2 < (ret ++ ",\n" ++ r.serialize now).length := by
        simp only [String.length_append]
        omega
      simp only [serializeFrom, if_pos h]
      have hcomma : (",\n" : String).toList = [',', '\n'] := rfl
      rw [ih hnext, String.toList_append, String.toList_append, hcomma, restText]
      generalize (r.serialize now).toList = text
      simp only [List.cons_append, List.nil_append, List.append_assoc]

theorem serializeAll_nil (now : Nat) : (serializeAll now []).toList = ['[', ']'] := by
  rw [serializeAll, String.toList_append, serializeFrom]
  rfl

theorem two_le_serialize_length (now : Nat) (r : Registry) : 2 ≤ (r.serialize now).length := by
  have htext := congrArg List.length (serialize_toList now r [])
  rw [List.append_nil, List.length_append, String.length_toList] at htext
  have hname : nameText.length = 9 := rfl
  omega

theorem serializeAll_cons (now : Nat) (r : Registry) (v : List Registry) :
    (serializeAll now (r :: v)).toList =
      '[' :: ((r.serialize now).toList ++ (restText now v ++ [']'])) := by
  have hlen : 2 < ("[" ++ r.serialize now).length := by
    have hentry := two_le_serialize_length now r
    have hbracket : ("[" : String).length = 1 := rfl
    rw [String.length_append]
    omega
  have hfrom : serializeFrom now "[" (r :: v) = serializeFrom now ("[" ++ r.serialize now) v := rfl
  have hopen : ("[" : String).toList = ['['] := rfl
  have hclose : ("]" : String).toList = [']'] := rfl
  rw [serializeAll, hfrom, String.toList_append, serializeFrom_toList now hlen,
    String.toList_append, hopen, hclose]
  generalize (r.serialize now).toList = text
  simp only [List.cons_append, List.nil_append, List.append_assoc]

/-!
## Clean entries
-/

/-- No quote, no backslash and no control character. -/
def Clean (s : String) : Prop :=
  forall c, c ∈ s.toList -> Plain c

instance (s : String) : Decidable (Clean s) :=
  List.decidableBAll Plain s.toList

def CleanFields (r : Registry) : Prop :=
  Clean r.name ∧ Clean r.host

instance (r : Registry) : Decidable r.CleanFields :=
  inferInstanceAs (Decidable (Clean r.name ∧ Clean r.host))

/-- The strings are free of NUL, and the port is a 32-bit integer. -/
structure Typed (r : Registry) : Prop where
  name : forall c, c ∈ r.name.toList -> c ≠ '\x00'
  host : forall c, c ∈ r.host.toList -> c ≠ '\x00'
  port : -2 ^ 31 ≤ r.port ∧ r.port < 2 ^ 31

theorem CleanFields.typed {r : Registry} (h : r.CleanFields)
    (hport : -2 ^ 31 ≤ r.port ∧ r.port < 2 ^ 31) : r.Typed where
  name := fun c hc => plain_ne_nul (h.left c hc)
  host := fun c hc => plain_ne_nul (h.right c hc)
  port := hport

theorem weight_bounds (now : Nat) (r : Registry) : 1200 ≤ r.weight now ∧ r.weight now ≤ 3600 := by
  unfold weight
  dsimp only
  split
  · rename_i h
    generalize (now : Int) - r.ctime = elapse at h ⊢
    rcases h with ⟨hhigh, hlow⟩
    have hsquare : elapse * elapse ≤ 293 * 293 :=
      Int.mul_le_mul (by omega) (by omega) (by omega) (by decide)
    have hnonneg : 0 ≤ elapse * elapse := Int.mul_nonneg (by omega) (by omega)
    omega
  · omega

/-!
## Clean entries come back
-/

def toJson (now : Nat) (r : Registry) : Json :=
  .object [("name", .string r.name), ("host", .string r.host), ("port", .int r.port),
    ("weight", .int (r.weight now))]

theorem parseValue_serialize {r : Registry} (hclean : r.CleanFields) (htyped : r.Typed)
    (now rounds : Nat) (t : List Char) :
    parseValue (rounds + 7) ((r.serialize now).toList ++ t) = some (r.toJson now, t) := by
  have hbounds := weight_bounds now r
  have hweight := readAs_int (n := r.weight now) (by omega) (by omega)
  rw [serialize_members, parseValue_object,
    parseMembers_next nameKey (List.all_iff_forall_prop.mp (by decide)) (readAs_string hclean.left)
      (skipWhitespace_memberText _ _ _),
    parseMembers_next hostKey (List.all_iff_forall_prop.mp (by decide)) (readAs_string hclean.right)
      (skipWhitespace_memberText _ _ _),
    parseMembers_next portKey (List.all_iff_forall_prop.mp (by decide))
      (readAs_int htyped.port.left htyped.port.right) (skipWhitespace_memberText _ _ _),
    parseMembers_last weightKey (List.all_iff_forall_prop.mp (by decide)) hweight]
  rfl

theorem restText_length (now : Nat) (v : List Registry) :
    v.length ≤ (restText now v).length := by
  induction v with
  | nil => exact Nat.le_refl _
  | cons r rest ih =>
      simp only [restText, List.length_cons, List.length_append]
      omega

theorem skipWhitespace_serialize (now : Nat) (r : Registry) (t : List Char) :
    skipWhitespace ((r.serialize now).toList ++ t) = (r.serialize now).toList ++ t := by
  rw [serialize_members]
  exact skipWhitespace_cons rfl _

theorem parseElements_serialize (now extra : Nat) {v : List Registry} {r : Registry}
    (hclean : forall s, s ∈ r :: v -> s.CleanFields) (htyped : forall s, s ∈ r :: v -> s.Typed) :
    parseElements (extra + v.length + 8)
        ((r.serialize now).toList ++ (restText now v ++ [']'])) =
      some ((r :: v).map (toJson now), []) := by
  induction v generalizing r with
  | nil =>
      have hvalue := parseValue_serialize (hclean r List.mem_cons_self)
        (htyped r List.mem_cons_self) now extra [']']
      rw [restText, List.nil_append]
      rw [parseElements]
      simp only [List.length_nil, Nat.add_zero, hvalue]
      rfl
  | cons s rest ih =>
      have hvalue := parseValue_serialize (hclean r List.mem_cons_self)
        (htyped r List.mem_cons_self) now (extra + (s :: rest).length)
        (restText now (s :: rest) ++ [']'])
      have htail := ih (r := s) (fun x hx => hclean x (List.mem_cons_of_mem _ hx))
        (fun x hx => htyped x (List.mem_cons_of_mem _ hx))
      have hcomma : skipWhitespace (restText now (s :: rest) ++ [']']) =
          ',' :: '\n' :: ((s.serialize now).toList ++ (restText now rest ++ [']'])) := by
        rw [restText]
        generalize (s.serialize now).toList = text
        rw [List.cons_append, List.cons_append, List.append_assoc]
        exact skipWhitespace_cons rfl _
      have hnewline : skipWhitespace
          ('\n' :: ((s.serialize now).toList ++ (restText now rest ++ [']']))) =
          (s.serialize now).toList ++ (restText now rest ++ [']']) := by
        rw [skipWhitespace_newline, skipWhitespace_serialize]
      have hrounds : extra + (s :: rest).length + 7 = extra + rest.length + 8 := by
        simp only [List.length_cons]
        omega
      rw [parseElements, hvalue]
      simp only [Option.bind_eq_bind, Option.bind_some, hcomma, hnewline, hrounds, htail]
      rfl

theorem ne_nul_of_numeric {c : Char} (h : numeric c = true) : c ≠ '\x00' := by
  intro heq
  rw [heq] at h
  cases h

theorem ne_nul_of_mem {l : List Char} (h : '\x00' ∉ l) {c : Char} (hc : c ∈ l) : c ≠ '\x00' :=
  fun heq => h (heq ▸ hc)

theorem serialize_ne_nul (now : Nat) {r : Registry} (htyped : r.Typed) {c : Char}
    (hc : c ∈ (r.serialize now).toList) : c ≠ '\x00' := by
  rw [<- List.append_nil (r.serialize now).toList, serialize_toList] at hc
  simp only [List.mem_append] at hc
  rcases hc with hc | hc | hc | hc | hc | hc | hc | hc | hc
  · exact ne_nul_of_mem (by decide) hc
  · exact htyped.name c hc
  · exact ne_nul_of_mem (by decide) hc
  · exact htyped.host c hc
  · exact ne_nul_of_mem (by decide) hc
  · exact ne_nul_of_numeric (numeric_toString hc)
  · exact ne_nul_of_mem (by decide) hc
  · exact ne_nul_of_numeric (numeric_toString hc)
  · exact ne_nul_of_mem (by decide) hc

theorem restText_ne_nul (now : Nat) {v : List Registry} (htyped : forall r, r ∈ v -> r.Typed)
    {c : Char} (hc : c ∈ restText now v) : c ≠ '\x00' := by
  induction v with
  | nil => cases hc
  | cons r rest ih =>
      have htext : restText now (r :: rest) =
          [',', '\n'] ++ ((r.serialize now).toList ++ restText now rest) := by
        rw [restText]
        generalize (r.serialize now).toList = text
        rfl
      rw [htext, List.mem_append, List.mem_append] at hc
      rcases hc with hc | hc | hc
      · exact ne_nul_of_mem (by decide) hc
      · exact serialize_ne_nul now (htyped r List.mem_cons_self) hc
      · exact ih (fun s hs => htyped s (List.mem_cons_of_mem _ hs)) hc

theorem serializeAll_ne_nul (now : Nat) {v : List Registry} (htyped : forall r, r ∈ v -> r.Typed)
    {c : Char} (hc : c ∈ (serializeAll now v).toList) : c ≠ '\x00' := by
  cases v with
  | nil =>
      rw [serializeAll_nil] at hc
      exact ne_nul_of_mem (by decide) hc
  | cons r rest =>
      rw [serializeAll_cons, List.mem_cons, List.mem_append, List.mem_append] at hc
      rcases hc with hc | hc | hc | hc
      · rw [hc]
        decide
      · exact serialize_ne_nul now (htyped r List.mem_cons_self) hc
      · exact restText_ne_nul now (fun s hs => htyped s (List.mem_cons_of_mem _ hs)) hc
      · exact ne_nul_of_mem (by decide) hc

theorem parse_serializeAll (now : Nat) {v : List Registry}
    (hclean : forall r, r ∈ v -> r.CleanFields) (htyped : forall r, r ∈ v -> r.Typed) :
    parse (serializeAll now v) = some (.array (v.map (toJson now))) := by
  unfold parse
  rw [takeWhile_ne_nul fun _ => serializeAll_ne_nul now htyped]
  cases v with
  | nil =>
      rw [serializeAll_nil]
      rfl
  | cons r rest =>
      have hrest := restText_length now rest
      have htwo := two_le_serialize_length now r
      rw [<- String.length_toList] at htwo
      have hlen : exists extra, 3 * ('[' :: ((r.serialize now).toList ++
          (restText now rest ++ [']']))).length = extra + rest.length + 8 + 2 := by
        simp only [List.length_cons, List.length_append, List.length_nil]
        exact ⟨3 * ((r.serialize now).toList.length + (restText now rest).length) + 6 -
          (rest.length + 10), by omega⟩
      rcases hlen with ⟨extra, hlen⟩
      have helements := parseElements_serialize now extra hclean htyped
      have harray : parseArray (extra + rest.length + 8 + 1) ((r.serialize now).toList ++
          (restText now rest ++ [']'])) =
          (parseElements (extra + rest.length + 8) ((r.serialize now).toList ++
            (restText now rest ++ [']']))).map fun q => (.array q.1, q.2) := by
        rw [serialize_members, parseArray, if_neg (by decide)]
      rw [serializeAll_cons, skipWhitespace_cons rfl, parseRoot, hlen, parseValue,
        if_neg (by decide), if_neg (by decide), if_neg (by decide), if_neg (by decide),
        if_neg (by decide), if_pos rfl, skipWhitespace_serialize, harray, helements]
      rfl

/-!
## Reading the entries back
-/

def readBack (now : Nat) (r : Registry) : Registry where
  name := r.name
  host := r.host
  port := r.port
  ctime := now
  mtime := now

theorem ofElement_toJson (sec now : Nat) (r : Registry) :
    ofElement now (r.toJson sec) = .ok (some (r.readBack now)) := by
  rfl

theorem ofElements_toJson (sec now : Nat) (v : List Registry) :
    ofElements now (v.map (toJson sec)) = .ok (v.map (readBack now)) := by
  induction v with
  | nil => rfl
  | cons r rest ih =>
      rw [List.map_cons, ofElements, ofElement_toJson, ih]
      rfl

theorem unserialize_serializeAll (sec now : Nat) {v : List Registry}
    (hclean : forall r, r ∈ v -> r.CleanFields) (htyped : forall r, r ∈ v -> r.Typed) :
    unserialize parse now (serializeAll sec v) = .ok (v.map (readBack now)) := by
  unfold unserialize
  rw [parse_serializeAll sec hclean htyped]
  exact ofElements_toJson sec now v

/-!
## Other entries do not come back
-/

def fieldsLength : List Registry -> Nat
  | [] => 0
  | r :: rest => r.name.length + r.host.length + fieldsLength rest

theorem lex_nameText (kept last : Nat) (t : List Char) :
    lex (.outside kept last) (nameText ++ t) = lex (.inside (kept + last) 0) t := by
  have hrun : lex (.outside kept last) nameText = some (.inside (kept + last) 0) := rfl
  rw [lex_append, hrun, Option.bind_some]

theorem lex_hostText {st st' : Lexed} {t : List Char} (h : lex st (hostText ++ t) = some st') :
    lex (.inside st.total 0) t = some st' := by
  rw [lex_append] at h
  cases st with
  | outside kept last =>
      have hrun : lex (.outside kept last) hostText = none := rfl
      rw [hrun] at h
      cases h
  | inside kept n =>
      have hrun : lex (.inside kept n) hostText = some (.inside (kept + n) 0) := rfl
      rw [hrun] at h
      exact h
  | escaped kept n =>
      have hrun : lex (.escaped kept n) hostText = none := rfl
      rw [hrun] at h
      cases h

theorem lex_portText {st st' : Lexed} {t : List Char} (h : lex st (portText ++ t) = some st') :
    lex (.outside st.total 0) t = some st' := by
  rw [lex_append] at h
  cases st with
  | outside kept last =>
      have hrun : lex (.outside kept last) portText = none := rfl
      rw [hrun] at h
      cases h
  | inside kept n =>
      have hrun : lex (.inside kept n) portText = some (.outside (kept + n) 0) := rfl
      rw [hrun] at h
      exact h
  | escaped kept n =>
      have hrun : lex (.escaped kept n) portText = none := rfl
      rw [hrun] at h
      cases h

theorem lex_weightText (kept : Nat) (t : List Char) :
    lex (.outside kept 0) (weightText ++ t) = lex (.outside kept 0) t := by
  have hrun : lex (.outside kept 0) weightText = some (.outside kept 0) := rfl
  rw [lex_append, hrun, Option.bind_some]

theorem lex_number (n : Int) (kept last : Nat) (t : List Char) :
    lex (.outside kept last) ((toString n).toList ++ t) = lex (.outside kept last) t :=
  lex_reads structural_of_numeric ⟨_, rfl, fun _ hc => numeric_toString hc⟩ kept last

theorem lex_field {kept : Nat} {s : String} {t : List Char} {st : Lexed}
    (h : lex (.inside kept 0) (s.toList ++ t) = some st) :
    exists st1, lex st1 t = some st ∧ st1.total ≤ kept + s.length ∧
      (¬ Clean s -> st1.total < kept + s.length) := by
  rw [lex_append] at h
  rcases Option.bind_eq_some_iff.mp h with ⟨st1, hfield, hrest⟩
  have htotal := lex_total hfield
  rw [String.length_toList] at htotal
  refine ⟨st1, hrest, htotal, ?_⟩
  intro hs
  have hless := lex_total_lt hfield hs
  rw [String.length_toList] at hless
  exact hless

theorem lex_serialize {now kept last : Nat} {r : Registry} {t : List Char} {st : Lexed}
    (h : lex (.outside kept last) ((r.serialize now).toList ++ t) = some st) :
    exists kept', lex (.outside kept' 0) t = some st ∧
      kept' ≤ kept + last + r.name.length + r.host.length ∧
      (¬ r.CleanFields -> kept' < kept + last + r.name.length + r.host.length) := by
  rw [serialize_toList, lex_nameText] at h
  rcases lex_field h with ⟨st1, h1, hle1, hlt1⟩
  rcases lex_field (lex_hostText h1) with ⟨st2, h2, hle2, hlt2⟩
  have h3 := lex_portText h2
  rw [lex_number, lex_weightText, lex_number] at h3
  refine ⟨st2.total, h3, by omega, ?_⟩
  intro hdirty
  by_cases hname : Clean r.name
  · have hhost : ¬ Clean r.host := fun hhost => hdirty ⟨hname, hhost⟩
    have hless := hlt2 hhost
    omega
  · have hless := hlt1 hname
    omega

theorem dirty_rest {r : Registry} {rest : List Registry}
    (hdirty : exists s, s ∈ r :: rest ∧ ¬ s.CleanFields) (hr : r.CleanFields) :
    exists s, s ∈ rest ∧ ¬ s.CleanFields := by
  rcases hdirty with ⟨s, hs, hsdirty⟩
  rcases List.mem_cons.mp hs with rfl | hs
  · exact absurd hr hsdirty
  · exact ⟨s, hs, hsdirty⟩

theorem lex_separator (kept : Nat) (text t : List Char) :
    lex (.outside kept 0) (',' :: '\n' :: text ++ t) = lex (.outside kept 0) (text ++ t) := by
  rfl

theorem lex_restText {now kept : Nat} {v : List Registry} {t : List Char} {st : Lexed}
    (h : lex (.outside kept 0) (restText now v ++ t) = some st) :
    exists kept', lex (.outside kept' 0) t = some st ∧ kept' ≤ kept + fieldsLength v ∧
      ((exists r, r ∈ v ∧ ¬ r.CleanFields) -> kept' < kept + fieldsLength v) := by
  induction v generalizing kept with
  | nil => exact ⟨kept, h, Nat.le_refl _, by simp⟩
  | cons r rest ih =>
      have hentry : lex (.outside kept 0)
          ((r.serialize now).toList ++ (restText now rest ++ t)) = some st := by
        rw [restText, lex_separator, List.append_assoc] at h
        exact h
      rcases lex_serialize hentry with ⟨kept1, h1, hle1, hlt1⟩
      rcases ih h1 with ⟨kept2, h2, hle2, hlt2⟩
      refine ⟨kept2, h2, ?_, ?_⟩
      · simp only [fieldsLength]
        omega
      · intro hdirty
        simp only [fieldsLength]
        by_cases hr : r.CleanFields
        · have hless := hlt2 (dirty_rest hdirty hr)
          omega
        · have hless := hlt1 hr
          omega

/-- The text of a list counts for its names and hosts, and for less where one is not clean. -/
theorem lex_serializeAll {now kept last : Nat} {v : List Registry}
    (h : lex (.outside 0 0) (serializeAll now v).toList = some (.outside kept last))
    (hdirty : exists r, r ∈ v ∧ ¬ r.CleanFields) : kept + last < fieldsLength v := by
  cases v with
  | nil =>
      rcases hdirty with ⟨r, hr, _⟩
      cases hr
  | cons r rest =>
      rw [serializeAll_cons, lex, lexStep_structural (by decide), Option.bind_some] at h
      rcases lex_serialize h with ⟨kept1, h1, hle1, hlt1⟩
      rcases lex_restText h1 with ⟨kept2, h2, hle2, hlt2⟩
      have hend : lex (.outside kept2 0) [']'] = some (.outside kept2 0) := rfl
      rw [hend] at h2
      cases h2
      simp only [fieldsLength]
      by_cases hr : r.CleanFields
      · have hless := hlt2 (dirty_rest hdirty hr)
        omega
      · have hless := hlt1 hr
        omega

theorem held_find_le {ms : List (String × Json)} {a : String} {x : String × Json}
    (hx : ms.find? (fun m => m.1 == a) = some x) : x.2.held ≤ Json.heldMembers ms := by
  induction ms with
  | nil => cases hx
  | cons m rest ih =>
      rw [List.find?_cons] at hx
      simp only [Json.heldMembers]
      split at hx
      · cases hx
        exact Nat.le_add_right _ _
      · exact Nat.le_trans (ih hx) (Nat.le_add_left _ _)

theorem held_find {ms : List (String × Json)} {a b : String} (hab : a ≠ b)
    {x y : String × Json} (hx : ms.find? (fun m => m.1 == a) = some x)
    (hy : ms.find? (fun m => m.1 == b) = some y) :
    x.2.held + y.2.held ≤ Json.heldMembers ms := by
  induction ms with
  | nil => cases hx
  | cons m rest ih =>
      rw [List.find?_cons] at hx hy
      simp only [Json.heldMembers]
      by_cases hma : m.1 = a
      · have hmb : (m.1 == b) = false := by
          simpa [hma] using hab
        rw [hmb] at hy
        simp only [hma, beq_self_eq_true, Option.some.injEq] at hx
        subst hx
        exact Nat.add_le_add_left (held_find_le hy) _
      · simp only [beq_eq_false_iff_ne.mpr hma] at hx
        by_cases hmb : m.1 = b
        · simp only [hmb, beq_self_eq_true, Option.some.injEq] at hy
          subst hy
          have hle := held_find_le hx
          omega
        · simp only [beq_eq_false_iff_ne.mpr hmb] at hy
          exact Nat.le_trans (ih hx hy) (Nat.le_add_left _ _)

theorem ofElement_held {now : Nat} {e : Json} {r : Registry}
    (h : ofElement now e = .ok (some r)) : r.name.length + r.host.length ≤ e.held := by
  cases e with
  | object ms =>
      unfold ofElement at h
      simp only [Json.hasMember, Json.member, Json.findMember] at h
      cases hname : ms.find? (fun m => m.1 == "name") with
      | none =>
          rw [hname] at h
          cases h
      | some x =>
          cases hhost : ms.find? (fun m => m.1 == "host") with
          | none =>
              rw [hname, hhost] at h
              cases h
          | some y =>
              have hheld := held_find (by decide) hname hhost
              cases hport : ms.find? (fun m => m.1 == "port") with
              | none =>
                  rw [hname, hhost, hport] at h
                  cases h
              | some z =>
                  rw [hname, hhost, hport] at h
                  rcases x with ⟨xkey, xv⟩
                  rcases y with ⟨ykey, yv⟩
                  rcases z with ⟨zkey, zv⟩
                  cases xv with
                  | string name =>
                      cases yv with
                      | string host =>
                          cases zv with
                          | int n =>
                              cases h
                              exact hheld
                          | string port =>
                              cases h
                              exact hheld
                          | _ => cases h
                      | _ => cases h
                  | _ => cases h
  | _ => cases h

theorem ofElements_held {now : Nat} {es : List Json} {w : List Registry}
    (h : ofElements now es = .ok w) : fieldsLength w ≤ Json.heldElements es := by
  induction es generalizing w with
  | nil =>
      cases h
      exact Nat.le_refl _
  | cons e rest ih =>
      rw [ofElements] at h
      cases hhead : ofElement now e with
      | error stop =>
          rw [hhead] at h
          cases h
      | ok head =>
          rw [hhead] at h
          cases htail : ofElements now rest with
          | error stop =>
              rw [htail] at h
              cases h
          | ok tail =>
              rw [htail] at h
              have hle := ih htail
              cases head with
              | none =>
                  cases h
                  exact Nat.le_trans hle (Nat.le_add_left _ _)
              | some r =>
                  have hentry := ofElement_held hhead
                  cases h
                  show r.name.length + r.host.length + fieldsLength tail ≤
                    e.held + Json.heldElements rest
                  omega

/-!
## The round trip
-/

def ComesBack (sec now : Nat) (v : List Registry) : Prop :=
  exists w, unserialize parse now (serializeAll sec v) = .ok w ∧
    w.map endpoint = v.map endpoint

theorem fieldsLength_congr {v w : List Registry} (h : w.map endpoint = v.map endpoint) :
    fieldsLength w = fieldsLength v := by
  induction v generalizing w with
  | nil => rw [List.map_eq_nil_iff.mp h]
  | cons r rest ih =>
      cases w with
      | nil => cases h
      | cons s tail =>
          rcases List.cons.inj h with ⟨hhead, htail⟩
          have hname : s.name = r.name := congrArg Endpoint.name hhead
          have hhost : s.host = r.host := congrArg Endpoint.host hhead
          rw [fieldsLength, fieldsLength, ih htail, hname, hhost]

theorem clean_of_comesBack {sec now : Nat} {v : List Registry}
    (htyped : forall r, r ∈ v -> r.Typed) (h : ComesBack sec now v) :
    forall r, r ∈ v -> r.CleanFields := by
  intro r hr
  by_contra hdirty
  rcases h with ⟨w, hread, hsame⟩
  unfold unserialize at hread
  cases hparse : parse (serializeAll sec v) with
  | none =>
      rw [hparse] at hread
      cases hread
      have hnil : v = [] := List.map_eq_nil_iff.mp hsame.symm
      rw [hnil] at hr
      cases hr
  | some root =>
      rcases parse_lexes hparse (fun c => serializeAll_ne_nul sec htyped) with
        ⟨kept, last, hheld, hlex⟩
      have hless := lex_serializeAll hlex ⟨r, hr, hdirty⟩
      have hfields : fieldsLength w ≤ root.held := by
        rw [hparse] at hread
        cases root with
        | array es => exact ofElements_held hread
        | _ =>
            cases hread
            exact Nat.zero_le _
      rw [fieldsLength_congr hsame] at hfields
      omega

/--
A list of entries comes back from its text exactly when no name and no host
has a quote, a backslash or a control character.
-/
theorem comesBack_iff_clean (sec now : Nat) (v : List Registry)
    (htyped : forall r, r ∈ v -> r.Typed) :
    ComesBack sec now v <-> forall r, r ∈ v -> r.CleanFields := by
  constructor
  · exact clean_of_comesBack htyped
  · intro hclean
    refine ⟨v.map (readBack now), unserialize_serializeAll sec now hclean htyped, ?_⟩
    rw [List.map_map]
    rfl

section Example

private def plainEntry : Registry where
  name := "a"
  host := "h1"
  port := 1
  mtime := 0

/-- A host that ends its own string and goes on as JSON. -/
private def forgedEntry : Registry where
  name := "a"
  host := "h2\",\"port\":2\x7d,\x7b\"name\":\"b\",\"host\":\"h3"
  port := 3
  mtime := 0

/-- Two entries come back as three. -/
theorem forged_text :
    ¬ forall (sec now : Nat) (v : List Registry), (forall r, r ∈ v -> r.Typed) ->
      ComesBack sec now v := by
  intro h
  have htyped : forall r, r ∈ [plainEntry, forgedEntry] -> r.Typed := by
    intro r hr
    simp only [List.mem_cons, List.not_mem_nil, or_false] at hr
    rcases hr with rfl | rfl
    · exact ⟨fun _ => ne_nul_of_mem (by decide +kernel), fun _ => ne_nul_of_mem (by decide +kernel),
      by decide⟩
    · exact ⟨fun _ => ne_nul_of_mem (by decide +kernel), fun _ => ne_nul_of_mem (by decide +kernel),
      by decide⟩
  rcases h 0 0 [plainEntry, forgedEntry] htyped with ⟨w, hread, hsame⟩
  have hthree : (unserialize parse 0 (serializeAll 0 [plainEntry, forgedEntry])).map List.length =
      .ok 3 := by
    decide +kernel
  rw [hread] at hthree
  have hlen := congrArg List.length hsame
  simp only [List.length_map] at hlen
  have htwo : w.length = 2 := hlen
  rw [Except.map, htwo] at hthree
  cases hthree

private def secondEntry : Registry :=
  { plainEntry with host := "h2", port := -2 }

private def otherEntry : Registry :=
  { plainEntry with name := "b/c", port := 65535 }

/-- Entries without a character that JSON escapes. -/
theorem plain_text : ComesBack 0 0 [plainEntry, secondEntry, otherEntry] := by
  apply (comesBack_iff_clean 0 0 [plainEntry, secondEntry, otherEntry] ?_).mpr
  · decide +kernel
  · intro r hr
    simp only [List.mem_cons, List.not_mem_nil, or_false] at hr
    rcases hr with rfl | rfl | rfl
    · exact ⟨fun _ => ne_nul_of_mem (by decide +kernel), fun _ => ne_nul_of_mem (by decide +kernel),
        by decide⟩
    · exact ⟨fun _ => ne_nul_of_mem (by decide +kernel), fun _ => ne_nul_of_mem (by decide +kernel),
        by decide⟩
    · exact ⟨fun _ => ne_nul_of_mem (by decide +kernel), fun _ => ne_nul_of_mem (by decide +kernel),
        by decide⟩

end Example

end Registry

end FrProxy
