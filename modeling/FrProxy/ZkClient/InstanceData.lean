import FrProxy.Registry.Elements
import FrProxy.ZkClient.Tree

/-!
# The data of an instance

An instance writes its host and its port into its znode as it likes.  What
`get_service_instance` makes of these bytes is compared with what they say.
-/

namespace FrProxy

open KeyedList

/-!
## Ports
-/

def decimalDigits (ds : List Char) : Option Nat :=
  if ds ≠ [] ∧ ds.all Char.isDigit = true then some (digits 0 ds) else none

/-- The number that a decimal string stands for, with or without a sign. -/
def decimal (s : String) : Option Int :=
  match s.toList with
  | '-' :: ds => (decimalDigits ds).map fun n : Nat => -(n : Int)
  | '+' :: ds => (decimalDigits ds).map fun n : Nat => (n : Int)
  | ds => (decimalDigits ds).map fun n : Nat => (n : Int)

def decimalPort : Json -> Option Int
  | .int n => some n
  | .string s => (decimal s).filter fun n => decide (-2 ^ 31 ≤ n ∧ n < 2 ^ 31)
  | _ => none

theorem toInt_of_range {n : Int} (hlow : -2 ^ 31 ≤ n) (hhigh : n < 2 ^ 31) : toInt n = n := by
  unfold toInt
  rw [Int.bmod_def]
  omega

theorem decimalDigits_head {c : Char} {ds : List Char} {n : Nat}
    (h : decimalDigits (c :: ds) = some n) : c.isDigit = true := by
  unfold decimalDigits at h
  split at h
  · rename_i hdigits
    have hall := hdigits.right
    rw [List.all_cons, Bool.and_eq_true] at hall
    exact hall.left
  · cases h

theorem decimalDigits_eq {ds : List Char} {n : Nat} (h : decimalDigits ds = some n) :
    digits 0 ds = n := by
  unfold decimalDigits at h
  split at h
  · exact Option.some.inj h
  · cases h

theorem not_isSpace_of_isDigit {c : Char} (h : c.isDigit = true) : isSpace c = false := by
  have hlow : 48 ≤ c.toNat := by
    simp only [Char.isDigit, Bool.and_eq_true, decide_eq_true_eq] at h
    exact h.left
  by_contra hspace
  simp only [isSpace, Bool.not_eq_false, Bool.or_eq_true, beq_iff_eq, Bool.and_eq_true,
    decide_eq_true_eq] at hspace
  rcases hspace with rfl | ⟨_, hhigh⟩
  · exact absurd hlow (by decide)
  · have hle : c.toNat ≤ '\r'.toNat := hhigh
    exact absurd (Nat.le_trans hlow hle) (by decide)

theorem atol_of_digits {s : String} {n : Nat} (h : decimalDigits s.toList = some n) :
    atol s = min (2 ^ 63 - 1) (n : Int) := by
  unfold atol
  cases hs : s.toList with
  | nil =>
      rw [hs] at h
      cases h
  | cons c ds =>
      rw [hs] at h
      have hdigit := decimalDigits_head h
      have hminus : c ≠ '-' := fun heq => absurd (heq ▸ hdigit) (by decide)
      have hplus : c ≠ '+' := fun heq => absurd (heq ▸ hdigit) (by decide)
      rw [List.dropWhile_cons_of_neg (by rw [not_isSpace_of_isDigit hdigit]; exact Bool.noConfusion)]
      split
      · rename_i heq
        exact absurd (List.cons.inj heq).left hminus
      · rename_i heq
        exact absurd (List.cons.inj heq).left hplus
      · rw [decimalDigits_eq h]

theorem atol_of_decimal {s : String} {n : Int} (h : decimal s = some n) (hlow : -2 ^ 31 ≤ n)
    (hhigh : n < 2 ^ 31) : atol s = n := by
  unfold decimal at h
  split at h
  · rename_i ds hs
    rcases Option.map_eq_some_iff.mp h with ⟨m, hm, rfl⟩
    unfold atol
    rw [hs, List.dropWhile_cons_of_neg (by decide)]
    show max (-2 ^ 63) (-(digits 0 ds : Int)) = -m
    rw [decimalDigits_eq hm]
    omega
  · rename_i ds hs
    rcases Option.map_eq_some_iff.mp h with ⟨m, hm, rfl⟩
    unfold atol
    rw [hs, List.dropWhile_cons_of_neg (by decide)]
    show min (2 ^ 63 - 1) (digits 0 ds : Int) = m
    rw [decimalDigits_eq hm]
    omega
  · rcases Option.map_eq_some_iff.mp h with ⟨m, hm, rfl⟩
    rw [atol_of_digits hm]
    omega

theorem portOf_of_decimalPort {port : Json} {n : Int} (h : decimalPort port = some n) :
    Registry.portOf port = some n := by
  cases port with
  | int m => exact h
  | string s =>
      rcases Option.filter_eq_some_iff.mp h with ⟨hdecimal, hrange⟩
      rcases of_decide_eq_true hrange with ⟨hlow, hhigh⟩
      show some (toInt (atol s)) = some n
      rw [atol_of_decimal hdecimal hlow hhigh, toInt_of_range hlow hhigh]
  | _ => cases h

/-!
## Endpoints in the data
-/

/-- The members `host` and `port` of `serviceEndpoint`. -/
def offered (root : Option Json) : Option (Json × Json) := do
  let v <- (<- root).lookup "serviceEndpoint"
  let host <- v.lookup "host"
  let port <- v.lookup "port"
  return (host, port)

def endpointIn (root : Option Json) : Option (String × Int) := do
  let (host, port) <- offered root
  let host <- host.text
  let port <- decimalPort port
  if host = "" then none else return (host, port)

theorem endpointIn_eq_some {root : Option Json} {s : String} {n : Int} :
    endpointIn root = some (s, n) <-> exists host port, offered root = some (host, port) ∧
      host.text = some s ∧ decimalPort port = some n ∧ s ≠ "" := by
  unfold endpointIn
  cases offered root with
  | none => simp
  | some members =>
      rcases members with ⟨host, port⟩
      cases hs : host.text with
      | none => simp [hs]
      | some t =>
          cases hn : decimalPort port with
          | none => simp [hs, hn]
          | some m =>
              by_cases ht : t = ""
              · subst ht
                simp +contextual [hs, hn, eq_comm]
              · have hne : t = s -> s ≠ "" := fun heq => heq ▸ ht
                simp +contextual [hs, hn, ht, hne]

/-- The text that a read gets: what comes before the first NUL byte in the buffer. -/
def cText (data : String) : String :=
  String.ofList ((data.toList.take 256).takeWhile fun b => b != '\x00')

theorem cString_ok_iff {data text : String} :
    cString data = .ok text <->
      (data.toList.length < 256 ∨ '\x00' ∈ data.toList.take 256) ∧ text = cText data := by
  unfold cString cText
  dsimp only
  have hfull : (data.toList.take 256).length = 256 <-> ¬ data.toList.length < 256 := by
    rw [List.length_take]
    omega
  by_cases hcut : (data.toList.take 256).length = 256 ∧ '\x00' ∉ data.toList.take 256
  · rw [if_pos hcut]
    have hnot : ¬ (data.toList.length < 256 ∨ '\x00' ∈ data.toList.take 256) := by
      rw [not_or]
      exact ⟨hfull.mp hcut.left, hcut.right⟩
    simp only [hnot, false_and, reduceCtorEq]
  · rw [if_neg hcut]
    have hfits : data.toList.length < 256 ∨ '\x00' ∈ data.toList.take 256 := by
      by_contra hnot
      rw [not_or] at hnot
      exact hcut ⟨hfull.mpr hnot.left, hnot.right⟩
    simp only [hfits, true_and, Except.ok.injEq]
    exact eq_comm

theorem cText_eq {data : String} (hnul : '\x00' ∉ data.toList)
    (hterminated : data.toList.length < 256 ∨ '\x00' ∈ data.toList.take 256) :
    cText data = data := by
  have hshort : data.toList.length < 256 :=
    hterminated.resolve_right fun h => hnul (List.mem_of_mem_take h)
  have hall : (data.toList.takeWhile fun b => b != '\x00') = data.toList := by
    apply List.takeWhile_eq_self_iff.mpr
    intro b hb
    have hne : b ≠ '\x00' := fun h => hnul (h ▸ hb)
    simpa using hne
  unfold cText
  rw [List.take_of_length_le (Nat.le_of_lt hshort), hall, String.ofList_toList]

theorem serviceEndpoint_eq (root : Option Json)
    (hobject : forall d, root = some d -> d.isObject = true) :
    serviceEndpoint root =
      match offered root with
      | none => .ok ("", 0)
      | some (host, port) => do
          let host <- host.getString
          return (host, (Registry.portOf port).getD 0) := by
  cases root with
  | none => rfl
  | some d =>
      unfold serviceEndpoint offered
      simp only [Json.hasMember_of_isObject (hobject d rfl), ok_bind, Option.bind_eq_bind,
        Option.bind_some]
      cases hv : d.lookup "serviceEndpoint" with
      | none => rfl
      | some v =>
          simp only [Json.member_of_lookup hv, ok_bind, Option.isSome_some, if_true,
            Option.bind_some]
          cases hvobject : v.isObject with
          | false =>
              have hnone : v.lookup "host" = none := by
                cases v with
                | object members => cases hvobject
                | _ => rfl
              rw [hnone]
              rfl
          | true =>
              simp only [Json.hasMember_of_isObject hvobject, ok_bind, if_true]
              cases hhost : v.lookup "host" with
              | none => rfl
              | some host =>
                  cases hport : v.lookup "port" with
                  | none => rfl
                  | some port =>
                      simp only [Json.member_of_lookup hhost, Json.member_of_lookup hport,
                        ok_bind, Option.isSome_some, Bool.and_self, if_true, Option.bind_some,
                        Option.pure_def]
                      cases host.getString with
                      | error stop => rfl
                      | ok host => cases port <;> rfl

theorem serviceEndpoint_of_not_isObject {d : Json} (h : d.isObject = false) :
    serviceEndpoint (some d) = .error .assertion := by
  show (do if <- d.hasMember "serviceEndpoint" then _ else _) = _
  rw [Json.hasMember_of_not_isObject h]
  rfl

/-- The getters work on the data of an instance. -/
structure Gettable (parse : String -> Option Json) (data : String) : Prop where
  terminated : data.toList.length < 256 ∨ '\x00' ∈ data.toList.take 256
  object : forall root, parse (cText data) = some root -> root.isObject = true
  string : forall host port, offered (parse (cText data)) = some (host, port) ->
    host.text.isSome = true

def gotten (root : Option Json) : String × Int :=
  match offered root with
  | some (host, port) => (host.text.getD "", (Registry.portOf port).getD 0)
  | none => ("", 0)

theorem readEndpoint_ok_iff {env : Env} {data : String} {endpoint : String × Int} :
    env.readEndpoint data = .ok endpoint <->
      Gettable env.parse data ∧ endpoint = gotten (env.parse (cText data)) := by
  unfold Env.readEndpoint
  cases hcut : cString data with
  | error stop =>
      rw [error_bind]
      constructor
      · intro h
        cases h
      · intro h
        have hcut' := cString_ok_iff.mpr ⟨h.left.terminated, rfl⟩
        rw [hcut] at hcut'
        cases hcut'
  | ok text =>
      rcases cString_ok_iff.mp hcut with ⟨hterminated, rfl⟩
      rw [ok_bind]
      by_cases hobject : forall d, env.parse (cText data) = some d -> d.isObject = true
      · rw [serviceEndpoint_eq _ hobject]
        unfold gotten
        cases hoffered : offered (env.parse (cText data)) with
        | none =>
            have hgettable : Gettable env.parse data :=
              ⟨hterminated, hobject, fun _ _ h => by rw [hoffered] at h; cases h⟩
            simp [hgettable, eq_comm]
        | some members =>
            cases hs : members.1.text with
            | none =>
                have hnot : ¬ Gettable env.parse data := by
                  intro h
                  have hsome := h.string members.1 members.2 hoffered
                  rw [hs] at hsome
                  cases hsome
                simp [Json.getString_eq, hs, hnot]
            | some s =>
                have hgettable : Gettable env.parse data := by
                  refine ⟨hterminated, hobject, ?_⟩
                  intro host port h
                  rw [hoffered] at h
                  cases h
                  rw [hs]
                  rfl
                simp [Json.getString_eq, hs, hgettable, eq_comm]
      · have hnot : ¬ Gettable env.parse data := fun h => hobject h.object
        rw [not_forall] at hobject
        rcases hobject with ⟨d, hd⟩
        rw [Classical.not_imp, Bool.not_eq_true] at hd
        rw [hd.left, serviceEndpoint_of_not_isObject hd.right]
        simp [hnot]

theorem gotten_of_offered {root : Option Json} {host port : Json} {s : String}
    (h : offered root = some (host, port)) (hs : host.text = some s) :
    gotten root = (s, (Registry.portOf port).getD 0) := by
  unfold gotten
  rw [h]
  simp [hs]

theorem offered_of_gotten {root : Option Json} (h : (gotten root).1 ≠ "") :
    exists host port, offered root = some (host, port) ∧ host.text = some (gotten root).1 := by
  unfold gotten at h ⊢
  cases hoffered : offered root with
  | none =>
      rw [hoffered] at h
      exact absurd rfl h
  | some members =>
      rw [hoffered] at h
      cases hs : members.1.text with
      | none =>
          simp [hs] at h
      | some s => exact ⟨members.1, members.2, rfl, by simp [hs]⟩

theorem gotten_of_endpointIn {parse : String -> Option Json} {data : String}
    (h : Gettable parse data) {endpoint : String × Int}
    (hdata : endpointIn (jsonValue parse data) = some endpoint) :
    gotten (parse (cText data)) = endpoint ∧ endpoint.1 ≠ "" := by
  unfold jsonValue at hdata
  by_cases hnul : '\x00' ∈ data.toList
  · rw [if_pos hnul] at hdata
    cases hdata
  · rw [if_neg hnul, <- cText_eq hnul h.terminated] at hdata
    rcases endpointIn_eq_some.mp hdata with ⟨host, port, hoffered, hs, hn, hne⟩
    rw [gotten_of_offered hoffered hs, portOf_of_decimalPort hn]
    exact ⟨rfl, hne⟩

theorem endpointIn_isSome_iff {parse : String -> Option Json} {data : String}
    (h : Gettable parse data) {host port : Json} {s : String}
    (hoffered : offered (parse (cText data)) = some (host, port)) (hs : host.text = some s)
    (hne : s ≠ "") :
    (endpointIn (jsonValue parse data)).isSome = true <->
      '\x00' ∉ data.toList ∧ (decimalPort port).isSome = true := by
  unfold jsonValue
  by_cases hnul : '\x00' ∈ data.toList
  · rw [if_pos hnul]
    exact iff_of_false (fun hsome => nomatch hsome) fun hdata => hdata.left hnul
  · rw [if_neg hnul, and_iff_right hnul]
    rw [cText_eq hnul h.terminated] at hoffered
    simp only [Option.isSome_iff_exists, Prod.exists, endpointIn_eq_some]
    constructor
    · intro hdata
      rcases hdata with ⟨_, n, _, port', hoffered', _, hn, _⟩
      rw [hoffered] at hoffered'
      cases hoffered'
      exact ⟨n, hn⟩
    · intro hdata
      rcases hdata with ⟨n, hn⟩
      exact ⟨s, n, host, port, hoffered, hs, hn, hne⟩

/-!
## One read
-/

/-- The cache has one entry for the endpoint in the data, or nothing new. -/
def Reflects (cache cache' : RegistryCache) (service node : String) :
    Option (String × Int) -> Prop
  | some (host, port) => exists reg,
      (cache'.list service).filter
        (fun r => decide (r.endpoint = { name := service, host, port })) = [reg] ∧
      reg.ephemeral = node
  | none => cache' = cache

def readEntry (service node : String) (data : NodeData) (mtime : Nat) (endpoint : String × Int) :
    Registry where
  name := service
  host := endpoint.1
  port := endpoint.2
  ctime := data.ctime / 1000
  mtime
  ephemeral := node

/--
The getters work on the data, and an entry is made only of an endpoint that the
data have, or once more of the entry that is the last one of its list.
-/
structure Digestible (parse : String -> Option Json) (cache : RegistryCache)
    (service node : String) (data : NodeData) (mtime : Nat) : Prop where
  gettable : Gettable parse data.data
  named : (endpointIn (jsonValue parse data.data)).isSome = true -> service ≠ "" ∧ node ≠ ""
  clean : forall host port s, offered (parse (cText data.data)) = some (host, port) ->
    host.text = some s -> s ≠ "" -> service ≠ "" -> node ≠ "" ->
    ('\x00' ∉ data.data.toList ∧ (decimalPort port).isSome = true) ∨
      (cache.list service).getLast? =
        some (readEntry service node data mtime (s, (Registry.portOf port).getD 0))

theorem accepts_readEntry {service node : String} {data : NodeData} {mtime : Nat}
    {endpoint : String × Int} :
    RMap.accepts (readEntry service node data mtime endpoint) = true <->
      service ≠ "" ∧ endpoint.1 ≠ "" ∧ node ≠ "" := by
  simp [RMap.accepts, readEntry, and_assoc]

theorem add_of_not_accepts {cache : RegistryCache} {reg : Registry}
    (h : ¬ RMap.accepts reg = true) : cache.add reg = cache :=
  RegistryCache.ext_cache (RMap.add_of_not_accepts (Bool.not_eq_true _ ▸ h))

theorem reflects_add {cache : RegistryCache} {service node : String} {data : NodeData}
    {mtime : Nat} {endpoint : String × Int}
    (h : RMap.accepts (readEntry service node data mtime endpoint) = true) :
    Reflects cache (cache.add (readEntry service node data mtime endpoint)) service node
      (some endpoint) := by
  refine ⟨readEntry service node data mtime endpoint, ?_, rfl⟩
  rw [RegistryCache.list_add, if_pos ⟨h, rfl⟩]
  exact filter_touch_self Registry.endpoint _ (readEntry service node data mtime endpoint)

theorem names_of_reflects {cache : RegistryCache} {service node : String}
    {endpoint : String × Int} (h : Reflects cache cache service node (some endpoint)) :
    service ≠ "" ∧ node ≠ "" := by
  rcases h with ⟨reg, hfilter, hephemeral⟩
  have hmem : reg ∈ cache.list service := by
    apply List.mem_of_mem_filter (p := fun r => decide
      (r.endpoint = { name := service, host := endpoint.1, port := endpoint.2 }))
    rw [hfilter]
    exact List.mem_singleton_self reg
  have haccepted := (cache.filed service).accepted reg hmem
  have hname := (cache.filed service).named reg hmem
  simp [RMap.accepts, hname, hephemeral] at haccepted
  exact ⟨haccepted.left.left, haccepted.right⟩

section Reflected

variable {parse : String -> Option Json} {cache : RegistryCache} {service node : String}
  {data : NodeData} {mtime : Nat} (h : Gettable parse data.data)

include h in
theorem reflects_iff_of_accepts (hacc : RMap.accepts
      (readEntry service node data mtime (gotten (parse (cText data.data)))) = true) :
    Reflects cache
        (cache.add (readEntry service node data mtime (gotten (parse (cText data.data)))))
        service node (endpointIn (jsonValue parse data.data)) <->
      Digestible parse cache service node data mtime := by
  rcases accepts_readEntry.mp hacc with ⟨hservice, hhost, hnode⟩
  rcases offered_of_gotten hhost with ⟨host, port, hoffered, hs⟩
  have hsome := endpointIn_isSome_iff h hoffered hs hhost
  cases hdata : endpointIn (jsonValue parse data.data) with
  | some endpoint =>
      rw [hdata] at hsome
      rw [(gotten_of_endpointIn h hdata).left] at hacc ⊢
      apply iff_of_true (reflects_add hacc)
      refine ⟨h, fun _ => ⟨hservice, hnode⟩, ?_⟩
      intro host' port' s' hoffered' _ _ _ _
      rw [hoffered] at hoffered'
      cases hoffered'
      exact Or.inl (hsome.mp rfl)
  | none =>
      rw [hdata] at hsome
      have hgotten := gotten_of_offered hoffered hs
      refine (RegistryCache.add_eq_self_iff hacc).trans ?_
      constructor
      · intro hlast
        refine ⟨h, fun hwf => ?_, ?_⟩
        · rw [hdata] at hwf
          cases hwf
        · intro host' port' s' hoffered' hs' _ _ _
          rw [gotten_of_offered hoffered' hs'] at hlast
          exact Or.inr hlast
      · intro hdigestible
        have hclean := hdigestible.clean host port _ hoffered hs hhost hservice hnode
        rw [hgotten]
        exact hclean.resolve_left fun hwf => nomatch hsome.mpr hwf

include h in
theorem reflects_iff_of_not_accepts (hacc : ¬ RMap.accepts
      (readEntry service node data mtime (gotten (parse (cText data.data)))) = true) :
    Reflects cache
        (cache.add (readEntry service node data mtime (gotten (parse (cText data.data)))))
        service node (endpointIn (jsonValue parse data.data)) <->
      Digestible parse cache service node data mtime := by
  rw [add_of_not_accepts hacc]
  cases hdata : endpointIn (jsonValue parse data.data) with
  | some endpoint =>
      have hnames : ¬ (service ≠ "" ∧ node ≠ "") := by
        intro hnames
        rcases gotten_of_endpointIn h hdata with ⟨heq, hhost⟩
        exact hacc (accepts_readEntry.mpr ⟨hnames.left, heq ▸ hhost, hnames.right⟩)
      apply iff_of_false
      · exact fun hreflects => hnames (names_of_reflects hreflects)
      · intro hdigestible
        apply hnames
        apply hdigestible.named
        rw [hdata]
        rfl
  | none =>
      apply iff_of_true rfl
      refine ⟨h, fun hwf => ?_, ?_⟩
      · rw [hdata] at hwf
        cases hwf
      · intro host port s hoffered hs hne hservice hnode
        apply absurd _ hacc
        rw [gotten_of_offered hoffered hs]
        exact accepts_readEntry.mpr ⟨hservice, hne, hnode⟩

include h in
/-- The cache after the getters got an endpoint reflects the data in exactly these cases. -/
theorem reflects_iff :
    Reflects cache
        (cache.add (readEntry service node data mtime (gotten (parse (cText data.data)))))
        service node (endpointIn (jsonValue parse data.data)) <->
      Digestible parse cache service node data mtime := by
  by_cases hacc : RMap.accepts
      (readEntry service node data mtime (gotten (parse (cText data.data)))) = true
  · exact reflects_iff_of_accepts h hacc
  · exact reflects_iff_of_not_accepts h hacc

end Reflected

/-!
## Texts of instances
-/

def endpointText (host port : String) : String :=
  "\x7b\"serviceEndpoint\":\x7b\"host\":\"" ++ host ++ "\",\"port\":" ++ port ++ "\x7d\x7d"

def endpointJson (host : String) (port : Int) : Json :=
  .object [("serviceEndpoint", .object [("host", .string host), ("port", .int port)])]

def isEndpointJson (host : String) (port : Int) : Option Json -> Bool
  | some (.object [(key, .object [(hostKey, .string h), (portKey, .int n)])]) =>
      decide (key = "serviceEndpoint" ∧ hostKey = "host" ∧ h = host ∧ portKey = "port" ∧ n = port)
  | _ => false

theorem eq_endpointJson {json : Option Json} {host : String} {port : Int}
    (hshape : isEndpointJson host port json = true) : json = some (endpointJson host port) := by
  unfold isEndpointJson at hshape
  split at hshape
  · rcases of_decide_eq_true hshape with ⟨rfl, rfl, rfl, rfl, rfl⟩
    rfl
  · cases hshape

theorem endpointIn_of_text {host : String} {port : Int} {text : String}
    (hshape : isEndpointJson host port (Rapidjson.parse text) = true)
    (hclean : '\x00' ∉ text.toList) (hnamed : host ≠ "") :
    endpointIn (jsonValue Rapidjson.parse text) = some (host, port) := by
  rw [jsonValue, if_neg hclean, eq_endpointJson hshape]
  exact endpointIn_eq_some.mpr ⟨_, _, rfl, rfl, rfl, hnamed⟩

def ZkInstance.written (host : String) (port : Int) (text : String)
    (hshape : isEndpointJson host port (Rapidjson.parse text) = true)
    (hshort : text.toList.length < 256) (hclean : '\x00' ∉ text.toList) (hnamed : host ≠ "") :
    ZkInstance Rapidjson.parse where
  node := { data := text }
  host := host
  port := port
  short := hshort
  clean := hclean
  parsed := ⟨_, _, eq_endpointJson hshape, rfl, rfl, rfl⟩
  named := hnamed

def plainInstance : ZkInstance Rapidjson.parse :=
  .written "h" 1 (endpointText "h" "1") (by decide +kernel) (by decide +kernel) (by decide +kernel)
    (by decide)

namespace ZkClient

open Program

section Read

variable {env : Env} {c : ClientId} {w v : World} {service node : String} {data : NodeData}
variable {reconnect : ClientId -> ZkM Bool}

theorem readInstance_zok (hhandle : (v.pool.clients c).zhandle_ = true)
    (hanswer : env.zooWget v.trace.length (service ++ "/" ++ node) = (zok, data)) :
    match env.readEndpoint data.data with
    | .error stop => readInstance env c service node v = Except.error stop
    | .ok endpoint => exists w', readInstance env c service node v = Except.ok (true, w') ∧
        w'.cache = v.cache.add (readEntry service node data (v.reading env) endpoint) := by
  simp only [readInstance, zooWget, nowInMs, log, saveState, mapBag, mapPool, mapCache,
    bind_assoc, get_bind_run, modify_bind_run, pure_bind, hhandle, if_true, hanswer]
  cases env.readEndpoint data.data with
  | error stop => rfl
  | ok endpoint => exact ⟨_, rfl, rfl⟩

end Read

section Example

/-- ZooKeeper answers each read of an instance with this data. -/
private def holding (parse : String -> Option Json) (data : String) : Env where
  parse := parse
  zookeeperInit := fun _ => false
  zooWgetChildren := fun _ _ => (zok, [])
  zooWget := fun _ _ => (zok, { data })
  zooCreate := fun _ _ => zok
  zooGet := fun _ _ => zok
  clock := fun n => n
  cacheFile := none

private def connectedWorld : World where
  pool := { ClientPool.start id with
    clients := fun _ => { connected_ := true, zhandle_ := true } }
  cache := RegistryCache.empty
  trace := []
  ticks := 0
  slept := 0

end Example

end ZkClient

end FrProxy
