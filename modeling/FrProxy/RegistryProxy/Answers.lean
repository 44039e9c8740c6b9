import FrProxy.RegistryProxy

/-!
# Every message is answered

What the processor is for, message by message: the call that a message stands
for, and the reply to it.  A connection answers the messages in their order, and
a client that sends its calls over it gets what the handler gave.
-/

namespace FrProxy

open Wire

namespace RegistryProxy

/-!
## The fields that count
-/

def textOf (id : Int16) : Int16 × Value -> Option String
  | (i, .string x) => if i = id then some x else none
  | _ => none

def numberOf (id : Int16) : Int16 × Value -> Option Int32
  | (i, .i32 n) => if i = id then some n else none
  | _ => none

/-- The last text with that number; fields of another type do not count. -/
def lastText (id : Int16) (fields : Fields) : Option String :=
  (fields.filterMap (textOf id)).getLast?

def lastNumber (id : Int16) (fields : Fields) : Option Int32 :=
  (fields.filterMap (numberOf id)).getLast?

theorem textOf_ne {id i : Int16} (h : i ≠ id) (v : Value) : textOf id (i, v) = none := by
  cases v <;> simp [textOf, h]

theorem numberOf_ne {id i : Int16} (h : i ≠ id) (v : Value) : numberOf id (i, v) = none := by
  cases v <;> simp [numberOf, h]

theorem isset_eq (id : Int16) (fields : Fields) :
    ((fields.filterMap fun f => (textOf id f).map fun _ => true).getLast?).getD false =
      (lastText id fields).isSome := by
  rw [<- List.map_filterMap, List.getLast?_map, lastText]
  cases (fields.filterMap (textOf id)).getLast? <;> rfl

/-!
## Arguments
-/

theorem getArgs_unknown {id : Int16} (h : known GetArgs.fields id = none) : id ≠ 1 := by
  rintro rfl
  cases h

theorem getArgs_foldl (fields : Fields) :
    fields.foldl (assign GetArgs.fields) ({}, false) =
      ({ serviceName := (lastText 1 fields).getD "" }, (lastText 1 fields).isSome) := by
  have hname := foldl_assign GetArgs.fields (fun s => s.1.serviceName) (textOf 1)
    (by
      intro f hf s v
      rw [List.mem_singleton.mp hf]
      cases v <;> rfl)
    (fun id v h => textOf_ne (getArgs_unknown h) v) fields ({}, false)
  have hisset := foldl_assign GetArgs.fields (fun s => s.2)
    (fun f => (textOf 1 f).map fun _ => true)
    (by
      intro f hf s v
      rw [List.mem_singleton.mp hf]
      cases v <;> rfl)
    (fun id v h => by rw [textOf_ne (getArgs_unknown h), Option.map_none]) fields ({}, false)
  rw [isset_eq] at hisset
  exact Prod.ext (congrArg GetArgs.mk hname) hisset

theorem removeArgs_unknown {id : Int16} (h : known RemoveArgs.fields id = none) :
    id ≠ 1 ∧ id ≠ 2 ∧ id ≠ 3 := by
  refine ⟨?_, ?_, ?_⟩
  · rintro rfl
    cases h
  · rintro rfl
    cases h
  · rintro rfl
    cases h

theorem removeArgs_view {β : Type} (view : RemoveArgs × Bool -> β)
    (pick : Int16 × Value -> Option β)
    (hname : forall s v, view ((FieldReader.string 1 fun x (s : RemoveArgs × Bool) =>
      ({ s.1 with serviceName := x }, true)).put s v) = (pick (1, v)).getD (view s))
    (hhost : forall s v, view ((FieldReader.string 2 fun x (s : RemoveArgs × Bool) =>
      ({ s.1 with host := x }, s.2)).put s v) = (pick (2, v)).getD (view s))
    (hport : forall s v, view ((FieldReader.i32 3 fun n (s : RemoveArgs × Bool) =>
      ({ s.1 with port := n }, s.2)).put s v) = (pick (3, v)).getD (view s))
    (hother : forall id v, known RemoveArgs.fields id = none -> pick (id, v) = none)
    (fields : Fields) :
    view (fields.foldl (assign RemoveArgs.fields) ({}, false)) =
      ((fields.filterMap pick).getLast?).getD (view ({}, false)) := by
  apply foldl_assign _ view pick ?_ hother
  intro f hf s v
  simp only [RemoveArgs.fields, List.mem_cons, List.not_mem_nil, or_false] at hf
  rcases hf with rfl | rfl | rfl
  · exact hname s v
  · exact hhost s v
  · exact hport s v

theorem removeArgs_foldl (fields : Fields) :
    fields.foldl (assign RemoveArgs.fields) ({}, false) =
      ({
        serviceName := (lastText 1 fields).getD ""
        host := (lastText 2 fields).getD ""
        port := (lastNumber 3 fields).getD 0 }, (lastText 1 fields).isSome) := by
  have hname := removeArgs_view (fun s => s.1.serviceName) (textOf 1)
    (fun s v => by cases v <;> rfl) (fun s v => by cases v <;> rfl)
    (fun s v => by cases v <;> rfl) (fun id v h => textOf_ne (removeArgs_unknown h).left v) fields
  have hhost := removeArgs_view (fun s => s.1.host) (textOf 2)
    (fun s v => by cases v <;> rfl) (fun s v => by cases v <;> rfl)
    (fun s v => by cases v <;> rfl)
    (fun id v h => textOf_ne (removeArgs_unknown h).right.left v) fields
  have hport := removeArgs_view (fun s => s.1.port) (numberOf 3)
    (fun s v => by cases v <;> rfl) (fun s v => by cases v <;> rfl)
    (fun s v => by cases v <;> rfl)
    (fun id v h => numberOf_ne (removeArgs_unknown h).right.right v) fields
  have hisset := removeArgs_view (fun s => s.2) (fun f => (textOf 1 f).map fun _ => true)
    (fun s v => by cases v <;> rfl) (fun s v => by cases v <;> rfl)
    (fun s v => by cases v <;> rfl)
    (fun id v h => by rw [textOf_ne (removeArgs_unknown h).left, Option.map_none]) fields
  rw [isset_eq] at hisset
  refine Prod.ext ?_ hisset
  generalize fields.foldl (assign RemoveArgs.fields) ({}, false) = result at hname hhost hport
  rcases result with ⟨⟨serviceName, host, port⟩, isset⟩
  rw [lastText, lastText, lastNumber, <- hname, <- hhost, <- hport]

/-!
## Messages
-/

/-- A message as any client may send it. -/
structure Message where
  name : String
  type : MessageType
  seqid : Int32
  body : Fields
  regular : Value.RegularFields body

def Message.tokens (m : Message) : List Token :=
  writeMessage m.name m.type m.seqid (Value.struct m.body).tokens

inductive Request where
  | call (c : Call)
  | notACall
  | unknownMethod
  /-- A call without its required argument. -/
  | incomplete

def Call.name : Call -> String
  | get _ => "get"
  | remove _ _ _ => "remove"
  | dump => "dump"
  | reset => "reset"
  | status => "status"

def Message.request (m : Message) : Request :=
  if m.type ≠ .call ∧ m.type ≠ .oneway then .notACall
  else if m.name = "get" then
    match lastText 1 m.body with
    | some serviceName => .call (.get serviceName)
    | none => .incomplete
  else if m.name = "remove" then
    match lastText 1 m.body with
    | some serviceName =>
        .call (.remove serviceName ((lastText 2 m.body).getD "") ((lastNumber 3 m.body).getD 0))
    | none => .incomplete
  else if m.name = "dump" then .call .dump
  else if m.name = "reset" then .call .reset
  else if m.name = "status" then .call .status
  else .unknownMethod

section Answering

variable {σ : Type} (rt : Runtime) (iface : RegistryProxyIf σ)

def Call.perform (c : Call) (s : σ) : Outcome Answer × σ :=
  match c with
  | get serviceName => ((iface.get serviceName s).1.map .text, (iface.get serviceName s).2)
  | remove serviceName host port =>
      ((iface.remove serviceName host port s).1.map .text, (iface.remove serviceName host port s).2)
  | dump => ((iface.dump s).1.map .text, (iface.dump s).2)
  | reset => ((iface.reset s).1.map .text, (iface.reset s).2)
  | status => ((iface.status s).1.map .number, (iface.status s).2)

def Answer.value : Answer -> Value
  | text x => .string x
  | number n => .i32 n

def writeReply (name : String) (seqid : Int32) : Outcome Answer -> List Token
  | .ok answer => writeMessage name .reply seqid (Value.struct [(0, answer.value)]).tokens
  | .error what => writeException rt name seqid { type := .UNKNOWN, message := what }

/-- The handler after a message, and the reply to it; an incomplete call has none. -/
def respond (s : σ) (m : Message) : Option (σ × List Token) :=
  match m.request with
  | .call c => some ((c.perform iface s).2, writeReply rt m.name m.seqid (c.perform iface s).1)
  | .notACall => some (s, writeException rt m.name m.seqid { type := .INVALID_MESSAGE_TYPE })
  | .unknownMethod =>
      some (s, writeException rt m.name m.seqid {
        type := .UNKNOWN_METHOD, message := "Invalid method name: '" ++ m.name ++ "'" })
  | .incomplete => none

/-- The replies to the messages up to the first one that has none. -/
def respondAll : σ -> List Message -> σ × List Token × Option TProtocolException
  | s, [] => (s, [], none)
  | s, m :: rest =>
      match respond rt iface s m with
      | none => (s, [], some .INVALID_DATA)
      | some (s, reply) =>
          let (s, replies, e) := respondAll s rest
          (s, reply ++ replies, e)

/-!
## The processor answers messages
-/

variable {rt iface}

theorem readWith_struct (rt : Runtime) {τ : Type} (fields : List (FieldReader τ)) {body : Fields}
    (hbody : Value.RegularFields body) (s : τ) (rest : List Token) :
    readWith rt fields s ((Value.struct body).tokens ++ rest) =
      .ok (body.foldl (assign fields) s, rest) := by
  unfold readWith
  rw [readStruct_tokens rt.skips body hbody]

theorem skipMessage_struct (rt : Runtime) {body : Fields} (hbody : Value.RegularFields body)
    (rest : List Token) :
    skipMessage rt ((Value.struct body).tokens ++ .messageEnd :: rest) = .ok rest := by
  have hskip := rt.skips (.struct body) (.messageEnd :: rest) hbody
  unfold skipMessage
  rw [show (Value.struct body).type = TType.struct from rfl] at hskip
  rw [hskip]
  rfl

theorem getArgs_read (rt : Runtime) {body : Fields} (hbody : Value.RegularFields body)
    (rest : List Token) :
    GetArgs.read rt ((Value.struct body).tokens ++ rest) =
      match lastText 1 body with
      | some serviceName => .ok ({ serviceName }, rest)
      | none => .error .INVALID_DATA := by
  unfold GetArgs.read
  rw [readWith_struct rt _ hbody, getArgs_foldl]
  cases lastText 1 body with
  | some serviceName => rfl
  | none => rfl

theorem removeArgs_read (rt : Runtime) {body : Fields} (hbody : Value.RegularFields body)
    (rest : List Token) :
    RemoveArgs.read rt ((Value.struct body).tokens ++ rest) =
      match lastText 1 body with
      | some serviceName =>
          .ok ({
            serviceName
            host := (lastText 2 body).getD ""
            port := (lastNumber 3 body).getD 0 }, rest)
      | none => .error .INVALID_DATA := by
  unfold RemoveArgs.read
  rw [readWith_struct rt _ hbody, removeArgs_foldl]
  cases lastText 1 body with
  | some serviceName => rfl
  | none => rfl

theorem readNothing_struct (rt : Runtime) {body : Fields} (hbody : Value.RegularFields body)
    (rest : List Token) :
    readNothing rt ((Value.struct body).tokens ++ rest) = .ok (⟨⟩, rest) := by
  unfold readNothing
  rw [readWith_struct rt _ hbody]

theorem processWith_args {α β : Type} {name : String} {seqid : Int32} {s : σ}
    {read : List Token -> Except TProtocolException (β × List Token)}
    {call : β -> σ -> Outcome α × σ} {write : Option α -> Fields} {args : β} (answer : α -> Answer)
    {input rest : List Token} (hread : read input = .ok (args, .messageEnd :: rest))
    (hwrite : forall a, write (some a) = [(0, (answer a).value)]) :
    processWith rt name read call write seqid s input =
      .ok ((call args s).2, rest, writeReply rt name seqid ((call args s).1.map answer)) := by
  have hreply : writeOutcome rt name seqid write (call args s).1 =
      writeReply rt name seqid ((call args s).1.map answer) := by
    cases (call args s).1 with
    | ok success =>
        show writeMessage name .reply seqid (Value.struct (write (some success))).tokens = _
        rw [hwrite]
        rfl
    | error what => rfl
  unfold processWith
  rw [hread, <- hreply]
  rfl

theorem processWith_error {α β : Type} {name : String} {seqid : Int32} {s : σ}
    {read : List Token -> Except TProtocolException (β × List Token)}
    {call : β -> σ -> Outcome α × σ} {write : Option α -> Fields} {input : List Token}
    {e : TProtocolException} (hread : read input = .error e) :
    processWith rt name read call write seqid s input = .error e := by
  unfold processWith
  rw [hread]
  rfl

/-- A message is answered with its reply, and nothing of the next message is read. -/
theorem process_message (rt : Runtime) (iface : RegistryProxyIf σ) (s : σ) (m : Message)
    (rest : List Token) :
    process rt iface s (m.tokens ++ rest) =
      match respond rt iface s m with
      | some (s', reply) => .ok (s', rest, reply)
      | none => .error .INVALID_DATA := by
  rcases m with ⟨name, type, seqid, body, hbody⟩
  have hget := getArgs_read rt hbody (.messageEnd :: rest)
  have hremove := removeArgs_read rt hbody (.messageEnd :: rest)
  have hnothing := readNothing_struct rt hbody (.messageEnd :: rest)
  have hskip := skipMessage_struct rt hbody rest
  simp only [Message.tokens, writeMessage, List.cons_append, List.append_assoc, List.nil_append,
    process, respond, Message.request]
  by_cases htype : type ≠ .call ∧ type ≠ .oneway
  · rw [if_pos htype, if_pos htype, hskip]
    rfl
  · rw [if_neg htype, if_neg htype, processFn, processMap]
    by_cases hname : name = "get"
    · subst hname
      simp only [if_true]
      cases htext : lastText 1 body with
      | some serviceName =>
          rw [htext] at hget
          exact processWith_args .text hget fun _ => rfl
      | none =>
          rw [htext] at hget
          exact processWith_error hget
    · rw [if_neg hname, if_neg hname]
      by_cases hname : name = "remove"
      · subst hname
        simp only [if_true]
        cases htext : lastText 1 body with
        | some serviceName =>
            rw [htext] at hremove
            exact processWith_args .text hremove fun _ => rfl
        | none =>
            rw [htext] at hremove
            exact processWith_error hremove
      · rw [if_neg hname, if_neg hname]
        by_cases hname : name = "dump"
        · subst hname
          exact processWith_args .text hnothing fun _ => rfl
        · rw [if_neg hname, if_neg hname]
          by_cases hname : name = "reset"
          · subst hname
            exact processWith_args .text hnothing fun _ => rfl
          · rw [if_neg hname, if_neg hname]
            by_cases hname : name = "status"
            · subst hname
              exact processWith_args .number hnothing fun _ => rfl
            · rw [if_neg hname, if_neg hname]
              dsimp only
              rw [hskip]
              rfl

theorem message_tokens_ne (m : Message) (rest : List Token) :
    exists t input, m.tokens ++ rest = t :: input :=
  ⟨_, _, rfl⟩

theorem serve_rounds (messages : List Message) (s : σ) {rounds : Nat}
    (hrounds : messages.length < rounds) :
    serve rt iface rounds s (messages.flatMap Message.tokens) = respondAll rt iface s messages := by
  induction messages generalizing s rounds with
  | nil =>
      cases rounds with
      | zero => cases hrounds
      | succ rounds => rfl
  | cons m messages ih =>
      cases rounds with
      | zero => cases hrounds
      | succ rounds =>
          have hprocess := process_message rt iface s m
            (messages.flatMap Message.tokens)
          rw [List.flatMap_cons]
          rcases message_tokens_ne m (messages.flatMap Message.tokens) with ⟨t, input, htokens⟩
          rw [htokens] at hprocess ⊢
          unfold serve respondAll
          rw [hprocess]
          cases respond rt iface s m with
          | none => rfl
          | some result =>
              dsimp only
              rw [ih result.1 (Nat.lt_of_succ_lt_succ hrounds)]

theorem length_le_tokens (messages : List Message) :
    messages.length ≤ (messages.flatMap Message.tokens).length := by
  induction messages with
  | nil => exact Nat.le_refl 0
  | cons m messages ih =>
      rw [List.flatMap_cons, List.length_append, List.length_cons]
      have hpos : 0 < m.tokens.length := Nat.succ_pos _
      omega

/--
A connection answers the messages one after the other, each with a reply to its
own call, whatever other fields its arguments have, and ends at the first call
without its required argument.
-/
theorem serve_messages (rt : Runtime) (iface : RegistryProxyIf σ) (s : σ)
    (messages : List Message) :
    serve rt iface ((messages.flatMap Message.tokens).length + 1) s
      (messages.flatMap Message.tokens) = respondAll rt iface s messages :=
  serve_rounds messages s (Nat.lt_succ_of_le (length_le_tokens messages))

/-!
## The client gets what the handler gave
-/

/-- What a client returns or throws for an outcome of the handler. -/
def received : Outcome Answer -> Except TApplicationException Answer
  | .ok answer => .ok answer
  | .error what => .error { type := .UNKNOWN, message := what }

def performAll (iface : RegistryProxyIf σ) :
    List Call -> σ -> List (Except TApplicationException Answer) × σ
  | [], s => ([], s)
  | c :: rest, s =>
      let (answers, s') := performAll iface rest (c.perform iface s).2
      (received (c.perform iface s).1 :: answers, s')

def Call.message (c : Call) : Message :=
  match c with
  | get serviceName => {
      name := "get", type := .call, seqid := 0, body := GetArgs.write { serviceName }
      regular := ⟨trivial, trivial⟩ }
  | remove serviceName host port => {
      name := "remove", type := .call, seqid := 0
      body := RemoveArgs.write { serviceName, host, port }
      regular := ⟨trivial, trivial, trivial, trivial⟩ }
  | dump => { name := "dump", type := .call, seqid := 0, body := [], regular := trivial }
  | reset => { name := "reset", type := .call, seqid := 0, body := [], regular := trivial }
  | status => { name := "status", type := .call, seqid := 0, body := [], regular := trivial }

theorem send_eq (c : Call) : send c = c.message.tokens := by
  cases c <;> rfl

theorem message_name (c : Call) : c.message.name = c.name := by
  cases c <;> rfl

theorem message_request (c : Call) : c.message.request = .call c := by
  cases c <;> rfl

theorem message_seqid (c : Call) : c.message.seqid = 0 := by
  cases c <;> rfl

theorem recvWith_reply {α : Type} {name : String} {seqid : Int32}
    {fields : List (FieldReader (Option α))} (answer : α -> Answer)
    (hfields : forall a, assign fields none (0, (answer a).value) = some a)
    (hregular : forall a, (answer a).value.Regular) (outcome : Outcome α) (rest : List Token) :
    recvWith rt name fields answer (writeReply rt name seqid (outcome.map answer) ++ rest) =
      .ok (received (outcome.map answer), rest) := by
  cases outcome with
  | ok a =>
      have hbody : Value.RegularFields [(0, (answer a).value)] := ⟨hregular a, trivial⟩
      have hread := readWith_struct rt fields hbody none (.messageEnd :: rest)
      rw [List.foldl_cons, List.foldl_nil, hfields a] at hread
      simp only [Except.map, writeReply, writeMessage, List.cons_append, List.append_assoc,
        List.nil_append, recvWith]
      rw [if_neg (by decide), if_neg (by decide), if_neg (by simp), hread]
      rfl
  | error what =>
      have hread := rt.exception_read { type := .UNKNOWN, message := what } (.messageEnd :: rest)
      simp only [Except.map, writeReply, writeException, writeMessage, List.cons_append,
        List.append_assoc, List.nil_append, recvWith]
      rw [if_pos trivial, hread]
      rfl

theorem recv_reply (rt : Runtime) (iface : RegistryProxyIf σ) (c : Call) (s : σ)
    (seqid : Int32) (rest : List Token) :
    recv rt c (writeReply rt c.name seqid (c.perform iface s).1 ++ rest) =
      .ok (received (c.perform iface s).1, rest) := by
  cases c with
  | status =>
      exact recvWith_reply .number (fun _ => rfl) (fun _ => trivial) _ rest
  | _ => exact recvWith_reply .text (fun _ => rfl) (fun _ => trivial) _ rest

/-- The replies to calls are those of the handler, and the client takes them apart again. -/
theorem respondAll_calls (rt : Runtime) (iface : RegistryProxyIf σ) (calls : List Call)
    (s : σ) :
    exists output,
      respondAll rt iface s (calls.map Call.message) = ((performAll iface calls s).2, output, none) ∧
      recvAll rt calls output = .ok ((performAll iface calls s).1, []) := by
  induction calls generalizing s with
  | nil => exact ⟨[], rfl, rfl⟩
  | cons c calls ih =>
      rcases ih (c.perform iface s).2 with ⟨output, hrespond, hrecv⟩
      refine ⟨writeReply rt c.name 0 (c.perform iface s).1 ++ output, ?_, ?_⟩
      · have hfirst : respond rt iface s c.message =
            some ((c.perform iface s).2, writeReply rt c.name 0 (c.perform iface s).1) := by
          unfold respond
          rw [message_request, message_name, message_seqid]
        rw [List.map_cons, respondAll, hfirst]
        dsimp only
        rw [hrespond]
        rfl
      · have hfirst := recv_reply rt iface c s 0 output
        simp only [recvAll, bind, Except.bind, hfirst, hrecv]
        rfl

theorem serve_calls (rt : Runtime) (iface : RegistryProxyIf σ) (calls : List Call) (s : σ) :
    serve rt iface ((calls.flatMap send).length + 1) s (calls.flatMap send) =
      respondAll rt iface s (calls.map Call.message) := by
  have hsent : calls.flatMap send = (calls.map Call.message).flatMap Message.tokens := by
    rw [List.flatMap_map, show send = fun c => c.message.tokens from funext send_eq]
  rw [hsent]
  exact serve_rounds _ s (Nat.lt_succ_of_le (length_le_tokens _))

/--
A client that sends its calls over one connection gets for each of them, in their
order, what the handler returned or the text of what it threw.
-/
theorem calls_answered (rt : Runtime) (iface : RegistryProxyIf σ) (s : σ) (calls : List Call) :
    exists output,
      serve rt iface ((calls.flatMap send).length + 1) s (calls.flatMap send) =
        ((performAll iface calls s).2, output, none) ∧
      recvAll rt calls output = .ok ((performAll iface calls s).1, []) := by
  rcases respondAll_calls rt iface calls s with ⟨output, hrespond, hrecv⟩
  exact ⟨output, (serve_calls rt iface calls s).trans hrespond, hrecv⟩

/-- A handler that counts its resets and throws at a dump. -/
private def counting : RegistryProxyIf Nat where
  get := fun serviceName s => (.ok serviceName, s)
  remove := fun _ _ _ s => (.ok "", s)
  dump := fun s => (.error "no dump", s)
  reset := fun s => (.ok "", s + 1)
  status := fun s => (.ok (Int32.ofNat s), s)

example :
    (serve .plain counting 5 0 ([.get "a", .dump, .reset, .status].flatMap send)).1 = 1 ∧
      recvAll .plain [.get "a", .dump, .reset, .status]
          (serve .plain counting 5 0 ([.get "a", .dump, .reset, .status].flatMap send)).2.1 =
        .ok ([.ok (.text "a"), .error { type := .UNKNOWN, message := "no dump" },
          .ok (.text ""), .ok (.number 1)], []) := by
  constructor <;> rfl

end Answering

end RegistryProxy

end FrProxy
