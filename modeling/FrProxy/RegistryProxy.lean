import FrProxy.Library.Wire

/-!
# The remote interface

The generated code of the service: the structures of arguments and results, the
processor that calls the handler, and the client.  The stream is what the
Thrift runtime hands from writer to reader; of the runtime itself the code uses
`skip` and the exception that stands for a failed call.
-/

namespace FrProxy

open Wire

inductive TApplicationExceptionType where
  | UNKNOWN
  | UNKNOWN_METHOD
  | INVALID_MESSAGE_TYPE
  | WRONG_METHOD_NAME
  | BAD_SEQUENCE_ID
  | MISSING_RESULT
deriving DecidableEq, Repr

structure TApplicationException where
  type : TApplicationExceptionType
  message : String := ""
deriving DecidableEq, Repr

/-- What the generated code uses of the Thrift runtime. -/
structure Runtime where
  skip : TType -> List Token -> Option (List Token)
  writeException : TApplicationException -> List Token
  readException : List Token -> Option (TApplicationException × List Token)
  skips : Skips skip
  exception_read : forall x rest, readException (writeException x ++ rest) = some (x, rest)

/-- Such a runtime, where an exception is written as a number and a text. -/
def Runtime.plain : Runtime where
  skip := fun _ tokens => skipValue tokens
  writeException := fun x => [.scalar .byte x.type.ctorIdx, .string x.message]
  readException := fun tokens =>
    match tokens with
    | .scalar .byte 0 :: .string message :: rest => some ({ type := .UNKNOWN, message }, rest)
    | .scalar .byte 1 :: .string message :: rest =>
        some ({ type := .UNKNOWN_METHOD, message }, rest)
    | .scalar .byte 2 :: .string message :: rest =>
        some ({ type := .INVALID_MESSAGE_TYPE, message }, rest)
    | .scalar .byte 3 :: .string message :: rest =>
        some ({ type := .WRONG_METHOD_NAME, message }, rest)
    | .scalar .byte 4 :: .string message :: rest =>
        some ({ type := .BAD_SEQUENCE_ID, message }, rest)
    | .scalar .byte 5 :: .string message :: rest =>
        some ({ type := .MISSING_RESULT, message }, rest)
    | _ => none
  skips := skips_skipValue
  exception_read := by
    intro x rest
    rcases x with ⟨type, message⟩
    cases type <;> rfl

/-- Why a message is not answered. -/
inductive TProtocolException where
  /-- The stream does not hold what is read from it. -/
  | malformed
  /-- A required field is missing. -/
  | INVALID_DATA
deriving DecidableEq, Repr

/-- What a call of the handler ends with; the other case is `what()` of a `std::exception`. -/
abbrev Outcome (α : Type) : Type :=
  Except String α

structure RegistryProxyIf (σ : Type) where
  get : String -> σ -> Outcome String × σ
  remove : String -> String -> Int32 -> σ -> Outcome String × σ
  dump : σ -> Outcome String × σ
  reset : σ -> Outcome String × σ
  status : σ -> Outcome Int32 × σ

namespace RegistryProxy

def readWith {σ : Type} (rt : Runtime) (fields : List (FieldReader σ)) (s : σ)
    (input : List Token) : Except TProtocolException (σ × List Token) :=
  match readStruct rt.skip fields s input with
  | some result => .ok result
  | none => .error .malformed

/-!
## Arguments
-/

structure GetArgs where
  serviceName : String := ""
deriving DecidableEq, Repr

/-- The fields that `read` knows; the flag is `isset_serviceName`. -/
def GetArgs.fields : List (FieldReader (GetArgs × Bool)) :=
  [.string 1 fun x s => ({ s.1 with serviceName := x }, true)]

def GetArgs.read (rt : Runtime) (input : List Token) :
    Except TProtocolException (GetArgs × List Token) := do
  let ((args, isset), rest) <- readWith rt GetArgs.fields ({}, false) input
  if isset then return (args, rest) else throw .INVALID_DATA

def GetArgs.write (args : GetArgs) : Fields :=
  [(1, .string args.serviceName)]

structure RemoveArgs where
  serviceName : String := ""
  host : String := ""
  port : Int32 := 0
deriving DecidableEq, Repr

def RemoveArgs.fields : List (FieldReader (RemoveArgs × Bool)) :=
  [.string 1 fun x s => ({ s.1 with serviceName := x }, true),
    .string 2 fun x s => ({ s.1 with host := x }, s.2),
    .i32 3 fun n s => ({ s.1 with port := n }, s.2)]

def RemoveArgs.read (rt : Runtime) (input : List Token) :
    Except TProtocolException (RemoveArgs × List Token) := do
  let ((args, isset), rest) <- readWith rt RemoveArgs.fields ({}, false) input
  if isset then return (args, rest) else throw .INVALID_DATA

def RemoveArgs.write (args : RemoveArgs) : Fields :=
  [(1, .string args.serviceName), (2, .string args.host), (3, .i32 args.port)]

/-- The arguments of `dump`, `reset` and `status`. -/
def readNothing (rt : Runtime) (input : List Token) :
    Except TProtocolException (PUnit × List Token) :=
  readWith rt [] ⟨⟩ input

/-!
## Results

A result is present when its `__isset` flag is.
-/

/-- The result of `get`, `remove`, `dump` and `reset`. -/
def textFields : List (FieldReader (Option String)) :=
  [.string 0 fun x _ => some x]

def writeText : Option String -> Fields
  | some success => [(0, .string success)]
  | none => []

def numberFields : List (FieldReader (Option Int32)) :=
  [.i32 0 fun n _ => some n]

def writeNumber : Option Int32 -> Fields
  | some success => [(0, .i32 success)]
  | none => []

/-!
## Messages
-/

def writeMessage (name : String) (type : MessageType) (seqid : Int32) (body : List Token) :
    List Token :=
  .messageBegin name type seqid :: (body ++ [.messageEnd])

def readMessageEnd : List Token -> Except TProtocolException (List Token)
  | .messageEnd :: rest => .ok rest
  | _ => .error .malformed

/-- `iprot->skip(T_STRUCT)` and the end of the message. -/
def skipMessage (rt : Runtime) (input : List Token) : Except TProtocolException (List Token) :=
  match rt.skip .struct input with
  | some rest => readMessageEnd rest
  | none => .error .malformed

/-!
## The processor
-/

section Processor

variable {σ : Type} (rt : Runtime) (iface : RegistryProxyIf σ)

def writeException (name : String) (seqid : Int32) (x : TApplicationException) : List Token :=
  writeMessage name .exception seqid (rt.writeException x)

/-- The end of a `process_` function. -/
def writeOutcome {α : Type} (name : String) (seqid : Int32) (write : Option α -> Fields) :
    Outcome α -> List Token
  | .ok success => writeMessage name .reply seqid (Value.struct (write (some success))).tokens
  | .error what => writeException rt name seqid { type := .UNKNOWN, message := what }

/-- The handler after a message, what is left of the input, and what was written. -/
abbrev Processed (σ : Type) : Type :=
  σ × List Token × List Token

/-- A `process_` function: read the arguments, call the handler, write the outcome. -/
def processWith {α β : Type} (name : String)
    (read : List Token -> Except TProtocolException (β × List Token))
    (call : β -> σ -> Outcome α × σ) (write : Option α -> Fields) (seqid : Int32) (s : σ)
    (input : List Token) : Except TProtocolException (Processed σ) := do
  let (args, input) <- read input
  let input <- readMessageEnd input
  let (outcome, s) := call args s
  return (s, input, writeOutcome rt name seqid write outcome)

def processGet : Int32 -> σ -> List Token -> Except TProtocolException (Processed σ) :=
  processWith rt "get" (GetArgs.read rt) (fun args => iface.get args.serviceName) writeText

def processRemove : Int32 -> σ -> List Token -> Except TProtocolException (Processed σ) :=
  processWith rt "remove" (RemoveArgs.read rt)
    (fun args => iface.remove args.serviceName args.host args.port) writeText

def processDump : Int32 -> σ -> List Token -> Except TProtocolException (Processed σ) :=
  processWith rt "dump" (readNothing rt) (fun _ => iface.dump) writeText

def processReset : Int32 -> σ -> List Token -> Except TProtocolException (Processed σ) :=
  processWith rt "reset" (readNothing rt) (fun _ => iface.reset) writeText

def processStatus : Int32 -> σ -> List Token -> Except TProtocolException (Processed σ) :=
  processWith rt "status" (readNothing rt) (fun _ => iface.status) writeNumber

def processMap (fname : String) :
    Option (Int32 -> σ -> List Token -> Except TProtocolException (Processed σ)) :=
  if fname = "get" then some (processGet rt iface)
  else if fname = "remove" then some (processRemove rt iface)
  else if fname = "dump" then some (processDump rt iface)
  else if fname = "reset" then some (processReset rt iface)
  else if fname = "status" then some (processStatus rt iface)
  else none

def processFn (fname : String) (seqid : Int32) (s : σ) (input : List Token) :
    Except TProtocolException (Processed σ) :=
  match processMap rt iface fname with
  | some process => process seqid s input
  | none => do
      let input <- skipMessage rt input
      let x : TApplicationException :=
        { type := .UNKNOWN_METHOD, message := "Invalid method name: '" ++ fname ++ "'" }
      return (s, input, writeException rt fname seqid x)

def process (s : σ) : List Token -> Except TProtocolException (Processed σ)
  | .messageBegin fname mtype seqid :: input =>
      if mtype ≠ .call ∧ mtype ≠ .oneway then do
        let input <- skipMessage rt input
        return (s, input, writeException rt fname seqid { type := .INVALID_MESSAGE_TYPE })
      else processFn rt iface fname seqid s input
  | _ => .error .malformed

/--
A connection: messages are processed until the input ends or one of them is not
answered.  The handler, what was written, and why it ended early.
-/
def serve : Nat -> σ -> List Token -> σ × List Token × Option TProtocolException
  | 0, s, _ => (s, [], none)
  | _ + 1, s, [] => (s, [], none)
  | rounds + 1, s, t :: input =>
      match process rt iface s (t :: input) with
      | .error e => (s, [], some e)
      | .ok (s, input, output) =>
          let (s, rest, e) := serve rounds s input
          (s, output ++ rest, e)

end Processor

/-!
## The client
-/

inductive Call where
  | get (serviceName : String)
  | remove (serviceName host : String) (port : Int32)
  | dump
  | reset
  | status
deriving DecidableEq, Repr

inductive Answer where
  | text (s : String)
  | number (n : Int32)
deriving DecidableEq, Repr

section Client

variable (rt : Runtime)

def sendWith (name : String) (args : Fields) : List Token :=
  writeMessage name .call 0 (Value.struct args).tokens

def send : Call -> List Token
  | .get serviceName => sendWith "get" (GetArgs.write { serviceName })
  | .remove serviceName host port =>
      sendWith "remove" (RemoveArgs.write { serviceName, host, port })
  | .dump => sendWith "dump" []
  | .reset => sendWith "reset" []
  | .status => sendWith "status" []

abbrev Received : Type :=
  Except TApplicationException Answer × List Token

def recvWith {α : Type} (name : String) (fields : List (FieldReader (Option α)))
    (answer : α -> Answer) : List Token -> Except TProtocolException Received
  | .messageBegin fname mtype _ :: input =>
      if mtype = .exception then
        match rt.readException input with
        | some (x, input) => do
            let input <- readMessageEnd input
            return (.error x, input)
        | none => .error .malformed
      else if mtype ≠ .reply then do
        let input <- skipMessage rt input
        return (.error { type := .INVALID_MESSAGE_TYPE }, input)
      else if fname ≠ name then do
        let input <- skipMessage rt input
        return (.error { type := .WRONG_METHOD_NAME }, input)
      else do
        let (result, input) <- readWith rt fields none input
        let input <- readMessageEnd input
        match result with
        | some success => return (.ok (answer success), input)
        | none =>
            return (.error { type := .MISSING_RESULT, message := name ++ " failed: unknown result" },
              input)
  | _ => .error .malformed

def recv : Call -> List Token -> Except TProtocolException Received
  | .get _ => recvWith rt "get" textFields .text
  | .remove _ _ _ => recvWith rt "remove" textFields .text
  | .dump => recvWith rt "dump" textFields .text
  | .reset => recvWith rt "reset" textFields .text
  | .status => recvWith rt "status" numberFields .number

/-- The answers to calls that were sent one after the other. -/
def recvAll : List Call -> List Token -> Except TProtocolException
    (List (Except TApplicationException Answer) × List Token)
  | [], input => .ok ([], input)
  | call :: rest, input => do
      let (answer, input) <- recv rt call input
      let (answers, input) <- recvAll rest input
      return (answer :: answers, input)

end Client

end RegistryProxy

end FrProxy
