import FrProxy.Json

/-!
# The vendored JSON parser

The reader of rapidjson, without in-situ parsing, and the document it builds.
A character stands for a byte.  The stream is what is left of the text, and its
end is the terminating NUL.  Loops take the number of rounds that they may
still make; the text is always shorter than that.
-/

namespace FrProxy

namespace Rapidjson

def isWhitespace (c : Char) : Bool :=
  c == ' ' || c == '\n' || c == '\r' || c == '\t'

def skipWhitespace (s : List Char) : List Char :=
  s.dropWhile isWhitespace

def takeWord : List Char -> List Char -> Option (List Char)
  | [], s => some s
  | _ :: _, [] => none
  | w :: word, c :: s => if c = w then takeWord word s else none

def parseNull (s : List Char) : Option (Json × List Char) :=
  (takeWord ['u', 'l', 'l'] s).map fun s => (.null, s)

def parseTrue (s : List Char) : Option (Json × List Char) :=
  (takeWord ['r', 'u', 'e'] s).map fun s => (.bool true, s)

def parseFalse (s : List Char) : Option (Json × List Char) :=
  (takeWord ['a', 'l', 's', 'e'] s).map fun s => (.bool false, s)

/-!
## Strings
-/

def hexDigit (c : Char) : Option Nat :=
  if '0' ≤ c ∧ c ≤ '9' then some (c.toNat - '0'.toNat)
  else if 'A' ≤ c ∧ c ≤ 'F' then some (c.toNat - 'A'.toNat + 10)
  else if 'a' ≤ c ∧ c ≤ 'f' then some (c.toNat - 'a'.toNat + 10)
  else none

/-- The loop of `ParseHex4`, with the number of digits that are still to come. -/
def parseHex (codepoint : Nat) : Nat -> List Char -> Option (Nat × List Char)
  | 0, s => some (codepoint, s)
  | _ + 1, [] => none
  | n + 1, c :: s =>
      match hexDigit c with
      | none => none
      | some d => parseHex (codepoint * 16 + d) n s

def parseHex4 (s : List Char) : Option (Nat × List Char) :=
  parseHex 0 4 s

/-- The UTF-8 bytes of a code point. -/
def encode (codepoint : Nat) : List Char :=
  if codepoint ≤ 0x7F then [Char.ofNat (codepoint &&& 0xFF)]
  else if codepoint ≤ 0x7FF then
    [Char.ofNat (0xC0 ||| (codepoint >>> 6 &&& 0xFF)), Char.ofNat (0x80 ||| (codepoint &&& 0x3F))]
  else if codepoint ≤ 0xFFFF then
    [Char.ofNat (0xE0 ||| (codepoint >>> 12 &&& 0xFF)),
      Char.ofNat (0x80 ||| (codepoint >>> 6 &&& 0x3F)), Char.ofNat (0x80 ||| (codepoint &&& 0x3F))]
  else
    [Char.ofNat (0xF0 ||| (codepoint >>> 18 &&& 0xFF)),
      Char.ofNat (0x80 ||| (codepoint >>> 12 &&& 0x3F)),
      Char.ofNat (0x80 ||| (codepoint >>> 6 &&& 0x3F)), Char.ofNat (0x80 ||| (codepoint &&& 0x3F))]

def escape : Char -> Option Char
  | '"' => some '"'
  | '/' => some '/'
  | '\\' => some '\\'
  | 'b' => some '\x08'
  | 'f' => some '\x0c'
  | 'n' => some '\n'
  | 'r' => some '\r'
  | 't' => some '\t'
  | _ => none

/-- Behind `\u`: one code point, possibly as a surrogate pair. -/
def parseUnicode (s : List Char) : Option (List Char × List Char) := do
  let (codepoint, s) <- parseHex4 s
  if 0xD800 ≤ codepoint ∧ codepoint ≤ 0xDBFF then
    let s <- takeWord ['\\', 'u'] s
    let (codepoint2, s) <- parseHex4 s
    if codepoint2 < 0xDC00 ∨ codepoint2 > 0xDFFF then none
    else
      return (encode (((codepoint - 0xD800) <<< 10 ||| (codepoint2 - 0xDC00)) + 0x10000), s)
  else return (encode codepoint, s)

def parseEscape : List Char -> Option (List Char × List Char)
  | [] => none
  | e :: s =>
      match escape e with
      | some c => some ([c], s)
      | none => if e = 'u' then parseUnicode s else none

/-- The loop of `ParseString`, behind the opening quote. -/
def stringLoop : Nat -> List Char -> Option (List Char × List Char)
  | 0, _ => none
  | _ + 1, [] => none
  | rounds + 1, c :: s =>
      if c = '\\' then do
        let (x, s) <- parseEscape s
        let (xs, s) <- stringLoop rounds s
        return (x ++ xs, s)
      else if c = '"' then some ([], s)
      else if c.toNat < 0x20 then none
      else do
        let (xs, s) <- stringLoop rounds s
        return (c :: xs, s)

def parseString (s : List Char) : Option (List Char × List Char) :=
  stringLoop s.length s

/-!
## Numbers
-/

def digit (c : Char) : Nat :=
  c.toNat - '0'.toNat

/--
The loops over the digits of an integer: they stop in front of the digit that
would make the value greater than `10 * limit + last`, and tell so.
-/
def digitsUpTo (limit last : Nat) : Nat -> List Char -> Nat × Bool × List Char
  | i, [] => (i, false, [])
  | i, c :: s =>
      if c.isDigit then
        if limit ≤ i ∧ (i ≠ limit ∨ last < digit c) then (i, true, c :: s)
        else digitsUpTo limit last (i * 10 + digit c) s
      else (i, false, c :: s)

/-- The further digits of an integer that does not fit into 64 bits. -/
def bigDigits : Float -> List Char -> Option (List Char)
  | _, [] => some []
  | d, c :: s =>
      if c.isDigit then
        if d ≥ 1E307 then none else bigDigits (d * 10 + Float.ofNat (digit c)) s
      else some (c :: s)

def parseFrac : List Char -> Option (Bool × List Char)
  | '.' :: c :: s => if c.isDigit then some (true, s.dropWhile Char.isDigit) else none
  | ['.'] => none
  | s => some (false, s)

def expSign : List Char -> List Char
  | '+' :: s => s
  | '-' :: s => s
  | s => s

def expDigits : Nat -> List Char -> Option (List Char)
  | _, [] => some []
  | exp, c :: s =>
      if c.isDigit then
        if exp * 10 + digit c > 308 then none else expDigits (exp * 10 + digit c) s
      else some (c :: s)

def parseExp : List Char -> Option (Bool × List Char)
  | [] => some (false, [])
  | c :: s =>
      if c = 'e' ∨ c = 'E' then
        match expSign s with
        | [] => none
        | c :: s => if c.isDigit then (expDigits (digit c) s).map fun s => (true, s) else none
      else some (false, c :: s)

/-- The part "Parse int", behind the first digit `c`; tells whether 32 bits are too few. -/
def parseInt (minus : Bool) (c : Char) (s : List Char) : Nat × Bool × List Char :=
  if c = '0' then (0, false, s)
  else if minus then digitsUpTo 214748364 8 (digit c) s
  else digitsUpTo 429496729 5 (digit c) s

/-- The part "Parse 64bit int"; tells whether 64 bits are too few. -/
def parseInt64 (minus try64bit : Bool) (i : Nat) (s : List Char) : Nat × Bool × List Char :=
  if try64bit then
    if minus then digitsUpTo 922337203685477580 8 i s
    else digitsUpTo 1844674407370955161 5 i s
  else (i, false, s)

/-- The part "Force double for big integer". -/
def parseBig (useDouble : Bool) (i64 : Nat) (s : List Char) : Option (List Char) :=
  if useDouble then bigDigits (Float.ofNat i64) s else some s

/-- What the value says of `IsInt` and `GetInt`. -/
def numberValue (minus int32 : Bool) (i : Nat) : Json :=
  if int32 = false then .number
  else if minus then .int (-i)
  else if i < 2 ^ 31 then .int i
  else .number

/-- `ParseNumber`, behind the sign. -/
def parseUnsigned (minus : Bool) : List Char -> Option (Json × List Char)
  | [] => none
  | c :: s =>
      if c.isDigit then do
        let (i, try64bit, s) := parseInt minus c s
        let (i64, useDouble, s) := parseInt64 minus try64bit i s
        let s <- parseBig useDouble i64 s
        let (frac, s) <- parseFrac s
        let (exp, s) <- parseExp s
        return (numberValue minus (!(try64bit || frac || exp)) i, s)
      else none

def parseNumber : List Char -> Option (Json × List Char)
  | '-' :: s => parseUnsigned true s
  | s => parseUnsigned false s

/-!
## Values
-/

/-- A string value is read as a C string. -/
def stringValue (cs : List Char) : Json :=
  .string (String.ofList (cs.takeWhile (· ≠ '\x00')))

mutual

def parseValue : Nat -> List Char -> Option (Json × List Char)
  | 0, _ => none
  | _ + 1, [] => none
  | rounds + 1, c :: s =>
      if c = 'n' then parseNull s
      else if c = 't' then parseTrue s
      else if c = 'f' then parseFalse s
      else if c = '"' then (parseString s).map fun r => (stringValue r.1, r.2)
      else if c = '\x7b' then parseObject rounds (skipWhitespace s)
      else if c = '[' then parseArray rounds (skipWhitespace s)
      else parseNumber (c :: s)

/-- `ParseObject`, behind the opening brace and the blanks. -/
def parseObject : Nat -> List Char -> Option (Json × List Char)
  | 0, _ => none
  | _ + 1, [] => none
  | rounds + 1, c :: s =>
      if c = '\x7d' then some (.object [], s)
      else (parseMembers rounds (c :: s)).map fun r => (.object r.1, r.2)

def parseMembers : Nat -> List Char -> Option (List (String × Json) × List Char)
  | 0, _ => none
  | _ + 1, [] => none
  | rounds + 1, c :: s =>
      if c = '"' then do
        let (key, s) <- parseString s
        let s <- takeWord [':'] (skipWhitespace s)
        let (value, s) <- parseValue rounds (skipWhitespace s)
        match skipWhitespace s with
        | ',' :: s =>
            let (members, s) <- parseMembers rounds (skipWhitespace s)
            return ((String.ofList key, value) :: members, s)
        | '\x7d' :: s => return ([(String.ofList key, value)], s)
        | _ => none
      else none

def parseArray : Nat -> List Char -> Option (Json × List Char)
  | 0, _ => none
  | _ + 1, [] => none
  | rounds + 1, c :: s =>
      if c = ']' then some (.array [], s)
      else (parseElements rounds (c :: s)).map fun r => (.array r.1, r.2)

def parseElements : Nat -> List Char -> Option (List Json × List Char)
  | 0, _ => none
  | rounds + 1, s => do
      let (value, s) <- parseValue rounds s
      match skipWhitespace s with
      | ',' :: s =>
          let (values, s) <- parseElements rounds (skipWhitespace s)
          return (value :: values, s)
      | ']' :: s => return ([value], s)
      | _ => none

end

def parseRoot (s : List Char) : Option (Json × List Char) :=
  match s with
  | '\x7b' :: _ | '[' :: _ => parseValue (3 * s.length) s
  | _ => none

/-- `Parse` of the C string `text`; nothing may follow the root. -/
def parse (text : String) : Option Json :=
  match parseRoot (skipWhitespace (text.toList.takeWhile (· ≠ '\x00'))) with
  | some (v, s) => if skipWhitespace s = [] then some v else none
  | none => none

end Rapidjson

end FrProxy
