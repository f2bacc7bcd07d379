import Lifecycle.Json

/-!
# The strict JSON reader

`parseStrictJson` (`validation/strict-json.ts`): JSON text read into a
value, within limits on its bytes, its depth and the values, members and
items in it, refusing a repeated member name and a string that is no
sequence of Unicode scalar values. A refusal names where the reader stood,
in UTF-16 code units.

The text is a sequence of scalar values, as every text is here; an escape
may still spell an unpaired surrogate. A numeral without fraction and
exponent is read exactly, as far as it matters: an integer outside the safe
range is refused whatever it is rounded to. What `Number` makes of any other
numeral is a parameter.

The descent of the source is bounded by the length of the text, and so is
the fuel of `value`: no text uses it up.
-/

open Fallible Json

/-- `StrictJsonOptions`, with the defaults of the source. -/
structure StrictJsonOptions where
  maximumBytes : Nat := 4 * 1024 * 1024
  maximumDepth : Nat := 256
  maximumNodes : Nat := 1000000
  maximumObjectProperties : Nat := 100000
  maximumArrayItems : Nat := 100000
  source : String := "JSON"

namespace StrictJson

/-! ## Reading -/

/-- **Where the reader stands**: the code units behind it, the values it has
counted and the text it has not read. -/
structure Reading where
  index : Nat
  nodes : Nat
  rest : List Char

/-- How many code units a text has. -/
def codeUnits (cs : List Char) : Nat := (cs.flatMap utf16Units).length

/-- The reader behind some characters. -/
def Reading.past (s : Reading) (read rest : List Char) : Reading :=
  { s with index := s.index + codeUnits read, rest := rest }

/-- The reader behind one character of the syntax. -/
def Reading.next (s : Reading) : Reading :=
  { s with index := s.index + 1, rest := s.rest.tail }

/-- `/[\u0009\u000a\u000d\u0020]/u`. -/
def isBlank (c : Char) : Bool := c = '\t' || c = '\n' || c = '\r' || c = ' '

/-- `whitespace`. -/
def Reading.blank (s : Reading) : Reading :=
  s.past (s.rest.takeWhile isBlank) (s.rest.dropWhile isBlank)

/-- `fail`. -/
def fail (o : StrictJsonOptions) (index : Nat) (message : String) : FoundationError :=
  let source := o.source
  lifecycleError "foundation.json.parse" s!"{source}: {message} at code-unit offset {index}"

/-! ## Strings -/

/-- `/[0-9A-Fa-f]/u`, and the digit's value. -/
def hexValue (c : Char) : Option Nat :=
  if 48 ≤ c.toNat ∧ c.toNat ≤ 57 then some (c.toNat - 48)
  else if 65 ≤ c.toNat ∧ c.toNat ≤ 70 then some (c.toNat - 55)
  else if 97 ≤ c.toNat ∧ c.toNat ≤ 102 then some (c.toNat - 87)
  else none

/-- The code unit four hexadecimal digits spell. -/
def hexUnit (a b c d : Char) : Option Nat := do
  let a ← hexValue a
  let b ← hexValue b
  let c ← hexValue c
  let d ← hexValue d
  return 4096 * a + 256 * b + 16 * c + d

/-- `/["\\/bfnrt]/u`, and the code unit the escape stands for. -/
def escapedUnit (c : Char) : Option Nat :=
  match c.toNat with
  | 34 => some 34
  | 92 => some 92
  | 47 => some 47
  | 98 => some 8
  | 102 => some 12
  | 110 => some 10
  | 114 => some 13
  | 116 => some 9
  | _ => none

/-- What a string literal is read into: its code units, and where the reader
stands behind it. -/
structure Literal where
  units : List Nat
  index : Nat
  rest : List Char

/-- A literal with some code units in front. -/
def Literal.cons (units : List Nat) (l : Literal) : Literal := { l with units := units ++ l.units }

/-- The code units of a string literal, from behind its opening quote. -/
def stringUnits (o : StrictJsonOptions) (index : Nat) : List Char → Except FoundationError Literal
  | [] => .error (fail o index "unterminated JSON string")
  | c :: cs =>
    if c = '"' then .ok ⟨[], index + 1, cs⟩
    else if c = '\\' then
      match cs with
      | [] => .error (fail o (index + 1) "truncated JSON escape")
      | e :: cs =>
        if e = 'u' then
          match cs with
          | a :: b :: c :: d :: cs =>
            match hexUnit a b c d with
            | some unit => (stringUnits o (index + 6) cs).map (Literal.cons [unit])
            | none => .error (fail o (index + 1) "malformed Unicode escape")
          | _ => .error (fail o (index + 1) "malformed Unicode escape")
        else
          match escapedUnit e with
          | some unit => (stringUnits o (index + 2) cs).map (Literal.cons [unit])
          | none => .error (fail o (index + 1) "unsupported JSON escape")
    else if c.toNat ≤ 31 then
      .error (fail o index "unescaped control character in JSON string")
    else
      (stringUnits o (index + (utf16Units c).length) cs).map (Literal.cons (utf16Units c))

/-- **The text of UTF-16 code units**, when no surrogate is unpaired. -/
def decodeUnits : List Nat → Option (List Char)
  | [] => some []
  | u :: us =>
    if 55296 ≤ u ∧ u < 56320 then
      match us with
      | [] => none
      | v :: us =>
        if 56320 ≤ v ∧ v < 57344 then
          (decodeUnits us).map
            (Char.ofNat (65536 + 1024 * (u - 55296) + (v - 56320)) :: ·)
        else none
    else if 56320 ≤ u ∧ u < 57344 then none
    else (decodeUnits us).map (Char.ofNat u :: ·)

/-- `stringValue`. -/
def stringValue (o : StrictJsonOptions) (s : Reading) :
    Except FoundationError (String × Reading) := do
  failIf (s.rest.head? ≠ some '"') (fail o s.index "expected a JSON string")
  let l ← stringUnits o (s.index + 1) s.rest.tail
  let cs ← orFail (decodeUnits l.units)
    (fail o l.index "JSON string contains an unpaired surrogate")
  return (String.ofList cs, { s with index := l.index, rest := l.rest })

/-- A hexadecimal digit of an escape `JSON.stringify` writes. -/
def hexChar (n : Nat) : Char := Char.ofNat (if n < 10 then 48 + n else 87 + n)

/-- One character of a text as `JSON.stringify` writes it. -/
def escapeChar (c : Char) : List Char :=
  match c.toNat with
  | 34 => ['\\', '"']
  | 92 => ['\\', '\\']
  | 8 => ['\\', 'b']
  | 9 => ['\\', 't']
  | 10 => ['\\', 'n']
  | 12 => ['\\', 'f']
  | 13 => ['\\', 'r']
  | n => if n < 32 then ['\\', 'u', '0', '0', hexChar (n / 16), hexChar (n % 16)] else [c]

/-- `JSON.stringify` of a text. -/
def stringified (s : String) : List Char := '"' :: s.toList.flatMap escapeChar ++ ['"']

/-! ## Numbers -/

/-- `/[0-9]/`. -/
def isDigit (c : Char) : Bool := 48 ≤ c.toNat && c.toNat ≤ 57

/-- `0|[1-9][0-9]*`, and the text behind it. -/
def wholePart : List Char → Option (List Char × List Char)
  | [] => none
  | c :: cs =>
    if c = '0' then some ([c], cs)
    else if isDigit c then some (c :: cs.takeWhile isDigit, cs.dropWhile isDigit)
    else none

/-- `(?:\.[0-9]+)?`. -/
def fractionPart : List Char → List Char × List Char
  | [] => ([], [])
  | c :: cs =>
    if c = '.' ∧ cs.takeWhile isDigit ≠ [] then (c :: cs.takeWhile isDigit, cs.dropWhile isDigit)
    else ([], c :: cs)

/-- `[+-]?`. -/
def signPart : List Char → List Char × List Char
  | [] => ([], [])
  | c :: cs => if c = '+' ∨ c = '-' then ([c], cs) else ([], c :: cs)

/-- `(?:[eE][+-]?[0-9]+)?`. -/
def exponentPart : List Char → List Char × List Char
  | [] => ([], [])
  | c :: cs =>
    let sign := signPart cs
    if (c = 'e' ∨ c = 'E') ∧ sign.2.takeWhile isDigit ≠ [] then
      (c :: sign.1 ++ sign.2.takeWhile isDigit, sign.2.dropWhile isDigit)
    else ([], c :: cs)

/-- **A numeral**: its sign, its digits, its fraction with its exponent, and
the text behind it. -/
structure Numeral where
  sign : List Char
  whole : List Char
  tail : List Char
  rest : List Char

/-- The longest numeral a text begins with. -/
def numeral (cs : List Char) : Option Numeral :=
  let sign := if cs.head? = some '-' then ['-'] else []
  (wholePart (cs.drop sign.length)).map fun whole =>
    let fraction := fractionPart whole.2
    let exponent := exponentPart fraction.2
    { sign := sign, whole := whole.1, tail := fraction.1 ++ exponent.1, rest := exponent.2 }

/-- The first integer `Number` rounds to an infinity. -/
def firstInfinite : Nat := 2 ^ 1024 - 2 ^ 970

/-- `Number` of an integer numeral: the integer itself, where a double can be
told from it. -/
def integerNumber (sign : List Char) (n : Nat) : JsNumber :=
  if firstInfinite ≤ n then .nonFinite "Infinity"
  else .integer (if sign = [] then (n : Int) else -(n : Int))

/-- `Number` of a numeral. -/
def Numeral.value (number : String → JsNumber) (n : Numeral) : JsNumber :=
  if n.tail = [] then integerNumber n.sign (Nat.ofDigitChars 10 n.whole 0)
  else number (String.ofList (n.sign ++ n.whole ++ n.tail))

/-- What the reader admits of the numbers. -/
def admitNumber (o : StrictJsonOptions) (index : Nat) :
    JsNumber → Except FoundationError JsNumber
  | .nonFinite _ => .error (fail o index "JSON number is outside the finite IEEE-754 domain")
  | .fraction text => .ok (.fraction text)
  | .integer n => do
    failIf (maxSafeInteger < n.natAbs)
      (fail o index "JSON integer exceeds the safe interoperable range")
    return .integer n

/-- `numberValue`. -/
def numberValue (o : StrictJsonOptions) (number : String → JsNumber) (s : Reading) :
    Except FoundationError (Json × Reading) := do
  let n ← orFail (numeral s.rest) (fail o s.index "malformed JSON number")
  let behind := s.past (n.sign ++ n.whole ++ n.tail) n.rest
  let v ← admitNumber o behind.index (n.value number)
  return (.number v, behind)

/-- `literal`. -/
def literal (o : StrictJsonOptions) (token : String) (v : Json) (s : Reading) :
    Except FoundationError (Json × Reading) := do
  failIf (¬ token.toList <+: s.rest) (fail o s.index s!"expected {token}")
  return (v, s.past token.toList (s.rest.drop token.toList.length))

/-! ## Values -/

mutual
/-- **`value`**: the value the text goes on with. -/
def value (o : StrictJsonOptions) (number : String → JsNumber) :
    Nat → Nat → Reading → Except FoundationError (Json × Reading)
  | 0, _, s => .error (fail o s.index "exhausted")
  | fuel + 1, depth, s => do
    let maximumNodes := o.maximumNodes
    let maximumDepth := o.maximumDepth
    let start : Reading := { s.blank with nodes := s.nodes + 1 }
    failIf (maximumNodes < start.nodes)
      (fail o start.index s!"JSON value exceeds {maximumNodes} nodes")
    failIf (maximumDepth < depth) (fail o start.index s!"JSON value exceeds depth {maximumDepth}")
    let token := start.rest.head?
    if token = some '{' then objectValue o number fuel depth start
    else if token = some '[' then arrayValue o number fuel depth start
    else if token = some '"' then (stringValue o start).map fun r => (.string r.1, r.2)
    else if token = some 't' then literal o "true" (.bool true) start
    else if token = some 'f' then literal o "false" (.bool false) start
    else if token = some 'n' then literal o "null" .null start
    else numberValue o number start

/-- `arrayValue`. -/
def arrayValue (o : StrictJsonOptions) (number : String → JsNumber) :
    Nat → Nat → Reading → Except FoundationError (Json × Reading)
  | 0, _, s => .error (fail o s.index "exhausted")
  | fuel + 1, depth, s =>
    let start := s.next.blank
    if start.rest.head? = some ']' then .ok (.array [], start.next)
    else (arrayItems o number fuel depth 0 start).map fun r => (.array r.1, r.2)

/-- The loop of `arrayValue`, some items read. -/
def arrayItems (o : StrictJsonOptions) (number : String → JsNumber) :
    Nat → Nat → Nat → Reading → Except FoundationError (List Json × Reading)
  | 0, _, _, s => .error (fail o s.index "exhausted")
  | fuel + 1, depth, count, s => do
    let maximumArrayItems := o.maximumArrayItems
    failIf (s.rest = []) (fail o s.index "unterminated JSON array")
    failIf (maximumArrayItems ≤ count)
      (fail o s.index s!"JSON array exceeds {maximumArrayItems} items")
    let r ← value o number fuel (depth + 1) s
    let behind := r.2.blank
    if behind.rest.head? = some ']' then return ([r.1], behind.next)
    else
      failIf (behind.rest.head? ≠ some ',') (fail o behind.index "expected comma or array end")
      let more ← arrayItems o number fuel depth (count + 1) behind.next.blank
      return (r.1 :: more.1, more.2)

/-- `objectValue`. -/
def objectValue (o : StrictJsonOptions) (number : String → JsNumber) :
    Nat → Nat → Reading → Except FoundationError (Json × Reading)
  | 0, _, s => .error (fail o s.index "exhausted")
  | fuel + 1, depth, s =>
    let start := s.next.blank
    if start.rest.head? = some '}' then .ok (.object [], start.next)
    else (objectMembers o number fuel depth [] start).map fun r => (.object r.1, r.2)

/-- The loop of `objectValue`, some members read under `keys`. -/
def objectMembers (o : StrictJsonOptions) (number : String → JsNumber) :
    Nat → Nat → List String → Reading → Except FoundationError (JsonObject × Reading)
  | 0, _, _, s => .error (fail o s.index "exhausted")
  | fuel + 1, depth, keys, s => do
    let maximumObjectProperties := o.maximumObjectProperties
    failIf (s.rest = []) (fail o s.index "unterminated JSON object")
    failIf (maximumObjectProperties ≤ keys.length)
      (fail o s.index s!"JSON object exceeds {maximumObjectProperties} properties")
    let key ← stringValue o s
    let repeated := String.ofList (stringified key.1)
    failIf (key.1 ∈ keys) (fail o key.2.index s!"duplicate JSON object key {repeated}")
    let colon := key.2.blank
    failIf (colon.rest.head? ≠ some ':') (fail o colon.index "expected colon after object key")
    let r ← value o number fuel (depth + 1) colon.next.blank
    let behind := r.2.blank
    if behind.rest.head? = some '}' then return ([(key.1, r.1)], behind.next)
    else
      failIf (behind.rest.head? ≠ some ',') (fail o behind.index "expected comma or object end")
      let more ← objectMembers o number fuel depth (keys ++ [key.1]) behind.next.blank
      return ((key.1, r.1) :: more.1, more.2)
end

/-- The limits of the options, each a positive safe integer. -/
def checkLimits (o : StrictJsonOptions) : Except FoundationError Unit :=
  let source := o.source
  [("maximumBytes", o.maximumBytes), ("maximumDepth", o.maximumDepth),
    ("maximumNodes", o.maximumNodes), ("maximumObjectProperties", o.maximumObjectProperties),
    ("maximumArrayItems", o.maximumArrayItems)].forM fun limit =>
    let label := limit.1
    failIf (limit.2 < 1 ∨ maxSafeInteger < limit.2) (lifecycleError "foundation.json.limit"
      s!"{source} {label} must be one positive safe integer")

end StrictJson

open StrictJson

/-- **`parseStrictJson`**: the value a text spells. -/
def parseStrictJson (number : String → JsNumber) (text : String) (o : StrictJsonOptions) :
    Except FoundationError Json := do
  let source := o.source
  let maximumBytes := o.maximumBytes
  checkLimits o
  failIf (maximumBytes < byteLength text)
    (lifecycleError "foundation.json.size" s!"{source} exceeds {maximumBytes} bytes")
  failIf (Char.ofNat 0 ∈ text.toList)
    (lifecycleError "foundation.json.nul" s!"{source} contains a NUL byte")
  let r ← value o number (2 * text.toList.length + 2) 1 ⟨0, 0, text.toList⟩
  let behind := r.2.blank
  failIf (behind.rest ≠ []) (fail o behind.index "trailing JSON content")
  return r.1
