import Triptych.Json.Value
import Triptych.Json.Quoted

/-!
# Reading JSON

A text is first cut into tokens, each with the byte offset at which it starts; then a machine with a
stack of open arrays and objects puts the tokens together. Both are plain recursions: the lexer on
the text, the machine on the tokens.

A fault in a token (a misspelt word, a broken string) becomes a token itself, the last one, so that
it is reported only if the text before it is in order. Every `Json.Fault` holds a cause and the
number of bytes that were read when it showed; `Json.Fault.message` turns that into a line and a
column, which here count bytes.
-/

namespace Triptych.Json

/-! ### Faults -/

/-- Why a text is not JSON. -/
inductive Cause where
  | endInArray
  | endInObject
  | endInString
  | endInValue
  | colonExpected
  | arrayCommaOrEnd
  | objectCommaOrEnd
  | wordExpected
  | valueExpected
  | keyExpected
  | badEscape
  | loneSurrogate
  | controlCharacter
  | badNumber
  | numberTooLarge
  | trailingComma
  | trailingText
  | tooDeep
deriving DecidableEq, Repr

/-- The wording of a cause. -/
def Cause.message : Cause → String
  | .endInArray => "EOF while parsing a list"
  | .endInObject => "EOF while parsing an object"
  | .endInString => "EOF while parsing a string"
  | .endInValue => "EOF while parsing a value"
  | .colonExpected => "expected `:`"
  | .arrayCommaOrEnd => "expected `,` or `]`"
  | .objectCommaOrEnd => "expected `,` or `\x7d`"
  | .wordExpected => "expected ident"
  | .valueExpected => "expected value"
  | .keyExpected => "key must be a string"
  | .badEscape => "invalid escape"
  | .loneSurrogate => "lone leading surrogate in hex escape"
  | .controlCharacter => "control character (\\u0000-\\u001F) found while parsing a string"
  | .badNumber => "invalid number"
  | .numberTooLarge => "number out of range"
  | .trailingComma => "trailing comma"
  | .trailingText => "trailing characters"
  | .tooDeep => "recursion limit exceeded"

/-- The cause that a fault in a quoted text stands for. -/
def QuoteFault.cause : QuoteFault → Cause
  | .unterminated => .endInString
  | .badEscape => .badEscape
  | .loneSurrogate => .loneSurrogate
  | .controlCharacter => .controlCharacter

/-- A cause and the number of bytes that were read when it showed. -/
structure Fault where
  cause : Cause
  offset : Nat
deriving DecidableEq, Repr

/-- The line, and the bytes of it that were read, after `offset` bytes. -/
def byteLocation (line column : Nat) : List Char → Nat → Nat × Nat
  | [], _ => (line, column)
  | c :: cs, offset =>
    if offset = 0 then (line, column)
    else if c = '\n' then byteLocation (line + 1) 0 cs (offset - 1)
    else byteLocation line (column + min offset c.utf8Size) cs (offset - c.utf8Size)

/-- The cause with its place in the text. -/
def Fault.message (fault : Fault) (text : List Char) : String :=
  let (line, column) := byteLocation 1 0 text fault.offset
  s!"{fault.cause.message} at line {line} column {column}"

/-! ### Numbers -/

/-- The natural number that a list of digits writes. -/
def digitsValue (digits : List Char) : Nat :=
  digits.foldl (fun n c => 10 * n + (c.toNat - 48)) 0

/-- Appends digits to a number as long as it fits into 64 bits, and returns the digits that are left
then. -/
def appendDigits (n : Nat) : List Char → Nat × List Char
  | [] => (n, [])
  | c :: digits =>
    let next := 10 * n + (c.toNat - 48)
    if next < Nat.pow 2 64 then appendDigits next digits else (n, c :: digits)

/-- A number with a sign as a double. -/
def real? (negative : Bool) (significand : Nat) (power : Int) : Option JsonNumber :=
  (Binary64.scaled? significand power).map (.real negative)

/-- A number without fraction and exponent: whole when it fits into 64 bits, else a double. A minus
sign before zero is kept, which only doubles can do. -/
def integer? (negative : Bool) (whole : List Char) : Option JsonNumber :=
  let (n, left) := appendDigits 0 whole
  if !left.isEmpty then real? negative n left.length
  else if !negative then some (.whole n)
  else if n = 0 || Nat.pow 2 63 < n then real? true n 0
  else some (.whole (-n))

/-- A number with a fraction or an exponent, as a double. Its digits count as far as they fit into
64 bits; of those left over before the point it matters only how many they are, those left over
after it do not matter. -/
def decimal? (negative : Bool) (whole fraction : List Char) (exponent : Int) : Option JsonNumber :=
  let (n, wholeLeft) := appendDigits 0 whole
  let (significand, fractionLeft) := appendDigits n fraction
  let places : Int := fraction.length - fractionLeft.length
  real? negative significand (wholeLeft.length - places + exponent)

/-- The exponent part of a number, 0 when there is none: its value, whether it was written, and the
rest. -/
def scanExponent : List Char → Option (Int × Bool × List Char)
  | c :: rest =>
    if c = 'e' || c = 'E' then
      let (negative, rest) := match rest with
        | '-' :: rest => (true, rest)
        | '+' :: rest => (false, rest)
        | rest => (false, rest)
      let digits := rest.takeWhile Text.isAsciiDigit
      if digits.isEmpty then none
      else
        let value : Int := digitsValue digits
        some (if negative then -value else value, true, rest.dropWhile Text.isAsciiDigit)
    else some (0, false, c :: rest)
  | [] => some (0, false, [])

/-- The fraction part of a number: its digits, none when there is no point, and the rest. -/
def scanFraction : List Char → Option (List Char × List Char)
  | '.' :: rest =>
    let digits := rest.takeWhile Text.isAsciiDigit
    if digits.isEmpty then none else some (digits, rest.dropWhile Text.isAsciiDigit)
  | rest => some ([], rest)

/-- Reads a number whose sign has been taken off. Of numbers that start with a zero only the zero
itself may stand before the point. -/
def scanNumber (negative : Bool) (text : List Char) : Except Cause (JsonNumber × List Char) := do
  let whole := text.takeWhile Text.isAsciiDigit
  let rest := text.dropWhile Text.isAsciiDigit
  if whole.isEmpty || (whole.head? == some '0' && whole.length != 1) then throw .badNumber
  let some (fraction, rest) := scanFraction rest | throw .badNumber
  let some (exponent, scientific, rest) := scanExponent rest | throw .badNumber
  let result? :=
    if fraction.isEmpty && !scientific then integer? negative whole
    else decimal? negative whole fraction exponent
  match result? with
  | some result => return (result, rest)
  | none => throw .numberTooLarge

/-! ### Tokens -/

/-- The parts of a JSON text. -/
inductive Token where
  | openArray
  | closeArray
  | openObject
  | closeObject
  | colon
  | comma
  | string (value : String)
  | scalar (value : Json)
  | brokenString (fault : Fault)
  | brokenScalar (fault : Fault)
  | finish
deriving Repr

/-- Blanks between the parts of a JSON text. -/
def isSpace (c : Char) : Bool :=
  c == ' ' || c == '\t' || c == '\n' || c == '\r'

/-- Reads the remaining letters of a word; `offset` is where they start. -/
def scanWord (offset : Nat) : List Char → List Char → Except Fault (List Char)
  | [], rest => .ok rest
  | _ :: _, [] => .error ⟨.endInValue, offset⟩
  | e :: expected, c :: rest =>
    if e = c then scanWord (offset + c.utf8Size) expected rest
    else .error ⟨.wordExpected, offset + c.utf8Size⟩

/-- The token that starts with the character `c` at `offset`, and the rest of the text. -/
def lex (offset : Nat) (c : Char) (cs : List Char) : Token × List Char :=
  match c with
  | '[' => (.openArray, cs)
  | ']' => (.closeArray, cs)
  | '{' => (.openObject, cs)
  | '}' => (.closeObject, cs)
  | ':' => (.colon, cs)
  | ',' => (.comma, cs)
  | '"' =>
    match unquote [] cs with
    | .ok (value, rest) => (.string (String.ofList value), rest)
    | .error (fault, rest) =>
      let read := Text.byteLength cs - Text.byteLength rest
      (.brokenString ⟨fault.cause, offset + 1 + read⟩, [])
  | 't' => word ['r', 'u', 'e'] (.bool true)
  | 'f' => word ['a', 'l', 's', 'e'] (.bool false)
  | 'n' => word ['u', 'l', 'l'] .null
  | '-' => number true cs
  | c => if Text.isAsciiDigit c then number false (c :: cs) else broken ⟨.valueExpected, offset + 1⟩
where
  broken (fault : Fault) : Token × List Char := (.brokenScalar fault, [])
  word (letters : List Char) (value : Json) : Token × List Char :=
    match scanWord (offset + 1) letters cs with
    | .ok rest => (.scalar value, rest)
    | .error fault => broken fault
  number (negative : Bool) (text : List Char) : Token × List Char :=
    match scanNumber negative text with
    | .ok (value, rest) => (.scalar (.number value), rest)
    | .error cause => broken ⟨cause, offset + 1⟩

/-- The tokens of a text with the offsets at which they start. The last one is `finish` or broken.
Each token takes at least one character, so `fuel`, the length of the text, is never used up. -/
def tokens (fuel : Nat) (offset : Nat) (text : List Char) : List (Nat × Token) :=
  match fuel, text with
  | _, [] => [(offset, .finish)]
  | 0, _ => [(offset, .finish)]
  | fuel + 1, c :: cs =>
    if isSpace c then tokens fuel (offset + c.utf8Size) cs
    else
      match lex offset c cs with
      | (.brokenString fault, _) => [(offset, .brokenString fault)]
      | (.brokenScalar fault, _) => [(offset, .brokenScalar fault)]
      | (token, rest) =>
        let stop := offset + (Text.byteLength (c :: cs) - Text.byteLength rest)
        (offset, token) :: tokens fuel stop rest

/-! ### Values -/

/-- An array or object whose end has not been read, its parts newest first. -/
inductive Open where
  | array (items : List Json)
  | object (members : List (String × Json)) (key : String)

/-- What the machine waits for. `first` marks the place right after an opening bracket. -/
inductive Wanted where
  | value (first : Bool)
  | key (first : Bool)
  | colon
  | separator
  | nothing (result : Json)

/-- The deepest nesting that is read. -/
def maxDepth : Nat := 127

/-- Hands a finished value to the innermost open array or object. -/
def supply (value : Json) : List Open → Wanted × List Open
  | [] => (.nothing value, [])
  | .array items :: outer => (.separator, .array (value :: items) :: outer)
  | .object members key :: outer => (.separator, .object ((key, value) :: members) "" :: outer)

/-- Puts tokens together to one value, after which nothing but the end may follow. -/
def assemble (wanted : Wanted) (stack : List Open) : List (Nat × Token) → Except Fault Json
  | [] => .error ⟨.endInValue, 0⟩
  | (start, token) :: rest =>
    let complete (value : Json) (stack : List Open) : Except Fault Json :=
      let (wanted, stack) := supply value stack
      assemble wanted stack rest
    match wanted, token, stack with
    | .nothing result, .finish, _ => .ok result
    | .nothing _, _, _ => .error ⟨.trailingText, start + 1⟩
    | .value _, .string text, _ => complete (.string text) stack
    | .value _, .scalar value, _ => complete value stack
    | .value _, .openArray, _ =>
      if stack.length < maxDepth then assemble (.value true) (.array [] :: stack) rest
      else .error ⟨.tooDeep, start + 1⟩
    | .value _, .openObject, _ =>
      if stack.length < maxDepth then assemble (.key true) (.object [] "" :: stack) rest
      else .error ⟨.tooDeep, start + 1⟩
    | .value true, .closeArray, .array items :: outer => complete (.array items.reverse) outer
    | .value false, .closeArray, .array _ :: _ => .error ⟨.trailingComma, start + 1⟩
    | .value true, .finish, .array _ :: _ => .error ⟨.endInArray, start⟩
    | .value _, .finish, _ => .error ⟨.endInValue, start⟩
    | .value _, .brokenString fault, _ => .error fault
    | .value _, .brokenScalar fault, _ => .error fault
    | .value _, _, _ => .error ⟨.valueExpected, start + 1⟩
    | .key _, .string key, .object members _ :: outer =>
      assemble .colon (.object members key :: outer) rest
    | .key true, .closeObject, .object members _ :: outer =>
      complete (.object members.reverse) outer
    | .key false, .closeObject, _ => .error ⟨.trailingComma, start + 1⟩
    | .key true, .finish, _ => .error ⟨.endInObject, start⟩
    | .key false, .finish, _ => .error ⟨.endInValue, start⟩
    | .key _, .brokenString fault, _ => .error fault
    | .key _, _, _ => .error ⟨.keyExpected, start + 1⟩
    | .colon, .colon, _ => assemble (.value false) stack rest
    | .colon, .finish, _ => .error ⟨.endInObject, start⟩
    | .colon, _, _ => .error ⟨.colonExpected, start + 1⟩
    | .separator, .comma, .array _ :: _ => assemble (.value false) stack rest
    | .separator, .comma, .object _ _ :: _ => assemble (.key false) stack rest
    | .separator, .closeArray, .array items :: outer => complete (.array items.reverse) outer
    | .separator, .closeObject, .object members _ :: outer =>
      complete (.object members.reverse) outer
    | .separator, .finish, .array _ :: _ => .error ⟨.endInArray, start⟩
    | .separator, .finish, _ => .error ⟨.endInObject, start⟩
    | .separator, _, .array _ :: _ => .error ⟨.arrayCommaOrEnd, start + 1⟩
    | .separator, _, _ => .error ⟨.objectCommaOrEnd, start + 1⟩

/-- Reads a JSON text. -/
def parse (text : List Char) : Except Fault Json :=
  assemble (.value false) [] (tokens text.length 0 text)

end Triptych.Json
