import Triptych.Text.Basic

/-!
# Quoted JSON strings

Writing a text as a JSON string and reading it back. The written form escapes the quote, the
backslash and the characters below U+0020, and nothing else: a quoted text therefore never holds a
line break, and all other characters stand for themselves.

Reading accepts every escape of the format. Of the escapes by number, a leading surrogate must be
followed by a trailing one, and the two name one character.
-/

namespace Triptych.Json

/-! ### Writing -/

/-- The digit character for a value below sixteen, small letters above nine. -/
def hexDigit (n : Nat) : Char :=
  if n < 10 then Char.ofNat (48 + n) else Char.ofNat (87 + n)

/-- What stands for a character inside a quoted text. -/
def escape (c : Char) : List Char :=
  if c = '"' then ['\\', '"']
  else if c = '\\' then ['\\', '\\']
  else if c = '\x08' then ['\\', 'b']
  else if c = '\x0c' then ['\\', 'f']
  else if c = '\n' then ['\\', 'n']
  else if c = '\r' then ['\\', 'r']
  else if c = '\t' then ['\\', 't']
  else if c.toNat < 0x20 then
    ['\\', 'u', '0', '0', hexDigit (c.toNat / 16), hexDigit (c.toNat % 16)]
  else [c]

/-- The text between quotes, its characters escaped. -/
def quote (text : List Char) : List Char :=
  '"' :: (text.flatMap escape ++ ['"'])

/-! ### Reading -/

/-- Why a quoted text cannot be read. -/
inductive QuoteFault where
  | unterminated
  | badEscape
  | loneSurrogate
  | controlCharacter
deriving DecidableEq, Repr

/-- The value of a hexadecimal digit. -/
def hexValue? (c : Char) : Option Nat :=
  if '0' ≤ c && c ≤ '9' then some (c.toNat - 48)
  else if 'a' ≤ c && c ≤ 'f' then some (c.toNat - 87)
  else if 'A' ≤ c && c ≤ 'F' then some (c.toNat - 55)
  else none

/-- The value of four hexadecimal digits. -/
def hex4? (a b c d : Char) : Option Nat := do
  let a ← hexValue? a
  let b ← hexValue? b
  let c ← hexValue? c
  let d ← hexValue? d
  return ((a * 16 + b) * 16 + c) * 16 + d

/-- The character that a one-letter escape names. -/
def letterEscape? (c : Char) : Option Char :=
  match c with
  | '"' => some '"'
  | '\\' => some '\\'
  | '/' => some '/'
  | 'b' => some '\x08'
  | 'f' => some '\x0c'
  | 'n' => some '\n'
  | 'r' => some '\r'
  | 't' => some '\t'
  | _ => none

/-- True of the first half of a surrogate pair. -/
def isLeadingSurrogate (n : Nat) : Bool :=
  0xD800 ≤ n && n ≤ 0xDBFF

/-- True of the second half of a surrogate pair. -/
def isTrailingSurrogate (n : Nat) : Bool :=
  0xDC00 ≤ n && n ≤ 0xDFFF

/-- The character that a surrogate pair names. -/
def pairChar (leading trailing : Nat) : Char :=
  Char.ofNat (0x10000 + (leading - 0xD800) * 0x400 + (trailing - 0xDC00))

/-- Reads the rest of a quoted text after its opening quote: the characters it stands for, in front
of `done` which holds those read before, newest first, and what follows the closing quote. With a
fault comes the text after the characters that were read. -/
def unquote (done : List Char) : List Char → Except (QuoteFault × List Char) (List Char × List Char)
  | [] => .error (.unterminated, [])
  | '"' :: rest => .ok (done.reverse, rest)
  | '\\' :: 'u' :: a :: b :: c :: d :: rest =>
    match hex4? a b c d with
    | none => .error (.badEscape, rest)
    | some n =>
      if isTrailingSurrogate n then .error (.loneSurrogate, rest)
      else if isLeadingSurrogate n then
        match rest with
        | '\\' :: 'u' :: e :: f :: g :: h :: rest =>
          match hex4? e f g h with
          | none => .error (.badEscape, rest)
          | some m =>
            if isTrailingSurrogate m then unquote (pairChar n m :: done) rest
            else .error (.loneSurrogate, rest)
        | rest => .error (.loneSurrogate, rest)
      else unquote (Char.ofNat n :: done) rest
  | '\\' :: c :: rest =>
    match letterEscape? c with
    | some escaped => unquote (escaped :: done) rest
    | none => if c = 'u' then .error (.unterminated, []) else .error (.badEscape, rest)
  | c :: rest =>
    if c = '\\' then .error (.unterminated, [])
    else if c.toNat < 0x20 then .error (.controlCharacter, rest)
    else unquote (c :: done) rest
termination_by cs => cs.length

end Triptych.Json
