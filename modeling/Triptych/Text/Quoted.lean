import Triptych.Text.Basic
import Triptych.Text.Invisible
import Triptych.Text.Unassigned

/-!
# Quoted texts in logs

The form in which logs and debugging output show a text: between quotes, with the quote, the
backslash and everything that would not show on its own escaped. Characters that would not show are
control characters, blanks other than the space, characters without a shape of their own and code
points to which no character is assigned; they are written by number.
-/

namespace Triptych.Text

/-- True of a control character. -/
def isControl (c : Char) : Bool :=
  c.toNat < 0x20 || (0x7F ≤ c.toNat && c.toNat < 0xA0)

/-- True of a character that is only seen on the one before it. The two halfwidth voicing marks
extend the character before them but are also seen alone. -/
def isAttached (c : Char) : Bool :=
  (CharSet.extending.contains c || CharSet.newlyExtending.contains c) && c != '\uff9e' &&
    c != '\uff9f'

/-- True of a character that shows on its own. -/
def isShown (c : Char) : Bool :=
  c == ' ' ||
    !(isControl c || isBlank c || isAttached c || CharSet.ignorable.contains c ||
      CharSet.format.contains c ||
      CharSet.privateUse.contains c || CharSet.isUnassigned c)

/-- What stands for a character in a quoted text. -/
def showChar (c : Char) : List Char :=
  if c = '"' then ['\\', '"']
  else if c = '\\' then ['\\', '\\']
  else if c = '\n' then ['\\', 'n']
  else if c = '\r' then ['\\', 'r']
  else if c = '\t' then ['\\', 't']
  else if c.toNat = 0 then ['\\', '0']
  else if isShown c then [c]
  else ['\\', 'u', '{'] ++ Nat.toDigits 16 c.toNat ++ ['}']

/-- The text between quotes, its characters escaped. -/
def showQuoted (text : String) : String :=
  "\"" ++ String.ofList (text.toList.flatMap showChar) ++ "\""

/-- A text that may be missing. -/
def showOption (text : Option String) : String :=
  match text with
  | none => "None"
  | some text => "Some(" ++ showQuoted text ++ ")"

/-- A list of texts. -/
def showList (texts : List String) : String :=
  "[" ++ ", ".intercalate (texts.map showQuoted) ++ "]"

end Triptych.Text
