import Triptych.Stylesheet.Item
import Triptych.Stylesheet.Value
import Triptych.Number.Binary64

/-!
# Smaller stylesheets

A stylesheet is written again from its items. Where blanks or comments stood between two items one
space is written, but only if it can matter: not after an opening or separating delimiter, and not
before one that never needs it. The last semicolon of a block is dropped. From a colon to the end of
the declaration words are values and take their shortest form.
-/

namespace Triptych.Stylesheet

open Text

/-- The delimiters after which no space is written. -/
def looseAfter : List Char :=
  ['{', '}', ';', ':', ',', '>', '~', '(']

/-- The delimiters before which no space is written. -/
def tightBefore : List Char :=
  ['{', '}', ';', ',', '>', '~', ')']

/-- True when a space may be written after `written`, which holds the last character first. -/
def admitsSpace (written : List Char) : Bool :=
  match written with
  | [] => false
  | last :: _ => !looseAfter.contains last

/-- What has been written, the last character first, and a space after it if one is asked for and
may be written. -/
def separate (spaced : Bool) (written : List Char) : List Char :=
  if spaced && admitsSpace written then ' ' :: written else written

/-- Whether words are values after a delimiter, given whether they were before it. -/
def inValueAfter (delimiter : Char) (inValue : Bool) : Bool :=
  if delimiter = ':' then true
  else if delimiter = '{' || delimiter = '}' || delimiter = ';' then false
  else inValue

/-- What has been written without the semicolon that the end of a block makes needless. -/
def dropSemicolon (delimiter : Char) (written : List Char) : List Char :=
  match delimiter, written with
  | '}', ';' :: written => written
  | _, written => written

/-- Writes items after what has been written, the last character first, given whether words are
values. -/
def write (inValue : Bool) (written : List Char) : List Item → List Char
  | [] => written
  | .string spaced chars :: items =>
    write inValue (chars.reverse ++ separate spaced written) items
  | .delimiter spaced c :: items =>
    let spaced := spaced && !tightBefore.contains c
    write (inValueAfter c inValue) (c :: separate spaced (dropSemicolon c written)) items
  | .word spaced chars :: items =>
    let shown := if inValue then shortenValue chars else chars
    write inValue (shown.reverse ++ separate spaced written) items

/-- The stylesheet made smaller. -/
def minify (source : List Char) : List Char :=
  trim (write false [] (items false source)).reverse

/-- The share of its bytes that a text lost, in per cent; zero for an empty text or one that
grew. -/
def savedPercent (before after : Nat) : Binary64 :=
  if before = 0 then .zero
  else ((Binary64.ofNat (before - after)).div (Binary64.ofNat before)).mul (Binary64.ofNat 100)

end Triptych.Stylesheet
