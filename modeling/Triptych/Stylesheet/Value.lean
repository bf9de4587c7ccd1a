import Triptych.Text.Basic

/-!
# Shorter values

The words of a declaration's value that can be written with fewer characters: a zero length needs no
unit, a colour of three doubled digits needs only three, and a number below one needs no zero before
its point.
-/

namespace Triptych.Stylesheet

open Text

/-- The units that a zero can do without. -/
def zeroUnits : List (List Char) :=
  [['p', 'x'], ['e', 'm'], ['r', 'e', 'm'], ['p', 't'], ['v', 'h'], ['v', 'w']]

/-- The text without an end that it has. -/
def dropSuffix? (ending text : List Char) : Option (List Char) :=
  if ending.isSuffixOf text then some (text.take (text.length - ending.length)) else none

/-- True of a text of zeros, at least one, and points. -/
def isZero (number : List Char) : Bool :=
  number.all (fun c => c == '0' || c == '.') && number.contains '0'

/-- True of a zero with one of the units that it can do without. -/
def isZeroLength (word : List Char) : Bool :=
  zeroUnits.any fun unit => (dropSuffix? unit word).any isZero

/-- The short form of a colour of three doubled hexadecimal digits, in small letters. -/
def shortColour? : List Char → Option (List Char)
  | ['#', r₁, r₂, g₁, g₂, b₁, b₂] =>
    if [r₁, r₂, g₁, g₂, b₁, b₂].all isHexDigit && r₁.toLower == r₂.toLower &&
        g₁.toLower == g₂.toLower && b₁.toLower == b₂.toLower then
      some ['#', r₁.toLower, g₁.toLower, b₁.toLower]
    else none
  | _ => none

/-- The number without the zero before its point. -/
def dropLeadingZero : List Char → List Char
  | '0' :: '.' :: rest => '.' :: rest
  | '-' :: '0' :: '.' :: rest => '-' :: '.' :: rest
  | word => word

/-- A word of a value in its shortest form. -/
def shortenValue (word : List Char) : List Char :=
  if isZeroLength word then ['0']
  else
    match shortColour? word with
    | some short => short
    | none => dropLeadingZero word

end Triptych.Stylesheet
