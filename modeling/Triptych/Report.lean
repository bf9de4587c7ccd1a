import Triptych.Markup.Error
import Triptych.Text.Width

/-!
# Error reports

A report shows a parse error in its source: the message, the place in the file, the line, and under
it a rule from whose middle an arrow leads to a short label. The marked range is given by the
numbers of the error's span, which here count characters of the source; a range that leaves the
source is not drawn.

The lines of a report end at every character that a terminal breaks a line at, and the marks follow
the columns of the terminal, in which a tab reaches to the next multiple of four.
-/

namespace Triptych.Report

open Text Markup

/-! ### Lines -/

/-- True of the characters that end a line of a report. -/
def endsLine (c : Char) : Bool :=
  c == '\n' || c == '\r' || c == '\x0b' || c == '\x0c' || c == '\u0085' || c == '\u2028' ||
    c == '\u2029'

/-- The lines of a source, each with the characters that end it; a carriage return and a line feed
end one line together. A source that ends with a line has no empty line after it. -/
def sourceLines : List Char → List (List Char)
  | [] => []
  | '\r' :: '\n' :: cs => ['\r', '\n'] :: sourceLines cs
  | c :: cs =>
    if endsLine c then [c] :: sourceLines cs
    else
      match sourceLines cs with
      | [] => [[c]]
      | line :: lines => (c :: line) :: lines

/-- A line of a source, its number and the number of characters before it. -/
structure Line where
  number : Nat
  start : Nat
  text : List Char

/-- The line in which a character offset lies; the end of the source lies in its last line. -/
def lineOf (offset : Nat) (number start : Nat) : List (List Char) → Line
  | [] => ⟨number, start, []⟩
  | [text] => ⟨number, start, text⟩
  | text :: next :: lines =>
    if offset < start + text.length then ⟨number, start, text⟩
    else lineOf offset (number + 1) (start + text.length) (next :: lines)

/-! ### Columns -/

/-- The character that is drawn for one of the source, and how many columns it takes when it is the
`index`th of its line. -/
def cell (index : Nat) (c : Char) : Char × Nat :=
  if c = '\t' then (' ', 4 - index % 4)
  else if isBlank c then (' ', 1)
  else (c, displayWidth c)

/-- The text of a line as it is drawn, from its `index`th character on. -/
def drawText (index : Nat) : List Char → List Char
  | [] => []
  | c :: cs =>
    let (drawn, width) := cell index c
    (if drawn = ' ' then List.replicate width ' ' else [drawn]) ++ drawText (index + 1) cs

/-- A row below a line: for each of `count` places, from the `index`th on, the first column holds
the first character that `mark` gives and the other columns the second. Places beyond the line are
one column wide. -/
def drawRow (mark : Nat → Char × Char) (index : Nat) (line : List Char) : Nat → List Char
  | 0 => []
  | count + 1 =>
    let width := match line.head? with
      | some c => (cell index c).2
      | none => 1
    let (first, more) := mark index
    (List.replicate width more).set 0 first ++ drawRow mark (index + 1) line.tail count

/-! ### The whole report -/

/-- A range of characters of a source. -/
structure Marked where
  start : Nat
  stop : Nat

/-- The range that a report marks for an error in a source of `size` bytes: at least one character,
unless the error is at the very end. -/
def markedRange (size : Nat) (span : Span) : Marked :=
  let start := min span.start size
  ⟨start, min (max span.stop (start + 1)) (max size start)⟩

/-- The rule under the marked places, with a mark at the place `middle` from which the arrow
starts. -/
def underline (start stop middle : Nat) (index : Nat) : Char × Char :=
  if index = middle then if start < stop then ('┬', '─') else ('│', ' ')
  else if start ≤ index && index < stop then ('─', '─')
  else (' ', ' ')

/-- The arrow from the place `middle` to the label. -/
def arrow (middle : Nat) (index : Nat) : Char × Char :=
  if index = middle then ('╰', '─')
  else if middle < index then ('─', '─')
  else (' ', ' ')

/-- The lines below the message, for a range that lies in the source. -/
def drawing (file : String) (label : String) (source : List Char) (range : Marked) : List String :=
  let line := lineOf range.start 1 0 (sourceLines source)
  let start := range.start - line.start
  let stop := range.stop - line.start
  let middle := (start + stop) / 2
  let shown := trimEnd line.text
  let margin := String.ofList (List.replicate ((toString line.number).length + 2) ' ')
  let rule := String.ofList (List.replicate ((toString line.number).length + 2) '─')
  let row (mark : Nat → Char × Char) := String.ofList (drawRow mark 0 shown (stop + 2))
  [ s!"{margin}╭─[{file}:{line.number}:{start + 1}]"
  , margin ++ "│"
  , s!" {line.number} │ " ++ String.ofList (drawText 0 shown)
  , margin ++ "│ " ++ row (underline start stop middle)
  , margin ++ "│ " ++ row (arrow middle) ++ " " ++ label
  , rule ++ "╯" ]

/-- The report of an error in a source. -/
def render (file source : String) (error : ParseError) : String :=
  let chars := source.toList
  let range := markedRange (byteLength chars) error.span
  let last := if range.start < range.stop then range.stop - 1 else range.start
  let lines := if chars.length < last then [] else drawing file error.label chars range
  String.join ((("Error: " ++ error.message) :: lines).map (· ++ "\n"))

end Triptych.Report
