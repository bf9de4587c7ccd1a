import Triptych.Text.Basic

/-!
# Indentation and padding

Sections are indented to please the reader of a document. `dedent` takes away the indentation that
all lines of a section share, `padAbove` puts empty lines before it so that line numbers counted in
the section are line numbers of the document.
-/

namespace Triptych.Text

/-- The longest common beginning of two texts. -/
def commonStart : List Char → List Char → List Char
  | x :: xs, y :: ys => if x = y then x :: commonStart xs ys else []
  | _, _ => []

/-- The leading blanks of a line. -/
def leadingBlanks (line : List Char) : List Char :=
  line.takeWhile isBlank

/-- The longest run of blanks that every line with a visible character starts with; empty when no
line has one. -/
def commonIndent (lines : List (List Char)) : List Char :=
  match (lines.filter fun line => !isBlankText line).map leadingBlanks with
  | [] => []
  | first :: others => others.foldl commonStart first

/-- One line without `indent`; a line of blanks only becomes empty. -/
def dedentLine (indent line : List Char) : List Char :=
  if isBlankText line then [] else line.drop indent.length

/-- Takes the common indentation from every line. Lines of blanks only become empty, and the number
of lines stays. -/
def dedent (text : List Char) : List Char :=
  let lines := splitLines text
  joinLines (lines.map (dedentLine (commonIndent lines)))

/-- The text after `count` empty lines. -/
def padAbove (count : Nat) (text : List Char) : List Char :=
  List.replicate count '\n' ++ text

end Triptych.Text
