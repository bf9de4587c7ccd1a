import Triptych.Lint.Rule

/-!
# Mixed indentation

De-indentation takes away only what all lines share character by character, so a section that
indents some lines with tabs and others with spaces keeps stray blanks. The rule finds the first
line that disagrees with the first indented one. Lines of blanks only do not count.
-/

namespace Triptych.Lint.Indentation

open Text

/-- The characters that indent. -/
def isIndent (c : Char) : Bool :=
  c == ' ' || c == '\t'

/-- The indentation of a line; a line of blanks only has none. -/
def indentOf (line : List Char) : List Char :=
  if isBlankText line then [] else line.takeWhile isIndent

/-- The first character that disagrees with the one that indents a section, and the span of its
line. `used` is the indenting character if it is known, and the first line starts at `pos`. -/
def firstMixed (used : Option Char) (pos : Nat) : List (List Char) → Option (Char × Span)
  | [] => none
  | line :: lines =>
    let indent := indentOf line
    let used := used.orElse fun _ => indent.head?
    match indent.find? fun c => used != some c with
    | some c => some (c, ⟨pos, pos + byteLength line⟩)
    | none => firstMixed used (pos + byteLength line + 1) lines

/-- The rule. -/
def rule : Rule where
  name := "mixed-indentation"
  description := "Disallow mixing tabs and spaces for indentation"
  checkText text offset :=
    match firstMixed none offset (splitLines text) with
    | none => []
    | some (c, span) =>
      let kind := if c = '\t' then "tabs" else "spaces"
      [.warning "mixed-indentation"
        s!"Mixed indentation: this line uses {kind} after earlier lines used the other"
        "Indent the whole section with either tabs or spaces" span]

end Triptych.Lint.Indentation
