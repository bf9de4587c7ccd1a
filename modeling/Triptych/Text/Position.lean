import Triptych.Text.Basic

/-!
# Positions in a text

A `Span` is a range of byte offsets, a `Location` the 1-based line and column that a reader counts.
Lines end at line feeds and nowhere else; columns count characters. `Location.ofOffset` and
`lineStart` lead from one to the other and back.
-/

namespace Triptych

/-- A range of byte offsets: from `start` up to, and without, `stop`. -/
structure Span where
  start : Nat
  stop : Nat
deriving DecidableEq, Repr, Inhabited

namespace Span

/-- Moves a span that was measured in a part of a text to the whole of it, where the part begins at
`base`. -/
def shift (span : Span) (base : Nat) : Span :=
  ⟨span.start + base, span.stop + base⟩

end Span

/-- A line and a column, both counted from 1. -/
structure Location where
  line : Nat := 1
  column : Nat := 1
deriving DecidableEq, Repr, Inhabited

namespace Location

/-- The location just after the character `c` that stands at `loc`. -/
def advance (loc : Location) (c : Char) : Location :=
  if c = '\n' then ⟨loc.line + 1, 1⟩ else ⟨loc.line, loc.column + 1⟩

/-- The location reached from `loc` by reading a whole text. -/
def advanceAll (loc : Location) (cs : List Char) : Location :=
  cs.foldl advance loc

/-- The location reached from `loc` by reading characters until `offset` bytes are covered or the
text ends. An offset inside a character counts as the end of that character. -/
def walk (loc : Location) : List Char → Nat → Location
  | [], _ => loc
  | c :: cs, offset => if offset = 0 then loc else walk (loc.advance c) cs (offset - c.utf8Size)

/-- The location of a byte offset of `source`. -/
def ofOffset (source : List Char) (offset : Nat) : Location :=
  walk {} source offset

/-- The number of whole lines before a location. -/
def linesAbove (loc : Location) : Nat :=
  loc.line - 1

/-- The text `line:column`. -/
def display (loc : Location) : String :=
  s!"{loc.line}:{loc.column}"

end Location

namespace Text

/-! ### Slices -/

/-- The characters in the first `count` bytes of a text; a character that these bytes only begin is
in. -/
def takeBytes : Nat → List Char → List Char
  | 0, _ => []
  | _, [] => []
  | count, c :: cs => c :: takeBytes (count - c.utf8Size) cs

/-- The text after its first `count` bytes; a character that these bytes only begin is out. -/
def dropBytes : Nat → List Char → List Char
  | 0, cs => cs
  | _, [] => []
  | count, c :: cs => dropBytes (count - c.utf8Size) cs

/-- The part of a source that a span covers. -/
def slice (source : List Char) (span : Span) : List Char :=
  takeBytes (span.stop - span.start) (dropBytes span.start source)

/-! ### Reading on -/

/-- A reader that stood at offset `pos` before `text` has come to offset `stop` before `rest`. -/
def Advances (pos : Nat) (text : List Char) (stop : Nat) (rest : List Char) : Prop :=
  ∃ read, text = read ++ rest ∧ stop = pos + byteLength read

namespace Advances

variable {pos mid stop : Nat} {text between rest : List Char}

theorem refl (pos : Nat) (text : List Char) : Advances pos text pos text :=
  ⟨[], by simp⟩

/-- Going on from where one stopped. -/
theorem trans (h₁ : Advances pos text mid between) (h₂ : Advances mid between stop rest) :
    Advances pos text stop rest := by
  obtain ⟨read₁, rfl, rfl⟩ := h₁
  obtain ⟨read₂, rfl, rfl⟩ := h₂
  exact ⟨read₁ ++ read₂, by simp, by simp [Nat.add_assoc]⟩

/-- What is left to read does not grow. -/
theorem length_le (h : Advances pos text stop rest) : rest.length ≤ text.length := by
  obtain ⟨read, rfl, -⟩ := h
  simp

end Advances

/-! ### Lines -/

/-- The byte offset at which a line, counted from 1, starts; the size of the text for a line beyond
its last one. -/
def lineStart : List Char → Nat → Nat
  | [], _ => 0
  | c :: cs, line =>
    if line ≤ 1 then 0
    else c.utf8Size + lineStart cs (if c = '\n' then line - 1 else line)

end Text

end Triptych
