import Triptych.Proofs.Text.Indentation
import Triptych.Proofs.Text.Location

/-!
# Empty lines above a text

Empty lines put above a text move everything in it down and change nothing else. They have no
indentation, so they may be put there before or after the common indentation is taken away
(`dedent_padAbove`); they are blanks, so trimming takes them away again (`trim_padAbove`); and a
reader that has read them stands lower, in the same column (`Location.moveDown`), so that an offset
of the text is found as many lines further down (`Location.ofOffset_padAbove`).
-/

namespace Triptych

namespace Text

theorem padAbove_succ (count : Nat) (text : List Char) :
    padAbove (count + 1) text = '\n' :: padAbove count text := rfl

/-- A line feed takes one byte. -/
theorem byteLength_padAbove (count : Nat) (text : List Char) :
    byteLength (padAbove count text) = count + byteLength text := by
  induction count with
  | zero => rw [Nat.zero_add]; rfl
  | succ count ih =>
    have hnewline : '\n'.utf8Size = 1 := rfl
    rw [padAbove_succ, byteLength_cons, ih, hnewline]
    omega

/-- An empty line has no say in the common indentation. -/
theorem commonIndent_nil_cons (lines : List (List Char)) :
    commonIndent ([] :: lines) = commonIndent lines := rfl

/-- An empty line has no part in the common indentation. -/
theorem dedent_newline (text : List Char) : dedent ('\n' :: text) = '\n' :: dedent text := by
  have hlines : (splitLines text).map (dedentLine (commonIndent (splitLines text))) ≠ [] := by
    obtain ⟨line, lines, hsplit⟩ := exists_splitLines text
    simp [hsplit]
  unfold dedent
  rw [splitLines_newline]
  dsimp only
  rw [commonIndent_nil_cons, List.map_cons, joinLines_cons _ hlines]
  rfl

theorem dedent_padAbove (count : Nat) (text : List Char) :
    dedent (padAbove count text) = padAbove count (dedent text) := by
  induction count with
  | zero => rfl
  | succ count ih => rw [padAbove_succ, padAbove_succ, dedent_newline, ih]

/-- A class that holds line feeds drops the empty lines. -/
theorem dropWhile_padAbove {p : Char → Bool} (hp : p '\n' = true) (count : Nat) (text : List Char) :
    (padAbove count text).dropWhile p = text.dropWhile p := by
  induction count with
  | zero => rfl
  | succ count ih => rw [padAbove_succ, List.dropWhile_cons_of_pos hp, ih]

/-- Line feeds at the start are trimmed. -/
theorem trim_padAbove (count : Nat) (text : List Char) :
    trim (padAbove count text) = trim text := by
  unfold trim trimStart
  rw [dropWhile_padAbove (by decide)]

end Text

open Text

namespace Location

/-- The location as many lines further down, in the same column. -/
def moveDown (count : Nat) (loc : Location) : Location :=
  { loc with line := loc.line + count }

/-- Going on below empty lines is going on, as many lines down. -/
theorem advance_moveDown (count : Nat) (loc : Location) (c : Char) :
    (loc.moveDown count).advance c = (loc.advance c).moveDown count := by
  unfold advance moveDown
  split
  · rw [Nat.add_right_comm]
  · rfl

theorem advanceAll_moveDown (count : Nat) (loc : Location) (text : List Char) :
    (loc.moveDown count).advanceAll text = (loc.advanceAll text).moveDown count := by
  unfold advanceAll
  induction text generalizing loc with
  | nil => rfl
  | cons c cs ih => rw [List.foldl_cons, List.foldl_cons, advance_moveDown, ih]

/-- Going down twice is going down once, by both. -/
theorem moveDown_moveDown (count more : Nat) (loc : Location) :
    (loc.moveDown count).moveDown more = loc.moveDown (count + more) := by
  unfold moveDown
  rw [Nat.add_assoc]

/-- An empty line leads from the start of a line to the start of the next one. -/
theorem advance_newline {loc : Location} (h : loc.column = 1) :
    loc.advance '\n' = loc.moveDown 1 := by
  rw [advance, if_pos rfl, moveDown, h]

/-- A line feed ends a text at the start of the next line. -/
theorem advanceAll_newline (text : List Char) :
    ({} : Location).advanceAll (text ++ ['\n']) =
      ({} : Location).moveDown (text.count '\n' + 1) := by
  have hline := line_advanceAll {} text
  rw [advanceAll_append]
  show advance _ '\n' = _
  rw [advance, if_pos rfl, hline, moveDown, Nat.add_assoc]

/-- Empty lines lead a reader at the start of a line as many lines down, to the start of a line. -/
theorem advanceAll_padAbove (count : Nat) {loc : Location} (hloc : loc.column = 1)
    (text : List Char) :
    loc.advanceAll (padAbove count text) = (loc.moveDown count).advanceAll text := by
  induction count generalizing loc with
  | zero => rfl
  | succ count ih =>
    have hbelow : (loc.moveDown 1).column = 1 := hloc
    calc loc.advanceAll (padAbove (count + 1) text)
        = (loc.advance '\n').advanceAll (padAbove count text) := rfl
      _ = (loc.moveDown 1).advanceAll (padAbove count text) := by rw [advance_newline hloc]
      _ = ((loc.moveDown 1).moveDown count).advanceAll text := ih hbelow
      _ = (loc.moveDown (count + 1)).advanceAll text := by rw [moveDown_moveDown, Nat.add_comm 1]

/-- An offset behind empty lines is where reading from below them leads. -/
theorem ofOffset_padAbove (count : Nat) (before after : List Char) :
    Location.ofOffset (padAbove count (before ++ after)) (count + byteLength before) =
      (({} : Location).moveDown count).advanceAll before := by
  have hcut : padAbove count (before ++ after) = padAbove count before ++ after :=
    (List.append_assoc _ _ _).symm
  rw [hcut, ← byteLength_padAbove, ofOffset_append]
  exact advanceAll_padAbove count rfl before

end Location

end Triptych
