import Triptych.Text.Basic

/-!
# Comments and strings in code

The two literals that stylesheets and scripts share. A block comment runs from `/*` to the first
`*/` after these two characters; a string runs to its quote, a backslash takes the next character
along, and a line feed that no backslash precedes breaks it.

A `Scan` is what was read after the start of a literal, whether the literal ended there, and the
rest.
-/

namespace Triptych.Code

open Text

/-- The outcome of reading a literal. -/
structure Scan where
  ended : Bool
  read : List Char
  rest : List Char

/-- The scan with characters put in front of what was read. -/
def Scan.after (scan : Scan) (chars : List Char) : Scan :=
  { scan with read := chars ++ scan.read }

/-- Reads a block comment of which the first two characters have been taken off. -/
def scanBlockComment (text : List Char) : Scan :=
  match breakOn ['*', '/'] text with
  | some (body, found) => ⟨true, body ++ ['*', '/'], found.drop 2⟩
  | none => ⟨false, text, []⟩

/-- Reads a string of which the opening quote has been taken off. A line feed that breaks it is read
too. -/
def scanString (mark : Char) : List Char → Scan
  | [] => ⟨false, [], []⟩
  | ['\\'] => ⟨false, ['\\'], []⟩
  | '\\' :: c :: text => (scanString mark text).after ['\\', c]
  | c :: text =>
    if c = '\n' then ⟨false, [c], text⟩
    else if c = mark then ⟨true, [c], text⟩
    else (scanString mark text).after [c]

theorem scanBlockComment_append (text : List Char) :
    (scanBlockComment text).read ++ (scanBlockComment text).rest = text := by
  unfold scanBlockComment
  split
  next body found h =>
    obtain ⟨happend, tail, rfl⟩ := breakOn_spec h
    simp [← happend]
  next => simp

theorem scanString_append (mark : Char) (text : List Char) :
    (scanString mark text).read ++ (scanString mark text).rest = text := by
  fun_induction scanString mark text with
  | case1 | case2 | case4 | case5 => rfl
  | case3 | case6 => simp_all [Scan.after]

/-- What is left after a block comment is not longer than what it was read from. -/
theorem scanBlockComment_rest_le (text : List Char) :
    (scanBlockComment text).rest.length ≤ text.length := by
  have h := congrArg List.length (scanBlockComment_append text)
  simp only [List.length_append] at h
  omega

/-- What is left after a string is not longer than what it was read from. -/
theorem scanString_rest_le (mark : Char) (text : List Char) :
    (scanString mark text).rest.length ≤ text.length := by
  have h := congrArg List.length (scanString_append mark text)
  simp only [List.length_append] at h
  omega

end Triptych.Code
