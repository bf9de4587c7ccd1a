import Triptych.Code.Fault

/-!
# Checking stylesheets

A stylesheet is in order when its comments and strings end and its brackets outside them are nested.
The checker reads it once from left to right, keeps the open brackets with their places, innermost
first, and reports the first mistake.

Lines and columns are counted as the characters are taken, in comments and in strings too: `column`
is how many characters of the line have been read, so it is the column of the last one.
-/

namespace Triptych.Stylesheet

open Text Code

/-- The bracket that a closing bracket belongs to. -/
def openerOf? : Char → Option Char
  | '}' => some '{'
  | ')' => some '('
  | ']' => some '['
  | _ => none

/-- True of an opening bracket. -/
def isOpener (c : Char) : Bool :=
  c == '{' || c == '(' || c == '['

/-- True of a quotation mark. -/
def isQuote (c : Char) : Bool :=
  c == '"' || c == '\''

/-- Where the counters stand behind a comment or a string, whether it ended there, and the rest. -/
structure Counted where
  ended : Bool
  line : Nat
  column : Nat
  rest : List Char

/-- Reads a comment of which the first two characters have been taken off, up to a star with a slash
behind it. The character before the text is given; the star of the opening mark does not count. -/
def countComment (line column : Nat) (previous : Char) : List Char → Counted
  | [] => ⟨false, line, column, []⟩
  | c :: text =>
    let line := if c = '\n' then line + 1 else line
    let column := if c = '\n' then 0 else column + 1
    if previous = '*' ∧ c = '/' then ⟨true, line, column, text⟩
    else countComment line column c text

/-- Reads a string of which the opening quote has been taken off. A backslash takes the next
character along; a line feed taken along starts a line, any other one breaks the string. -/
def countString (mark : Char) (line column : Nat) : List Char → Counted
  | [] => ⟨false, line, column, []⟩
  | ['\\'] => ⟨false, line, column + 2, []⟩
  | '\\' :: c :: text =>
    if c = '\n' then countString mark (line + 1) 0 text
    else countString mark line (column + 2) text
  | c :: text =>
    if c = '\n' then ⟨false, line, column + 1, text⟩
    else if c = mark then ⟨true, line, column + 1, text⟩
    else countString mark line (column + 1) text

/-- What is left after a comment is not longer than what it was read from. -/
theorem countComment_rest_le (line column : Nat) (previous : Char) (text : List Char) :
    (countComment line column previous text).rest.length ≤ text.length := by
  fun_induction countComment line column previous text with
  | case1 | case2 => simp
  | case3 _ _ _ _ _ _ _ _ ih => exact Nat.le_succ_of_le ih

/-- What is left after a string is not longer than what it was read from. -/
theorem countString_rest_le (mark : Char) (line column : Nat) (text : List Char) :
    (countString mark line column text).rest.length ≤ text.length := by
  fun_induction countString mark line column text <;> simp_all <;> omega

/-- Checks the text behind `column` characters of the line `line`, where `stack` holds the open
brackets, innermost first. -/
def checkCounting (stack : List (Char × Location)) (line column : Nat) :
    List Char → Except Fault Unit
  | [] =>
    match stack with
    | [] => .ok ()
    | (opener, place) :: _ => .error ⟨.unclosed opener, place⟩
  | '\n' :: text => checkCounting stack (line + 1) 0 text
  | '/' :: '*' :: text =>
    let found := countComment line (column + 2) '\x00' text
    have := countComment_rest_le line (column + 2) '\x00' text
    if found.ended then checkCounting stack found.line found.column found.rest
    else .error ⟨.unterminatedComment, ⟨line, column + 1⟩⟩
  | c :: text =>
    let place : Location := ⟨line, column + 1⟩
    if isQuote c then
      let found := countString c line (column + 1) text
      have := countString_rest_le c line (column + 1) text
      if found.ended then checkCounting stack found.line found.column found.rest
      else .error ⟨.unterminatedString, place⟩
    else if isOpener c then checkCounting ((c, place) :: stack) line (column + 1) text
    else
      match openerOf? c with
      | none => checkCounting stack line (column + 1) text
      | some opener =>
        match stack with
        | (top, _) :: stack =>
          if top = opener then checkCounting stack line (column + 1) text
          else .error ⟨.unexpected c, place⟩
        | [] => .error ⟨.unexpected c, place⟩
termination_by text => text.length
decreasing_by all_goals (simp only [List.length_cons]; omega)

/-- Checks a stylesheet. -/
def check (source : List Char) : Except Fault Unit :=
  checkCounting [] 1 0 source

end Triptych.Stylesheet
