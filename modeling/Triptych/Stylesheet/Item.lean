import Triptych.Code.Literal

/-!
# Lexical items of a stylesheet

For minification a stylesheet is a sequence of *items*: strings, delimiters and words, where a word
is a longest run of other characters. Blanks and comments only separate items, so all that is kept
of them is whether there were any before an item.
-/

namespace Triptych.Stylesheet

open Text Code

/-- An item; `spaced` tells whether a blank or comment stands before it. -/
inductive Item where
  /-- A string with its quotes, as written. -/
  | string (spaced : Bool) (chars : List Char)
  | delimiter (spaced : Bool) (char : Char)
  | word (spaced : Bool) (chars : List Char)
deriving DecidableEq, Repr

/-- The delimiters: brackets of blocks and functions, and the signs between parts of selectors and
declarations. -/
def delimiters : List Char :=
  ['{', '}', ';', ':', ',', '>', '~', '(', ')']

/-- True of a delimiter. -/
def isDelimiter (c : Char) : Bool :=
  delimiters.contains c

/-- True when no word goes on with the character `c` before `text`. -/
def endsWord (c : Char) (text : List Char) : Bool :=
  isBlank c || c == '"' || c == '\'' || isDelimiter c || (c == '/' && text.head? == some '*')

/-- Splits a text after the word it starts with. -/
def splitWord : List Char → List Char × List Char
  | [] => ([], [])
  | c :: text =>
    if endsWord c text then ([], c :: text)
    else
      let (word, rest) := splitWord text
      (c :: word, rest)

/-- Splits a text after the end of a string that has the quote `mark`. Line feeds do not end it, and
a string without an end is all of the text. -/
def splitString (mark : Char) : List Char → List Char × List Char
  | [] => ([], [])
  | '\\' :: c :: text =>
    let (body, rest) := splitString mark text
    ('\\' :: c :: body, rest)
  | c :: text =>
    if c = mark then ([c], text)
    else
      let (body, rest) := splitString mark text
      (c :: body, rest)

/-- A word, or a string, and what is left of the text make up the text. -/
theorem splitWord_append (text : List Char) : (splitWord text).1 ++ (splitWord text).2 = text := by
  induction text with
  | nil => rfl
  | cons c text ih =>
    unfold splitWord
    split
    · rfl
    · simpa using ih

theorem splitString_append (mark : Char) (text : List Char) :
    (splitString mark text).1 ++ (splitString mark text).2 = text := by
  fun_induction splitString mark text with
  | case1 | case3 => rfl
  | case2 | case4 => simp_all

/-- What is left is not longer than the text. -/
theorem splitWord_rest_le (text : List Char) : (splitWord text).2.length ≤ text.length := by
  have h := congrArg List.length (splitWord_append text)
  simp only [List.length_append] at h
  omega

theorem splitString_rest_le (mark : Char) (text : List Char) :
    (splitString mark text).2.length ≤ text.length := by
  have h := congrArg List.length (splitString_append mark text)
  simp only [List.length_append] at h
  omega

/-- The items of a text, where `spaced` tells whether a blank or comment stands before it. -/
def items (spaced : Bool) : List Char → List Item
  | [] => []
  | '/' :: '*' :: text =>
    have := scanBlockComment_rest_le text
    items true (scanBlockComment text).rest
  | c :: text =>
    have := splitString_rest_le c text
    have := splitWord_rest_le text
    if isBlank c then items true text
    else if c = '"' || c = '\'' then
      .string spaced (c :: (splitString c text).1) :: items false (splitString c text).2
    else if isDelimiter c then .delimiter spaced c :: items false text
    else .word spaced (c :: (splitWord text).1) :: items false (splitWord text).2
termination_by text => text.length

end Triptych.Stylesheet
