import Triptych.Proofs.Code.Scanning
import Triptych.Stylesheet.Check

/-!
# The checker of stylesheets without its counters

The checker counts lines and columns in each of its loops. `checkFrom` is the same checker with a
location that moves along with what is read, and with the readers of comments and strings that
scripts have too. The two agree (`check_eq_checkFrom`): in each loop the counters stand one column
before the location of the character that comes next (`Counted.next`).

* `countComment_eq`: a comment ends at the first end mark, although the loop only remembers the last
  character.
* `countString_eq`: a string ends at its first quote without a backslash.
* `checkCounting_eq`: the loop around the two.
-/

namespace Triptych.Stylesheet

open Text Code

/-- Checks the text from the location `loc` on, where `stack` holds the open brackets, innermost
first. -/
def checkFrom (stack : List (Char × Location)) (loc : Location) : List Char → Except Fault Unit
  | [] =>
    match stack with
    | [] => .ok ()
    | (opener, place) :: _ => .error ⟨.unclosed opener, place⟩
  | '/' :: '*' :: text =>
    let scan := scanBlockComment text
    have := scanBlockComment_rest_le text
    if scan.ended then checkFrom stack (loc.advanceAll ('/' :: '*' :: scan.read)) scan.rest
    else .error ⟨.unterminatedComment, loc⟩
  | c :: text =>
    if isQuote c then
      let scan := scanString c text
      have := scanString_rest_le c text
      if scan.ended then checkFrom stack (loc.advanceAll (c :: scan.read)) scan.rest
      else .error ⟨.unterminatedString, loc⟩
    else if isOpener c then checkFrom ((c, loc) :: stack) (loc.advance c) text
    else
      match openerOf? c with
      | none => checkFrom stack (loc.advance c) text
      | some opener =>
        match stack with
        | (top, _) :: stack =>
          if top = opener then checkFrom stack (loc.advance c) text else .error ⟨.unexpected c, loc⟩
        | [] => .error ⟨.unexpected c, loc⟩
termination_by text => text.length
decreasing_by all_goals (simp only [List.length_cons]; omega)

/-! ### Its turns -/

theorem ne_slash_of_isQuote {c : Char} (h : isQuote c = true) : c ≠ '/' := by
  rintro rfl
  exact absurd h (by decide)

/-- What is open after a character of code; nothing if the character closes what is not open. -/
def openAfter (c : Char) (loc : Location) (stack : List (Char × Location)) :
    Option (List (Char × Location)) :=
  if isOpener c then some ((c, loc) :: stack)
  else
    match openerOf? c with
    | none => some stack
    | some opener =>
      match stack with
      | (top, _) :: stack => if top = opener then some stack else none
      | [] => none

theorem checkFrom_comment (stack : List (Char × Location)) (loc : Location) (text : List Char) :
    checkFrom stack loc ('/' :: '*' :: text) =
      if (scanBlockComment text).ended then
        checkFrom stack (loc.advanceAll ('/' :: '*' :: (scanBlockComment text).read))
          (scanBlockComment text).rest
      else .error ⟨.unterminatedComment, loc⟩ := by
  rw [checkFrom]

theorem checkFrom_string {c : Char} (hc : isQuote c = true) (stack : List (Char × Location))
    (loc : Location) (text : List Char) :
    checkFrom stack loc (c :: text) =
      if (scanString c text).ended then
        checkFrom stack (loc.advanceAll (c :: (scanString c text).read)) (scanString c text).rest
      else .error ⟨.unterminatedString, loc⟩ := by
  rw [checkFrom, if_pos hc]
  rintro tail rfl
  exact absurd rfl (ne_slash_of_isQuote hc)

/-- **The checker at a character of code.** -/
theorem checkFrom_code {c : Char} {text : List Char} (hquote : isQuote c = false)
    (hcomment : c = '/' → text.head? ≠ some '*') (stack : List (Char × Location)) (loc : Location) :
    checkFrom stack loc (c :: text) =
      (openAfter c loc stack).elim (.error ⟨.unexpected c, loc⟩) fun stack' =>
        checkFrom stack' (loc.advance c) text := by
  rw [checkFrom, hquote, if_neg (by decide)]
  · -- What the checker does with the character is what `openAfter` says.
    unfold openAfter
    by_cases hopener : isOpener c = true
    · rw [if_pos hopener, if_pos hopener, Option.elim_some]
    rw [if_neg hopener, if_neg hopener]
    cases openerOf? c with
    | none => rfl
    | some opener =>
      cases stack with
      | nil => rfl
      | cons top stack =>
        dsimp only
        split <;> rfl
  · rintro tail rfl rfl
    exact hcomment rfl rfl

/-! ### The counters -/

/-- The location of the character that comes next. -/
def Counted.next (found : Counted) : Location :=
  ⟨found.line, found.column + 1⟩

/-- Any other character takes a column. -/
theorem advance_of_ne {c : Char} (hc : c ≠ '\n') (line column : Nat) :
    (⟨line, column⟩ : Location).advance c = ⟨line, column + 1⟩ :=
  if_neg hc

/-! ### Comments -/

/-- The first character of a text is read. -/
theorem read_scanBlockComment_cons (c : Char) (text : List Char) :
    (scanBlockComment (c :: text)).read = c :: (scanBlockComment (c :: text)).read.tail := by
  by_cases hend : c = '*' ∧ text.head? = some '/'
  · obtain ⟨rfl, hhead⟩ := hend
    obtain ⟨rest, rfl⟩ := List.head?_eq_some_iff.1 hhead
    rfl
  · rw [scanBlockComment_char (not_and.1 hend)]
    rfl

/-- **A comment ends where its first end mark does**, which takes in the character before the text.
The counters go along with every character that is read behind that one. -/
theorem countComment_eq (line column : Nat) (previous : Char) (text : List Char) :
    (countComment line column previous text).ended = (scanBlockComment (previous :: text)).ended ∧
      (countComment line column previous text).rest = (scanBlockComment (previous :: text)).rest ∧
      (countComment line column previous text).next =
        (⟨line, column + 1⟩ : Location).advanceAll
          (scanBlockComment (previous :: text)).read.tail := by
  induction text generalizing line column previous with
  | nil =>
    rw [scanBlockComment_char (by simp)]
    exact ⟨rfl, rfl, rfl⟩
  | cons c text ih =>
    -- The loop counts columns from nought, one behind the locations.
    have hcounters : (⟨if c = '\n' then line + 1 else line,
        (if c = '\n' then 0 else column + 1) + 1⟩ : Location) =
          (⟨line, column + 1⟩ : Location).advance c := by
      unfold Location.advance
      split <;> rfl
    rw [countComment]
    by_cases hends : previous = '*' ∧ c = '/'
    · obtain ⟨rfl, rfl⟩ := hends
      exact ⟨rfl, rfl, rfl⟩
    · -- The mark does not start at `previous`, so what is read of the rest is read behind it.
      have hscan : scanBlockComment (previous :: c :: text) =
          (scanBlockComment (c :: text)).after [previous] :=
        scanBlockComment_char fun hstar hslash => hends ⟨hstar, Option.some.inj hslash⟩
      obtain ⟨hended, hrest, hnext⟩ := ih (if c = '\n' then line + 1 else line)
        (if c = '\n' then 0 else column + 1) c
      rw [if_neg hends, hscan]
      refine ⟨hended, hrest, hnext.trans ?_⟩
      show _ = (⟨line, column + 1⟩ : Location).advanceAll (scanBlockComment (c :: text)).read
      rw [hcounters, read_scanBlockComment_cons]
      rfl

/-- Right behind its opening mark a comment can only end at an end mark that stands in the text. -/
theorem countComment_start (line column : Nat) (text : List Char) :
    (countComment line column '\x00' text).ended = (scanBlockComment text).ended ∧
      (countComment line column '\x00' text).rest = (scanBlockComment text).rest ∧
      (countComment line column '\x00' text).next =
        (⟨line, column + 1⟩ : Location).advanceAll (scanBlockComment text).read := by
  have h := countComment_eq line column '\x00' text
  rwa [scanBlockComment_char fun hstar => absurd hstar (by decide)] at h

/-! ### Strings -/

/-- **A string ends at its quote**, and the counters have gone along with what was read. -/
theorem countString_eq (mark : Char) (line column : Nat) (text : List Char) :
    (countString mark line column text).ended = (scanString mark text).ended ∧
      ((scanString mark text).ended = true →
        (countString mark line column text).rest = (scanString mark text).rest ∧
        (countString mark line column text).next =
          (⟨line, column + 1⟩ : Location).advanceAll (scanString mark text).read) := by
  fun_induction countString mark line column text with
  -- A line feed in the string is an escaped one or the end; an escape is two characters of the
  -- scan.
  | case1 | case2 => exact ⟨rfl, fun h => absurd h Bool.false_ne_true⟩
  | case3 line column text ih => exact ih
  | case4 line column c text hc ih =>
    obtain ⟨hended, hread⟩ := ih
    refine ⟨hended, fun h => ⟨(hread h).1, (hread h).2.trans ?_⟩⟩
    show _ = ((⟨line, column + 2⟩ : Location).advance c).advanceAll (scanString mark text).read
    rw [advance_of_ne hc]
  | case5 line column text hlast hescape =>
    rw [scanString, if_pos rfl]
    · exact ⟨rfl, fun h => absurd h Bool.false_ne_true⟩
    · exact hlast
    · exact hescape
  | case6 line column text hlast hescape hmark =>
    rw [scanString, if_neg hmark, if_pos rfl]
    · exact ⟨rfl, fun _ => ⟨rfl, (advance_of_ne hmark _ _).symm⟩⟩
    · exact hlast
    · exact hescape
  | case7 line column c text hlast hescape hc hmark ih =>
    rw [scanString, if_neg hc, if_neg hmark]
    · obtain ⟨hended, hread⟩ := ih
      refine ⟨hended, fun h => ⟨(hread h).1, (hread h).2.trans ?_⟩⟩
      show _ = ((⟨line, column + 1⟩ : Location).advance c).advanceAll (scanString mark text).read
      rw [advance_of_ne hc]
    · exact hlast
    · exact hescape

/-! ### The checker -/

/-- **The checker with counters is the one with a location.** -/
theorem checkCounting_eq (stack : List (Char × Location)) (line column : Nat) (text : List Char) :
    checkCounting stack line column text = checkFrom stack ⟨line, column + 1⟩ text := by
  -- Along the text. In each turn the counters come to stand before the location that is reached.
  fun_induction checkCounting stack line column text with
  | case1 | case2 => rw [checkFrom.eq_def]
  | case3 stack line column text ih =>
    rw [ih, checkFrom_code rfl fun h => absurd h (by decide)]
    rfl
  | case4 stack line column text found _ hended ih =>
    obtain ⟨hended', hrest, hnext⟩ := countComment_start line (column + 2) text
    rw [ih, checkFrom_comment, if_pos (hended'.symm.trans hended)]
    exact congr (congrArg (checkFrom stack) hnext) hrest
  | case5 stack line column text found _ hended =>
    obtain ⟨hended', -⟩ := countComment_start line (column + 2) text
    rw [checkFrom_comment, if_neg (mt hended'.trans hended)]
  | case6 stack line column c text hc hcomment hquote found _ hended ih =>
    obtain ⟨hended', hread⟩ := countString_eq c line (column + 1) text
    obtain ⟨hrest, hnext⟩ := hread (hended'.symm.trans hended)
    rw [ih, checkFrom_string hquote, if_pos (hended'.symm.trans hended)]
    rw [← advance_of_ne hc] at hnext
    exact congr (congrArg (checkFrom stack) hnext) hrest
  | case7 stack line column c text hc hcomment place hquote found _ hended =>
    obtain ⟨hended', -⟩ := countString_eq c line (column + 1) text
    rw [checkFrom_string hquote, if_neg (mt hended'.trans hended)]
  | case8 stack line column c text hc hcomment place hquote hopener ih =>
    rw [ih, checkFrom, if_neg hquote, if_pos hopener, advance_of_ne hc]
    exact hcomment
  | case9 stack line column c text hc hcomment hquote hopener hcloser ih =>
    rw [ih, checkFrom, if_neg hquote, if_neg hopener, hcloser, advance_of_ne hc]
    exact hcomment
  | case10 line column c text hc hcomment hquote hopener top _ stack hcloser ih =>
    rw [ih, checkFrom, if_neg hquote, if_neg hopener, hcloser, advance_of_ne hc]
    · exact (if_pos rfl).symm
    · exact hcomment
  | case11 line column c text hc hcomment place hquote hopener opener hcloser top _ stack hother =>
    rw [checkFrom, if_neg hquote, if_neg hopener, hcloser]
    · exact (if_neg hother).symm
    · exact hcomment
  | case12 line column c text hc hcomment place hquote hopener opener hcloser =>
    rw [checkFrom, if_neg hquote, if_neg hopener, hcloser]
    exact hcomment

/-- **The counters are the location of what is read.** -/
theorem check_eq_checkFrom (source : List Char) : check source = checkFrom [] {} source :=
  checkCounting_eq [] 1 0 source

end Triptych.Stylesheet
