import Triptych.Proofs.Script.Literals
import Triptych.Script.Check
import Triptych.Script.Mask

/-!
# One turn of a reader of scripts

The checker and the masker read a script piece by piece. Both know where a closing brace leads back
into a template literal, the one from the stack of what is open, the other from its list of open
braces; apart from that a piece depends on the text alone. So a turn of either has two parts:

* `readPiece` reads a piece;
* `react`, for the checker, says what is open after it or what is wrong, and `bracesNext`, for the
  masker, which braces are open.

`checkFrom_cons` and `segments_cons` are the two readers in this form, and what follows of them is
proved from these.

What was proved of the single literals carries over to pieces: a piece that ends before the end of
the text is read the same way whatever comes later, the next character apart (`readPiece_of_rest`),
and blanks at the starts of lines change no piece (`readPiece_reindents`).
-/

namespace Triptych.Script

open Text Code

/-! ### Steps -/

/-- The text goes on as neither kind of comment does. -/
def StartsNoComment (text : List Char) : Prop :=
  text.head? ≠ some '/' ∧ text.head? ≠ some '*'

/-- **What a step is.** The step that starts with a character before a text, one rule for each kind
of piece. -/
inductive Steps (previous : Option Char) : Char → List Char → Step → Prop
  | blank {c : Char} {text : List Char} : isBlank c = true →
      Steps previous c text ⟨.blank, [c], text⟩
  | lineComment {text : List Char} :
      Steps previous '/' ('/' :: text)
        ⟨.comment true, '/' :: '/' :: text.takeWhile (· != '\n'), text.dropWhile (· != '\n')⟩
  | blockComment {text : List Char} :
      Steps previous '/' ('*' :: text)
        ⟨.comment (scanBlockComment text).ended, '/' :: '*' :: (scanBlockComment text).read,
          (scanBlockComment text).rest⟩
  | regex {text : List Char} :
      StartsNoComment text → canPrecedeRegex previous = true →
      Steps previous '/' text
        ⟨.regex (scanRegex false text).ended, '/' :: (scanRegex false text).read,
          (scanRegex false text).rest⟩
  | string {c : Char} {text : List Char} :
      c = '"' ∨ c = '\'' →
      Steps previous c text ⟨.string (scanString c text).ended, c :: (scanString c text).read,
        (scanString c text).rest⟩
  | template {text : List Char} :
      Steps previous '`' text
        ⟨.template (scanTemplate text).ending, '`' :: (scanTemplate text).read,
          (scanTemplate text).rest⟩
  | plain {c : Char} {text : List Char} :
      isBlank c = false → c ≠ '"' → c ≠ '\'' → c ≠ '`' →
      (c = '/' → StartsNoComment text ∧ canPrecedeRegex previous = false) →
      Steps previous c text ⟨.plain, [c], text⟩

/-- **What a step does is described by `Steps`**, case by case. -/
theorem steps_step (previous : Option Char) (c : Char) (text : List Char) :
    Steps previous c text (step previous c text) := by
  unfold step
  split
  next hblank => exact .blank hblank
  next hblank =>
  split
  next hline =>
    obtain ⟨rfl, hhead⟩ : c = '/' ∧ text.head? = some '/' := by simpa using hline
    obtain ⟨tail, rfl⟩ := List.head?_eq_some_iff.1 hhead
    exact .lineComment
  next hline =>
  split
  next hblock =>
    obtain ⟨rfl, hhead⟩ : c = '/' ∧ text.head? = some '*' := by simpa using hblock
    obtain ⟨tail, rfl⟩ := List.head?_eq_some_iff.1 hhead
    exact .blockComment
  next hblock =>
  -- Both comments are ruled out from here on, which a slash that is left needs.
  have hcomment (hc : c = '/') : StartsNoComment text := by
    rw [hc] at hline hblock
    exact ⟨by simpa using hline, by simpa using hblock⟩
  split
  next hregex =>
    obtain ⟨rfl, hprevious⟩ : c = '/' ∧ canPrecedeRegex previous = true := by simpa using hregex
    exact .regex (hcomment rfl) hprevious
  next hregex =>
  split
  next hquote => exact .string (by simpa using hquote)
  next hquote =>
  rw [Bool.or_eq_true, not_or, decide_eq_true_eq, decide_eq_true_eq] at hquote
  split
  next hbacktick =>
    rw [hbacktick]
    exact .template
  next hbacktick =>
    refine .plain (by simpa using hblank) hquote.1 hquote.2 hbacktick fun hc => ⟨hcomment hc, ?_⟩
    simpa [hc] using hregex

/-- The description leaves no choice. -/
theorem Steps.eq_step {previous : Option Char} {c : Char} {text : List Char} {s : Step}
    (h : Steps previous c text s) : step previous c text = s := by
  cases h with
  | blank hblank => rw [step, if_pos hblank]
  | lineComment => rfl
  | blockComment => rfl
  | regex hcomment hprevious => simp [step, hcomment.1, hcomment.2, hprevious, isBlank]
  | string hquote => rcases hquote with rfl | rfl <;> rfl
  | template => rfl
  | plain hblank hdouble hsingle hbacktick hslash =>
    by_cases hc : c = '/'
    · obtain ⟨hcomment, hprevious⟩ := hslash hc
      simp [step, hc, hcomment.1, hcomment.2, hprevious, isBlank]
    · simp [step, hblank, hc, hdouble, hsingle, hbacktick]

/-! ### The two readers, a turn at a time -/

/-- The piece that starts with the character `c` before `text`; if `resumes`, a closing brace leads
back into a template literal. -/
def readPiece (resumes : Bool) (previous : Option Char) (c : Char) (text : List Char) : Step :=
  if resumes && c == '}' then
    let scan := scanTemplate text
    ⟨.template scan.ending, c :: scan.read, scan.rest⟩
  else step previous c text

/-- The last significant character after a piece that starts with `c`. -/
def previousAfter (previous : Option Char) (c : Char) : Piece → Option Char
  | .blank | .comment _ => previous
  | _ => some c

/-- True where a closing brace leads back into a template literal. -/
def inSubstitution : List (Opener × Location) → Bool
  | (.substitution, _) :: _ => true
  | _ => false

/-- Inside code of a template literal the literal is what was opened last. -/
theorem exists_cons_of_inSubstitution {stack : List (Opener × Location)}
    (h : inSubstitution stack = true) :
    ∃ place rest, stack = (.substitution, place) :: rest := by
  unfold inSubstitution at h
  split at h
  next place rest => exact ⟨place, rest, rfl⟩
  next => contradiction

/-- What is open after a piece of the template literal that starts at `place`. -/
def afterTemplate (stack : List (Opener × Location)) (place : Location) :
    TemplateEnd → Except Fault (List (Opener × Location))
  | .closed => .ok stack
  | .substitution => .ok ((.substitution, place) :: stack)
  | .missing => .error ⟨.unterminatedTemplate, place⟩

/-- What is open after a closing bracket. -/
def afterCloser (loc : Location) (c : Char) :
    List (Opener × Location) → Except Fault (List (Opener × Location))
  | [] => .error ⟨.unexpected c, loc⟩
  | (opener, _) :: stack => if closes c opener then .ok stack else .error ⟨.unexpected c, loc⟩

/-- What is open after a character of code. -/
def afterPlain (stack : List (Opener × Location)) (loc : Location) (c : Char) :
    Except Fault (List (Opener × Location)) :=
  match openerOf? c with
  | some opener => .ok ((opener, loc) :: stack)
  | none => if isCloser c then afterCloser loc c stack else .ok stack

/-- What is open after a piece that starts with `c` at `loc`. -/
def react (stack : List (Opener × Location)) (loc : Location) (c : Char) :
    Piece → Except Fault (List (Opener × Location))
  | .blank | .comment true | .regex true | .string true => .ok stack
  | .comment false => .error ⟨.unterminatedComment, loc⟩
  | .regex false => .error ⟨.unterminatedRegex, loc⟩
  | .string false => .error ⟨.unterminatedString, loc⟩
  | .template ending =>
    match c == '}', stack with
    | true, (_, place) :: stack => afterTemplate stack place ending
    | _, stack => afterTemplate stack loc ending
  | .plain => afterPlain stack loc c

/-- A closing brace is a character to a step; only the reader may be led back into a literal. -/
theorem step_closing_brace (previous : Option Char) (text : List Char) :
    step previous '}' text = ⟨.plain, ['}'], text⟩ :=
  Steps.eq_step (.plain (by decide) (by decide) (by decide) (by decide) (by simp))

/-- At the end nothing may be open. -/
theorem checkFrom_nil (previous : Option Char) (loc : Location) :
    checkFrom [] previous loc [] = .ok () := by
  rw [checkFrom.eq_def]

/-- **The checker, a turn at a time.** -/
theorem checkFrom_cons (stack : List (Opener × Location)) (previous : Option Char) (loc : Location)
    (c : Char) (text : List Char) :
    checkFrom stack previous loc (c :: text) =
      (react stack loc c (readPiece (inSubstitution stack) previous c text).piece).bind
        fun stack' =>
        checkFrom stack' (previousAfter previous c
          (readPiece (inSubstitution stack) previous c text).piece)
          (loc.advanceAll (readPiece (inSubstitution stack) previous c text).chars)
          (readPiece (inSubstitution stack) previous c text).rest := by
  by_cases hresumes : (inSubstitution stack && c == '}') = true
  · obtain ⟨hstack, rfl⟩ : inSubstitution stack = true ∧ c = '}' := by simpa using hresumes
    -- The checker reads a closing brace as code and finds on the stack that a template goes on
    -- behind it.
    obtain ⟨place, rest, rfl⟩ := exists_cons_of_inSubstitution hstack
    rw [readPiece, if_pos hresumes, checkFrom.eq_def]
    dsimp only
    rw [step_closing_brace]
    cases (scanTemplate text).ending <;>
      simp [react, afterTemplate, previousAfter, openerOf?, isCloser, closes, Except.bind]
  · have hpiece : readPiece (inSubstitution stack) previous c text = step previous c text := by
      rw [readPiece, if_neg hresumes]
    rw [hpiece]
    conv => lhs; rw [checkFrom.eq_def]
    dsimp only
    -- In all other turns both read the same step, so it is enough to go through its kinds.
    generalize hs : step previous c text = s
    have hsteps := steps_step previous c text
    rw [hs] at hsteps
    cases hsteps with
    | blank | lineComment => rfl
    | blockComment => cases (scanBlockComment _).ended <;> rfl
    | regex => cases (scanRegex false text).ended <;> rfl
    | string => cases (scanString c text).ended <;> rfl
    | template => cases (scanTemplate text).ending <;> rfl
    | plain =>
      simp only [react, afterPlain, previousAfter]
      cases openerOf? c with
      | some opener => rfl
      | none =>
        dsimp only
        split
        next =>
          cases stack with
          | nil => rfl
          | cons top stack =>
            obtain ⟨opener, place⟩ := top
            -- Otherwise the brace would have been read as part of a template.
            have hresume : ¬ (decide (c = '}') && decide (opener = .substitution)) = true := by
              simp only [Bool.and_eq_true, decide_eq_true_eq]
              rintro ⟨rfl, rfl⟩
              exact hresumes rfl
            dsimp only [afterCloser]
            rw [if_neg hresume]
            split <;> rfl
        next => rfl

/-- True of the pieces that the masker fills with spaces. -/
def Piece.isLiteral : Piece → Bool
  | .blank | .plain => false
  | _ => true

/-- The open braces after a piece that starts with `c`. -/
def bracesNext (braces : List Bool) (c : Char) : Piece → List Bool
  | .template ending => bracesAfter ending (if c = '}' then braces.tail else braces)
  | .plain => if c = '{' then false :: braces else if c = '}' then braces.tail else braces
  | _ => braces

theorem segments_nil (braces : List Bool) (previous : Option Char) :
    segments braces previous [] = [] := by
  rw [segments.eq_def]

/-- **The masker, a turn at a time.** -/
theorem segments_cons (braces : List Bool) (previous : Option Char) (c : Char) (text : List Char) :
    segments braces previous (c :: text) =
      ⟨(readPiece (braces.head? == some true) previous c text).piece.isLiteral,
        (readPiece (braces.head? == some true) previous c text).chars⟩ ::
      segments (bracesNext braces c (readPiece (braces.head? == some true) previous c text).piece)
        (previousAfter previous c (readPiece (braces.head? == some true) previous c text).piece)
        (readPiece (braces.head? == some true) previous c text).rest := by
  by_cases hresumes : (braces.head? == some true && c == '}') = true
  · obtain ⟨hbraces, rfl⟩ : braces.head? = some true ∧ c = '}' := by simpa using hresumes
    -- The masker finds the same in its list of braces.
    obtain ⟨outer, rfl⟩ := List.head?_eq_some_iff.1 hbraces
    rw [readPiece, if_pos hresumes, segments.eq_def]
    dsimp only
    rw [step_closing_brace]
    simp [Piece.isLiteral, bracesNext, previousAfter]
  · have hpiece : readPiece (braces.head? == some true) previous c text = step previous c text := by
      rw [readPiece, if_neg hresumes]
    rw [hpiece]
    conv => lhs; rw [segments.eq_def]
    dsimp only
    generalize hs : step previous c text = s
    have hsteps := steps_step previous c text
    rw [hs] at hsteps
    cases hsteps with
    | blank | lineComment | blockComment | regex | string => rfl
    | template => simp [bracesNext, previousAfter, Piece.isLiteral]
    | plain =>
      simp only [bracesNext, previousAfter, Piece.isLiteral]
      by_cases hopen : c = '{'
      · rw [if_pos hopen, if_pos hopen]
      by_cases hclose : c = '}'
      · rw [if_neg hopen, if_pos hclose, if_neg hopen, if_pos hclose]
        split
        next outer => exact absurd (by simp [hclose]) hresumes
        next => rfl
      · rw [if_neg hopen, if_neg hclose, if_neg hopen, if_neg hclose]

/-! ### What comes later, and indentation -/

/-- **A step does not look further than one character behind it**: what comes later can be
replaced. -/
theorem Steps.of_rest {previous : Option Char} {c d : Char} {text tail : List Char} {s : Step}
    (h : Steps previous c text s) (hrest : s.rest = d :: tail) (more : List Char) :
    ∃ run, s.chars = c :: run ∧
      Steps previous c (run ++ d :: more) { s with rest := d :: more } := by
  have hne : s.rest ≠ [] := by
    rw [hrest]
    exact List.cons_ne_nil d tail
  cases h with
  | blank hblank => exact ⟨[], rfl, .blank hblank⟩
  | @lineComment text =>
    refine ⟨'/' :: text.takeWhile (· != '\n'), rfl, ?_⟩
    dsimp only at hrest
    -- The comment ended at a line feed, and that is `d`.
    have hstop : Stops (· != '\n') (d :: more) := by
      have hstops : Stops (· != '\n') (text.dropWhile (· != '\n')) := stops_dropWhile text
      rw [hrest] at hstops
      exact hstops
    have hcomment := @Steps.lineComment previous (text.takeWhile (· != '\n') ++ d :: more)
    rwa [takeWhile_append_of_stops (fun _ hc => of_mem_takeWhile hc) hstop,
      dropWhile_append_of_stops (fun _ hc => of_mem_takeWhile hc) hstop] at hcomment
  | @blockComment text =>
    obtain ⟨-, hmore⟩ := settled_scanBlockComment text hne (d :: more)
    have hcomment := @Steps.blockComment previous ((scanBlockComment text).read ++ d :: more)
    rw [hmore] at hcomment
    exact ⟨_, rfl, hcomment⟩
  | regex hno hprevious =>
    -- Whether a slash starts a comment is told from the character behind it, which stays too.
    obtain ⟨hhead, hmore⟩ := settled_scanRegex false text hne (d :: more)
    have hno' : StartsNoComment ((scanRegex false text).read ++ d :: more) := by
      rwa [StartsNoComment, hhead]
    have hregex := Steps.regex hno' hprevious
    rw [hmore] at hregex
    exact ⟨_, rfl, hregex⟩
  | string hquote =>
    obtain ⟨-, hmore⟩ := settled_scanString c text hne (d :: more)
    have hstring := @Steps.string previous c ((scanString c text).read ++ d :: more) hquote
    rw [hmore] at hstring
    exact ⟨_, rfl, hstring⟩
  | template =>
    obtain ⟨-, hmore⟩ := settled_scanTemplate hne (d :: more)
    have htemplate := @Steps.template previous ((scanTemplate text).read ++ d :: more)
    rw [hmore] at htemplate
    exact ⟨_, rfl, htemplate⟩
  | plain hblank hdouble hsingle hbacktick hslash =>
    -- Nothing but the next character can have been looked at.
    obtain rfl : text = d :: tail := hrest
    exact ⟨[], rfl, .plain hblank hdouble hsingle hbacktick hslash⟩

/-- **A piece that ends before the end of the text is read the same way whatever comes later**, as
long as the next character stays. -/
theorem readPiece_of_rest {resumes : Bool} {previous : Option Char} {c d : Char}
    {text tail : List Char} (h : (readPiece resumes previous c text).rest = d :: tail)
    (more : List Char) :
    ∃ run, (readPiece resumes previous c text).chars = c :: run ∧
      readPiece resumes previous c (run ++ d :: more) =
        { readPiece resumes previous c text with rest := d :: more } := by
  unfold readPiece at h ⊢
  by_cases hresumes : (resumes && c == '}') = true
  · simp only [if_pos hresumes] at h ⊢
    obtain ⟨-, hmore⟩ := @settled_scanTemplate text (by simp [h]) (d :: more)
    refine ⟨(scanTemplate text).read, rfl, ?_⟩
    rw [hmore]
  · simp only [if_neg hresumes] at h ⊢
    obtain ⟨run, hchars, hsteps⟩ := (steps_step previous c text).of_rest h more
    exact ⟨run, hchars, hsteps.eq_step⟩

/-- The characters of a piece and the rest make up the text. -/
theorem readPiece_append (resumes : Bool) (previous : Option Char) (c : Char) (text : List Char) :
    (readPiece resumes previous c text).chars ++ (readPiece resumes previous c text).rest =
      c :: text := by
  unfold readPiece
  split
  · simp [scanTemplate_append]
  · exact step_append previous c text

/-- A piece takes at least one character. -/
theorem readPiece_rest_le (resumes : Bool) (previous : Option Char) (c : Char) (text : List Char) :
    (readPiece resumes previous c text).rest.length ≤ text.length := by
  unfold readPiece
  split
  · exact scanTemplate_rest_le text
  · exact step_rest_le previous c text

/-- **A step meets the same piece where indentation differs**, and what is left again differs in
indentation alone. -/
theorem Steps.reindents {previous previous' : Option Char} {c : Char} {text text' : List Char}
    {s : Step} (h : Steps previous c text s)
    (hprevious : canPrecedeRegex previous' = canPrecedeRegex previous)
    (hmoved : Reindents (c == '\n') text text') :
    ∃ s', Steps previous' c text' s' ∧ s'.piece = s.piece ∧ Reindents true s.rest s'.rest := by
  cases h with
  | blank hblank => exact ⟨_, .blank hblank, rfl, hmoved.mono (Bool.le_true _)⟩
  | lineComment =>
    cases hmoved with
    -- The second character of the mark does not start a line, so it is kept.
    | keep _ hmoved => exact ⟨_, .lineComment, rfl, unmoved_dropWhile hmoved⟩
  | blockComment =>
    cases hmoved with
    | keep _ hmoved =>
      obtain ⟨hended, hrest⟩ := unmoved_scanBlockComment _ _ _ hmoved
      exact ⟨_, .blockComment, congrArg Piece.comment hended, hrest⟩
  | regex hno hcan =>
    obtain ⟨hended, hrest⟩ := unmoved_scanRegex false _ _ _ hmoved
    have hno' : StartsNoComment text' := by rwa [StartsNoComment, Reindents.head?_eq hmoved]
    exact ⟨_, .regex hno' (hprevious.trans hcan), congrArg Piece.regex hended, hrest⟩
  | string hquote =>
    -- The string is looked for up to its mark, which must not be dropped.
    have hmark : isBlank c = false := by rcases hquote with rfl | rfl <;> decide
    obtain ⟨hended, hrest⟩ := unmoved_scanString hmark _ _ _ hmoved
    exact ⟨_, .string hquote, congrArg Piece.string hended, hrest⟩
  | template =>
    obtain ⟨hending, hrest⟩ := unmoved_scanTemplate hmoved
    exact ⟨_, .template, congrArg Piece.template hending, hrest⟩
  | plain hblank hdouble hsingle hbacktick hslash =>
    refine ⟨_, .plain hblank hdouble hsingle hbacktick ?_, rfl, hmoved.mono (Bool.le_true _)⟩
    rintro rfl
    obtain ⟨hno, hcannot⟩ := hslash rfl
    exact ⟨by rwa [StartsNoComment, Reindents.head?_eq hmoved], hprevious.trans hcannot⟩

/-- **Blanks at the starts of lines change no piece.** -/
theorem readPiece_reindents {resumes : Bool} {previous previous' : Option Char} {c : Char}
    {text text' : List Char} (hprevious : canPrecedeRegex previous' = canPrecedeRegex previous)
    (hmoved : Reindents (c == '\n') text text') :
    (readPiece resumes previous' c text').piece = (readPiece resumes previous c text).piece ∧
      Reindents true (readPiece resumes previous c text).rest
        (readPiece resumes previous' c text').rest := by
  unfold readPiece
  split
  next =>
    obtain ⟨hending, hrest⟩ := unmoved_scanTemplate hmoved
    exact ⟨congrArg Piece.template hending, hrest⟩
  next =>
    obtain ⟨s', hs', hpiece, hrest⟩ := (steps_step previous c text).reindents hprevious hmoved
    rw [hs'.eq_step]
    exact ⟨hpiece, hrest⟩

end Triptych.Script
