import Triptych.Proofs.Script.Turns
import Triptych.Proofs.Text.Location

/-!
# Indentation does not matter to the checker

The verdict on a script is what is wrong with it and on which line, the column left out. Taking away
the common indentation changes columns but not the verdict (`verdict_check_dedent`).

The two scripts are followed turn by turn. Between turns the checker stands before texts that differ
in indentation alone, on the same line, with the same things open on the same lines (`outline`), and
a slash means the same in both; `verdict_checkFrom_of_reindents` is the induction over the run.
-/

namespace Triptych.Script

open Text Code

/-! ### Verdicts -/

/-- What is wrong and on which line. -/
def lineReport (fault : Fault) : Cause × Nat :=
  (fault.cause, fault.location.line)

/-- What the checker says about a script, without the column. -/
def verdict (outcome : Except Fault Unit) : Except (Cause × Nat) Unit :=
  outcome.mapError lineReport

/-- What is open, each with its line. -/
def outline (stack : List (Opener × Location)) : List (Opener × Nat) :=
  stack.map fun entry => (entry.1, entry.2.line)

/-! ### A turn on the same line with the same things open -/

section Turn

variable {stack stack' : List (Opener × Location)} {loc loc' : Location}

/-- Stacks with one outline have the same bracket on top, on the same line. -/
theorem outline_cons_eq {opener : Opener} {place : Location}
    (h : outline stack' = outline ((opener, place) :: stack)) :
    ∃ place' rest', stack' = (opener, place') :: rest' ∧ place'.line = place.line ∧
      outline rest' = outline stack := by
  cases stack' with
  | nil => simp [outline] at h
  | cons top rest' =>
    obtain ⟨opener', place'⟩ := top
    simp only [outline, List.map_cons, List.cons.injEq, Prod.mk.injEq] at h
    obtain ⟨⟨rfl, hplace⟩, hrest⟩ := h
    exact ⟨place', rest', rfl, hplace, hrest⟩

/-- If one of them is empty, so is the other. -/
theorem outline_nil_eq (h : outline stack' = outline []) : stack' = [] := by
  simpa [outline] using h

/-- Whether a brace leads back into a template literal is seen from the outline. -/
theorem inSubstitution_congr (h : outline stack' = outline stack) :
    inSubstitution stack' = inSubstitution stack := by
  cases stack with
  | nil => rw [outline_nil_eq h]
  | cons top rest =>
    obtain ⟨opener, place⟩ := top
    obtain ⟨place', rest', rfl, -, -⟩ := outline_cons_eq h
    cases opener <;> rfl

/-- Brackets on one line can be put on both. -/
theorem outline_push (opener : Opener) (hstack : outline stack' = outline stack)
    (hloc : loc'.line = loc.line) :
    outline ((opener, loc') :: stack') = outline ((opener, loc) :: stack) := by
  unfold outline at hstack ⊢
  rw [List.map_cons, List.map_cons, hstack, hloc]

/-- What is reported of a fault depends on its line alone. -/
theorem lineReport_congr (cause : Cause) (hloc : loc'.line = loc.line) :
    lineReport ⟨cause, loc'⟩ = lineReport ⟨cause, loc⟩ := by
  rw [lineReport, lineReport, hloc]

/-- Two outcomes of a turn that differ in columns alone. -/
inductive SameTurn :
    Except Fault (List (Opener × Location)) → Except Fault (List (Opener × Location)) → Prop
  | goesOn {stack stack' : List (Opener × Location)} :
      outline stack' = outline stack → SameTurn (.ok stack) (.ok stack')
  | fails {fault fault' : Fault} : lineReport fault' = lineReport fault →
      SameTurn (.error fault) (.error fault')

/-- **What a piece does to stacks with one outline is the same**, piece by piece. -/
theorem afterTemplate_congr (hstack : outline stack' = outline stack) (hloc : loc'.line = loc.line)
    (ending : TemplateEnd) :
    SameTurn (afterTemplate stack loc ending) (afterTemplate stack' loc' ending) := by
  cases ending with
  | closed => exact .goesOn hstack
  | substitution => exact .goesOn (outline_push .substitution hstack hloc)
  | missing => exact .fails (lineReport_congr _ hloc)

theorem afterCloser_congr (hstack : outline stack' = outline stack) (hloc : loc'.line = loc.line)
    (c : Char) :
    SameTurn (afterCloser loc c stack) (afterCloser loc' c stack') := by
  cases stack with
  | nil =>
    rw [outline_nil_eq hstack]
    exact .fails (lineReport_congr _ hloc)
  | cons top rest =>
    obtain ⟨opener, place⟩ := top
    obtain ⟨place', rest', rfl, -, hrest⟩ := outline_cons_eq hstack
    dsimp only [afterCloser]
    split
    · exact .goesOn hrest
    · exact .fails (lineReport_congr _ hloc)

theorem afterPlain_congr (hstack : outline stack' = outline stack) (hloc : loc'.line = loc.line)
    (c : Char) :
    SameTurn (afterPlain stack loc c) (afterPlain stack' loc' c) := by
  unfold afterPlain
  split
  next opener _ => exact .goesOn (outline_push opener hstack hloc)
  next =>
    split
    · exact afterCloser_congr hstack hloc c
    · exact .goesOn hstack

/-- **What a piece does depends on lines, not on columns.** -/
theorem react_congr (hstack : outline stack' = outline stack) (hloc : loc'.line = loc.line)
    (c : Char) (piece : Piece) :
    SameTurn (react stack loc c piece) (react stack' loc' c piece) := by
  cases piece with
  | blank => exact .goesOn hstack
  | comment ended | regex ended | string ended =>
    cases ended with
    | false => exact .fails (lineReport_congr _ hloc)
    | true => exact .goesOn hstack
  | template ending =>
    unfold react
    cases c == '}' with
    | false => exact afterTemplate_congr hstack hloc ending
    | true =>
      cases stack with
      | nil =>
        rw [outline_nil_eq hstack]
        exact afterTemplate_congr rfl hloc ending
      | cons top rest =>
        obtain ⟨opener, place⟩ := top
        -- The fault of a template that goes on is reported where it started, so that line counts
        -- and not the present one.
        obtain ⟨place', rest', rfl, hplace, hrest⟩ := outline_cons_eq hstack
        exact afterTemplate_congr hrest hplace ending
  | plain => exact afterPlain_congr hstack hloc c

end Turn

/-! ### The whole run -/

/-- At the end, what stays open is reported on the same line. -/
theorem verdict_checkFrom_nil {stack stack' : List (Opener × Location)}
    (hstack : outline stack' = outline stack) (previous previous' : Option Char)
    (loc loc' : Location) :
    verdict (checkFrom stack' previous' loc' []) = verdict (checkFrom stack previous loc []) := by
  cases stack with
  | nil => rw [outline_nil_eq hstack, checkFrom.eq_def, checkFrom.eq_def]
  | cons top rest =>
    obtain ⟨opener, place⟩ := top
    obtain ⟨place', rest', rfl, hplace, -⟩ := outline_cons_eq hstack
    rw [checkFrom.eq_def, checkFrom.eq_def]
    cases opener <;> exact congrArg Except.error (lineReport_congr _ hplace)

/-- A blank is read as one whatever was read before. -/
theorem readPiece_blank {c : Char} (hc : isBlank c = true) (resumes : Bool) (previous : Option Char)
    (text : List Char) : readPiece resumes previous c text = ⟨.blank, [c], text⟩ := by
  have hbrace : ¬ (resumes && c == '}') = true := by
    rw [Bool.and_eq_true, beq_iff_eq]
    rintro ⟨-, rfl⟩
    exact absurd hc (by decide)
  rw [readPiece, if_neg hbrace]
  exact (Steps.blank hc).eq_step

/-- **Where a text differs from another in indentation alone, the checker says the same about
both.** -/
theorem verdict_checkFrom_of_reindents {start : Bool} {text text' : List Char}
    (h : Reindents start text text') {stack stack' : List (Opener × Location)}
    {previous previous' : Option Char} {loc loc' : Location}
    (hstack : outline stack' = outline stack)
    (hprevious : canPrecedeRegex previous' = canPrecedeRegex previous)
    (hloc : loc'.line = loc.line) :
    verdict (checkFrom stack' previous' loc' text') =
      verdict (checkFrom stack previous loc text) := by
  cases h with
  | nil => exact verdict_checkFrom_nil hstack previous previous' loc loc'
  | @drop c text _ hblank hc h =>
    -- Only one of the two scripts has the blank, so only one of the checkers takes a turn.
    rw [checkFrom_cons stack, readPiece_blank hblank]
    refine verdict_checkFrom_of_reindents h hstack hprevious ?_
    rw [Location.line_advanceAll, List.count_singleton, if_neg (by simpa using hc), hloc,
      Nat.add_zero]
  | @keep _ text text' c h =>
    -- Both read a piece of the same kind, do the same with it, and go on with texts that differ in
    -- indentation alone.
    have happend := readPiece_append (inSubstitution stack) previous c text
    have happend' := readPiece_append (inSubstitution stack) previous' c text'
    have hshorter := readPiece_rest_le (inSubstitution stack) previous c text
    obtain ⟨hpiece, hrest⟩ :=
      @readPiece_reindents (inSubstitution stack) previous previous' c text text' hprevious h
    rw [checkFrom_cons stack, checkFrom_cons stack', inSubstitution_congr hstack, hpiece]
    generalize readPiece (inSubstitution stack) previous c text = s at *
    generalize readPiece (inSubstitution stack) previous' c text' = s' at *
    have hreact := react_congr hstack hloc c s.piece
    generalize react stack loc c s.piece = outcome at hreact
    generalize react stack' loc' c s.piece = outcome' at hreact
    cases hreact with
    | fails hreport => exact congrArg Except.error hreport
    | goesOn hnext =>
      refine verdict_checkFrom_of_reindents hrest hnext ?_ ?_
      -- A piece sets the last significant character to its own first one or leaves it as it was.
      · cases s.piece <;> first | exact hprevious | rfl
      · -- The pieces have as many line feeds, since the texts do and the rests do.
        have hcount := congrArg (List.count '\n') happend
        have hcount' := congrArg (List.count '\n') happend'
        have htext := (Reindents.keep c h : Reindents true _ _).count_newline
        have hrests := hrest.count_newline
        rw [List.count_append] at hcount hcount'
        rw [Location.line_advanceAll, Location.line_advanceAll]
        omega
termination_by text.length
decreasing_by all_goals (simp only [List.length_cons]; omega)

/-- A script is in order if one with the same verdict is. -/
theorem eq_ok_of_verdict {outcome outcome' : Except Fault Unit}
    (h : verdict outcome' = verdict outcome) (hok : outcome = .ok ()) : outcome' = .ok () := by
  cases outcome' with
  | ok => rfl
  | error fault =>
    rw [hok] at h
    cases h

/-- **Taking away the common indentation does not change what the checker says.** -/
theorem verdict_check_dedent (source : List Char) :
    verdict (check (dedent source)) = verdict (check source) :=
  verdict_checkFrom_of_reindents (reindents_dedent source) rfl rfl rfl

end Triptych.Script
