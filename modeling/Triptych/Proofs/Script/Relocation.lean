import Triptych.Proofs.Script.Verdict

/-!
# The checker from another location

The checker carries locations along and never looks at them: they come out again in the fault that
it reports. So where locations are moved in a way that reading on respects, the checker reports the
same fault, moved in that way (`checkFrom_relocate`).

The move that this serves is `Location.pushRight`. Characters are put into a line, and what stands
behind them on that line moves to the right; nothing else does.
-/

namespace Triptych

open Text Code

namespace Location

/-- Where a location is after `count` characters have been put in at `place`: what stands there, or
further right on the same line, is pushed to the right. -/
def pushRight (place : Location) (count : Nat) (loc : Location) : Location :=
  if loc.line = place.line ∧
    place.column ≤ loc.column then { loc with column := loc.column + count } else loc

/-- Pushing to the right changes no line. -/
theorem line_pushRight (place : Location) (count : Nat) (loc : Location) :
    (place.pushRight count loc).line = loc.line := by
  unfold pushRight
  split <;> rfl

/-- What is read before the place stays where it is. -/
theorem pushRight_of_advanceAll {read : List Char} (h : read ≠ []) (count : Nat) (loc : Location) :
    (loc.advanceAll read).pushRight count loc = loc := by
  refine if_neg ?_
  rintro ⟨hline, hcolumn⟩
  -- On the same line there is no line feed in between, so each character leads to the right.
  rw [line_advanceAll] at hline
  have hnone : '\n' ∉ read := List.count_eq_zero.1 (Nat.left_eq_add.1 hline)
  have hlength := List.length_pos_iff.2 h
  rw [advanceAll_of_notMem hnone] at hcolumn
  dsimp only at hcolumn
  omega

/-- A place that was pushed goes on like the others. -/
theorem pushRight_advance {place loc : Location} (count : Nat) (c : Char)
    (h : place.line < loc.line ∨ loc.line = place.line ∧ place.column ≤ loc.column) :
    place.pushRight count (loc.advance c) = (place.pushRight count loc).advance c := by
  unfold pushRight advance
  split
  · rw [if_neg (by dsimp only; omega)]
    split <;> rfl
  · dsimp only
    by_cases hline : loc.line = place.line
    · rw [if_pos ⟨hline, by omega⟩, if_pos ⟨hline, by omega⟩, Nat.add_right_comm]
    · rw [if_neg fun hpushed => hline hpushed.1, if_neg fun hpushed => hline hpushed.1]

/-- **Reading on from the place respects the move.** -/
theorem pushRight_advanceAll (place : Location) (count : Nat) (read : List Char) :
    place.pushRight count (place.advanceAll read) =
      (place.pushRight count place).advanceAll read := by
  -- A reader that has come as far as the place does not go back before it.
  have hfrom : ∀ loc :
    Location, (place.line < loc.line ∨ loc.line = place.line ∧ place.column ≤ loc.column) →
      place.pushRight count (loc.advanceAll read) =
          (place.pushRight count loc).advanceAll read := by
    induction read with
    | nil => exact fun _ _ => rfl
    | cons c cs ih =>
      intro loc hloc
      have hnext : place.line < (loc.advance c).line ∨
          (loc.advance c).line = place.line ∧ place.column ≤ (loc.advance c).column := by
        unfold advance
        split <;> dsimp only <;> omega
      have hrest := ih _ hnext
      rw [pushRight_advance count c hloc] at hrest
      exact hrest
  exact hfrom place (.inr ⟨rfl, Nat.le_refl _⟩)

end Location

/-- The fault at another location. -/
def Code.Fault.relocate (move : Location → Location) (fault : Fault) : Fault :=
  { fault with location := move fault.location }

namespace Script

/-- A move that keeps lines does not change the verdict. -/
theorem verdict_relocate {move : Location → Location} (h : ∀ loc, (move loc).line = loc.line)
    (outcome : Except Fault Unit) :
    verdict (outcome.mapError (Fault.relocate move)) = verdict outcome := by
  cases outcome with
  | ok => rfl
  | error fault => exact congrArg Except.error (lineReport_congr _ (h _))

section Turn

variable (move : Location → Location) (stack : List (Opener × Location)) (loc : Location) (c : Char)

/-- What is open, at other locations. -/
def relocate : List (Opener × Location) :=
  stack.map fun entry => (entry.1, move entry.2)

/-- The outcome of a turn, at other locations. -/
def relocateTurn (outcome : Except Fault (List (Opener × Location))) :
    Except Fault (List (Opener × Location)) :=
  (outcome.map (relocate move)).mapError (Fault.relocate move)

/-- **Where brackets stand does not decide what the checker does**, turn by turn. -/
theorem inSubstitution_relocate : inSubstitution (relocate move stack) = inSubstitution stack := by
  match stack with
  | [] | (.brace, _) :: _ | (.paren, _) :: _ | (.bracket, _) :: _ | (.substitution, _) :: _ => rfl

theorem afterTemplate_relocate (place : Location) (ending : TemplateEnd) :
    afterTemplate (relocate move stack) (move place) ending =
      relocateTurn move (afterTemplate stack place ending) := by
  cases ending <;> rfl

theorem afterPlain_relocate :
    afterPlain (relocate move stack) (move loc) c = relocateTurn move (afterPlain stack loc c) := by
  unfold afterPlain
  split
  next => rfl
  next =>
    split
    next =>
      cases stack with
      | nil => rfl
      | cons top stack =>
        change (if closes c top.1 then _ else _) =
          relocateTurn move (if closes c top.1 then _ else _)
        split <;> rfl
    next => rfl

/-- What a piece does does not depend on where it stands. -/
theorem react_relocate (piece : Piece) :
    react (relocate move stack) (move loc) c piece =
      relocateTurn move (react stack loc c piece) := by
  cases piece with
  | blank => rfl
  | comment ended | regex ended | string ended => cases ended <;> rfl
  | template ending =>
    unfold react
    cases c == '}' with
    | false => exact afterTemplate_relocate move stack loc ending
    | true =>
      cases stack with
      | nil => exact afterTemplate_relocate move [] loc ending
      | cons top stack => exact afterTemplate_relocate move stack top.2 ending
  | plain => exact afterPlain_relocate move stack loc c

end Turn

/-- Where neither the location nor what is open moves, what a turn leads to does not move either. -/
theorem relocateTurn_react {move : Location → Location} {stack : List (Opener × Location)}
    {loc : Location} (hstack : relocate move stack = stack) (hloc : move loc = loc) (c : Char)
    (piece : Piece) :
    relocateTurn move (react stack loc c piece) = react stack loc c piece := by
  rw [← react_relocate, hstack, hloc]

/-- All that a piece depends on of what stands before it is whether a slash may start a regular
expression. -/
theorem readPiece_congr {previous previous' : Option Char}
    (h : canPrecedeRegex previous' = canPrecedeRegex previous) (resumes : Bool) (c : Char)
    (text : List Char) :
    readPiece resumes previous' c text = readPiece resumes previous c text := by
  unfold readPiece step
  rw [h]

/-- **Where reading on respects a move, the checker reports the same fault, moved.** -/
theorem checkFrom_relocate {move : Location → Location} {previous previous' : Option Char}
    (hprevious : canPrecedeRegex previous' = canPrecedeRegex previous) {loc : Location}
    (hmove : ∀ read, move (loc.advanceAll read) = (move loc).advanceAll read)
    (stack : List (Opener × Location)) (text : List Char) :
    checkFrom (relocate move stack) previous' (move loc) text =
      (checkFrom stack previous loc text).mapError (Fault.relocate move) := by
  match text with
  | [] =>
    rw [checkFrom.eq_def, checkFrom.eq_def]
    match stack with
    | [] | (.brace, _) :: _ | (.paren, _) :: _ | (.bracket, _) :: _ | (.substitution, _) :: _ => rfl
  | c :: text =>
    have hshorter := readPiece_rest_le (inSubstitution stack) previous c text
    rw [checkFrom_cons, checkFrom_cons, inSubstitution_relocate, readPiece_congr hprevious,
      react_relocate]
    -- What is read depends on neither location, so the piece is the same for both.
    generalize readPiece (inSubstitution stack) previous c text = s at *
    cases react stack loc c s.piece with
    | error fault => rfl
    | ok stack' =>
      have hnext : canPrecedeRegex (previousAfter previous' c s.piece) =
          canPrecedeRegex (previousAfter previous c s.piece) := by
        cases s.piece <;> first | exact hprevious | rfl
      -- The move is respected behind the piece, too.
      have hread (read : List Char) : move ((loc.advanceAll s.chars).advanceAll read) =
          (move (loc.advanceAll s.chars)).advanceAll read := by
        rw [← Location.advanceAll_append, hmove, hmove, Location.advanceAll_append]
      have hrest := checkFrom_relocate hnext hread stack' s.rest
      rw [hmove] at hrest
      exact hrest
termination_by text.length
decreasing_by simp only [List.length_cons]; omega

end Script

end Triptych
