import Triptych.Proofs.Script.Trimming

/-!
# The pieces that the checker reads

The checker goes through a script piece by piece, up to the end or to a fault. `lexemes` lists the
pieces that it gets past, with their characters. It is what can be said about the inside of a
script: which of its characters are code, and which are part of a comment or of a literal.

* A script without a fault is read to its end, so the pieces make it up (`flatMap_chars_lexemes`).
* The masker, which knows nothing of faults, cuts such a script into the same pieces
  (`segments_eq_map_lexemes`).
* Blanks and characters of code are read one at a time, and no piece is empty (`Lexeme.WellFormed`).
-/

namespace Triptych.Script

open Text Code

/-- A piece as it stands in a script. -/
structure Lexeme where
  piece : Piece
  chars : List Char
deriving DecidableEq, Repr

/-- The pieces that the checker gets past, from the location `loc` on. -/
def lexemesFrom (stack : List (Opener × Location)) (previous : Option Char) (loc : Location) :
    List Char → List Lexeme
  | [] => []
  | c :: text =>
    have := readPiece_rest_le (inSubstitution stack) previous c text
    let s := readPiece (inSubstitution stack) previous c text
    match react stack loc c s.piece with
    | .error _ => []
    | .ok stack' =>
      ⟨s.piece, s.chars⟩ :: lexemesFrom stack' (previousAfter previous c s.piece)
        (loc.advanceAll s.chars) s.rest
termination_by text => text.length
decreasing_by simp only [List.length_cons]; omega

/-- The pieces of a script that the checker gets past. -/
def lexemes (source : List Char) : List Lexeme :=
  lexemesFrom [] none {} source

theorem lexemesFrom_nil (stack : List (Opener × Location)) (previous : Option Char)
    (loc : Location) :
    lexemesFrom stack previous loc [] = [] := by
  rw [lexemesFrom]

/-- Past a piece the checker goes on with what is open then. -/
theorem lexemesFrom_cons {stack stack' : List (Opener × Location)} {previous : Option Char}
    {loc : Location} {c : Char} {text : List Char}
    (h : react stack loc c (readPiece (inSubstitution stack) previous c text).piece = .ok stack') :
    lexemesFrom stack previous loc (c :: text) =
      ⟨(readPiece (inSubstitution stack) previous c text).piece,
        (readPiece (inSubstitution stack) previous c text).chars⟩ ::
        lexemesFrom stack' (previousAfter previous c
          (readPiece (inSubstitution stack) previous c text).piece)
          (loc.advanceAll (readPiece (inSubstitution stack) previous c text).chars)
          (readPiece (inSubstitution stack) previous c text).rest := by
  rw [lexemesFrom]
  simp only [h]

/-- The checker does not get past a fault. -/
theorem lexemesFrom_cons_of_error {stack : List (Opener × Location)} {previous : Option Char}
    {loc : Location} {c : Char} {text : List Char} {fault : Fault}
    (h : react stack loc c (readPiece (inSubstitution stack) previous c text).piece =
      .error fault) :
    lexemesFrom stack previous loc (c :: text) = [] := by
  rw [lexemesFrom]
  simp only [h]

/-- **What the checker accepts, it accepts piece by piece.** -/
theorem exists_react_of_checkFrom {stack : List (Opener × Location)} {previous : Option Char}
    {loc : Location} {c : Char} {text : List Char}
    (h : checkFrom stack previous loc (c :: text) = .ok ()) :
    ∃ stack', react stack loc c (readPiece (inSubstitution stack) previous c text).piece =
      .ok stack' ∧
      checkFrom stack' (previousAfter previous c
        (readPiece (inSubstitution stack) previous c text).piece)
        (loc.advanceAll (readPiece (inSubstitution stack) previous c text).chars)
        (readPiece (inSubstitution stack) previous c text).rest = .ok () := by
  rw [checkFrom_cons] at h
  cases hreact : react stack loc c (readPiece (inSubstitution stack) previous c text).piece with
  | error fault =>
    rw [hreact] at h
    contradiction
  | ok stack' =>
    rw [hreact] at h
    exact ⟨stack', rfl, h⟩

/-- The masker cuts a text that the checker accepts into the pieces that the checker reads. -/
theorem segments_eq_map_lexemesFrom {stack : List (Opener × Location)} {previous : Option Char}
    {loc : Location} {text : List Char} (h : checkFrom stack previous loc text = .ok ()) :
    segments (bracesOf stack) previous text =
      (lexemesFrom stack previous loc text).map fun lexeme =>
        ⟨lexeme.piece.isLiteral, lexeme.chars⟩ := by
  match text with
  | [] => rw [segments_nil, lexemesFrom_nil, List.map_nil]
  | c :: text =>
    have hshorter := readPiece_rest_le (inSubstitution stack) previous c text
    obtain ⟨stack', hreact, hrest⟩ := exists_react_of_checkFrom h
    have hbraces := bracesOf_react hreact
    have hsame : readPiece ((bracesOf stack).head? == some true) previous c text =
        readPiece (inSubstitution stack) previous c text := by
      rcases readPiece_bracesOf stack previous loc c with hsame | hfails
      · exact (hsame text).symm
      · rw [hfails] at h
        contradiction
    rw [segments_cons, hsame, lexemesFrom_cons hreact, List.map_cons, ← hbraces,
      segments_eq_map_lexemesFrom hrest]
termination_by text.length
decreasing_by simp only [List.length_cons]; omega

/-- **The second scanner finds the lexemes of the checker**, if the script is accepted. -/
theorem segments_eq_map_lexemes {source : List Char} (h : check source = .ok ()) :
    segments [] none source = (lexemes source).map fun lexeme =>
      ⟨lexeme.piece.isLiteral, lexeme.chars⟩ :=
  segments_eq_map_lexemesFrom h

/-- **The pieces of a script without a fault make it up.** -/
theorem flatMap_chars_lexemes {source : List Char} (h : check source = .ok ()) :
    (lexemes source).flatMap Lexeme.chars = source := by
  have hsource := flatMap_chars_segments [] none source
  rw [segments_eq_map_lexemes h, List.flatMap_map] at hsource
  exact hsource

/-! ### What pieces look like -/

/-- The characters of a piece are of its kind. -/
def Lexeme.WellFormed (lexeme : Lexeme) : Prop :=
  match lexeme.piece with
  | .blank => ∃ c, lexeme.chars = [c] ∧ isBlank c = true
  | .plain => ∃ c, lexeme.chars = [c] ∧ isBlank c = false
  | _ => lexeme.chars ≠ []

/-- What a step has met is a well-formed lexeme. -/
theorem Steps.wellFormed {previous : Option Char} {c : Char} {text : List Char} {s : Step}
    (h : Steps previous c text s) : (Lexeme.mk s.piece s.chars).WellFormed := by
  cases h with
  | blank hblank => exact ⟨c, rfl, hblank⟩
  | plain hblank => exact ⟨c, rfl, hblank⟩
  | lineComment | blockComment | regex | string | template => exact List.cons_ne_nil _ _

theorem wellFormed_readPiece (resumes : Bool) (previous : Option Char) (c : Char)
    (text : List Char) :
    (Lexeme.mk (readPiece resumes previous c text).piece
      (readPiece resumes previous c text).chars).WellFormed := by
  unfold readPiece
  split
  next => exact List.cons_ne_nil _ _
  next => exact (steps_step previous c text).wellFormed

/-- And so are all lexemes of a script. -/
theorem wellFormed_of_mem_lexemesFrom {stack : List (Opener × Location)} {previous : Option Char}
    {loc : Location} {text : List Char} {lexeme : Lexeme}
    (h : lexeme ∈ lexemesFrom stack previous loc text) : lexeme.WellFormed := by
  match text with
  | [] =>
    rw [lexemesFrom_nil] at h
    contradiction
  | c :: text =>
    have hshorter := readPiece_rest_le (inSubstitution stack) previous c text
    cases hreact : react stack loc c (readPiece (inSubstitution stack) previous c text).piece with
    | error fault =>
      rw [lexemesFrom_cons_of_error hreact] at h
      contradiction
    | ok stack' =>
      rw [lexemesFrom_cons hreact] at h
      rcases List.mem_cons.1 h with rfl | h
      · exact wellFormed_readPiece _ previous c text
      · exact wellFormed_of_mem_lexemesFrom h
termination_by text.length
decreasing_by simp only [List.length_cons]; omega

end Triptych.Script
