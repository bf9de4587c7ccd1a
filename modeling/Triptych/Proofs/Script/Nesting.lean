import Triptych.Proofs.Script.Descent
import Triptych.Proofs.Script.Lexemes

/-!
# Scripts inside brackets

A script that the checker accepts can be put between brackets, with a line feed behind it in case it
ends in a line comment, and is accepted there (`check_brackets`). Behind an opening bracket the
checker stands as it does at the start of a script: with something open, but the script does not
touch that (`checkFrom_frame`), and a slash starts a regular expression in both places.

The same goes for the code in a template literal, except in one place. Behind the first `${` of a
template literal the last significant character is taken to be the backtick, so that a slash
divides. A script that starts with a regular expression is read differently there and may be refused
(`check_substitution_refuses`); every other script is accepted (`check_enclosed`).
-/

namespace Triptych.Script

open Text Code

/-! ### A line feed and more text behind a script -/

theorem append_more_eq {text read rest body : List Char} {last : Char}
    (happend : read ++ rest = text) (hread : read = body ++ [last]) (more : List Char) :
    text ++ more = body ++ last :: (rest ++ more) := by
  subst happend hread
  simp

/-- **What a scan reads does not change when text is put behind**, if the scan ends and its last
character is seen. -/
theorem append_of_endsVisibly {scan : List Char → Scan} {text : List Char}
    (h : EndsVisibly scan text) (happend : (scan text).read ++ (scan text).rest = text)
    (hended : (scan text).ended = true) (more : List Char) :
    scan (text ++ more) = ⟨true, (scan text).read, (scan text).rest ++ more⟩ := by
  obtain ⟨body, last, -, hread, hmore⟩ := h hended
  rw [append_more_eq happend hread, (hmore _).2, ← hread]

theorem scanTemplate_append_more {text : List Char} (h : (scanTemplate text).ending ≠ .missing)
    (more : List Char) :
    scanTemplate (text ++ more) =
      ⟨(scanTemplate text).ending, (scanTemplate text).read, (scanTemplate text).rest ++ more⟩ := by
  obtain ⟨body, last, -, hread, hmore⟩ := endsVisibly_scanTemplate h
  rw [append_more_eq (scanTemplate_append text) hread, (hmore _).2, ← hread]

/-- A line feed behind a text starts no comment in it. -/
theorem StartsNoComment.append_newline {text : List Char} (h : StartsNoComment text)
    (more : List Char) :
    StartsNoComment (text ++ '\n' :: more) := by
  cases text with
  | nil => exact ⟨by simp, by simp⟩
  | cons c text => exact h

/-- **A piece that ends is read the same way before a line feed and more text.** -/
theorem Steps.append_newline {previous : Option Char} {c : Char} {text : List Char} {s : Step}
    (h : Steps previous c text s) (hended : s.piece.ended = true) (more : List Char) :
    Steps previous c (text ++ '\n' :: more) { s with rest := s.rest ++ '\n' :: more } := by
  cases h with
  | blank hblank => exact .blank hblank
  | @lineComment text =>
    -- A line comment that was at the end of the text ends at the line feed.
    have hcomment := @Steps.lineComment previous (text ++ '\n' :: more)
    have hstop : Stops (· != '\n') (text.dropWhile (· != '\n') ++ '\n' :: more) := by
      refine @Stops.cut _ _ [] _ ?_ (stops_cons (by decide) more)
      rw [List.append_nil]
      exact stops_dropWhile text
    have htext : text ++ '\n' :: more =
        text.takeWhile (· != '\n') ++ (text.dropWhile (· != '\n') ++ '\n' :: more) := by
      rw [← List.append_assoc, List.takeWhile_append_dropWhile]
    rw [htext, takeWhile_append_of_stops (fun _ hc => of_mem_takeWhile hc) hstop,
      dropWhile_append_of_stops (fun _ hc => of_mem_takeWhile hc) hstop] at hcomment
    rw [List.cons_append, htext]
    exact hcomment
  | @blockComment text =>
    have hscan := append_of_endsVisibly (endsVisibly_scanBlockComment text)
      (scanBlockComment_append text) hended
      ('\n' :: more)
    have hcomment := @Steps.blockComment previous (text ++ '\n' :: more)
    rw [hscan] at hcomment
    rw [List.cons_append, show (scanBlockComment text).ended = true from hended]
    exact hcomment
  | regex hno hprevious =>
    have hscan := append_of_endsVisibly (endsVisibly_scanRegex false text)
      (scanRegex_append false text) hended
      ('\n' :: more)
    have hregex := Steps.regex (hno.append_newline more) hprevious
    rw [hscan] at hregex
    rw [show (scanRegex false text).ended = true from hended]
    exact hregex
  | string hquote =>
    have hmark : isBlank c = false := by rcases hquote with rfl | rfl <;> decide
    have hscan := append_of_endsVisibly (endsVisibly_scanString hmark text)
      (scanString_append c text) hended
      ('\n' :: more)
    have hstring := @Steps.string previous c (text ++ '\n' :: more) hquote
    rw [hscan] at hstring
    rw [show (scanString c text).ended = true from hended]
    exact hstring
  | template =>
    have hending : (scanTemplate text).ending ≠ .missing := by simpa [Piece.ended] using hended
    have htemplate := @Steps.template previous (text ++ '\n' :: more)
    rw [scanTemplate_append_more hending] at htemplate
    exact htemplate
  | plain hblank hdouble hsingle hbacktick hslash =>
    refine .plain hblank hdouble hsingle hbacktick fun hc => ?_
    obtain ⟨hno, hprevious⟩ := hslash hc
    exact ⟨hno.append_newline more, hprevious⟩

/-- A piece that ends is read the same before a line feed and more. -/
theorem readPiece_append_newline {resumes : Bool} {previous : Option Char} {c : Char}
    {text : List Char} (hended : (readPiece resumes previous c text).piece.ended = true)
    (more : List Char) :
    readPiece resumes previous c (text ++ '\n' :: more) =
      { readPiece resumes previous c text with rest := (readPiece resumes previous c text).rest ++
        '\n' :: more } := by
  unfold readPiece at hended ⊢
  split
  next hresumes =>
    rw [if_pos hresumes] at hended
    have hending : (scanTemplate text).ending ≠ .missing := by simpa [Piece.ended] using hended
    rw [scanTemplate_append_more hending]
  next hresumes =>
    rw [if_neg hresumes] at hended
    exact ((steps_step previous c text).append_newline hended more).eq_step

/-! ### What is open around a script -/

section Frame

variable {stack next : List (Opener × Location)} {loc : Location} {c : Char}

/-- What is open below does not matter to a turn that is no fault. -/
theorem afterTemplate_append {place : Location} {ending : TemplateEnd}
    (h : afterTemplate stack place ending = .ok next) (base : List (Opener × Location)) :
    afterTemplate (stack ++ base) place ending = .ok (next ++ base) := by
  cases ending with
  | closed | substitution =>
    obtain rfl := Except.ok.inj h
    rfl
  | missing => contradiction

theorem afterPlain_append (h : afterPlain stack loc c = .ok next)
    (base : List (Opener × Location)) :
    afterPlain (stack ++ base) loc c = .ok (next ++ base) := by
  unfold afterPlain at h ⊢
  split at h
  -- A bracket is put on the stack, or the innermost one is taken off; what lies below is not looked
  -- at.
  next opener _ =>
    obtain rfl := Except.ok.inj h
    rfl
  next =>
    split at h
    next hcloser =>
      cases stack with
      | nil => contradiction
      | cons top stack =>
        rw [afterCloser] at h
        split at h
        next hcloses =>
          obtain rfl := Except.ok.inj h
          rw [List.cons_append, if_pos hcloser, afterCloser, if_pos hcloses]
        next => contradiction
    next hcloser =>
      obtain rfl := Except.ok.inj h
      exact if_neg hcloser

/-- A piece does to a longer stack what it does to its top. A brace that leads back into a template
literal needs to find that on the top. -/
theorem react_append (hbrace : stack ≠ [] ∨ c ≠ '}') {piece : Piece}
    (h : react stack loc c piece = .ok next) (base : List (Opener × Location)) :
    react (stack ++ base) loc c piece = .ok (next ++ base) := by
  match piece with
  | .blank | .comment true | .regex true | .string true =>
    obtain rfl := Except.ok.inj h
    rfl
  | .comment false | .regex false | .string false => contradiction
  | .plain => exact afterPlain_append h base
  | .template ending =>
    unfold react at h ⊢
    match hc : c == '}', stack, hbrace with
    | false, stack, _ =>
      rw [hc] at h
      exact afterTemplate_append h base
    | true, top :: stack, _ =>
      rw [hc] at h
      exact afterTemplate_append h base
    | true, [], .inr hne => exact absurd (beq_iff_eq.1 hc) hne

/-- Which way a brace leads is seen on top of the stack. -/
theorem readPiece_inSubstitution_append (hbrace : stack ≠ [] ∨ c ≠ '}')
    (base : List (Opener × Location)) (previous : Option Char) (text : List Char) :
    readPiece (inSubstitution (stack ++ base)) previous c text =
      readPiece (inSubstitution stack) previous c text := by
  match stack, hbrace with
  | (.substitution, _) :: _, _ | (.brace, _) :: _, _ | (.paren, _) :: _, _
  | (.bracket, _) :: _, _ => rfl
  | [], .inr hne => rw [readPiece, readPiece, if_neg (by simp [hne]), if_neg (by simp [hne])]

end Frame

/-- **A script leaves alone what is open around it.** -/
theorem checkFrom_frame {stack : List (Opener × Location)} {previous : Option Char} {loc : Location}
    {text : List Char} (h : checkFrom stack previous loc text = .ok ())
    (base : List (Opener × Location)) (more : List Char) :
    ∃ previous', checkFrom (stack ++ base) previous loc (text ++ '\n' :: more) =
      checkFrom base previous' (loc.advanceAll text) ('\n' :: more) := by
  match text with
  | [] =>
    rw [checkFrom.eq_def] at h
    cases stack with
    | nil => exact ⟨previous, rfl⟩
    | cons top stack => contradiction
  | c :: text =>
    have hshorter := readPiece_rest_le (inSubstitution stack) previous c text
    have happend := readPiece_append (inSubstitution stack) previous c text
    obtain ⟨stack', hreact, hrest⟩ := exists_react_of_checkFrom h
    -- With nothing open in the script itself, a closing brace would have been a fault.
    have hbrace : stack ≠ [] ∨ c ≠ '}' := by
      cases stack with
      | cons top stack => exact .inl (List.cons_ne_nil _ _)
      | nil =>
        refine .inr ?_
        rintro rfl
        rw [readPiece, if_neg (by simp [inSubstitution]), step_closing_brace] at hreact
        contradiction
    obtain ⟨previous', hframe⟩ := checkFrom_frame hrest base more
    refine ⟨previous', ?_⟩
    rw [List.cons_append, checkFrom_cons, readPiece_inSubstitution_append hbrace,
      readPiece_append_newline (ended_of_react hreact), react_append hbrace hreact, ← happend,
      Location.advanceAll_append]
    exact hframe
termination_by text.length
decreasing_by simp only [List.length_cons]; omega

/-! ### Brackets -/

/-- A script is accepted wherever a slash means the same as before it. -/
theorem checkFrom_of_check {source : List Char} (h : check source = .ok ()) {previous : Option Char}
    (hprevious : canPrecedeRegex previous = true) (column : Nat) :
    checkFrom [] previous ⟨1, 1 + column⟩ source = .ok () := by
  have hmeans : canPrecedeRegex previous = canPrecedeRegex none := hprevious
  have hmoved := checkFrom_relocate hmeans (Location.pushRight_advanceAll {} column) [] source
  have hsource : checkFrom [] none {} source = .ok () := h
  rw [hsource] at hmoved
  exact hmoved

/-- **An accepted script is accepted between brackets.** -/
theorem check_brackets {source : List Char} (h : check source = .ok ()) {c : Char} {opener : Opener}
    (hopener : openerOf? c = some opener) :
    check (c :: (source ++ ['\n', opener.closer])) = .ok () := by
  have hcases : (c = '{' ∧ opener = .brace) ∨ (c = '(' ∧ opener = .paren) ∨
      (c = '[' ∧ opener = .bracket) := by
    unfold openerOf? at hopener
    split at hopener
    · exact .inl ⟨rfl, (Option.some.inj hopener).symm⟩
    · exact .inr (.inl ⟨rfl, (Option.some.inj hopener).symm⟩)
    · exact .inr (.inr ⟨rfl, (Option.some.inj hopener).symm⟩)
    · contradiction
  -- Behind an opening bracket a slash starts a regular expression, as it does at the start.
  have hprevious : canPrecedeRegex (some c) = true := by
    rcases hcases with ⟨rfl, -⟩ | ⟨rfl, -⟩ | ⟨rfl, -⟩ <;> decide
  -- The script is read with the bracket below its own stack, and what is left is the line feed and
  -- the closing bracket.
  obtain ⟨previous, hframe⟩ :=
    checkFrom_frame (checkFrom_of_check h hprevious 1) [(opener, {})] [opener.closer]
  rcases hcases with ⟨rfl, rfl⟩ | ⟨rfl, rfl⟩ | ⟨rfl, rfl⟩
  all_goals
    rw [check, checkFrom_cons]
    refine Eq.trans hframe ?_
    rw [checkFrom_blank (by decide), checkFrom_cons]
    exact checkFrom_nil _ _

/-! ### Code in a template literal -/

/-- The first piece of a script that is neither a blank nor a comment. -/
def firstSignificant? (source : List Char) : Option Lexeme :=
  (lexemes source).find? fun lexeme => lexeme.piece != .blank && lexeme.piece != .comment true

/-- Of what stands before it, only the meaning of a slash depends, so a piece that is no regular
expression is read the same way everywhere. -/
theorem Steps.behind {previous : Option Char} {c : Char} {text : List Char} {s : Step}
    (h : Steps previous c text s) (hprevious : canPrecedeRegex previous = true)
    (hregex : s.piece ≠ .regex true) (hended : s.piece.ended = true) (previous' : Option Char) :
    Steps previous' c text s := by
  cases h with
  | blank hblank => exact .blank hblank
  | lineComment => exact .lineComment
  | blockComment => exact .blockComment
  | regex => exact absurd (congrArg Piece.regex hended) hregex
  | string hquote => exact .string hquote
  | template => exact .template
  | plain hblank hdouble hsingle hbacktick hslash =>
    refine .plain hblank hdouble hsingle hbacktick fun hc => ?_
    rw [(hslash hc).2] at hprevious
    contradiction

/-- Where a regular expression may stand and none does, a piece does not depend on what was read
before. -/
theorem readPiece_behind {resumes : Bool} {previous : Option Char} {c : Char} {text : List Char}
    (hprevious : canPrecedeRegex previous = true)
    (hregex : (readPiece resumes previous c text).piece ≠ .regex true)
    (hended : (readPiece resumes previous c text).piece.ended = true) (previous' : Option Char) :
    readPiece resumes previous' c text = readPiece resumes previous c text := by
  unfold readPiece at hregex hended ⊢
  split
  next => rfl
  next hresumes =>
    rw [if_neg hresumes] at hregex hended
    exact ((steps_step previous c text).behind hprevious hregex hended previous').eq_step

/-- A script that does not start with a regular expression is accepted behind anything. -/
theorem checkFrom_behind {stack : List (Opener × Location)} {previous : Option Char}
    {loc : Location} {text : List Char}
    (h : checkFrom stack previous loc text = .ok ()) (hprevious : canPrecedeRegex previous = true)
    (hregex : ∀ lexeme ∈ (lexemesFrom stack previous loc text).find?
      fun lexeme => lexeme.piece != .blank && lexeme.piece != .comment true,
        lexeme.piece ≠ .regex true)
    (previous' : Option Char) : checkFrom stack previous' loc text = .ok () := by
  match text with
  | [] => rwa [checkFrom.eq_def] at h ⊢
  | c :: text =>
    have hshorter := readPiece_rest_le (inSubstitution stack) previous c text
    obtain ⟨stack', hreact, hrest⟩ := exists_react_of_checkFrom h
    rw [lexemesFrom_cons hreact, List.find?_cons] at hregex
    have hended := ended_of_react hreact
    have hpiece : (readPiece (inSubstitution stack) previous c text).piece ≠ .regex true := by
      intro hpiece
      rw [hpiece] at hregex
      exact hregex _ rfl rfl
    rw [checkFrom_cons, readPiece_behind hprevious hpiece hended, hreact]
    -- Behind a blank or a comment it is still what stood before the script that counts, behind any
    -- other piece no more.
    match hkind : (readPiece (inSubstitution stack) previous c text).piece with
    | .blank | .comment true =>
      rw [hkind] at hrest hregex
      exact checkFrom_behind hrest hprevious hregex previous'
    | .comment false =>
      rw [hkind] at hended
      contradiction
    | .regex _ | .string _ | .template _ | .plain =>
      rw [hkind] at hrest
      exact hrest
termination_by text.length
decreasing_by all_goals (simp only [List.length_cons]; omega)

/-- The end of the code in a template literal, and of the literal. -/
theorem checkFrom_substitution_end (place : Location) (previous : Option Char) (loc : Location) :
    checkFrom [(.substitution, place)] previous loc ['\n', '}', '`'] = .ok () := by
  rw [checkFrom_blank (by decide), checkFrom_cons]
  exact checkFrom_nil _ _

/-- **Accepted scripts inside brackets and templates.** A script that the checker accepts is
accepted between parentheses, square brackets and braces, and as the second code of a template
literal, behind an empty one. It is accepted as the first code of a template literal if it does not
start with a regular expression, blanks and comments not counted. -/
theorem check_enclosed {source : List Char} (h : check source = .ok ()) :
    check ('(' :: (source ++ ['\n', ')'])) = .ok () ∧
    check ('[' :: (source ++ ['\n', ']'])) = .ok () ∧
    check ('{' :: (source ++ ['\n', '}'])) = .ok () ∧
    ((∀ lexeme ∈ firstSignificant? source, lexeme.piece ≠ .regex true) →
      check (['`', '$', '{'] ++ source ++ ['\n', '}', '`']) = .ok ()) ∧
    check (['`', '$', '{', '}', '$', '{'] ++ source ++ ['\n', '}', '`']) = .ok () := by
  refine ⟨@check_brackets _ h '(' .paren rfl, @check_brackets _ h '[' .bracket rfl,
    @check_brackets _ h '{' .brace rfl, fun hregex => ?_, ?_⟩
  · have hbehind : checkFrom [] (some '`') {} source = .ok () :=
      checkFrom_behind h rfl hregex (some '`')
    have hmoved :=
      @checkFrom_relocate _ (some '`') (some '`') rfl _ (Location.pushRight_advanceAll {} 3)
      [] source
    rw [hbehind] at hmoved
    obtain ⟨previous, hframe⟩ := checkFrom_frame hmoved [(.substitution, {})] ['}', '`']
    rw [check, List.append_assoc, List.cons_append, checkFrom_cons]
    exact hframe.trans (checkFrom_substitution_end _ _ _)
  · -- Behind a brace that ends code a slash starts a regular expression, as it does at the start of
    -- a script.
    have hbehind : checkFrom [] (some '}') ⟨1, 1 + 6⟩ source = .ok () :=
      checkFrom_of_check h (by decide) 6
    obtain ⟨previous, hframe⟩ := checkFrom_frame hbehind [(.substitution, {})] ['}', '`']
    rw [check, List.append_assoc, List.cons_append, checkFrom_cons]
    show checkFrom [(.substitution, {})] (some '`') ⟨1, 4⟩
      ('}' :: '$' :: '{' :: (source ++ ['\n', '}', '`'])) = _
    rw [checkFrom_cons]
    exact hframe.trans (checkFrom_substitution_end _ _ _)

/-- A script with a regular expression in which a quote stands, and a line comment with a brace at
its end. -/
def commentedScript : List Char :=
  ['a', '=', '/', '\'', '/', ' ', '/', '/', '}']

/-- Neither the quote in the regular expression nor the brace in the comment touches the brackets
around the script. -/
theorem check_enclosed_commentedScript :
    check commentedScript = .ok () ∧
      (∀ lexeme ∈ firstSignificant? commentedScript, lexeme.piece ≠ .regex true) ∧
      check (['`', '$', '{'] ++ commentedScript ++ ['\n', '}', '`']) = .ok () ∧
      check ('(' :: (commentedScript ++ ['\n', ')'])) = .ok () := by
  have hcheck : check commentedScript = .ok () := by
    with_unfolding_all rfl
  have hfirst : firstSignificant? commentedScript = some ⟨.plain, ['a']⟩ := by
    have hletter :
      react [] {} 'a' (readPiece false none 'a' ['=', '/', '\'', '/', ' ', '/', '/', '}']).piece =
      .ok [] := rfl
    rw [firstSignificant?, lexemes, commentedScript, lexemesFrom_cons hletter]
    rfl
  have hregex : ∀ lexeme ∈ firstSignificant? commentedScript, lexeme.piece ≠ .regex true := by
    rw [hfirst]
    rintro lexeme ⟨rfl⟩
    decide
  obtain ⟨hparens, -, -, htemplate, -⟩ := check_enclosed hcheck
  exact ⟨hcheck, hregex, htemplate hregex, hparens⟩

/-- Behind the first `${` of a template literal the slash of a regular expression is read as a
division, and the quote in it as the start of a string. -/
theorem check_substitution_refuses :
    ¬ ∀ source, check source = .ok () →
      check (['`', '$', '{'] ++ source ++ ['\n', '}', '`']) = .ok () := by
  intro hall
  have hcheck : check ['/', '\'', '/'] = .ok () := by
    rw [check, checkFrom_cons]
    exact checkFrom_nil _ _
  have hrefused : check (['`', '$', '{'] ++ ['/', '\'', '/'] ++ ['\n', '}', '`']) =
      .error ⟨.unterminatedString, ⟨1, 5⟩⟩ := by
    rw [check, List.append_assoc, List.cons_append, checkFrom_cons]
    show checkFrom [(.substitution, {})] (some '`') ⟨1, 4⟩ ['/', '\'', '/', '\n', '}', '`'] = _
    rw [checkFrom_cons]
    show checkFrom [(.substitution, {})] (some '/') ⟨1, 5⟩ ['\'', '/', '\n', '}', '`'] = _
    rw [checkFrom_cons]
    rfl
  cases (hall _ hcheck).symm.trans hrefused

end Triptych.Script
