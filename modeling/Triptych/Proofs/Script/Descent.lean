import Triptych.Proofs.Script.Places

/-!
# Scripts by recursive descent

The checker reads a script from left to right and remembers what is open on a stack. Here the same
rules are read by functions that call each other, without any stack: *code* is a sequence of units
up to a closing bracket that none of them opens; a *unit* is a blank, a comment, a literal, code
between two brackets, or any other character; a *template literal* is a sequence of characters and
of code between `${` and a brace.

Comments, strings and regular expressions are read by the scanners of the checker. What such a unit
is without them, `readUnit_blockComment_iff`, `readUnit_string_iff` and `readUnit_regex_iff` say.

`check_eq_readScript` says that the checker and this reader agree on every script: both accept it,
or both report the same mistake at the same place. The proof follows the recursion. Wherever the
descent reads code, the checker, with whatever stack it has, goes through the same text and comes
out with that stack (`checkFrom_eq_readCode`); so a stack is a list of the calls that are not
finished.
-/

namespace Triptych.Script

open Text Code

/-! ### The reader -/

/-- Where a call of the reader stopped, in a text that had at most `bound` characters left. -/
structure Stop (bound : Nat) where
  /-- The last significant character. -/
  previous : Option Char
  loc : Location
  rest : List Char
  rest_le : rest.length ≤ bound

/-- The place is also one in a longer text. -/
def Stop.widen {bound wider : Nat} (stop : Stop bound) (h : bound ≤ wider) : Stop wider :=
  { stop with rest_le := Nat.le_trans stop.rest_le h }

/-- The bracket that ends what is open. -/
def Opener.closer : Opener → Char
  | .brace | .substitution => '}'
  | .paren => ')'
  | .bracket => ']'

/-- Takes the bracket that ends what was opened at `place`, where the code in it stopped. -/
def Stop.close {bound : Nat} (stop : Stop bound) (opener : Opener) (place : Location) :
    Except Fault (Stop bound) :=
  match h : stop.rest with
  | [] => .error (unclosed opener place)
  | c :: rest =>
    if c = opener.closer then
      have hle : rest.length + 1 ≤ bound := by
        have hrest := stop.rest_le
        rwa [h, List.length_cons] at hrest
      .ok ⟨some c, stop.loc.advance c, rest, Nat.le_of_succ_le hle⟩
    else .error ⟨.unexpected c, stop.loc⟩

/-- Goes to the end of a comment or literal that has the mark `mark` at `loc`, if there is an
end. -/
def literalEnd {bound : Nat} (cause : Cause) (loc : Location) (previous : Option Char)
    (mark : List Char) (scan : Scan) (h : scan.rest.length ≤ bound) : Except Fault (Stop bound) :=
  if scan.ended then .ok ⟨previous, loc.advanceAll (mark ++ scan.read), scan.rest, h⟩
    else .error ⟨cause, loc⟩

mutual

/-- Reads code, up to a closing bracket that nothing in it opens, or to the end of the text. -/
def readCode (previous : Option Char) (loc : Location) :
    (text : List Char) → Except Fault (Stop text.length)
  | [] => .ok ⟨previous, loc, [], Nat.le_refl _⟩
  | c :: text =>
    if isCloser c then .ok ⟨previous, loc, c :: text, Nat.le_refl _⟩
    else do
      let unit ← readUnit previous loc c text
      have := unit.rest_le
      let stop ← readCode unit.previous unit.loc unit.rest
      return stop.widen (Nat.le_trans unit.rest_le (Nat.le_succ _))
termination_by text => 2 * text.length
decreasing_by all_goals (simp only [List.length_cons]; omega)

/-- Reads a unit of code that starts with the character `c` before `text`. -/
def readUnit (previous : Option Char) (loc : Location) (c : Char) (text : List Char) :
    Except Fault (Stop text.length) :=
  if isBlank c then .ok ⟨previous, loc.advance c, text, Nat.le_refl _⟩
  else if c = '/' && text.head? == some '/' then
    let comment := text.takeWhile (· != '\n')
    .ok ⟨previous, loc.advanceAll (c :: comment), text.dropWhile (· != '\n'),
      (List.dropWhile_sublist _).length_le⟩
  else if c = '/' && text.head? == some '*' then
    literalEnd .unterminatedComment loc previous ['/', '*'] (scanBlockComment text.tail)
      (Nat.le_trans (scanBlockComment_rest_le _) (List.tail_sublist _).length_le)
  else if c = '/' && canPrecedeRegex previous then
    literalEnd .unterminatedRegex loc (some c) [c] (scanRegex false text) (scanRegex_rest_le _ _)
  else if c = '"' || c = '\'' then
    literalEnd .unterminatedString loc (some c) [c] (scanString c text) (scanString_rest_le _ _)
  else if c = '`' then readTemplate loc c (loc.advance c) text
  else
    match openerOf? c with
    | some opener => do
      let inside ← readCode (some c) (loc.advance c) text
      inside.close opener loc
    | none => .ok ⟨some c, loc.advance c, text, Nat.le_refl _⟩
termination_by 2 * text.length + 1
decreasing_by all_goals omega

/-- Reads the template literal that starts at `place`, from inside it. The last significant
character is `mark`: the backtick that starts the literal, or the brace that ends the code
before. -/
def readTemplate (place : Location) (mark : Char) (loc : Location) :
    (text : List Char) → Except Fault (Stop text.length)
  | [] => .error ⟨.unterminatedTemplate, place⟩
  | ['\\'] => .error ⟨.unterminatedTemplate, place⟩
  | '\\' :: c :: text => do
    let stop ← readTemplate place mark (loc.advanceAll ['\\', c]) text
    return stop.widen (Nat.le_add_right _ 2)
  | '$' :: '{' :: text => do
    let inside ← readCode (some mark) (loc.advanceAll ['$', '{']) text
    let code ← inside.close .substitution place
    have := code.rest_le
    let stop ← readTemplate place Opener.substitution.closer code.loc code.rest
    return stop.widen (Nat.le_trans code.rest_le (Nat.le_add_right _ 2))
  | c :: text =>
    if c = '`' then .ok ⟨some mark, loc.advance c, text, Nat.le_succ _⟩
    else do
      let stop ← readTemplate place mark (loc.advance c) text
      return stop.widen (Nat.le_succ _)
termination_by text => 2 * text.length
decreasing_by all_goals (simp only [List.length_cons]; omega)

end

/-- Reads a script: code with nothing left behind it. -/
def readScript (source : List Char) : Except Fault Unit := do
  let stop ← readCode none {} source
  match stop.rest with
  | [] => .ok ()
  | c :: _ => .error ⟨.unexpected c, stop.loc⟩

/-! ### The reader, a call at a time -/

/-- Code may end, stop at a closing bracket, or go on with a unit. -/
theorem readCode_nil (previous : Option Char) (loc : Location) :
    readCode previous loc [] = .ok ⟨previous, loc, [], Nat.le_refl _⟩ := by
  rw [readCode.eq_def]

theorem readCode_closer {c : Char} (h : isCloser c = true) (previous : Option Char) (loc : Location)
    (text : List Char) :
    readCode previous loc (c :: text) = .ok ⟨previous, loc, c :: text, Nat.le_refl _⟩ := by
  rw [readCode.eq_def]
  exact if_pos h

theorem readCode_unit {c : Char} (h : isCloser c = false) (previous : Option Char) (loc : Location)
    (text : List Char) :
    readCode previous loc (c :: text) =
      (readUnit previous loc c text).bind fun unit =>
        (readCode unit.previous unit.loc unit.rest).map
          (·.widen (Nat.le_trans unit.rest_le (Nat.le_succ text.length))) := by
  rw [readCode.eq_def]
  dsimp only
  rw [h, if_neg Bool.false_ne_true]
  rfl

/-- What the checker makes of what is left where the reader stopped. -/
def Stop.resume {bound : Nat} (stack : List (Opener × Location)) (stop : Stop bound) :
    Except Fault Unit :=
  checkFrom stack stop.previous stop.loc stop.rest

/-- The checker does not see how long the text was. -/
theorem bind_map_widen {bound wider : Nat} (outcome : Except Fault (Stop bound)) (h : bound ≤ wider)
    (stack : List (Opener × Location)) :
    (outcome.map (·.widen h)).bind (Stop.resume stack) = outcome.bind (Stop.resume stack) := by
  cases outcome <;> rfl

/-- Behind a comment or literal that ends the checker goes on; otherwise both report it. -/
theorem bind_literalEnd {bound : Nat} (cause : Cause) (loc : Location) (previous : Option Char)
    (mark : List Char) (scan : Scan) (h : scan.rest.length ≤ bound)
    (stack : List (Opener × Location)) :
    (literalEnd cause loc previous mark scan h).bind (Stop.resume stack) =
      if scan.ended then checkFrom stack previous (loc.advanceAll (mark ++ scan.read)) scan.rest
      else .error ⟨cause, loc⟩ := by
  unfold literalEnd
  split <;> rfl

/-- A template literal may go on behind a backslash, with code, or with any other character. -/
theorem readTemplate_escape (place : Location) (mark : Char) (loc : Location) (c : Char)
    (text : List Char) :
    readTemplate place mark loc ('\\' :: c :: text) =
      (readTemplate place mark (loc.advanceAll ['\\', c]) text).map
        (·.widen (Nat.le_add_right text.length 2)) := by
  rw [readTemplate.eq_def]
  rfl

theorem readTemplate_code (place : Location) (mark : Char) (loc : Location) (text : List Char) :
    readTemplate place mark loc ('$' :: '{' :: text) =
      (readCode (some mark) (loc.advanceAll ['$', '{']) text).bind fun inside =>
        (inside.close .substitution place).bind fun code =>
          (readTemplate place Opener.substitution.closer code.loc code.rest).map
            (·.widen (Nat.le_trans code.rest_le (Nat.le_add_right text.length 2))) := by
  rw [readTemplate.eq_def]
  rfl

theorem readTemplate_char {c : Char} (hescape : c ≠ '\\') {text : List Char}
    (hcode : c = '$' → text.head? ≠ some '{') (place : Location) (mark : Char) (loc : Location) :
    readTemplate place mark loc (c :: text) =
      if c = '`' then .ok ⟨some mark, loc.advance c, text, Nat.le_succ _⟩
      else (readTemplate place mark (loc.advance c) text).map
        (·.widen (Nat.le_succ text.length)) := by
  rw [readTemplate]
  · rfl
  · rintro rfl
    exact absurd rfl hescape
  · rintro d tail rfl
    exact absurd rfl hescape
  · rintro tail rfl rfl
    exact hcode rfl rfl

/-- Code stops at a closing bracket. -/
theorem isCloser_of_readCode {previous : Option Char} {loc : Location} {text : List Char}
    {stop : Stop text.length} (h : readCode previous loc text = .ok stop) :
    ∀ c ∈ stop.rest.head?, isCloser c = true := by
  -- The reader stops at the end of the text or at a closing bracket; after a unit it goes on.
  match text with
  | [] =>
    rw [readCode_nil] at h
    obtain rfl := Except.ok.inj h
    exact nofun
  | c :: text =>
    cases hcloser : isCloser c with
    | true =>
      rw [readCode_closer hcloser] at h
      obtain rfl := Except.ok.inj h
      intro d hd
      obtain rfl : c = d := by simpa using hd
      exact hcloser
    | false =>
      rw [readCode_unit hcloser] at h
      cases hunit : readUnit previous loc c text with
      | error fault =>
        rw [hunit] at h
        contradiction
      | ok unit =>
        have hshorter := unit.rest_le
        rw [hunit, Except.bind] at h
        cases hcode : readCode unit.previous unit.loc unit.rest with
        | error fault =>
          rw [hcode] at h
          contradiction
        | ok code =>
          rw [hcode] at h
          obtain rfl := Except.ok.inj h
          exact isCloser_of_readCode hcode
termination_by text.length
decreasing_by simp only [List.length_cons]; omega

/-! ### Comments and literals, without their scanners -/

/-- **A comment or literal that is a body before an end mark is read so**, if its scanner finds that
body. -/
theorem literalEnd_eq_ok_iff {bound : Nat} {cause : Cause} {loc : Location} {previous : Option Char}
    {mark closing text : List Char} {scan : Scan} {h : scan.rest.length ≤ bound} {stop : Stop bound}
    {Body : List Char → Prop}
    (hscan : ∀ body rest, Body body → text = body ++ (closing ++ rest) →
      scan = ⟨true, body ++ closing, rest⟩)
    (hended : scan.ended = true → ∃ body, Body body ∧ text = body ++ (closing ++ scan.rest)) :
    literalEnd cause loc previous mark scan h = .ok stop ↔
      ∃ body, Body body ∧ text = body ++ (closing ++ stop.rest) ∧ stop.previous = previous ∧
        stop.loc = loc.advanceAll (mark ++ (body ++ closing)) := by
  constructor
  · intro hread
    unfold literalEnd at hread
    split at hread
    next hend =>
      obtain rfl := Except.ok.inj hread
      obtain ⟨body, hbody, htext⟩ := hended hend
      -- What the scanner read is the body and the end mark.
      have hchars := congrArg Scan.read (hscan body _ hbody htext)
      exact ⟨body, hbody, htext, rfl, congrArg (fun read => loc.advanceAll (mark ++ read)) hchars⟩
    next => contradiction
  · rintro ⟨body, hbody, htext, hprevious, hloc⟩
    obtain ⟨previous', loc', rest, hle⟩ := stop
    obtain rfl := hscan body rest hbody htext
    obtain rfl : previous' = previous := hprevious
    obtain rfl : loc' = _ := hloc
    rfl

/-- A block comment goes up to the first mark that ends it. The star of its opening mark does not
count. -/
theorem readUnit_blockComment_iff {previous : Option Char} {loc : Location} {text : List Char}
    {stop : Stop ('*' :: text).length} :
    readUnit previous loc '/' ('*' :: text) = .ok stop ↔
      ∃ body, ¬ ['*', '/'] <:+: body ++ ['*'] ∧ text = body ++ (['*', '/'] ++ stop.rest) ∧
        stop.previous = previous ∧
        stop.loc = loc.advanceAll (['/', '*'] ++ (body ++ ['*', '/'])) := by
  rw [readUnit.eq_def]
  refine literalEnd_eq_ok_iff ?_ fun h => ?_
  · rintro body rest hbody rfl
    exact scanBlockComment_of_endsFirst (endsFirst_iff.2 hbody) rest
  · obtain ⟨body, hbody, htext⟩ := endsFirst_of_scanBlockComment h
    exact ⟨body, endsFirst_iff.1 hbody, htext⟩

/-- A string goes up to the first quote that no backslash takes along, with no bare line feed before
it. -/
theorem readUnit_string_iff {mark : Char} (hmark : mark = '"' ∨ mark = '\'')
    {previous : Option Char} {loc : Location} {text : List Char} {stop : Stop text.length} :
    readUnit previous loc mark text = .ok stop ↔
      ∃ body, StringBody mark body ∧ text = body ++ ([mark] ++ stop.rest) ∧
        stop.previous = some mark ∧
        stop.loc = loc.advanceAll ([mark] ++ (body ++ [mark])) := by
  have hc : isBlank mark = false ∧ mark ≠ '/' ∧ mark ≠ '\\' ∧ mark ≠ '\n' := by
    rcases hmark with rfl | rfl <;> decide
  obtain ⟨hblank, hslash, hescape, hline⟩ := hc
  rw [readUnit.eq_def, if_neg (by simp [hblank]), if_neg (by simp [hslash]),
    if_neg (by simp [hslash]), if_neg (by simp [hslash]), if_pos (by simpa using hmark)]
  refine literalEnd_eq_ok_iff ?_ stringBody_of_scanString
  rintro body rest hbody rfl
  exact scanString_of_stringBody hescape hline hbody rest

/-- Where a regular expression may stand, a slash starts one. It goes up to the first slash outside
of the classes in it that no backslash takes along, with no bare line feed before it. -/
theorem readUnit_regex_iff {previous : Option Char} (hprevious : canPrecedeRegex previous = true)
    {loc : Location} {text : List Char} (hline : text.head? ≠ some '/')
    (hblock : text.head? ≠ some '*') {stop : Stop text.length} :
    readUnit previous loc '/' text = .ok stop ↔
      ∃ body, RegexBody false body ∧ text = body ++ (['/'] ++ stop.rest) ∧
        stop.previous = some '/' ∧
        stop.loc = loc.advanceAll (['/'] ++ (body ++ ['/'])) := by
  rw [readUnit.eq_def, if_neg (by decide), if_neg (by simp [hline]), if_neg (by simp [hblock]),
    if_pos (by simp [hprevious])]
  refine literalEnd_eq_ok_iff ?_ regexBody_of_scanRegex
  rintro body rest hbody rfl
  exact scanRegex_of_regexBody hbody rest

/-! ### The checker goes the same way -/

/-- What the checker makes of a piece of the template literal that starts at `place`, and of what
follows it. -/
def resumeTemplate (stack : List (Opener × Location)) (place : Location) (mark : Char)
    (loc : Location) (scan : TemplateScan) : Except Fault Unit :=
  (afterTemplate stack place scan.ending).bind fun stack' =>
    checkFrom stack' (some mark) (loc.advanceAll scan.read) scan.rest

/-- Characters before what is left of a template literal only move the location. -/
theorem resumeTemplate_after (stack : List (Opener × Location)) (place : Location) (mark : Char)
    (loc : Location) (scan : TemplateScan) (chars : List Char) :
    resumeTemplate stack place mark loc (scan.after chars) =
      resumeTemplate stack place mark (loc.advanceAll chars) scan := by
  unfold resumeTemplate TemplateScan.after
  rw [Location.advanceAll_append]

/-- At the end an open bracket is a fault. -/
theorem checkFrom_nil_cons (opener : Opener) (place : Location) (stack : List (Opener × Location))
    (previous : Option Char) (loc : Location) :
    checkFrom ((opener, place) :: stack) previous loc [] = .error (unclosed opener place) := by
  rw [checkFrom.eq_def]

theorem ne_brace_of_not_isCloser {c : Char} (h : isCloser c = false) : c ≠ '}' := by
  rintro rfl
  exact absurd h (by decide)

/-- A closing bracket is read as a character, and opens nothing. -/
theorem step_closer {c : Char} (h : isCloser c = true) (previous : Option Char) (text : List Char) :
    step previous c text = ⟨.plain, [c], text⟩ ∧ openerOf? c = none := by
  have hcases : c = '}' ∨ c = ')' ∨ c = ']' := by simpa [isCloser, or_assoc] using h
  rcases hcases with rfl | rfl | rfl
  all_goals exact ⟨Steps.eq_step (.plain (by decide) (by decide) (by decide) (by decide) (by simp)),
    rfl⟩

/-- A bracket is closed by its own closing bracket; code in a template literal is not closed but
left. -/
theorem closes_iff {c : Char} {opener : Opener} :
    closes c opener = true ↔ opener ≠ .substitution ∧ c = opener.closer := by
  constructor
  · intro h
    unfold closes at h
    split at h
    · exact ⟨by decide, rfl⟩
    · exact ⟨by decide, rfl⟩
    · exact ⟨by decide, rfl⟩
    · contradiction
  · rintro ⟨hne, rfl⟩
    cases opener with
    | substitution => contradiction
    | brace | paren | bracket => rfl

/-- Away from closing brackets, the checker reads a step. -/
theorem checkFrom_step {c : Char} (hc : isCloser c = false) (stack : List (Opener × Location))
    (previous : Option Char) (loc : Location) (text : List Char) :
    checkFrom stack previous loc (c :: text) =
      (react stack loc c (step previous c text).piece).bind fun stack' =>
        checkFrom stack' (previousAfter previous c (step previous c text).piece)
          (loc.advanceAll (step previous c text).chars) (step previous c text).rest := by
  have hpiece : readPiece (inSubstitution stack) previous c text = step previous c text := by
    rw [readPiece, beq_false_of_ne (ne_brace_of_not_isCloser hc), Bool.and_false,
      if_neg Bool.false_ne_true]
  rw [checkFrom_cons, hpiece]

/-- **Where code in brackets stops, the checker takes the bracket that ends it**, and then goes on
as it did before the brackets, or in the template literal. -/
theorem Stop.resume_push {bound : Nat} {stop : Stop bound}
    (hstop : ∀ c ∈ stop.rest.head?, isCloser c = true) (opener : Opener) (place : Location)
    (stack : List (Opener × Location)) :
    stop.resume ((opener, place) :: stack) =
      (stop.close opener place).bind fun code =>
        if opener = .substitution then
          resumeTemplate stack place opener.closer code.loc (scanTemplate code.rest)
        else code.resume stack := by
  obtain ⟨previous, loc, rest, hle⟩ := stop
  match rest with
  | [] => exact checkFrom_nil_cons opener place stack previous loc
  | c :: rest =>
    obtain ⟨hstep, hopener⟩ := step_closer (hstop c rfl) previous rest
    have hcloser : isCloser c = true := hstop c rfl
    unfold Stop.resume Stop.close
    dsimp only
    rw [checkFrom_cons]
    by_cases hbrace : opener = .substitution ∧ c = '}'
    · -- The template literal goes on behind the brace.
      obtain ⟨rfl, rfl⟩ := hbrace
      rfl
    · -- Every other closing bracket is read as a character of code.
      have hresumes : ¬ (inSubstitution ((opener, place) :: stack) && c == '}') = true := by
        rw [Bool.and_eq_true, beq_iff_eq]
        rintro ⟨hinside, hc⟩
        obtain ⟨_, _, heq⟩ := exists_cons_of_inSubstitution hinside
        exact hbrace ⟨(Prod.mk.inj (List.cons.inj heq).1).1, hc⟩
      rw [readPiece, if_neg hresumes, hstep, react, afterPlain, hopener, hcloser]
      dsimp only [afterCloser]
      rw [if_pos rfl]
      by_cases hcloses : closes c opener = true
      · obtain ⟨hne, hc⟩ := closes_iff.1 hcloses
        rw [if_pos hcloses, if_pos hc, Except.bind, Except.bind, if_neg hne]
        rfl
      · have hc : c ≠ opener.closer := by
          rintro rfl
          by_cases hne : opener = .substitution
          · exact hbrace ⟨hne, by rw [hne]; rfl⟩
          · exact hcloses (closes_iff.2 ⟨hne, rfl⟩)
        rw [if_neg hcloses, if_neg hc]
        rfl

mutual

/-- **The checker and the reader agree on code**, whatever is open. -/
theorem checkFrom_eq_readCode (stack : List (Opener × Location)) (previous : Option Char)
    (loc : Location) (text : List Char) :
    checkFrom stack previous loc text = (readCode previous loc text).bind (Stop.resume stack) := by
  -- At the end of the text and at a closing bracket the reader stops and the checker resumes at
  -- once. Every other character starts a unit, on which the two agree.
  cases text with
  | nil =>
    rw [readCode_nil]
    rfl
  | cons c text =>
    cases hcloser : isCloser c with
    | true =>
      rw [readCode_closer hcloser]
      rfl
    | false =>
      rw [readCode_unit hcloser, checkFrom_eq_readUnit hcloser]
      cases readUnit previous loc c text with
      | error fault => rfl
      | ok unit =>
        have hshorter := unit.rest_le
        have hrest := checkFrom_eq_readCode stack unit.previous unit.loc unit.rest
        rw [Except.bind, Except.bind, bind_map_widen]
        exact hrest
termination_by 2 * text.length
decreasing_by all_goals (simp only [List.length_cons]; omega)

/-- **The checker and the reader agree on a unit.** In each case the checker makes one step, and
code in brackets is what the mutual induction is about. -/
theorem checkFrom_eq_readUnit {c : Char} (hcloser : isCloser c = false)
    (stack : List (Opener × Location)) (previous : Option Char) (loc : Location)
    (text : List Char) :
    checkFrom stack previous loc (c :: text) =
      (readUnit previous loc c text).bind (Stop.resume stack) := by
  rw [checkFrom_step hcloser, readUnit.eq_def]
  -- The cases are what the checker finds; in each of them the tests that the reader makes before
  -- fail.
  generalize hs : step previous c text = s
  have hsteps := steps_step previous c text
  rw [hs] at hsteps
  cases hsteps with
  | blank hblank =>
    rw [if_pos hblank]
    rfl
  | lineComment => rfl
  | @blockComment text =>
    refine Eq.trans ?_ (bind_literalEnd _ _ _ _ _ _ _).symm
    show (react stack loc '/' (.comment (scanBlockComment text).ended)).bind _ =
      if (scanBlockComment text).ended then _ else _
    cases (scanBlockComment text).ended <;> rfl
  | regex hno hprevious =>
    rw [if_neg (by decide), if_neg (by simp [hno.1]), if_neg (by simp [hno.2]),
      if_pos (by simp [hprevious]), bind_literalEnd]
    cases (scanRegex false text).ended <;> rfl
  | string hquote =>
    have hc : isBlank c = false ∧ c ≠ '/' := by rcases hquote with rfl | rfl <;> decide
    rw [if_neg (by simp [hc.1]), if_neg (by simp [hc.2]), if_neg (by simp [hc.2]),
      if_neg (by simp [hc.2]), if_pos (by simpa using hquote), bind_literalEnd]
    cases (scanString c text).ended <;> rfl
  | template => exact resumeTemplate_eq_readTemplate stack loc '`' (loc.advance '`') text
  | plain hblank hdouble hsingle hbacktick hslash =>
    have hline : ¬ (decide (c = '/') && text.head? == some '/') = true := by
      simpa using fun hc => (hslash hc).1.1
    have hblock : ¬ (decide (c = '/') && text.head? == some '*') = true := by
      simpa using fun hc => (hslash hc).1.2
    have hregex : ¬ (decide (c = '/') && canPrecedeRegex previous) = true := by
      simpa using fun hc => (hslash hc).2
    rw [if_neg (by simp [hblank]), if_neg hline, if_neg hblock, if_neg hregex,
      if_neg (by simp [hdouble, hsingle]), if_neg hbacktick, react, afterPlain, hcloser]
    cases hopener : openerOf? c with
    | none => rfl
    | some opener =>
      have hne : opener ≠ .substitution := by
        rintro rfl
        have hmark := mark_of_openerOf? hopener
        exact hbacktick hmark.symm
      -- The code in the brackets is read with the bracket on the stack, and stops where the bracket
      -- can be taken off.
      have hinside := checkFrom_eq_readCode ((opener, loc) :: stack) (some c) (loc.advance c) text
      refine hinside.trans ?_
      cases hcode : readCode (some c) (loc.advance c) text with
      | error fault => rfl
      | ok inside =>
        refine (Stop.resume_push (isCloser_of_readCode hcode) _ _ _).trans ?_
        simp only [if_neg hne]
        rfl
termination_by 2 * text.length + 1
decreasing_by all_goals omega

/-- **They agree on a template literal**, which the checker reads in pieces and the reader a
character at a time. The induction is on what is left of the literal. -/
theorem resumeTemplate_eq_readTemplate (stack : List (Opener × Location)) (place : Location)
    (mark : Char) (loc : Location) (text : List Char) :
    resumeTemplate stack place mark loc (scanTemplate text) =
      (readTemplate place mark loc text).bind (Stop.resume stack) := by
  cases text with
  | nil =>
    rw [readTemplate.eq_def]
    rfl
  | cons c text =>
    by_cases hescape : c = '\\'
    · -- What is escaped belongs to the literal, even if it is a backtick or the `$` of a
      -- substitution.
      subst hescape
      cases text with
      | nil =>
        rw [readTemplate.eq_def]
        rfl
      | cons c text =>
        have hrest :=
          resumeTemplate_eq_readTemplate stack place mark (loc.advanceAll ['\\', c]) text
        rw [readTemplate_escape, bind_map_widen, scanTemplate, resumeTemplate_after]
        exact hrest
    by_cases hopens : c = '$' ∧ text.head? = some '{'
    · match text, hopens.2 with
      | d :: text, hhead =>
        obtain rfl : d = '{' := by simpa using hhead
        rw [hopens.1, readTemplate_code]
        -- The code in the braces: the checker reads it with the substitution on its stack, and
        -- where it stops, the brace is taken off again.
        have hinside := checkFrom_eq_readCode ((.substitution, place) :: stack) (some mark)
          (loc.advanceAll ['$', '{']) text
        refine hinside.trans ?_
        cases hcode : readCode (some mark) (loc.advanceAll ['$', '{']) text with
        | error fault => rfl
        | ok inside =>
          refine (Stop.resume_push (isCloser_of_readCode hcode) _ _ _).trans ?_
          rw [Except.bind]
          cases inside.close .substitution place with
          | error fault => rfl
          | ok code =>
            have hshorter := code.rest_le
            -- Behind the brace the literal goes on.
            have hrest :=
              resumeTemplate_eq_readTemplate stack place Opener.substitution.closer code.loc
              code.rest
            rw [Except.bind, if_pos rfl, Except.bind, bind_map_widen]
            exact hrest
    · rw [not_and] at hopens
      -- Any other character is one of the literal, or ends it.
      rw [readTemplate_char hescape hopens, scanTemplate_char hescape hopens]
      by_cases hends : c = '`'
      · rw [if_pos hends, if_pos hends]
        rfl
      · have hrest := resumeTemplate_eq_readTemplate stack place mark (loc.advance c) text
        rw [if_neg hends, if_neg hends, bind_map_widen, resumeTemplate_after]
        exact hrest
termination_by 2 * text.length
decreasing_by all_goals (simp only [List.length_cons]; omega)

end

/-- **The checker is the recursive grammar.** On every script it gives the answer of the reader that
has no stack; and a mistake is reported at the character that fits it: the closing bracket that is
not expected, the first character of the comment or literal that does not end, or the innermost
bracket that stays open. -/
theorem check_eq_readScript (source : List Char) :
    check source = readScript source ∧ ∀ fault, readScript source = .error fault →
      fault.StandsIn source := by
  have hcheck : check source = readScript source := by
    rw [check, checkFrom_eq_readCode, readScript]
    cases hcode : readCode none {} source with
    | error fault => rfl
    | ok stop =>
      have hcloser := isCloser_of_readCode hcode
      obtain ⟨previous, loc, rest, hle⟩ := stop
      cases rest with
      | nil => exact checkFrom_nil previous loc
      | cons c rest =>
        -- A closing bracket is left, and nothing is open.
        obtain ⟨hstep, hopener⟩ := step_closer (hcloser c rfl) previous rest
        have hc : isCloser c = true := hcloser c rfl
        show checkFrom [] previous loc (c :: rest) = .error ⟨.unexpected c, loc⟩
        have hpiece : readPiece (inSubstitution []) previous c rest = step previous c rest := rfl
        rw [checkFrom_cons, hpiece, hstep, react, afterPlain, hopener, hc]
        rfl
  exact ⟨hcheck, fun fault hfault => standsIn_of_check (hcheck.trans hfault)⟩

/-- In a bracket inside a template literal it is the bracket that stays open. -/
theorem check_eq_readScript_nested :
    readScript ['`', '$', '{', '['] = .error ⟨.unclosed '[', ⟨1, 4⟩⟩ ∧
      Fault.StandsIn ['`', '$', '{', '['] ⟨.unclosed '[', ⟨1, 4⟩⟩ := by
  have hcheck : check ['`', '$', '{', '['] = .error ⟨.unclosed '[', ⟨1, 4⟩⟩ := by
    rw [check, checkFrom_cons]
    show checkFrom [(.substitution, {})] (some '`') ⟨1, 4⟩ ['['] = _
    rw [checkFrom_cons]
    exact checkFrom_nil_cons .bracket ⟨1, 4⟩ _ _ _
  obtain ⟨hsame, hplace⟩ := check_eq_readScript ['`', '$', '{', '[']
  have hread := hsame.symm.trans hcheck
  exact ⟨hread, hplace _ hread⟩

end Triptych.Script
