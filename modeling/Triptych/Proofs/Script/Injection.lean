import Triptych.Proofs.Json.Quoted
import Triptych.Proofs.Script.Relocation
import Triptych.Proofs.Script.Segments

/-!
# Injected markup does not matter to the checker

Markup goes into a script as the property `template: "…",` right after an opening brace of its code.
The checker says the same about the script before and after, except that faults behind the property
are pushed to the right (`inject_keeps_faults`).

* Up to the brace the checker and the masker read the same pieces, unless the checker fails: its
  stack holds the braces that the masker knows of (`bracesOf`). So it comes to the brace with the
  same things open in both scripts, or fails in both (`checkFrom_insert`).
* The property leaves open what was open before it (`checkFrom_templateProperty`): its value is a
  string that ends where it should, since a quoted text has no bare quote and no line feed in it.
* After the property a slash means what it means after the brace, and the checker stands as many
  columns further right as the property has characters.
-/

namespace Triptych.Script

open Text Code

/-! ### The checker knows the braces of the masker -/

/-- The open braces, of each whether it leads back into a template literal. -/
def bracesOf : List (Opener × Location) → List Bool
  | [] => []
  | (.brace, _) :: stack => false :: bracesOf stack
  | (.substitution, _) :: stack => true :: bracesOf stack
  | (.paren, _) :: stack | (.bracket, _) :: stack => bracesOf stack

/-- A piece of a template literal changes the open braces of a stack as it changes those that the
scanner of the mask keeps. -/
theorem bracesOf_afterTemplate {stack stack' : List (Opener × Location)} {place : Location}
    {ending : TemplateEnd} (h : afterTemplate stack place ending = .ok stack') :
    bracesOf stack' = bracesAfter ending (bracesOf stack) := by
  cases ending with
  | closed | substitution =>
    obtain rfl := Except.ok.inj h
    rfl
  | missing => contradiction

/-- So does a character of code. -/
theorem bracesOf_afterPlain {stack stack' : List (Opener × Location)} {loc : Location} {c : Char}
    (h : afterPlain stack loc c = .ok stack') :
    bracesOf stack' = bracesNext (bracesOf stack) c .plain := by
  unfold afterPlain at h
  split at h
  next opener hopener =>
    obtain rfl := Except.ok.inj h
    unfold openerOf? at hopener
    split at hopener
    · cases hopener; rfl
    · cases hopener; rfl
    · cases hopener; rfl
    · contradiction
  next hopener =>
    -- A character that opens nothing is no opening brace; if it closes something it pops that and
    -- nothing else.
    have hopen : c ≠ '{' := by
      rintro rfl
      contradiction
    rw [bracesNext, if_neg hopen]
    split at h
    next hcloser =>
      cases stack with
      | nil => contradiction
      | cons top stack =>
        obtain ⟨opener, place⟩ := top
        rw [afterCloser] at h
        split at h
        next hcloses =>
          obtain rfl := Except.ok.inj h
          unfold closes at hcloses
          split at hcloses
          · rfl
          · rfl
          · rfl
          · contradiction
        next => contradiction
    next hcloser =>
      obtain rfl := Except.ok.inj h
      rw [if_neg]
      rintro rfl
      exact hcloser rfl

/-- A closing brace is part of a template only where one is open. -/
theorem inSubstitution_of_readPiece {stack : List (Opener × Location)} {previous : Option Char}
    {c : Char} {text : List Char} (hc : c = '}')
    (hplain : (readPiece (inSubstitution stack) previous c text).piece ≠ .plain) :
    inSubstitution stack = true := by
  cases hstack : inSubstitution stack with
  | true => rfl
  | false =>
    rw [hstack, hc, readPiece, if_neg (by simp), step_closing_brace] at hplain
    contradiction

/-- After a piece the checker knows the braces that the masker knows. -/
theorem bracesOf_react {stack stack' : List (Opener × Location)} {loc : Location}
    {previous : Option Char} {c : Char} {text : List Char}
    (h : react stack loc c (readPiece (inSubstitution stack) previous c text).piece = .ok stack') :
    bracesOf stack' = bracesNext (bracesOf stack) c
      (readPiece (inSubstitution stack) previous c text).piece := by
  have hresumes (hc : c = '}') := @inSubstitution_of_readPiece stack previous c text hc
  generalize (readPiece (inSubstitution stack) previous c text).piece = piece at *
  cases piece with
  -- What is no code leaves the stack alone, and the masker does not look at it.
  | blank =>
    obtain rfl := Except.ok.inj h
    rfl
  | comment ended | regex ended | string ended =>
    cases ended with
    | false => contradiction
    | true =>
      obtain rfl := Except.ok.inj h
      rfl
  | template ending =>
    unfold react at h
    by_cases hc : c = '}'
    · -- The literal goes on behind the brace.
      obtain ⟨place, rest, rfl⟩ := exists_cons_of_inSubstitution (hresumes hc (by simp))
      rw [hc] at h ⊢
      exact bracesOf_afterTemplate h
    · simp only [beq_false_of_ne hc] at h
      rw [bracesNext, if_neg hc]
      exact bracesOf_afterTemplate h
  | plain => exact bracesOf_afterPlain h

/-- The checker and the masker read the same piece, unless the checker fails at a closing brace that
closes none. -/
theorem readPiece_bracesOf (stack : List (Opener × Location)) (previous : Option Char)
    (loc : Location) (c : Char) :
    (∀ text, readPiece (inSubstitution stack) previous c text =
      readPiece ((bracesOf stack).head? == some true) previous c text) ∨
    (∀ text, checkFrom stack previous loc (c :: text) = .error ⟨.unexpected c, loc⟩) := by
  by_cases hc : c = '}'
  · match stack with
    | [] => exact .inl fun _ => rfl
    | (.brace, _) :: _ => exact .inl fun _ => rfl
    | (.substitution, _) :: _ => exact .inl fun _ => rfl
    -- The masker does not see brackets and parentheses. Where they hide a brace from the checker,
    -- the brace is a fault.
    | (.paren, _) :: _ | (.bracket, _) :: _ =>
      refine .inr fun text => ?_
      rw [checkFrom_cons, hc, readPiece, if_neg (by simp [inSubstitution]), step_closing_brace]
      rfl
  · refine .inl fun text => ?_
    rw [readPiece, readPiece, if_neg (by simp [hc]), if_neg (by simp [hc])]

/-! ### Text put behind a brace of the code -/

theorem readPiece_opening_brace (resumes : Bool) (previous : Option Char) (text : List Char) :
    readPiece resumes previous '{' text = ⟨.plain, ['{'], text⟩ := by
  rw [readPiece, if_neg (by simp)]
  exact Steps.eq_step (.plain (by decide) (by decide) (by decide) (by decide) (by simp))

/-- **Text put behind a brace of the code pushes the faults behind it to the right**, if it does so
when it comes next, and it does nothing else. -/
theorem checkFrom_insert {inserted : List Char} {left right : List Segment} {place : Location}
    {count : Nat}
    (hinserted : ∀ stack text, relocate (place.pushRight count) stack = stack →
      checkFrom stack (some '{') place (inserted ++ text) =
        (checkFrom stack (some '{') place text).mapError (Fault.relocate (place.pushRight count)))
    {stack : List (Opener × Location)} {previous : Option Char} {loc : Location} {text : List Char}
    (h : segments (bracesOf stack) previous text = left ++ ⟨false, ['{']⟩ :: right)
    (hplace : place = loc.advanceAll (left.flatMap Segment.chars ++ ['{']))
    (hstack : relocate (place.pushRight count) stack = stack) :
    checkFrom stack previous loc
      (left.flatMap Segment.chars ++ '{' :: (inserted ++ right.flatMap Segment.chars)) =
    (checkFrom stack previous loc text).mapError (Fault.relocate (place.pushRight count)) := by
  -- Nothing moves that stands before the brace.
  have hstays {loc : Location} {chars : List Char}
    (hplace : place = loc.advanceAll (chars ++ ['{'])) :
      place.pushRight count loc = loc := by
    rw [hplace]
    exact Location.pushRight_of_advanceAll (by simp) count loc
  -- Along the segments before the brace, each of which is one turn of the checker.
  induction left generalizing stack previous loc text with
  | nil =>
    cases text with
    | nil =>
      rw [segments.eq_def] at h
      contradiction
    | cons c text =>
      rw [segments_cons, List.nil_append, List.cons.injEq, Segment.mk.injEq] at h
      obtain ⟨⟨hcode, hchars⟩, hright⟩ := h
      -- The brace is next. It is read alone, and what follows it does not matter to that.
      rw [chars_of_not_isLiteral hcode] at hchars
      obtain ⟨rfl, -⟩ := List.cons.inj hchars
      rw [readPiece_opening_brace] at hright
      obtain rfl : right.flatMap Segment.chars = text := by rw [← hright, flatMap_chars_segments]
      have hturn := relocateTurn_react hstack (hstays hplace) '{' .plain
      have hopen := hinserted ((.brace, loc) :: stack) (right.flatMap Segment.chars)
        (Except.ok.inj hturn)
      rw [List.flatMap_nil, List.nil_append, checkFrom_cons, checkFrom_cons,
        readPiece_opening_brace, readPiece_opening_brace]
      rw [hplace] at hopen ⊢
      exact hopen
  | cons segment left ih =>
    cases text with
    | nil =>
      rw [segments.eq_def] at h
      contradiction
    | cons c text =>
      rw [segments_cons, List.cons_append, List.cons.injEq] at h
      obtain ⟨rfl, hleft⟩ := h
      -- What is left after the piece starts with the same character in both scripts.
      have hrest := congrArg (List.flatMap Segment.chars) hleft
      rw [flatMap_chars_segments, List.flatMap_append, List.flatMap_cons] at hrest
      obtain ⟨d, hd⟩ : ∃ d, ∀ tail, ∃ more,
          left.flatMap Segment.chars ++ '{' :: tail = d :: more := by
        cases left.flatMap Segment.chars with
        | nil => exact ⟨'{', fun tail => ⟨tail, rfl⟩⟩
        | cons d chars => exact ⟨d, fun tail => ⟨_, rfl⟩⟩
      obtain ⟨before, hbefore⟩ := hd (right.flatMap Segment.chars)
      obtain ⟨after, hafter⟩ := hd (inserted ++ right.flatMap Segment.chars)
      obtain ⟨run, hrun, hread⟩ := readPiece_of_rest (hrest.trans hbefore) after
      rw [List.flatMap_cons, List.append_assoc, hrun, List.cons_append, hafter]
      have hloc := hstays hplace
      rw [List.flatMap_cons, List.append_assoc, Location.advanceAll_append] at hplace
      rcases readPiece_bracesOf stack previous loc c with hsame | hfails
      · rw [checkFrom_cons, checkFrom_cons stack, hsame, hsame, hread]
        -- A fault is the same in both scripts; otherwise checker and masker agree on the braces for
        -- the next turn.
        have hturn := relocateTurn_react hstack hloc c
          (readPiece ((bracesOf stack).head? == some true) previous c text).piece
        cases hreact :
          react stack loc c (readPiece ((bracesOf stack).head? == some true) previous c
          text).piece with
        | error fault =>
          rw [hreact] at hturn
          exact congrArg Except.error (Except.error.inj hturn).symm
        | ok stack' =>
          rw [hreact] at hturn
          have hbraces := @bracesOf_react stack stack' loc previous c text
          rw [hsame] at hbraces
          rw [← hbraces hreact] at hleft
          rw [← hafter]
          exact ih hleft hplace (Except.ok.inj hturn)
      · rw [hfails, hfails]
        exact congrArg (fun place => Except.error (Fault.mk _ place)) hloc.symm

/-! ### The property -/

/-- True of the characters of code that are no brackets and start nothing. -/
def isOrdinary (c : Char) : Bool :=
  !(isBlank c || isCloser c || (openerOf? c).isSome || c == '/' || c == '"' || c == '\'' ||
    c == '`')

/-- The checker passes over such a character and remembers it. -/
theorem checkFrom_ordinary {c : Char} (hc : isOrdinary c = true) (stack : List (Opener × Location))
    (previous : Option Char) (loc : Location) (text : List Char) :
    checkFrom stack previous loc (c :: text) =
      checkFrom stack (some c) (loc.advanceAll [c]) text := by
  simp only [isOrdinary, Bool.not_eq_true', Bool.or_eq_false_iff, beq_eq_false_iff_ne, ne_eq,
    Option.isSome_eq_false_iff, Option.isNone_iff_eq_none] at hc
  obtain ⟨⟨⟨⟨⟨⟨hblank, hcloser⟩, hopener⟩, hslash⟩, hdouble⟩, hsingle⟩, hbacktick⟩ := hc
  have hpiece : readPiece (inSubstitution stack) previous c text = ⟨.plain, [c], text⟩ := by
    rw [readPiece, if_neg]
    · exact Steps.eq_step (.plain hblank hdouble hsingle hbacktick fun h => absurd h hslash)
    · rw [Bool.and_eq_true, beq_iff_eq]
      rintro ⟨-, rfl⟩
      contradiction
  have hreact : react stack loc c .plain = .ok stack := by
    simp [react, afterPlain, hopener, hcloser]
  rw [checkFrom_cons, hpiece, hreact]
  rfl

/-- Reading ordinary characters changes nothing but what the last significant character is. -/
theorem checkFrom_ordinary_append {run : List Char} (hrun : ∀ c ∈ run, isOrdinary c = true)
    (stack : List (Opener × Location)) (previous : Option Char) (loc : Location)
    (text : List Char) :
    checkFrom stack previous loc (run ++ text) =
      checkFrom stack (run.getLast?.or previous) (loc.advanceAll run) text := by
  induction run generalizing previous loc with
  | nil => rfl
  | cons c cs ih =>
    rw [List.forall_mem_cons] at hrun
    rw [List.cons_append, checkFrom_ordinary hrun.1, ih hrun.2, ← Location.advanceAll_append,
      List.singleton_append]
    -- The last significant character is the last of the run, if there is one.
    congr 1
    cases cs with
    | nil => rfl
    | cons d ds => simp [List.getLast?_eq_some_getLast]

theorem checkFrom_blank {c : Char} (hc : isBlank c = true) (stack : List (Opener × Location))
    (previous : Option Char) (loc : Location) (text : List Char) :
    checkFrom stack previous loc (c :: text) =
      checkFrom stack previous (loc.advanceAll [c]) text := by
  rw [checkFrom_cons, readPiece_blank hc]
  rfl

/-- What stands for a character in a quoted text does not end a string. -/
theorem scanString_escape (c : Char) (text : List Char) :
    scanString '"' (Json.escape c ++ text) = (scanString '"' text).after (Json.escape c) := by
  obtain ⟨letter, hescape, -, -, -⟩ | ⟨hescape, hlow⟩ | ⟨hescape, hquote, hslash, hc⟩ :=
    Json.escape_cases c
  · rw [hescape]
    simp [scanString]
  · -- None of the digits of a number ends a string.
    have hdigit : ∀ n < 16, Json.hexDigit n ≠ '\\' ∧ Json.hexDigit n ≠ '\n' ∧
      Json.hexDigit n ≠ '"' := by decide
    obtain ⟨hhigh₁, hhigh₂, hhigh₃⟩ := hdigit (c.toNat / 16) (by omega)
    obtain ⟨hlow₁, hlow₂, hlow₃⟩ := hdigit (c.toNat % 16) (by omega)
    rw [hescape]
    simp [scanString, scanString_char, Scan.after, hhigh₁, hhigh₂, hhigh₃, hlow₁, hlow₂, hlow₃]
  -- A line feed would end the string, but is below U+0020 and so never stands for itself.
  · have hline : c ≠ '\n' := by
      rintro rfl
      exact absurd hc (by decide)
    rw [hescape, List.singleton_append, scanString_char hslash, if_neg hline, if_neg hquote]

/-- An escaped text closes no string, so the string ends at the mark behind it. -/
theorem scanString_flatMap_escape (quoted text : List Char) :
    scanString '"' (quoted.flatMap Json.escape ++ '"' :: text) =
      ⟨true, quoted.flatMap Json.escape ++ ['"'], text⟩ := by
  induction quoted with
  | nil => simp [scanString]
  | cons c cs ih =>
    rw [List.flatMap_cons, List.append_assoc, scanString_escape, ih, Scan.after, List.append_assoc]

/-- **A quoted text is one string.** -/
theorem checkFrom_quote (stack : List (Opener × Location)) (previous : Option Char) (loc : Location)
    (quoted text : List Char) :
    checkFrom stack previous loc (Json.quote quoted ++ text) =
      checkFrom stack (some '"') (loc.advanceAll (Json.quote quoted)) text := by
  have hpiece : readPiece (inSubstitution stack) previous '"'
    (quoted.flatMap Json.escape ++ '"' :: text) =
      ⟨.string true, Json.quote quoted, text⟩ := by
    rw [readPiece, if_neg (by simp), (Steps.string (.inl rfl)).eq_step, scanString_flatMap_escape]
    rfl
  have hquote : Json.quote quoted ++ text = '"' :: (quoted.flatMap Json.escape ++ '"' :: text) := by
    simp [Json.quote]
  rw [hquote, checkFrom_cons, hpiece]
  rfl

/-- The name of the property and the colon after it. -/
def propertyLabel : List Char :=
  ['t', 'e', 'm', 'p', 'l', 'a', 't', 'e', ':']

theorem templateProperty_eq (markup : List Char) :
    templateProperty markup = propertyLabel ++ ([' '] ++ (Json.quote markup ++ [','])) := by
  have hlabel : "template: ".toList = propertyLabel ++ [' '] := by decide
  unfold templateProperty
  rw [hlabel, List.append_assoc, List.append_assoc]

/-- **The property leaves open what is open before it.** -/
theorem checkFrom_templateProperty (stack : List (Opener × Location)) (previous : Option Char)
    (loc : Location) (markup text : List Char) :
    checkFrom stack previous loc (templateProperty markup ++ text) =
      checkFrom stack (some ',') (loc.advanceAll (templateProperty markup)) text := by
  have hlabel : ∀ c ∈ propertyLabel, isOrdinary c = true := List.all_eq_true.1 (by decide)
  have hspace : isBlank ' ' = true := by decide
  have hcomma : isOrdinary ',' = true := by decide
  rw [templateProperty_eq, List.append_assoc, List.append_assoc, List.append_assoc,
    checkFrom_ordinary_append hlabel, List.singleton_append, checkFrom_blank hspace,
    checkFrom_quote, List.singleton_append, checkFrom_ordinary hcomma]
  simp only [Location.advanceAll_append]

/-- The property stands on one line. -/
theorem not_mem_templateProperty (markup : List Char) : '\n' ∉ templateProperty markup := by
  intro h
  rcases List.mem_append.1 h with h | h
  · rcases List.mem_append.1 h with h | h
    · exact absurd h (by decide)
    · exact absurd (Json.le_toNat_of_mem_quote h) (by decide)
  · exact absurd h (by decide)

/-- **The property pushes the faults behind it to the right.** -/
theorem checkFrom_templateProperty_pushRight {markup : List Char} {place : Location}
    (stack : List (Opener × Location)) (text : List Char)
    (hstack : relocate (place.pushRight (templateProperty markup).length) stack = stack) :
    checkFrom stack (some '{') place (templateProperty markup ++ text) =
      (checkFrom stack (some '{') place text).mapError
        (Fault.relocate (place.pushRight (templateProperty markup).length)) := by
  have hnext : place.advanceAll (templateProperty markup) =
      place.pushRight (templateProperty markup).length place := by
    rw [Location.advanceAll_of_notMem (not_mem_templateProperty markup), Location.pushRight,
      if_pos ⟨rfl, Nat.le_refl _⟩]
  -- After the comma, as after the brace, a slash starts a regular expression.
  have hslash : canPrecedeRegex (some ',') = canPrecedeRegex (some '{') := by decide
  have hmoved :=
    checkFrom_relocate hslash (Location.pushRight_advanceAll place (templateProperty markup).length)
    stack
    text
  rw [hstack, ← hnext] at hmoved
  rw [checkFrom_templateProperty, hmoved]

/-- **What the checker says about a script with injected markup**: the same, but for the faults that
stand behind the property on its line, which it pushes to the right. -/
theorem check_inject? {logic markup woven : List Char} (h : inject? logic markup = some woven) :
    ∃ before after, logic = before ++ after ∧ woven = before ++ templateProperty markup ++ after ∧
      findObject 0 (mask logic) = some (byteLength before) ∧
      check woven = (check logic).mapError
        (Fault.relocate ((({} : Location).advanceAll before).pushRight
          (templateProperty markup).length)) := by
  obtain ⟨left, right, hsegments, hoffset, rfl⟩ := inject?_segments h
  have hlogic := flatMap_chars_segments [] none logic
  rw [hsegments, List.flatMap_append, List.flatMap_cons] at hlogic
  refine ⟨left.flatMap Segment.chars ++ ['{'], right.flatMap Segment.chars, ?_, ?_, hoffset, ?_⟩
  · rw [← hlogic, List.append_assoc]
  · rw [List.append_assoc, List.append_assoc]
    rfl
  · exact checkFrom_insert checkFrom_templateProperty_pushRight hsegments rfl rfl

/-- **Injected markup does not change what the checker says about a script**, the column apart. -/
theorem verdict_check_inject {logic markup woven : List Char}
    (h : inject? logic markup = some woven) :
    verdict (check woven) = verdict (check logic) := by
  obtain ⟨before, after, -, -, -, hcheck⟩ := check_inject? h
  rw [hcheck]
  exact verdict_relocate (Location.line_pushRight _ _) _

/-- **Injected markup is transparent to the checker.** The markup goes in at one place of the
script. With it the script is in order just when it is without it. A fault has the same cause and is
on the same line, and in the same column unless it stands on the line of the insertion and behind
it; then it is as many columns further right as characters were put in. No line is added. -/
theorem inject_keeps_faults {logic markup woven : List Char}
    (h : inject? logic markup = some woven) :
    ∃ before after, logic = before ++ after ∧ woven = before ++ templateProperty markup ++ after ∧
      findObject 0 (mask logic) = some (byteLength before) ∧
      (check woven = .ok () ↔ check logic = .ok ()) ∧
      (∀ fault, check logic = .error fault → ∃ fault', check woven = .error fault' ∧
      fault'.cause = fault.cause ∧
        fault'.location.line = fault.location.line ∧
        fault'.location.column =
          if fault.location.line = (({} : Location).advanceAll before).line ∧
              (({} : Location).advanceAll before).column ≤ fault.location.column
          then fault.location.column + (templateProperty markup).length
          else fault.location.column) ∧
      woven.count '\n' = logic.count '\n' := by
  obtain ⟨before, after, hlogic, hwoven, hoffset, hcheck⟩ := check_inject? h
  refine ⟨before, after, hlogic, hwoven, hoffset, ?_, fun fault hfault => ?_, ?_⟩
  · rw [hcheck]
    cases check logic with
    | ok => exact Iff.rfl
    | error fault => exact ⟨nofun, nofun⟩
  · rw [hfault] at hcheck
    refine ⟨_, hcheck, rfl, Location.line_pushRight _ _ _, ?_⟩
    unfold Fault.relocate Location.pushRight
    split <;> rfl
  · rw [hwoven, hlogic, List.count_append, List.count_append, List.count_append,
      List.count_eq_zero.2 (not_mem_templateProperty markup), Nat.add_zero]

/-- A script with a brace too many, on the line of the exported object. -/
def overclosedScript : List Char :=
  ['e', 'x', 'p', 'o', 'r', 't', ' ', 'd', 'e', 'f', 'a', 'u', 'l', 't', ' ', '{', '}', '}']

/-- The second closing brace is reported sixteen columns on, which is what the property takes. -/
theorem inject_keeps_faults_overclosed :
    check overclosedScript = .error ⟨.unexpected '}', ⟨1, 18⟩⟩ ∧
      ∃ woven fault, inject? overclosedScript ['<', 'p', '>'] = some woven ∧
      check woven = .error fault ∧
        fault.cause = .unexpected '}' ∧ fault.location.line = 1 ∧ fault.location.column = 34 := by
  -- The script has no literals, so it is its own mask.
  have hcheck : check overclosedScript = .error ⟨.unexpected '}', ⟨1, 18⟩⟩ := by
    with_unfolding_all rfl
  have hmask : mask overclosedScript = overclosedScript := by
    with_unfolding_all rfl
  have hfound : findObject 0 (mask overclosedScript) = some 16 := by
    rw [hmask]
    rfl
  have hinject : inject? overclosedScript ['<', 'p', '>'] =
      some (takeBytes 16 overclosedScript ++ templateProperty ['<', 'p', '>'] ++
          dropBytes 16 overclosedScript) := by
    rw [inject?, hfound]
    rfl
  obtain ⟨before, after, hlogic, -, hoffset, -, hfaults, -⟩ := inject_keeps_faults hinject
  obtain ⟨fault, hfault, hcause, hline, hcolumn⟩ := hfaults _ hcheck
  -- The property goes behind the first sixteen bytes, which are sixteen characters of the first
  -- line.
  have hsize : 16 = byteLength before := Option.some.inj (hfound.symm.trans hoffset)
  have hbefore : takeBytes 16 overclosedScript = before := by
    rw [hsize, hlogic, takeBytes_append]
  have hplace : ({} : Location).advanceAll before = ⟨1, 17⟩ := by
    rw [← hbefore]
    rfl
  rw [hplace] at hcolumn
  exact ⟨hcheck, _, fault, hinject, hfault, hcause, hline, hcolumn⟩

end Triptych.Script
