import Triptych.Proofs.Script.Lexemes

/-!
# Line ends of scripts

A line may end in a line feed, or in a carriage return and a line feed. Here a script with line ends
of the first kind is compared with the same script with line ends of the second kind (`crlf`).

A carriage return is a blank, and inside comments and template literals a character like any other.
Only where a backslash stands before a line end it matters: the backslash takes one character along,
and that is the carriage return, so that the line feed breaks the string or the regular expression
(`breaks_scanString`, `breaks_scanRegex`).

So the checker goes through both scripts alike up to the first string or regular expression that
goes on in the next line, and says the same about both exactly if it meets none
(`verdict_checkFrom_crlf_iff`). If it meets one, it refuses that literal in the second script, and
in the first script it has nothing to refuse of this kind so far up.
-/

namespace Triptych

open Code

namespace Text

/-- The text with a carriage return before each line feed. -/
def crlf (text : List Char) : List Char :=
  text.flatMap fun c => if c = '\n' then ['\r', '\n'] else [c]

theorem crlf_newline (text : List Char) : crlf ('\n' :: text) = '\r' :: '\n' :: crlf text := rfl

theorem crlf_cons {c : Char} (hc : c ≠ '\n') (text : List Char) :
    crlf (c :: text) = c :: crlf text := by
  rw [crlf, List.flatMap_cons, if_neg hc]
  rfl

theorem crlf_append (text more : List Char) : crlf (text ++ more) = crlf text ++ crlf more :=
  List.flatMap_append

/-- A text on one line has no line end to change. -/
theorem crlf_of_notMem {text : List Char} (h : '\n' ∉ text) : crlf text = text := by
  induction text with
  | nil => rfl
  | cons c text ih =>
    obtain ⟨hc, htext⟩ := not_or.1 (mt List.mem_cons.2 h)
    rw [crlf_cons (Ne.symm hc), ih htext]

/-- The number of lines stays. -/
theorem count_crlf (text : List Char) : (crlf text).count '\n' = text.count '\n' := by
  induction text with
  | nil => rfl
  | cons c text ih =>
    by_cases hc : c = '\n'
    · rw [hc, crlf_newline, List.count_cons_of_ne (by decide), List.count_cons_self,
        List.count_cons_self, ih]
    · rw [crlf_cons hc, List.count_cons_of_ne hc, List.count_cons_of_ne hc, ih]

/-- A visible character comes first in both texts or in none. -/
theorem head?_crlf {d : Char} (hd : isBlank d = false) (text : List Char) :
    (crlf text).head? = some d ↔ text.head? = some d := by
  have hblank {c : Char} (hc : isBlank c = true) : c ≠ d := by
    rintro rfl
    rw [hd] at hc
    contradiction
  cases text with
  | nil => exact Iff.rfl
  | cons c text =>
    by_cases hc : c = '\n'
    · rw [hc, crlf_newline]
      exact iff_of_false (by simpa using hblank (by decide)) (by simpa using hblank (by decide))
    · rw [crlf_cons hc]
      exact Iff.rfl

end Text

namespace Script

open Text

/-! ### Strings and regular expressions -/

/-- **With carriage returns `scan` comes to the same end, unless there is a line feed in what it
reads.** -/
def BreaksAtLineFeed (scan : List Char → Scan) (text : List Char) : Prop :=
  ((scan (crlf text)).ended = true ↔ (scan text).ended = true ∧ '\n' ∉ (scan text).read) ∧
  ((scan (crlf text)).ended = true → (scan (crlf text)).rest = crlf (scan text).rest)

section BreaksAtLineFeed

variable {scan scan' : List Char → Scan} {text : List Char}

/-- The four ways in which a scan can come to an end or go on, each with what carriage returns do to
it. First: the scan is broken with them, and without them it is not or has read a line feed. -/
theorem breaks_of_broken (hbroken : (scan (crlf text)).ended = false)
    (h : (scan text).ended = true → '\n' ∈ (scan text).read) : BreaksAtLineFeed scan text := by
  rw [BreaksAtLineFeed, hbroken]
  exact ⟨⟨nofun, fun hends => absurd (h hends.1) hends.2⟩, nofun⟩

/-- The scan is broken without carriage returns, too. -/
theorem breaks_of_endless (hbroken : (scan (crlf text)).ended = false)
    (h : (scan text).ended = false) :
    BreaksAtLineFeed scan text := by
  refine breaks_of_broken hbroken fun hends => ?_
  rw [h] at hends
  contradiction

/-- The scan ends at a character that is no line feed. -/
theorem breaks_of_stop {c : Char} (hc : c ≠ '\n')
    (hscan : ∀ tail, scan (c :: tail) = ⟨true, [c], tail⟩) :
    BreaksAtLineFeed scan (c :: text) := by
  rw [BreaksAtLineFeed, crlf_cons hc, hscan, hscan]
  exact ⟨iff_of_true rfl ⟨rfl, by simpa using Ne.symm hc⟩, fun _ => rfl⟩

/-- The scan goes on behind a run without line feeds. -/
theorem breaks_of_after {run : List Char} (hrun : '\n' ∉ run)
    (hscan : ∀ tail, scan (run ++ tail) = (scan' tail).after run)
    (h : BreaksAtLineFeed scan' text) :
    BreaksAtLineFeed scan (run ++ text) := by
  rw [BreaksAtLineFeed, crlf_append, crlf_of_notMem hrun, hscan, hscan]
  refine ⟨h.1.trans (and_congr_right fun _ => ?_), h.2⟩
  simp [Scan.after, hrun]

end BreaksAtLineFeed

/-- **A string over two lines breaks when a carriage return comes before its line feed**: the
backslash takes the carriage return along, and the line feed is left bare. -/
theorem breaks_scanString {mark : Char} (hmark : isBlank mark = false) (text : List Char) :
    BreaksAtLineFeed (scanString mark) text := by
  have hreturn : '\r' ≠ mark := by
    rintro rfl
    exact absurd hmark (by decide)
  induction text using escapeInduction with
  | nil | lone => exact breaks_of_endless rfl rfl
  | escape c text ih =>
    by_cases hc : c = '\n'
    · -- The backslash takes the carriage return along, and the line feed stands alone.
      subst hc
      refine breaks_of_broken ?_ fun _ => ?_
      · rw [crlf_cons (by decide), crlf_newline, scanString, Scan.after,
          scanString_char (by decide), if_pos rfl]
      · rw [scanString]
        exact List.mem_cons_of_mem _ List.mem_cons_self
    · exact @breaks_of_after _ (scanString mark) _ ['\\', c] (by simp [Ne.symm hc])
        (fun tail => by simp [scanString]) ih
  | char c text hescape ih =>
    by_cases hc : c = '\n'
    · subst hc
      -- A bare line feed ends the string early in both texts.
      refine breaks_of_endless ?_ ?_
      · rw [crlf_newline, scanString_char (by decide), if_neg (by decide), if_neg hreturn,
          Scan.after, scanString_char (by decide), if_pos rfl]
      · rw [scanString_char hescape, if_pos rfl]
    have hchar := @scanString_char mark c hescape
    by_cases hend : c = mark
    · exact breaks_of_stop hc fun tail => by rw [hchar, if_neg hc, if_pos hend]
    · exact @breaks_of_after _ (scanString mark) _ [c] (by simpa using Ne.symm hc)
        (fun tail => by rw [List.singleton_append, hchar, if_neg hc, if_neg hend]) ih

/-- A regular expression breaks like a string. -/
theorem breaks_scanRegex (inClass : Bool) (text : List Char) :
    BreaksAtLineFeed (scanRegex inClass) text := by
  -- A line feed without a backslash breaks a regular expression, and a carriage return before it
  -- does nothing.
  have hline (inClass : Bool) (tail : List Char) : (scanRegex inClass ('\n' :: tail)).ended =
      false := by
    rw [scanRegex_char (by decide)]
    simp
  induction text using escapeInduction generalizing inClass with
  | nil | lone => exact breaks_of_endless rfl rfl
  | escape c text ih =>
    by_cases hc : c = '\n'
    · subst hc
      refine breaks_of_broken ?_ fun _ => ?_
      · rw [crlf_cons (by decide), crlf_newline, scanRegex]
        exact hline inClass (crlf text)
      · rw [scanRegex]
        exact List.mem_cons_of_mem _ List.mem_cons_self
    · exact @breaks_of_after _ (scanRegex inClass) _ ['\\', c] (by simp [Ne.symm hc])
        (fun tail => by simp [scanRegex])
        (ih inClass)
  | char c text hescape ih =>
    by_cases hc : c = '\n'
    · subst hc
      have hreturn : scanRegex inClass ('\r' :: '\n' :: crlf text) =
          (scanRegex inClass ('\n' :: crlf text)).after ['\r'] := by
        rw [scanRegex_char (by decide)]
        simp
      refine breaks_of_endless ?_ (hline inClass text)
      rw [crlf_newline, hreturn]
      exact hline inClass (crlf text)
    have hchar := @scanRegex_char inClass c hescape
    have hnot : '\n' ∉ [c] := by simpa using Ne.symm hc
    by_cases hopen : c = '['
    · exact @breaks_of_after _ (scanRegex true) _ [c] hnot
        (fun tail => by rw [List.singleton_append, hchar, if_pos hopen]) (ih true)
    by_cases hclose : c = ']'
    · exact @breaks_of_after _ (scanRegex false) _ [c] hnot
        (fun tail => by rw [List.singleton_append, hchar, if_neg hopen, if_pos hclose]) (ih false)
    by_cases hslash : (decide (c = '/') && !inClass) = true
    · exact breaks_of_stop hc fun tail => by rw [hchar, if_neg hopen, if_neg hclose, if_pos hslash]
    · exact @breaks_of_after _ (scanRegex inClass) _ [c] hnot
        (fun tail => by
          rw [List.singleton_append, hchar, if_neg hopen, if_neg hclose, if_neg hslash, if_neg hc])
        (ih inClass)

/-! ### Comments and templates -/

/-- Comments go on over line ends, whatever they are. -/
theorem scanBlockComment_crlf (text : List Char) :
    (scanBlockComment (crlf text)).ended = (scanBlockComment text).ended ∧
      (scanBlockComment (crlf text)).rest = crlf (scanBlockComment text).rest := by
  induction text with
  | nil => exact ⟨rfl, rfl⟩
  | cons c text ih =>
    by_cases hend : c = '*' ∧ text.head? = some '/'
    · obtain ⟨rfl, hhead⟩ := hend
      obtain ⟨tail, rfl⟩ := List.head?_eq_some_iff.1 hhead
      rw [crlf_cons (by decide), crlf_cons (by decide), scanBlockComment_end, scanBlockComment_end]
      exact ⟨rfl, rfl⟩
    rw [not_and] at hend
    rw [scanBlockComment_char hend]
    -- A carriage return is a character of the comment, and ends no mark.
    by_cases hc : c = '\n'
    · rw [hc, crlf_newline, scanBlockComment_char fun h => absurd h (by decide),
        scanBlockComment_char fun h => absurd h (by decide)]
      exact ih
    · rw [crlf_cons hc, scanBlockComment_char fun hstar => mt (head?_crlf (by decide) text).1
        (hend hstar)]
      exact ih

/-- Template literals do, too. A backslash before a line end takes the carriage return along, and
the line feed is a character like others. -/
theorem scanTemplate_crlf (text : List Char) :
    (scanTemplate (crlf text)).ending = (scanTemplate text).ending ∧
      (scanTemplate (crlf text)).rest = crlf (scanTemplate text).rest := by
  -- A line feed is a character of the template, whatever stands before it.
  have hline (tail : List Char) : scanTemplate ('\n' :: tail) =
      (scanTemplate tail).after ['\n'] := by
    rw [scanTemplate_char (by decide) fun h => absurd h (by decide), if_neg (by decide)]
  induction text using escapeInduction with
  | nil => exact ⟨rfl, rfl⟩
  | lone => exact ⟨rfl, rfl⟩
  | escape c text ih =>
    rw [crlf_cons (by decide), scanTemplate]
    by_cases hc : c = '\n'
    · rw [hc, crlf_newline, scanTemplate, hline]
      exact ih
    · rw [crlf_cons hc, scanTemplate]
      exact ih
  | char c text hescape ih =>
    by_cases hc : c = '\n'
    · rw [hc, crlf_newline, hline, scanTemplate_char (by decide) fun h => absurd h (by decide),
        if_neg (by decide), hline]
      exact ih
    rw [crlf_cons hc]
    by_cases hopen : c = '$' ∧ text.head? = some '{'
    · obtain ⟨rfl, hhead⟩ := hopen
      obtain ⟨tail, rfl⟩ := List.head?_eq_some_iff.1 hhead
      rw [crlf_cons (by decide)]
      exact ⟨rfl, rfl⟩
    rw [not_and] at hopen
    rw [scanTemplate_char hescape hopen,
      scanTemplate_char hescape fun hdollar => mt (head?_crlf (by decide) text).1 (hopen hdollar)]
    split
    · exact ⟨rfl, rfl⟩
    · exact ih

/-! ### Pieces -/

/-- The second text is the first one with carriage returns, except that a line comment may have
taken the first of them. -/
def EndsLike (text text' : List Char) : Prop :=
  text' = crlf text ∨ ∃ tail, text = '\n' :: tail ∧ text' = '\n' :: crlf tail

/-- A line comment takes the carriage return along and ends at the line feed. -/
theorem endsLike_dropWhile (text : List Char) :
    EndsLike (text.dropWhile (· != '\n')) ((crlf text).dropWhile (· != '\n')) := by
  induction text with
  | nil => exact .inl rfl
  | cons c text ih =>
    by_cases hc : c = '\n'
    · subst hc
      exact .inr ⟨text, rfl, rfl⟩
    · rw [crlf_cons hc, List.dropWhile_cons_of_pos (by simpa using hc), List.dropWhile_cons_of_pos
        (by simpa using hc)]
      exact ih

/-- Texts that differ in carriage returns alone have as many lines. -/
theorem EndsLike.count_newline {text text' : List Char} (h : EndsLike text text') :
    text'.count '\n' = text.count '\n' := by
  rcases h with rfl | ⟨tail, rfl, rfl⟩
  · exact count_crlf text
  · rw [List.count_cons_self, List.count_cons_self, count_crlf]

/-- A string or a regular expression that goes on in the next line, behind a backslash and a line
feed. -/
def Lexeme.SpansLines (lexeme : Lexeme) : Prop :=
  (lexeme.piece = .string true ∨ lexeme.piece = .regex true) ∧ '\n' ∈ lexeme.chars

/-- The piece with carriage returns: the same, or broken if it spans lines. -/
inductive SamePiece (s s' : Step) : Prop
  | same : s'.piece = s.piece → ¬ (Lexeme.mk s.piece s.chars).SpansLines →
      (s.piece.ended = true → EndsLike s.rest s'.rest) → SamePiece s s'
  | broken {kind : Bool → Piece} : kind = .string ∨ kind = .regex → s.piece = kind true →
      '\n' ∈ s.chars →
      s'.piece = kind false → SamePiece s s'

/-- A string or a regular expression is met as the same piece, unless it has a line feed in it and
breaks. -/
theorem samePiece_of_breaks {scan : List Char → Scan} {text : List Char}
    (h : BreaksAtLineFeed scan text) {kind : Bool → Piece} (hkind : kind = .string ∨ kind = .regex)
    {mark : Char} (hmark : mark ≠ '\n') :
    SamePiece ⟨kind (scan text).ended, mark :: (scan text).read, (scan text).rest⟩
      ⟨kind (scan (crlf text)).ended, mark :: (scan (crlf text)).read,
        (scan (crlf text)).rest⟩ := by
  obtain ⟨hended, hrest⟩ := h
  cases hafter : (scan (crlf text)).ended with
  | true =>
    obtain ⟨hbefore, hread⟩ := hended.1 hafter
    rw [hbefore]
    refine .same rfl ?_ fun _ => .inl (hrest hafter)
    rintro ⟨-, hline⟩
    exact hread ((List.mem_cons.1 hline).resolve_left (Ne.symm hmark))
  | false =>
    cases hbefore : (scan text).ended with
    | true =>
      have hline : '\n' ∈ (scan text).read := by
        refine Decidable.byContradiction fun hread => ?_
        rw [hended.2 ⟨hbefore, hread⟩] at hafter
        contradiction
      exact .broken hkind rfl (List.mem_cons_of_mem _ hline) rfl
    | false =>
      -- A literal that never ended does not end with carriage returns either.
      rcases hkind with rfl | rfl
      · exact .same rfl (fun hspans => by rcases hspans.1 with h | h <;> cases h) nofun
      · exact .same rfl (fun hspans => by rcases hspans.1 with h | h <;> cases h) nofun

theorem StartsNoComment.crlf {text : List Char} (h : StartsNoComment text) :
    StartsNoComment (crlf text) :=
  ⟨mt (head?_crlf (by decide) text).1 h.1, mt (head?_crlf (by decide) text).1 h.2⟩

/-- **A step with carriage returns meets the same piece**, or the break of a literal over two
lines. -/
theorem Steps.crlf {previous : Option Char} {c : Char} {text : List Char} {s : Step}
    (h : Steps previous c text s) (hc : c ≠ '\n') :
    ∃ s', Steps previous c (crlf text) s' ∧ SamePiece s s' := by
  -- Only strings and regular expressions can break, so the others are the same pieces.
  have hnot {piece : Piece} {chars : List Char} (hstring : piece ≠ .string true)
    (hregex : piece ≠ .regex true) :
      ¬ (Lexeme.mk piece chars).SpansLines := by
    rintro ⟨hpiece | hpiece, -⟩
    · exact hstring hpiece
    · exact hregex hpiece
  cases h with
  | blank hblank => exact ⟨_, .blank hblank, .same rfl (hnot nofun nofun) fun _ => .inl rfl⟩
  | @lineComment text =>
    rw [crlf_cons (by decide)]
    exact ⟨_, .lineComment, .same rfl (hnot nofun nofun) fun _ => endsLike_dropWhile text⟩
  | @blockComment text =>
    obtain ⟨hended, hrest⟩ := scanBlockComment_crlf text
    rw [crlf_cons (by decide)]
    exact ⟨_, .blockComment, .same (congrArg Piece.comment hended) (hnot nofun nofun) fun _ =>
      .inl hrest⟩
  | regex hno hprevious =>
    exact ⟨_, .regex hno.crlf hprevious, samePiece_of_breaks (breaks_scanRegex false text)
      (.inr rfl) hc⟩
  | string hquote =>
    have hmark : isBlank c = false := by rcases hquote with rfl | rfl <;> decide
    exact ⟨_, .string hquote, samePiece_of_breaks (breaks_scanString hmark text) (.inl rfl) hc⟩
  | template =>
    obtain ⟨hending, hrest⟩ := scanTemplate_crlf text
    exact ⟨_, .template, .same (congrArg Piece.template hending) (hnot nofun nofun) fun _ =>
      .inl hrest⟩
  | plain hblank hdouble hsingle hbacktick hslash =>
    refine ⟨_, .plain hblank hdouble hsingle hbacktick fun hc =>
      ?_, .same rfl (hnot nofun nofun) fun _ => .inl rfl⟩
    obtain ⟨hno, hprevious⟩ := hslash hc
    exact ⟨hno.crlf, hprevious⟩

theorem readPiece_crlf (resumes : Bool) (previous : Option Char) {c : Char} (hc : c ≠ '\n')
    (text : List Char) :
    SamePiece (readPiece resumes previous c text) (readPiece resumes previous c (crlf text)) := by
  unfold readPiece
  split
  next =>
    obtain ⟨hending, hrest⟩ := scanTemplate_crlf text
    refine .same (congrArg Piece.template hending) ?_ fun _ => .inl hrest
    rintro ⟨hpiece | hpiece, -⟩ <;> contradiction
  next =>
    obtain ⟨s', hs', hsame⟩ := (steps_step previous c text).crlf hc
    rwa [hs'.eq_step]

/-! ### The whole script -/

/-- A string or regular expression that does not end is reported where it starts. -/
theorem location_of_react {stack : List (Opener × Location)} {loc : Location} {c : Char}
    {piece : Piece} {fault : Fault} (h : react stack loc c piece = .error fault)
    (hcause : fault.cause = .unterminatedString ∨ fault.cause = .unterminatedRegex) :
    fault.location = loc := by
  -- Every other fault is left out by its cause.
  have hother {cause : Cause} {place : Location} (hfault : Fault.mk cause place = fault)
      (hne : cause ≠ .unterminatedString ∧ cause ≠ .unterminatedRegex) : fault.location = loc := by
    obtain rfl := hfault
    exact (hcause.elim hne.1 hne.2).elim
  have htemplate {stack : List (Opener × Location)} {place : Location} {ending : TemplateEnd}
      (h : afterTemplate stack place ending = .error fault) : fault.location = loc := by
    cases ending with
    | closed | substitution => contradiction
    | missing => exact hother (Except.error.inj h) (by simp)
  match piece with
  | .blank | .comment true | .regex true | .string true => contradiction
  | .comment false => exact hother (Except.error.inj h) (by simp)
  | .regex false | .string false => rw [← Except.error.inj h]
  | .template ending =>
    unfold react at h
    dsimp only at h
    split at h <;> exact htemplate h
  | .plain =>
    have h : afterPlain stack loc c = .error fault := h
    unfold afterPlain at h
    split at h
    next => contradiction
    next =>
      split at h
      next =>
        cases stack with
        | nil => exact hother (Except.error.inj h) (by simp)
        | cons top stack =>
          rw [afterCloser] at h
          split at h
          next => contradiction
          next => exact hother (Except.error.inj h) (by simp)
      next => contradiction

/-- **A string or regular expression that does not end is not found further up than the checker
stands.** -/
theorem line_le_of_checkFrom {stack : List (Opener × Location)} {previous : Option Char}
    {loc : Location} {text : List Char} {fault : Fault}
    (h : checkFrom stack previous loc text = .error fault)
    (hcause : fault.cause = .unterminatedString ∨ fault.cause = .unterminatedRegex) :
    loc.line ≤ fault.location.line := by
  match text with
  | [] =>
    rw [checkFrom.eq_def] at h
    match stack with
    | [] => contradiction
    | (opener, place) :: stack =>
      -- What stays open is neither of the two.
      obtain rfl := Except.error.inj h
      cases opener <;> rcases hcause with hcause | hcause <;> cases hcause
  | c :: text =>
    have hshorter := readPiece_rest_le (inSubstitution stack) previous c text
    rw [checkFrom_cons] at h
    cases hreact : react stack loc c (readPiece (inSubstitution stack) previous c text).piece with
    | error fault' =>
      rw [hreact] at h
      obtain rfl := Except.error.inj h
      exact Nat.le_of_eq (congrArg Location.line (location_of_react hreact hcause)).symm
    | ok stack' =>
      rw [hreact] at h
      have hrest := line_le_of_checkFrom h hcause
      rw [Location.line_advanceAll] at hrest
      exact Nat.le_trans (Nat.le_add_right _ _) hrest
termination_by text.length
decreasing_by simp only [List.length_cons]; omega

/-- A fault is not what a checker says that finds such a fault further down only. -/
theorem verdict_ne_of_below {cause : Cause} {loc : Location} {outcome : Except Fault Unit}
    (h : ∀ fault, outcome = .error fault → fault.cause = cause → loc.line < fault.location.line) :
    verdict (.error ⟨cause, loc⟩) ≠ verdict outcome := by
  intro hsame
  cases outcome with
  | ok => cases hsame
  | error fault =>
    obtain ⟨hcause, hline⟩ : cause = fault.cause ∧ loc.line = fault.location.line :=
      Prod.mk.inj (Except.error.inj hsame)
    exact Nat.ne_of_lt (h fault rfl hcause.symm) hline

/-- Behind a line feed everything is further down. -/
theorem line_lt_of_newline {chars : List Char} (hchars : '\n' ∈ chars) {loc place : Location}
    (h : (loc.advanceAll chars).line ≤ place.line) : loc.line < place.line := by
  have hcount := List.count_pos_iff.2 hchars
  rw [Location.line_advanceAll] at h
  omega

/-- **With carriage returns the checker says the same, exactly if it gets past no string and no
regular expression that spans lines.** -/
theorem verdict_checkFrom_crlf_iff {text text' : List Char} (h : EndsLike text text')
    {stack stack' : List (Opener × Location)} {loc loc' : Location}
    (hstack : outline stack' = outline stack) (hloc : loc'.line = loc.line)
    (previous : Option Char) :
    verdict (checkFrom stack' previous loc' text') = verdict (checkFrom stack previous loc text) ↔
      ∀ lexeme ∈ lexemesFrom stack previous loc text, ¬ lexeme.SpansLines := by
  match text with
  | [] =>
    obtain rfl : text' = [] := by
      rcases h with h | ⟨tail, h, -⟩
      · exact h
      · contradiction
    rw [lexemesFrom_nil]
    exact iff_of_true (verdict_checkFrom_nil hstack previous previous loc loc') nofun
  | c :: text =>
    by_cases hc : c = '\n'
    · -- A line end of either kind is blank.
      subst hc
      have hblank :
          react stack loc '\n' (readPiece (inSubstitution stack) previous '\n' text).piece =
          .ok stack := by
        rw [readPiece_blank (by decide)]
        rfl
      have hnext (loc'' : Location) (hline : loc''.line = loc.line) :
          verdict (checkFrom stack' previous loc'' ('\n' :: crlf text)) =
              verdict (checkFrom stack previous loc ('\n' :: text)) ↔
            ∀ lexeme ∈ lexemesFrom stack previous loc ('\n' :: text), ¬ lexeme.SpansLines := by
        rw [checkFrom_blank (by decide), checkFrom_blank (by decide), lexemesFrom_cons hblank,
          readPiece_blank (by decide), List.forall_mem_cons]
        have hrest := @verdict_checkFrom_crlf_iff text (crlf text) (.inl rfl) stack stack'
          (loc.advanceAll ['\n'])
          (loc''.advanceAll ['\n']) hstack
            (by rw [Location.line_advanceAll, Location.line_advanceAll, hline]) previous
        refine hrest.trans (iff_and_self.2 fun _ => ?_)
        rintro ⟨hpiece | hpiece, -⟩ <;> cases hpiece
      rcases h with rfl | ⟨tail, htail, rfl⟩
      · rw [crlf_newline, checkFrom_blank (by decide)]
        exact hnext _ (by rw [Location.line_advanceAll, hloc]; rfl)
      · obtain rfl := (List.cons.inj htail).2
        exact hnext loc' hloc
    · obtain rfl : text' = c :: crlf text := by
        rcases h with h | ⟨tail, h, -⟩
        · rw [h, crlf_cons hc]
        · exact absurd (List.cons.inj h).1 hc
      have happend := readPiece_append (inSubstitution stack) previous c text
      have happend' := readPiece_append (inSubstitution stack) previous c (crlf text)
      have hshorter := readPiece_rest_le (inSubstitution stack) previous c text
      have hread := readPiece_crlf (inSubstitution stack) previous hc text
      rw [checkFrom_cons stack, checkFrom_cons stack', inSubstitution_congr hstack]
      cases hread with
      | same hpiece hspans hrest =>
        have hturn :=
          react_congr hstack hloc c (readPiece (inSubstitution stack) previous c text).piece
        rw [hpiece]
        generalize react stack' loc' c (readPiece (inSubstitution stack) previous c text).piece =
          outcome' at hturn ⊢
        cases hreact :
          react stack loc c (readPiece (inSubstitution stack) previous c text).piece with
        | error fault =>
          rw [hreact] at hturn
          rw [lexemesFrom_cons_of_error hreact]
          cases hturn with
          | fails hreport => exact iff_of_true (congrArg Except.error hreport) nofun
        | ok next =>
          rw [hreact] at hturn
          rw [lexemesFrom_cons hreact, List.forall_mem_cons]
          have hlike := hrest (ended_of_react hreact)
          cases hturn with
          | goesOn hnext =>
            -- The pieces have as many line feeds, since the texts do and the rests do.
            have hlines :
              (loc'.advanceAll (readPiece (inSubstitution stack) previous c
              (crlf text)).chars).line =
                (loc.advanceAll (readPiece (inSubstitution stack) previous c text).chars).line := by
              have hcount := congrArg (List.count '\n') happend
              have hcount' := congrArg (List.count '\n') happend'
              have hrests := hlike.count_newline
              rw [List.count_append, List.count_cons_of_ne hc] at hcount hcount'
              rw [count_crlf] at hcount'
              rw [Location.line_advanceAll, Location.line_advanceAll]
              omega
            have hbehind := verdict_checkFrom_crlf_iff hlike hnext hlines
              (previousAfter previous c (readPiece (inSubstitution stack) previous c text).piece)
            exact hbehind.trans (iff_and_self.2 fun _ => hspans)
      | @broken kind hkind hpiece hline hpiece' =>
        -- With carriage returns the literal is refused. Without them it is not, and what follows it
        -- is further down.
        have hpast : react stack loc c (readPiece (inSubstitution stack) previous c text).piece =
            .ok stack := by
          rw [hpiece]
          rcases hkind with rfl | rfl <;> rfl
        have hspans : ¬ ∀ lexeme ∈ lexemesFrom stack previous loc (c :: text),
            ¬ lexeme.SpansLines := by
          rw [lexemesFrom_cons hpast, List.forall_mem_cons]
          refine fun hall => hall.1 ⟨?_, hline⟩
          rcases hkind with rfl | rfl
          · exact .inl hpiece
          · exact .inr hpiece
        refine iff_of_false ?_ hspans
        rw [hpast, hpiece']
        rcases hkind with rfl | rfl
        · exact verdict_ne_of_below fun fault hfault hcause =>
            hloc ▸ line_lt_of_newline hline (line_le_of_checkFrom hfault (.inl hcause))
        · exact verdict_ne_of_below fun fault hfault hcause =>
            hloc ▸ line_lt_of_newline hline (line_le_of_checkFrom hfault (.inr hcause))
termination_by text.length
decreasing_by all_goals (simp only [List.length_cons]; omega)

end Script

end Triptych
