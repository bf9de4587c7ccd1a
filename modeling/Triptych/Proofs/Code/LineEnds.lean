import Triptych.Proofs.Script.LineEnds
import Triptych.Proofs.Stylesheet.Faults

/-!
# Line ends of stylesheets and scripts

What carriage returns before line feeds do to a script is also what they do to a stylesheet: they
break the strings that go on behind a backslash and a line feed, and nothing else. To the checker of
stylesheets a carriage return in the code is a character that is no bracket, and in a comment one
that does not end it.

`Passes` says which tokens of a stylesheet the checker gets past. With carriage returns it says the
same about a stylesheet exactly if none of them is a string with a line feed in it
(`verdict_checkFrom_crlf_iff`); `verdict_crlf_iff` says so of both checkers.
-/

namespace Triptych

open Text Code

namespace Stylesheet

/-! ### Tokens that the checker gets past -/

/-- **The checker gets past a token**: it is the first one of the text and does not close what is
not open, or it comes later. -/
inductive Passes : List (Char × Location) → Location → List Char → Token → Prop
  | here {stack stack' : List (Char × Location)} {loc : Location} {text rest : List Char}
      {token : Token} :
      StartsWith text token rest → token.openAfter loc stack = some stack' →
        Passes stack loc text token
  | later {stack stack' : List (Char × Location)} {loc : Location} {text rest : List Char}
      {token other : Token} :
      StartsWith text token rest → token.openAfter loc stack = some stack' →
      Passes stack' (loc.advanceAll token.chars) rest other → Passes stack loc text other

/-- A text starts with one token. -/
theorem StartsWith.unique {text rest rest' : List Char} {token token' : Token}
    (h : StartsWith text token rest) (h' : StartsWith text token' rest') :
    token = token' ∧ rest = rest' := by
  have hslash {mark : Char} (hmark : isQuote mark = true) : '/' ≠ mark :=
    Ne.symm (ne_slash_of_isQuote hmark)
  cases h with
  | @comment body _ hbody =>
    -- Both tokens start the same text, so each pair of kinds is compared at its first characters.
    generalize htext : '/' :: '*' :: (body ++ '*' :: '/' :: rest) = text at h'
    cases h' with
    | @comment body' _ hbody' =>
      -- Two comments, or two strings, are read by the same scan of the text.
      have hread := scanBlockComment_of_endsFirst (endsFirst_iff.2 hbody) rest
      rw [(List.cons.inj (List.cons.inj htext).2).2, scanBlockComment_of_endsFirst
        (endsFirst_iff.2 hbody'), Scan.mk.injEq] at hread
      obtain ⟨-, hsame, rfl⟩ := hread
      exact ⟨by rw [List.append_cancel_right hsame], rfl⟩
    | string hmark => exact absurd (List.cons.inj htext).1 (hslash hmark)
    | char _ hcomment =>
      obtain ⟨rfl, rfl⟩ := List.cons.inj htext
      -- A slash that is code is not followed by a star.
      exact absurd rfl (hcomment rfl)
  | @string mark body _ hmark hbody =>
    generalize htext : mark :: (body ++ mark :: rest) = text at h'
    cases h' with
    | comment => exact absurd (List.cons.inj htext).1.symm (hslash hmark)
    | @string mark' body' _ hmark' hbody' =>
      obtain ⟨rfl, htail⟩ := List.cons.inj htext
      -- The quotes are the same character, so the scans are the same.
      have hread := scanString_of_isQuote hmark hbody rest
      rw [htail, scanString_of_isQuote hmark hbody', Scan.mk.injEq] at hread
      obtain ⟨-, hsame, rfl⟩ := hread
      exact ⟨by rw [List.append_cancel_right hsame], rfl⟩
    | char hquote =>
      obtain ⟨rfl, -⟩ := List.cons.inj htext
      cases hmark.symm.trans hquote
  | @char c _ hquote hcomment =>
    generalize htext : c :: rest = text at h'
    cases h' with
    | comment =>
      obtain ⟨rfl, rfl⟩ := List.cons.inj htext
      exact absurd rfl (hcomment rfl)
    | string hmark =>
      obtain ⟨rfl, -⟩ := List.cons.inj htext
      cases hmark.symm.trans hquote
    | char =>
      obtain ⟨rfl, rfl⟩ := List.cons.inj htext
      exact ⟨rfl, rfl⟩

/-- Behind the first token: it is that token, or one that comes later. -/
theorem passes_iff {stack stack' : List (Char × Location)} {loc : Location} {text rest : List Char}
    {token other : Token} (hstarts : StartsWith text token rest)
    (hopen : token.openAfter loc stack = some stack') :
    Passes stack loc text other ↔ other = token ∨
      Passes stack' (loc.advanceAll token.chars) rest other := by
  constructor
  · intro h
    cases h with
    | here hstarts' => exact .inl (hstarts'.unique hstarts).1
    | later hstarts' hopen' h =>
      obtain ⟨rfl, rfl⟩ := hstarts'.unique hstarts
      obtain rfl := Option.some.inj (hopen'.symm.trans hopen)
      exact .inr h
  · rintro (rfl | h)
    · exact .here hstarts hopen
    · exact .later hstarts hopen h

/-- Where there is no token, or one that closes what is not open, the checker gets past nothing. -/
theorem not_passes {stack : List (Char × Location)} {loc : Location} {text : List Char}
    (h : ∀ token rest, StartsWith text token rest → token.openAfter loc stack = none)
    (other : Token) :
    ¬ Passes stack loc text other := by
  intro hpasses
  cases hpasses with
  | here hstarts hopen | later hstarts hopen =>
    rw [h _ _ hstarts] at hopen
    contradiction

/-! ### A step on the same line with the same brackets open -/

/-- Open brackets, each with its line. -/
def outline (stack : List (Char × Location)) : List (Char × Nat) :=
  stack.map fun entry => (entry.1, entry.2.line)

/-- The outline of what is open behind a character depends on the outline before it alone. -/
theorem outline_openAfter {stack stack' : List (Char × Location)} {loc loc' : Location}
    (hstack : outline stack' = outline stack) (hloc : loc'.line = loc.line) (c : Char) :
    (openAfter c loc' stack').map outline = (openAfter c loc stack).map outline := by
  unfold openAfter
  split
  next => exact congrArg some (by rw [outline, List.map_cons, hloc]; exact congrArg _ hstack)
  next =>
    -- What closes is compared with the top of the stack by its kind, which the outline tells.
    cases openerOf? c with
    | none => exact congrArg some hstack
    | some opener =>
      match stack, stack' with
      | [], [] => rfl
      | [], _ :: _ | _ :: _, [] => contradiction
      | (top, _) :: stack, (top', _) :: stack' =>
        obtain ⟨htop, hrest⟩ := List.cons.inj hstack
        obtain rfl : top' = top := (Prod.mk.inj htop).1
        dsimp only
        split
        · exact congrArg some hrest
        · rfl

/-- At the end a stylesheet is judged by the outline of what is open. -/
theorem verdict_checkFrom_nil {stack stack' : List (Char × Location)}
    (hstack : outline stack' = outline stack) (loc loc' : Location) :
    Script.verdict (checkFrom stack' loc' []) = Script.verdict (checkFrom stack loc []) := by
  rw [checkFrom.eq_def, checkFrom.eq_def]
  match stack, stack' with
  | [], [] => rfl
  | [], _ :: _ | _ :: _, [] => contradiction
  | (top, place) :: stack, (top', place') :: stack' =>
    obtain ⟨rfl, hplace⟩ : top' = top ∧ place'.line = place.line :=
      Prod.mk.inj (List.cons.inj hstack).1
    exact congrArg Except.error (Script.lineReport_congr _ hplace)

/-- **A string that does not end is not found further up than the checker stands.** -/
theorem line_le_of_checkFrom {stack : List (Char × Location)} {loc : Location} {text : List Char}
    {fault : Fault} (h : checkFrom stack loc text = .error fault)
    (hcause : fault.cause = .unterminatedString) :
    loc.line ≤ fault.location.line := by
  have hhere {cause : Cause} (hfault : (.error ⟨cause, loc⟩ : Except Fault Unit) = .error fault) :
      loc.line ≤ fault.location.line := by
    exact Nat.le_of_eq (congrArg (·.location.line) (Except.error.inj hfault))
  have hbelow {next : List (Char × Location)} {chars rest : List Char}
    (hshorter : rest.length < text.length)
      (hrest : checkFrom next (loc.advanceAll chars) rest = .error fault) :
          loc.line ≤ fault.location.line := by
    have hline := line_le_of_checkFrom hrest hcause
    rw [Location.line_advanceAll] at hline
    exact Nat.le_trans (Nat.le_add_right _ _) hline
  match text with
  | [] =>
    rw [checkFrom.eq_def] at h
    match stack with
    | [] => contradiction
    | (_, _) :: _ =>
      -- What stays open is no string.
      obtain rfl := Except.error.inj h
      contradiction
  | c :: text =>
    by_cases hcomment : c = '/' ∧ text.head? = some '*'
    · obtain ⟨rfl, hhead⟩ := hcomment
      obtain ⟨tail, rfl⟩ := List.head?_eq_some_iff.1 hhead
      have hshorter := scanBlockComment_rest_le tail
      rw [checkFrom_comment] at h
      split at h
      · exact hbelow (by simp only [List.length_cons]; omega) h
      · exact hhere h
    · cases hquote : isQuote c with
      | true =>
        rw [checkFrom_string hquote] at h
        split at h
        · exact hbelow (Nat.lt_succ_of_le (scanString_rest_le c text)) h
        · exact hhere h
      | false =>
        rw [checkFrom_code hquote (not_and.1 hcomment)] at h
        cases hopen : openAfter c loc stack with
        | none =>
          rw [hopen] at h
          exact hhere h
        | some next =>
          rw [hopen] at h
          exact @hbelow next [c] text (Nat.lt_succ_self _) h
termination_by text.length
decreasing_by exact hshorter

/-! ### The whole stylesheet -/

/-- A text that starts with a string, or with a comment, has the end of it. -/
theorem StartsWith.ended_of_string {mark : Char} {text rest : List Char} {token : Token}
    (h : StartsWith (mark :: text) token rest) (hmark : isQuote mark = true) :
    (scanString mark text).ended = true := by
  cases h with
  | comment => exact absurd hmark (by decide)
  | string _ hbody => rw [scanString_of_isQuote hmark hbody]
  | char hquote => cases hmark.symm.trans hquote

theorem StartsWith.ended_of_comment {text rest : List Char} {token : Token}
    (h : StartsWith ('/' :: '*' :: text) token rest) : (scanBlockComment text).ended = true := by
  generalize htext : '/' :: '*' :: text = whole at h
  cases h with
  | comment hbody =>
    rw [(List.cons.inj (List.cons.inj htext).2).2, scanBlockComment_of_endsFirst
      (endsFirst_iff.2 hbody)]
  | string hmark => exact absurd (List.cons.inj htext).1.symm (ne_slash_of_isQuote hmark)
  | char _ hcomment =>
    obtain ⟨rfl, rfl⟩ := List.cons.inj htext
    exact absurd rfl (hcomment rfl)

/-- **The first turn of the checker with carriage returns**, where `stack'` is open at `loc'`,
beside the turn without them: both get past the same token, or both stop, or a string spans lines
and is broken. -/
inductive CrlfTurn (stack stack' : List (Char × Location)) (loc loc' : Location)
    (text : List Char) : Prop
  | goesOn {token : Token} {rest chars : List Char} {next next' : List (Char × Location)} :
      StartsWith text token rest → (∀ mark body, token = .string mark body → '\n' ∉ body) →
      token.openAfter loc stack = some next → outline next' = outline next →
      chars ++ crlf rest = crlf text →
      checkFrom stack' loc' (crlf text) = checkFrom next' (loc'.advanceAll chars) (crlf rest) →
      CrlfTurn stack stack' loc loc' text
  | stops : (∀ token rest, StartsWith text token rest → token.openAfter loc stack = none) →
      Script.verdict (checkFrom stack' loc' (crlf text)) =
        Script.verdict (checkFrom stack loc text) →
      CrlfTurn stack stack' loc loc' text
  | broken {mark : Char} {body rest : List Char} : StartsWith text (.string mark body) rest →
      '\n' ∈ body →
      checkFrom stack' loc' (crlf text) = .error ⟨.unterminatedString, loc'⟩ →
      CrlfTurn stack stack' loc loc' text

section Turn

variable {stack stack' : List (Char × Location)} {loc loc' : Location}

/-- **Every turn is one of the three**: a comment goes on over line ends. -/
theorem crlfTurn_comment (hstack : outline stack' = outline stack) (hloc : loc'.line = loc.line)
    (text : List Char) :
    CrlfTurn stack stack' loc loc' ('/' :: '*' :: text) := by
  obtain ⟨hended, hrest⟩ := Script.scanBlockComment_crlf text
  have hlong : crlf ('/' :: '*' :: text) = '/' :: '*' :: crlf text := by
    rw [crlf_cons (by decide), crlf_cons (by decide)]
  cases hends : (scanBlockComment text).ended with
  | false =>
    -- Open in one text, open in the other: no token starts here, and both checkers report it.
    rw [hends] at hended
    refine .stops (fun token rest h => ?_) ?_
    · cases h.ended_of_comment.symm.trans hends
    · rw [hlong, checkFrom_comment, checkFrom_comment, hended, hends]
      exact congrArg Except.error (Script.lineReport_congr _ hloc)
  | true =>
    -- The comment ends in both texts, at the same mark.
    obtain ⟨body, hstarts⟩ := exists_startsWith_comment hends
    have happend := scanBlockComment_append (crlf text)
    have hcheck := checkFrom_comment stack' loc' (crlf text)
    rw [hrest] at happend
    rw [hended, hends, if_pos rfl, hrest, ← hlong] at hcheck
    exact .goesOn hstarts nofun rfl hstack
      (by rw [hlong, List.cons_append, List.cons_append, happend]) hcheck

/-- A string may be broken; if it is not, it spans no lines or does not end in either text. -/
theorem crlfTurn_string {mark : Char} (hmark : isQuote mark = true)
    (hstack : outline stack' = outline stack) (hloc : loc'.line = loc.line) (text : List Char) :
    CrlfTurn stack stack' loc loc' (mark :: text) := by
  have hne : mark ≠ '\n' := by
    rintro rfl
    exact absurd hmark (by decide)
  obtain ⟨hended, hrest⟩ := Script.breaks_scanString (not_isBlank_of_isQuote hmark) text
  have happend := scanString_append mark (crlf text)
  have hcheck := checkFrom_string hmark stack' loc' (crlf text)
  rw [← crlf_cons hne] at hcheck
  cases hends : (scanString mark text).ended with
  | false =>
    -- A string that does not end with line feeds does not end with carriage returns before them.
    have hends' : (scanString mark (crlf text)).ended = false := by
      rw [← Bool.not_eq_true, hended, hends]
      exact fun h => Bool.false_ne_true h.1
    refine .stops (fun token rest h => ?_) ?_
    · cases (h.ended_of_string hmark).symm.trans hends
    · rw [hcheck, checkFrom_string hmark, hends', hends]
      exact congrArg Except.error (Script.lineReport_congr _ hloc)
  | true =>
    obtain ⟨body, hread, hstarts⟩ := exists_startsWith_string hmark hends
    -- The end mark is no line feed, so the body decides whether the string spans lines.
    have hbody : '\n' ∈ (scanString mark text).read ↔ '\n' ∈ body := by
      rw [hread, List.mem_append, List.mem_singleton, or_iff_left (Ne.symm hne)]
    rw [hends, hbody] at hended
    -- Over two lines it breaks at the line feed; in one line it is the same in both texts.
    by_cases hline : '\n' ∈ body
    · have hends' : (scanString mark (crlf text)).ended = false := by
        rw [← Bool.not_eq_true, hended]
        exact fun h => h.2 hline
      rw [hends'] at hcheck
      exact .broken hstarts hline hcheck
    · have hends' := hended.2 ⟨rfl, hline⟩
      rw [hends', if_pos rfl, hrest hends'] at hcheck
      rw [hrest hends'] at happend
      refine .goesOn hstarts ?_ rfl hstack (by rw [crlf_cons hne, List.cons_append, happend]) hcheck
      rintro _ _ ⟨⟩
      exact hline

/-- A character of code is the same one in both texts, and a line feed only has a blank put before
it. -/
theorem crlfTurn_code {c : Char} {text : List Char} (hquote : isQuote c = false)
    (hcomment : c = '/' → text.head? ≠ some '*') (hstack : outline stack' = outline stack)
    (hloc : loc'.line = loc.line) :
    CrlfTurn stack stack' loc loc' (c :: text) := by
  have hstarts : StartsWith (c :: text) (.char c) text := .char hquote hcomment
  by_cases hc : c = '\n'
  · -- A line end of either kind is no bracket.
    subst hc
    refine @CrlfTurn.goesOn _ _ _ _ _ _ _ ['\r', '\n'] _ _ hstarts nofun rfl hstack rfl ?_
    rw [crlf_newline, checkFrom_code rfl fun h => absurd h (by decide)]
    exact checkFrom_code rfl (fun h => absurd h (by decide)) _ _
  have hcheck :=
    checkFrom_code hquote (fun hslash => mt (head?_crlf (by decide) text).1 (hcomment hslash))
    stack' loc'
  -- Both characters do the same to the brackets that are open, wherever these stand.
  have hturn := outline_openAfter hstack hloc c
  rw [← crlf_cons hc] at hcheck
  cases hopen : openAfter c loc stack with
  | none =>
    rw [hopen, Option.map_none, Option.map_eq_none_iff] at hturn
    refine .stops (fun token rest h => ?_) ?_
    · rw [(h.unique hstarts).1]
      exact hopen
    · rw [hcheck, checkFrom_code hquote hcomment, hopen, hturn]
      exact congrArg Except.error (Script.lineReport_congr _ hloc)
  | some next =>
    rw [hopen, Option.map_some, Option.map_eq_some_iff] at hturn
    obtain ⟨next', hopen', houtline⟩ := hturn
    rw [hopen', Option.elim_some] at hcheck
    exact @CrlfTurn.goesOn _ _ _ _ _ _ _ [c] _ _ hstarts nofun hopen houtline
      (by rw [crlf_cons hc]; rfl) hcheck

/-- Every text starts in one of these ways. -/
theorem crlfTurn (hstack : outline stack' = outline stack) (hloc : loc'.line = loc.line)
    (text : List Char) :
    CrlfTurn stack stack' loc loc' text := by
  cases text with
  | nil => exact .stops (fun _ _ h => nomatch h) (verdict_checkFrom_nil hstack loc loc')
  | cons c text =>
    by_cases hcomment : c = '/' ∧ text.head? = some '*'
    · obtain ⟨rfl, hhead⟩ := hcomment
      obtain ⟨tail, rfl⟩ := List.head?_eq_some_iff.1 hhead
      exact crlfTurn_comment hstack hloc tail
    · cases hquote : isQuote c with
      | true => exact crlfTurn_string hquote hstack hloc text
      | false => exact crlfTurn_code hquote (not_and.1 hcomment) hstack hloc

end Turn

/-- **With carriage returns the checker says the same, exactly if it gets past no string that spans
lines.** -/
theorem verdict_checkFrom_crlf_iff {stack stack' : List (Char × Location)} {loc loc' : Location}
    (hstack : outline stack' = outline stack) (hloc : loc'.line = loc.line) (text : List Char) :
    Script.verdict (checkFrom stack' loc' (crlf text)) = Script.verdict (checkFrom stack loc text) ↔
      ∀ mark body, Passes stack loc text (.string mark body) → '\n' ∉ body := by
  cases crlfTurn hstack hloc text with
  | stops hstops hsame =>
    exact iff_of_true hsame fun _ _ hpasses => (not_passes hstops _ hpasses).elim
  | @broken mark body rest hstarts hline hcheck =>
    -- With carriage returns the string is refused. Without them it is not, and what follows it is
    -- further down.
    refine iff_of_false ?_ fun hall => hall mark body (.here hstarts rfl) hline
    rw [hcheck, hstarts.checkFrom_eq rfl]
    exact Script.verdict_ne_of_below fun fault hfault hcause => hloc ▸
      Script.line_lt_of_newline (List.mem_cons_of_mem _ (List.mem_append_left _ hline))
        (line_le_of_checkFrom hfault hcause)
  | @goesOn token rest chars next next' hstarts htoken hopen houtline happend hcheck =>
    -- The tokens have as many line feeds, since the texts do and the rests do.
    have hlines : (loc'.advanceAll chars).line = (loc.advanceAll token.chars).line := by
      have hcount := congrArg (List.count '\n') hstarts.append_eq
      have hcount' := congrArg (List.count '\n') happend
      rw [List.count_append] at hcount hcount'
      rw [count_crlf, count_crlf] at hcount'
      rw [Location.line_advanceAll, Location.line_advanceAll]
      omega
    have hshorter := hstarts.length_lt
    have hrest := verdict_checkFrom_crlf_iff houtline hlines rest
    rw [hcheck, hstarts.checkFrom_eq hopen, hrest]
    refine forall_congr' fun mark => forall_congr' fun body => ?_
    rw [passes_iff hstarts hopen, or_imp]
    exact (and_iff_right fun h => htoken mark body h.symm).symm
termination_by text.length
decreasing_by exact hshorter

end Stylesheet

/-! ### Both checkers -/

/-- **Line ends matter inside strings and regular expressions only.** With a carriage return before
each line feed the checker of scripts says the same, what is wrong and on which line, exactly if it
gets past no string and no regular expression that goes on in the next line, and the checker of
stylesheets says the same exactly if it gets past no such string. -/
theorem verdict_crlf_iff (source : List Char) :
    (Script.verdict (Script.check (crlf source)) = Script.verdict (Script.check source) ↔
      ∀ lexeme ∈ Script.lexemes source, ¬ lexeme.SpansLines) ∧
    (Script.verdict (Stylesheet.check (crlf source)) = Script.verdict (Stylesheet.check source) ↔
      ∀ mark body, Stylesheet.Passes [] {} source (.string mark body) → '\n' ∉ body) := by
  refine ⟨Script.verdict_checkFrom_crlf_iff (.inl rfl) rfl rfl none, ?_⟩
  rw [Stylesheet.check_eq_checkFrom, Stylesheet.check_eq_checkFrom]
  exact Stylesheet.verdict_checkFrom_crlf_iff rfl rfl source

/-- A string that goes on in the next line is in order with line feeds and refused with carriage
returns before them, in a script and in a stylesheet. -/
theorem crlf_breaks_continued_string :
    ¬ (∀ source, '\r' ∉ source →
      Script.verdict (Script.check (crlf source)) = Script.verdict (Script.check source)) ∧
    ¬ (∀ source, '\r' ∉ source →
      Script.verdict (Stylesheet.check (crlf source)) =
        Script.verdict (Stylesheet.check source)) := by
  -- Both checkers take the line feed along with the backslash, but only the carriage return of the
  -- pair.
  have hscript : Script.check ['\'', '\\', '\n', '\''] = .ok () := by
    rw [Script.check, Script.checkFrom_cons]
    exact Script.checkFrom.eq_def ..
  have hscript' : Script.check (crlf ['\'', '\\', '\n', '\'']) =
      .error ⟨.unterminatedString, ⟨1, 1⟩⟩ := by
    exact Script.checkFrom_cons ..
  have hsheet : Stylesheet.check ['\'', '\\', '\n', '\''] = .ok () := by
    rw [Stylesheet.check_eq_checkFrom, Stylesheet.checkFrom_string rfl]
    exact Stylesheet.checkFrom.eq_def ..
  have hsheet' : Stylesheet.check (crlf ['\'', '\\', '\n', '\'']) =
      .error ⟨.unterminatedString, ⟨1, 1⟩⟩ := by
    rw [Stylesheet.check_eq_checkFrom]
    exact Stylesheet.checkFrom_string rfl ..
  refine ⟨fun h => ?_, fun h => ?_⟩
  · have hsame := h ['\'', '\\', '\n', '\''] (by decide)
    rw [hscript, hscript'] at hsame
    cases hsame
  · have hsame := h ['\'', '\\', '\n', '\''] (by decide)
    rw [hsheet, hsheet'] at hsame
    cases hsame

end Triptych
