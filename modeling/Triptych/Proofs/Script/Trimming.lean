import Triptych.Proofs.Script.Injection

/-!
# Scripts without the blanks around them

A script is checked as it stands and passed on without the blanks around it, with a line feed at its
end. What is passed on would be accepted as well (`check_trim`).

Blanks before a script are skipped. Those after it can only belong to a line comment, since every
other comment and every literal that ends does so in a visible character and is read without a look
at what comes later (`endsVisibly_scanString` and its siblings). So the checker goes through both
texts piece by piece alike, until a line comment ends sooner in the one than in the other; there is
nothing but blanks left then. It may stand at another place by that time, but places decide nothing
about what is accepted (`react_sameKinds`).
-/

namespace Triptych.Script

open Text Code

/-! ### Literals end in a visible character -/

/-- What `scan` reads to its end, it reads whatever comes later, and the last character is
visible. -/
def EndsVisibly (scan : List Char → Scan) (text : List Char) : Prop :=
  (scan text).ended = true → ∃ body last, isBlank last = false ∧ (scan text).read = body ++ [last] ∧
    ∀ more, (body ++ last :: more).head? = text.head? ∧
    scan (body ++ last :: more) = ⟨true, body ++ [last], more⟩

section EndsVisibly

variable {scan scan' : List Char → Scan} {text : List Char}

/-- A scan that does not end, that stops at a character, and that goes on behind some. -/
theorem endsVisibly_of_not_ended (h : (scan text).ended = false) : EndsVisibly scan text := by
  intro hended
  rw [h] at hended
  contradiction

theorem endsVisibly_of_stop (body : List Char) {last : Char} (hlast : isBlank last = false)
    (hscan : ∀ tail, scan (body ++ last :: tail) = ⟨true, body ++ [last], tail⟩) :
    EndsVisibly scan (body ++ last :: text) := by
  intro _
  refine ⟨body, last, hlast, by rw [hscan], fun more => ⟨?_, hscan more⟩⟩
  cases body <;> rfl

theorem endsVisibly_of_after (c : Char) (run : List Char)
    (hscan : ∀ tail, tail.head? = text.head? → scan (c :: (run ++ tail)) =
      (scan' tail).after (c :: run))
    (h : EndsVisibly scan' text) : EndsVisibly scan (c :: (run ++ text)) := by
  intro hended
  rw [hscan text rfl] at hended ⊢
  obtain ⟨body, last, hlast, hread, hmore⟩ := h hended
  refine ⟨c :: run ++ body, last, hlast, ?_, fun more => ⟨rfl, ?_⟩⟩
  · rw [Scan.after, hread, List.append_assoc]
  · -- What comes next after `c` is the same in both texts.
    obtain ⟨hhead, hbody⟩ := hmore more
    have hlong := hscan _ hhead
    rw [hbody] at hlong
    rw [List.append_assoc, List.append_assoc]
    exact hlong

end EndsVisibly

/-- **A literal ends in a character that can be seen**, so it does not lose its end where a script
loses the blanks behind it. -/
theorem endsVisibly_scanString {mark : Char} (hmark : isBlank mark = false) (text : List Char) :
    EndsVisibly (scanString mark) text := by
  induction text using escapeInduction with
  | nil => exact endsVisibly_of_not_ended rfl
  | lone => exact endsVisibly_of_not_ended rfl
  | escape c text ih => exact endsVisibly_of_after '\\' [c] (fun tail _ => by simp [scanString]) ih
  | char c text hc ih =>
    have hchar := @scanString_char mark c hc
    by_cases hline : c = '\n'
    · exact endsVisibly_of_not_ended (by rw [hchar, if_pos hline])
    by_cases hend : c = mark
    · refine endsVisibly_of_stop [] (hend ▸ hmark) fun tail => ?_
      rw [List.nil_append, hchar, if_neg hline, if_pos hend]
      rfl
    · refine endsVisibly_of_after c [] (fun tail _ => ?_) ih
      rw [List.nil_append, hchar, if_neg hline, if_neg hend]

theorem endsVisibly_scanRegex (inClass : Bool) (text : List Char) :
    EndsVisibly (scanRegex inClass) text := by
  induction text using escapeInduction generalizing inClass with
  | nil => exact endsVisibly_of_not_ended rfl
  | lone => exact endsVisibly_of_not_ended rfl
  | escape c text ih =>
    exact endsVisibly_of_after '\\' [c] (fun tail _ => by simp [scanRegex]) (ih inClass)
  | char c text hc ih =>
    have hchar := @scanRegex_char inClass c hc
    by_cases hopen : c = '['
    · refine endsVisibly_of_after c [] (fun tail _ => ?_) (ih true)
      rw [List.nil_append, hchar, if_pos hopen]
    by_cases hclose : c = ']'
    · refine endsVisibly_of_after c [] (fun tail _ => ?_) (ih false)
      rw [List.nil_append, hchar, if_neg hopen, if_pos hclose]
    by_cases hslash : (decide (c = '/') && !inClass) = true
    · -- The expression ends at its slash, which is visible; a line feed would not have ended it.
      have hc : c = '/' := by simpa using (Bool.and_eq_true_iff.1 hslash).1
      refine endsVisibly_of_stop [] (by rw [hc]; decide) fun tail => ?_
      rw [List.nil_append, hchar, if_neg hopen, if_neg hclose, if_pos hslash]
      rfl
    by_cases hline : c = '\n'
    · refine endsVisibly_of_not_ended ?_
      rw [hchar, if_neg hopen, if_neg hclose, if_neg hslash, if_pos hline]
    · refine endsVisibly_of_after c [] (fun tail _ => ?_) (ih inClass)
      rw [List.nil_append, hchar, if_neg hopen, if_neg hclose, if_neg hslash, if_neg hline]

theorem endsVisibly_scanBlockComment (text : List Char) : EndsVisibly scanBlockComment text := by
  induction text with
  | nil => exact endsVisibly_of_not_ended rfl
  | cons c text ih =>
    by_cases hend : c = '*' ∧ text.head? = some '/'
    · obtain ⟨rfl, hhead⟩ := hend
      obtain ⟨tail, rfl⟩ := List.head?_eq_some_iff.1 hhead
      exact endsVisibly_of_stop ['*'] (by decide) scanBlockComment_end
    · rw [not_and] at hend
      refine endsVisibly_of_after c [] (fun tail htail => ?_) ih
      exact scanBlockComment_char fun hc => htail ▸ hend hc

/-- The pieces of a template literal end in a backtick or a brace. -/
theorem endsVisibly_scanTemplate {text : List Char} (h : (scanTemplate text).ending ≠ .missing) :
    ∃ body last, isBlank last = false ∧ (scanTemplate text).read = body ++ [last] ∧
      ∀ more, (body ++ last :: more).head? = text.head? ∧
        scanTemplate (body ++ last :: more) =
          ⟨(scanTemplate text).ending, body ++ [last], more⟩ := by
  induction text using escapeInduction with
  | nil => exact absurd rfl h
  | lone => exact absurd rfl h
  | escape c text ih =>
    rw [scanTemplate] at h ⊢
    obtain ⟨body, last, hlast, hread, hmore⟩ := ih h
    refine ⟨'\\' :: c :: body, last,
      hlast, by rw [TemplateScan.after, hread]; rfl, fun more => ⟨rfl, ?_⟩⟩
    rw [List.cons_append, List.cons_append, scanTemplate, (hmore more).2]
    rfl
  | char c text hc ih =>
    by_cases hopen : c = '$' ∧ text.head? = some '{'
    · obtain ⟨rfl, hhead⟩ := hopen
      obtain ⟨tail, rfl⟩ := List.head?_eq_some_iff.1 hhead
      exact ⟨['$'], '{', by decide, rfl, fun more => ⟨rfl, rfl⟩⟩
    · rw [not_and] at hopen
      rw [scanTemplate_char hc hopen] at h ⊢
      by_cases hclose : c = '`'
      · rw [if_pos hclose, hclose]
        exact ⟨[], '`', by decide, rfl, fun more => ⟨rfl, rfl⟩⟩
      · rw [if_neg hclose] at h ⊢
        obtain ⟨body, last, hlast, hread, hmore⟩ := ih h
        refine ⟨c :: body, last,
          hlast, by rw [TemplateScan.after, hread]; rfl, fun more => ⟨rfl, ?_⟩⟩
        obtain ⟨hhead, hbody⟩ := hmore more
        rw [List.cons_append, scanTemplate_char hc (fun hdollar => hhead ▸ hopen hdollar),
          if_neg hclose, hbody]
        rfl

/-! ### Blanks at the end -/

/-- Blanks at the end are trimmed, and nothing before a visible character is. -/
theorem trimEnd_append_blanks (text : List Char) {blanks : List Char}
    (h : ∀ c ∈ blanks, isBlank c = true) :
    trimEnd (text ++ blanks) = trimEnd text := by
  rw [trimEnd, dropEndWhile, List.reverse_append,
    List.dropWhile_append_of_pos fun c hc => h c (List.mem_reverse.1 hc)]
  rfl

theorem trimEnd_visible (body : List Char) {last : Char} (hlast : isBlank last = false)
    {blanks : List Char} (hblanks : ∀ c ∈ blanks, isBlank c = true) :
    trimEnd (body ++ last :: blanks) = body ++ [last] := by
  have hstops : Stops isBlank (body ++ [last]).reverse := by
    rw [List.reverse_append]
    exact stops_cons hlast _
  rw [List.append_cons, trimEnd_append_blanks _ hblanks, trimEnd, dropEndWhile,
    dropWhile_eq_self_of_stops hstops, List.reverse_reverse]

/-- A text is blank or has a last visible character. -/
theorem blank_or_visible (text : List Char) :
    (∀ c ∈ text, isBlank c = true) ∨
      ∃ body last blanks, text = body ++ last :: blanks ∧ isBlank last = false ∧
        ∀ c ∈ blanks, isBlank c = true := by
  obtain ⟨blanks, hblanks, htext⟩ := exists_trimEnd_append text
  have hstops : Stops isBlank (trimEnd text).reverse := by
    rw [trimEnd, dropEndWhile, List.reverse_reverse]
    exact stops_dropWhile _
  obtain hnil | ⟨body, last, hlast⟩ := List.eq_nil_or_concat (trimEnd text)
  · rw [hnil, List.nil_append] at htext
    exact .inl (htext ▸ hblanks)
  · rw [List.concat_eq_append] at hlast
    rw [hlast, List.reverse_concat] at hstops
    rw [hlast, List.append_assoc] at htext
    exact .inr ⟨body, last, blanks, htext, hstops last rfl, hblanks⟩

/-- Trimming brings no character in. -/
theorem mem_of_mem_trimEnd {text : List Char} {c : Char} (h : c ∈ trimEnd text) : c ∈ text := by
  obtain ⟨blanks, -, htext⟩ := exists_trimEnd_append text
  rw [htext]
  exact List.mem_append_left _ h

/-- True of a piece that comes to an end. -/
def Piece.ended : Piece → Bool
  | .blank | .plain => true
  | .comment ended | .regex ended | .string ended => ended
  | .template ending => ending != .missing

/-- A piece that the checker gets past has ended. -/
theorem ended_of_react {stack next : List (Opener × Location)} {loc : Location} {c : Char}
    {piece : Piece} (h : react stack loc c piece = .ok next) : piece.ended = true := by
  match piece with
  | .blank | .plain | .comment true | .regex true | .string true => rfl
  | .comment false | .regex false | .string false => contradiction
  | .template .closed | .template .substitution => rfl
  | .template .missing =>
    unfold react at h
    dsimp only at h
    split at h <;> contradiction

/-- **The last piece before blanks is read without them**, and the line feed in their place is left.
A line comment may have held some of the blanks. -/
theorem Steps.of_trimEnd {previous : Option Char} {c : Char} {text : List Char} {s : Step}
    (h : Steps previous c text s) (hc : isBlank c = false) (hended : s.piece.ended = true)
    (hrest : ∀ d ∈ s.rest, isBlank d = true) :
    ∃ run s', trimEnd (c :: text) ++ ['\n'] = c :: run ∧ Steps previous c run s' ∧
      s'.piece = s.piece ∧
      s'.rest = ['\n'] := by
  have happend : s.chars ++ s.rest = c :: text := by
    rw [← h.eq_step]
    exact step_append previous c text
  -- Where the piece ends in a visible character, it is all of the text but the blanks.
  have hvisible (body : List Char) {last : Char} (hlast : isBlank last = false)
      (hchars : s.chars = c :: (body ++ [last])) :
      trimEnd (c :: text) ++ ['\n'] = c :: (body ++ last :: ['\n']) := by
    have htext : c :: text = (c :: body) ++ last :: s.rest := by
      rw [← happend, hchars]
      simp
    rw [htext, trimEnd_visible (c :: body) hlast hrest]
    simp
  cases h with
  | blank hblank =>
    rw [hc] at hblank
    contradiction
  | @lineComment text =>
    have hend : Stops isBlank ['/', '/'].reverse := stops_cons (by decide) _
    have htrim : trimEnd ('/' :: '/' :: text) = '/' :: '/' :: trimEnd text := trimEnd_append hend
    -- No line feed is left behind the visible characters of the comment.
    have hline : ∀ d ∈ trimEnd text, (d != '\n') = true := by
      have htext : text.takeWhile (· != '\n') ++ text.dropWhile (· != '\n') = text :=
        List.takeWhile_append_dropWhile
      have hkept := trimEnd_append_blanks (text.takeWhile (· != '\n')) hrest
      rw [htext] at hkept
      rw [hkept]
      exact fun d hd => @of_mem_takeWhile (· != '\n') text d (mem_of_mem_trimEnd hd)
    have hstop : Stops (· != '\n') ['\n'] := stops_cons (by decide) _
    have hcomment := @Steps.lineComment previous (trimEnd text ++ ['\n'])
    rw [takeWhile_append_of_stops hline hstop, dropWhile_append_of_stops hline hstop] at hcomment
    exact ⟨_, _, by rw [htrim]; rfl, hcomment, rfl, rfl⟩
  | @blockComment text =>
    obtain ⟨body, last, hlast, hread, hmore⟩ := endsVisibly_scanBlockComment text hended
    have hcomment := @Steps.blockComment previous (body ++ last :: ['\n'])
    rw [(hmore ['\n']).2] at hcomment
    exact ⟨_, _, hvisible ('*' :: body) hlast (by rw [hread]; rfl), hcomment,
      congrArg Piece.comment hended.symm, rfl⟩
  | regex hno hprevious =>
    obtain ⟨body, last, hlast, hread, hmore⟩ := endsVisibly_scanRegex false text hended
    obtain ⟨hhead, hbody⟩ := hmore ['\n']
    have hregex :=
      @Steps.regex previous (body ++ last :: ['\n']) (by rwa [StartsNoComment, hhead]) hprevious
    rw [hbody] at hregex
    exact ⟨_, _, hvisible body hlast (by rw [hread]), hregex, congrArg Piece.regex hended.symm, rfl⟩
  | string hquote =>
    obtain ⟨body, last, hlast, hread, hmore⟩ := endsVisibly_scanString hc text hended
    have hstring := @Steps.string previous c (body ++ last :: ['\n']) hquote
    rw [(hmore ['\n']).2] at hstring
    exact ⟨_, _, hvisible body hlast (by rw [hread]), hstring, congrArg Piece.string hended.symm,
      rfl⟩
  | template =>
    have hending : (scanTemplate text).ending ≠ .missing := by simpa [Piece.ended] using hended
    obtain ⟨body, last, hlast, hread, hmore⟩ := endsVisibly_scanTemplate hending
    have htemplate := @Steps.template previous (body ++ last :: ['\n'])
    rw [(hmore ['\n']).2] at htemplate
    exact ⟨_, _, hvisible body hlast (by rw [hread]), htemplate, rfl, rfl⟩
  | plain hblank hdouble hsingle hbacktick hslash =>
    have htrim : trimEnd (c :: text) = [c] := trimEnd_visible [] hc hrest
    refine ⟨['\n'],
      _, by rw [htrim]; rfl, .plain hblank hdouble hsingle hbacktick fun hc => ?_, rfl, rfl⟩
    exact ⟨⟨by decide, by decide⟩, (hslash hc).2⟩

/-- The same for a piece of a template literal behind a brace. -/
theorem readPiece_of_trimEnd {resumes : Bool} {previous : Option Char} {c : Char} {text : List Char}
    (hc : isBlank c = false) (hended : (readPiece resumes previous c text).piece.ended = true)
    (hrest : ∀ d ∈ (readPiece resumes previous c text).rest, isBlank d = true) :
    ∃ run, trimEnd (c :: text) ++ ['\n'] = c :: run ∧
      (readPiece resumes previous c run).piece = (readPiece resumes previous c text).piece ∧
      (readPiece resumes previous c run).rest = ['\n'] := by
  unfold readPiece at hended hrest ⊢
  by_cases hresumes : (resumes && c == '}') = true
  · simp only [if_pos hresumes] at hended hrest ⊢
    -- The piece ends in a visible character, so the blanks behind it are all that is trimmed.
    have hending : (scanTemplate text).ending ≠ .missing := by simpa [Piece.ended] using hended
    obtain ⟨body, last, hlast, hread, hmore⟩ := endsVisibly_scanTemplate hending
    have happend := scanTemplate_append text
    rw [hread, List.append_assoc] at happend
    have htext : c :: text = (c :: body) ++ last :: (scanTemplate text).rest :=
      congrArg (c :: ·) happend.symm
    refine ⟨body ++ last :: ['\n'], ?_, by rw [(hmore ['\n']).2], by rw [(hmore ['\n']).2]⟩
    rw [htext, trimEnd_visible (c :: body) hlast hrest]
    simp
  · simp only [if_neg hresumes] at hended hrest ⊢
    obtain ⟨run, s', htrim, hsteps, hpiece, hleft⟩ :=
      (steps_step previous c text).of_trimEnd hc hended hrest
    rw [← hsteps.eq_step] at hpiece hleft
    exact ⟨run, htrim, hpiece, hleft⟩

/-! ### Places do not matter -/

section Kinds

variable {stack stack' next : List (Opener × Location)} {loc : Location} {c : Char}

/-- What the checker does depends on which brackets are open, and not on where they stand. -/
theorem inSubstitution_sameKinds (h : stack'.map Prod.fst = stack.map Prod.fst) :
    inSubstitution stack' = inSubstitution stack := by
  match stack, stack' with
  | [], [] => rfl
  | [], _ :: _ | _ :: _, [] => contradiction
  | (opener, _) :: _, (opener', _) :: _ =>
    obtain rfl : opener' = opener := (List.cons.inj h).1
    cases opener' <;> rfl

/-- A turn with the same kinds of brackets open leads to the same kinds, and is no fault in either
case. -/
theorem afterTemplate_sameKinds (h : stack'.map Prod.fst = stack.map Prod.fst) {place : Location}
    {ending : TemplateEnd} (hnext : afterTemplate stack place ending = .ok next)
    (place' : Location) :
    ∃ next', afterTemplate stack' place' ending = .ok next' ∧
      next'.map Prod.fst = next.map Prod.fst := by
  cases ending with
  | closed =>
    obtain rfl := Except.ok.inj hnext
    exact ⟨stack', rfl, h⟩
  | substitution =>
    obtain rfl := Except.ok.inj hnext
    exact ⟨_, rfl, congrArg (Opener.substitution :: ·) h⟩
  | missing => contradiction

theorem afterPlain_sameKinds (h : stack'.map Prod.fst = stack.map Prod.fst)
    (hnext : afterPlain stack loc c = .ok next) (loc' : Location) :
    ∃ next', afterPlain stack' loc' c = .ok next' ∧ next'.map Prod.fst = next.map Prod.fst := by
  unfold afterPlain at hnext ⊢
  cases hopener : openerOf? c with
  | some opener =>
    rw [hopener] at hnext
    obtain rfl := Except.ok.inj hnext
    exact ⟨_, rfl, congrArg (opener :: ·) h⟩
  | none =>
    rw [hopener] at hnext
    dsimp only at hnext ⊢
    split at hnext
    next hcloser =>
      rw [if_pos hcloser]
      -- Both stacks are as high, so both are empty or have a top of the same kind.
      match stack, stack' with
      | [], _ => contradiction
      | _ :: _, [] => contradiction
      | (opener, _) :: stack, (opener', _) :: stack' =>
        obtain ⟨rfl, hrest⟩ : opener' = opener ∧ stack'.map Prod.fst = stack.map Prod.fst :=
          List.cons.inj h
        rw [afterCloser] at hnext ⊢
        split at hnext
        next hcloses =>
          obtain rfl := Except.ok.inj hnext
          exact ⟨stack', if_pos hcloses, hrest⟩
        next => contradiction
    next hcloser =>
      obtain rfl := Except.ok.inj hnext
      exact ⟨stack', if_neg hcloser, h⟩

/-- **Whether a piece is accepted does not depend on where anything stands.** -/
theorem react_sameKinds (h : stack'.map Prod.fst = stack.map Prod.fst) {piece : Piece}
    (hnext : react stack loc c piece = .ok next) (loc' : Location) :
    ∃ next', react stack' loc' c piece = .ok next' ∧ next'.map Prod.fst = next.map Prod.fst := by
  have hsame (heq : react stack loc c piece = .ok stack) (heq' : react stack' loc' c piece =
    .ok stack') :
      ∃ next', react stack' loc' c piece = .ok next' ∧ next'.map Prod.fst = next.map Prod.fst := by
    obtain rfl := Except.ok.inj (heq.symm.trans hnext)
    exact ⟨stack', heq', h⟩
  match piece with
  | .blank | .comment true | .regex true | .string true => exact hsame rfl rfl
  | .comment false | .regex false | .string false => contradiction
  | .plain => exact afterPlain_sameKinds h hnext loc'
  | .template ending =>
    unfold react at hnext ⊢
    dsimp only at hnext ⊢
    -- A brace that leads back into a literal is taken off both stacks.
    generalize (c == '}') = resumes at hnext ⊢
    match resumes, stack, stack' with
    | false, stack, stack' => exact afterTemplate_sameKinds h hnext _
    | true, [], [] => exact afterTemplate_sameKinds h hnext _
    | true, [], _ :: _ | true, _ :: _, [] => contradiction
    | true, (_, place) :: stack, (_, place') :: stack' =>
      exact afterTemplate_sameKinds (List.cons.inj h).2 hnext place'

end Kinds

/-! ### The whole script -/

/-- Blanks are accepted where nothing is open. -/
theorem checkFrom_blanks {blanks : List Char} (h : ∀ c ∈ blanks, isBlank c = true)
    (stack : List (Opener × Location)) (previous : Option Char) (loc : Location) :
    checkFrom stack previous loc blanks = .ok () ↔ stack = [] := by
  induction blanks generalizing loc with
  | nil =>
    rw [checkFrom.eq_def]
    cases stack with
    | nil => exact ⟨fun _ => rfl, fun _ => rfl⟩
    | cons top stack => exact ⟨nofun, nofun⟩
  | cons c blanks ih =>
    obtain ⟨hc, hblanks⟩ := List.forall_mem_cons.1 h
    rw [checkFrom_blank hc]
    exact ih hblanks _

/-- A line feed at the end is accepted. -/
theorem checkFrom_lineFeed (previous : Option Char) (loc : Location) :
    checkFrom [] previous loc ['\n'] = .ok () :=
  (checkFrom_blanks (List.forall_mem_singleton.2 (by decide)) [] previous loc).2 rfl

/-- **A line feed can stand for the blanks after an accepted text.** -/
theorem checkFrom_trimEnd {stack stack' : List (Opener × Location)}
    (hkinds : stack'.map Prod.fst = stack.map Prod.fst) {previous : Option Char} {loc : Location}
    {text : List Char} (h : checkFrom stack previous loc text = .ok ()) (loc' : Location) :
    checkFrom stack' previous loc' (trimEnd text ++ ['\n']) = .ok () := by
  have hnil {next next' : List (Opener × Location)} (hnext : next'.map Prod.fst = next.map Prod.fst)
      (hempty : next = []) : next' = [] := by
    rw [hempty, List.map_nil] at hnext
    exact List.map_eq_nil_iff.1 hnext
  by_cases hblank : ∀ c ∈ text, isBlank c = true
  · have htrim : trimEnd text = [] := trimEnd_append_blanks [] hblank
    rw [htrim, hnil hkinds ((checkFrom_blanks hblank _ _ _).1 h)]
    exact checkFrom_lineFeed previous loc'
  match text with
  | [] => exact absurd nofun hblank
  | c :: text =>
    have hshorter := readPiece_rest_le (inSubstitution stack) previous c text
    have happend := readPiece_append (inSubstitution stack) previous c text
    rw [checkFrom_cons] at h
    cases hreact : react stack loc c (readPiece (inSubstitution stack) previous c text).piece with
    | error fault =>
      rw [hreact] at h
      contradiction
    | ok next =>
      rw [hreact, Except.bind] at h
      obtain ⟨next', hreact', hnext⟩ := react_sameKinds hkinds hreact loc'
      by_cases hrest : ∀ d ∈ (readPiece (inSubstitution stack) previous c text).rest,
        isBlank d = true
      · -- The last piece: both texts go on with blanks only.
        have hc : isBlank c = false := by
          cases hc : isBlank c with
          | false => rfl
          | true =>
            rw [readPiece_blank hc] at hrest
            have hall : ∀ d ∈ c :: text, isBlank d = true := List.forall_mem_cons.2 ⟨hc, hrest⟩
            exact absurd hall hblank
        obtain ⟨run, htrim, hpiece, hleft⟩ := readPiece_of_trimEnd hc (ended_of_react hreact) hrest
        rw [htrim, checkFrom_cons, inSubstitution_sameKinds hkinds, hpiece, hleft, hreact',
          Except.bind, hnil hnext ((checkFrom_blanks hrest _ _ _).1 h)]
        exact checkFrom_lineFeed _ _
      · -- What follows holds a visible character, and the piece is read the same way before it.
        obtain hall | ⟨body, last, blanks, hbody, hlast, hblanks⟩ :=
          blank_or_visible (readPiece (inSubstitution stack) previous c text).rest
        · exact absurd hall hrest
        have hafter := checkFrom_trimEnd hnext h
          (loc'.advanceAll (readPiece (inSubstitution stack) previous c text).chars)
        obtain ⟨d, tail, more, hcons, hmore⟩ : ∃ d tail more,
            body ++ last :: blanks = d :: tail ∧ body ++ [last] = d :: more := by
          cases body with
          | nil => exact ⟨last, blanks, [], rfl, rfl⟩
          | cons d body => exact ⟨d, _, _, rfl, rfl⟩
        obtain ⟨run, hchars, hpiece⟩ := readPiece_of_rest (hbody.trans hcons) (more ++ ['\n'])
        have htext : c :: text = (c :: (run ++ body)) ++ last :: blanks := by
          rw [← happend, hchars, hbody, List.cons_append, List.cons_append, List.append_assoc]
        have htrim : trimEnd (c :: text) ++ ['\n'] = c :: (run ++ d :: (more ++ ['\n'])) := by
          rw [htext, trimEnd_visible _ hlast hblanks, List.cons_append, List.append_assoc run,
            hmore, List.cons_append, List.append_assoc, List.cons_append]
        rw [hbody, trimEnd_visible body hlast hblanks, hmore] at hafter
        rw [htrim, checkFrom_cons, inSubstitution_sameKinds hkinds, hpiece, hreact', Except.bind]
        exact hafter
termination_by text.length
decreasing_by all_goals (simp only [List.length_cons]; omega)

/-- Blanks before a text are skipped. -/
theorem exists_checkFrom_trimStart (stack : List (Opener × Location)) (previous : Option Char)
    (loc : Location) (text : List Char) :
    ∃ loc', checkFrom stack previous loc text = checkFrom stack previous loc' (trimStart text) := by
  unfold trimStart
  induction text generalizing loc with
  | nil => exact ⟨loc, rfl⟩
  | cons c text ih =>
    rw [List.dropWhile_cons]
    split
    next hc =>
      rw [checkFrom_blank hc]
      exact ih _
    next => exact ⟨loc, rfl⟩

/-- **A script that is accepted is accepted without the blanks around it**, and with a line feed at
its end. -/
theorem check_trim {source : List Char} (h : check source = .ok ()) :
    check (trim source ++ ['\n']) = .ok () := by
  obtain ⟨loc, hloc⟩ := exists_checkFrom_trimStart [] none {} source
  rw [check, hloc] at h
  exact checkFrom_trimEnd rfl h {}

/-- A text without the blanks around it is empty or ends in a visible character. -/
theorem trim_eq_nil_or_visible (text : List Char) :
    trim text = [] ∨ ∃ body last, trim text = body ++ [last] ∧ isBlank last = false := by
  obtain hblank | ⟨body, last, blanks, htext, hlast, hblanks⟩ := blank_or_visible (trimStart text)
  · exact .inl (trimEnd_append_blanks [] hblank)
  · refine .inr ⟨body, last, ?_, hlast⟩
    rw [trim, htext, trimEnd_visible body hlast hblanks]

end Triptych.Script
