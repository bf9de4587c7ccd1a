import Triptych.Proofs.Markup.Lexing

/-!
# Which texts stay text

A text that stands between tags must not look like markup. Whether it does is told by reading it
once from left to right: `TextState` is what the reader has to remember, which is how far the last
`<` has come towards opening something, or that a declaration is open. A text stays text if the
reader ends where nothing has been opened (`staysText`), and these are just the texts that plain
tokens lead through (`plainRun_nil_iff`).

Read this way, texts can be taken apart and put together. Two properties of blanks are what it is
used for: all blanks do the same, and a second one in a row does nothing (`next_blank`,
`afterBlank_afterBlank`).
-/

namespace Triptych.Markup

open Text

/-! ### The reader -/

/-- What a reader of text remembers. -/
inductive TextState where
  /-- Nothing is under way. -/
  | plain
  /-- A `<` was read. -/
  | angle
  /-- `</` was read. -/
  | slash
  /-- `<!` was read. -/
  | bang
  /-- `<!-` was read. -/
  | dash
  /-- A declaration is open. -/
  | declaration
  /-- A comment or a tag was opened, so this is no text. -/
  | markup
deriving DecidableEq, Repr

namespace TextState

/-- The state after a character that goes on with nothing. -/
def afresh (c : Char) : TextState :=
  if c = '<' then .angle else .plain

/-- The state after one more character. -/
def next : TextState → Char → TextState
  | .plain, c => afresh c
  | .angle, c =>
    if c = '!' then .bang else if c = '/' then .slash else if isAsciiLetter c then .markup
      else afresh c
  | .slash, c => if isAsciiLetter c then .markup else afresh c
  | .bang, c => if c = '-' then .dash else if isAsciiLetter c then .declaration else afresh c
  | .dash, c => if c = '-' then .markup else afresh c
  | .declaration, c => if c = '>' then .plain else .declaration
  | .markup, _ => .markup

/-- The state after a text. -/
def run (state : TextState) (text : List Char) : TextState :=
  text.foldl next state

/-- True where a text may end. -/
def isText : TextState → Bool
  | .declaration | .markup => false
  | _ => true

@[simp] theorem run_nil (state : TextState) : state.run [] = state := rfl

@[simp] theorem run_cons (state : TextState) (c : Char) (text : List Char) :
    state.run (c :: text) = (state.next c).run text := rfl

/-- Reading goes on where it stopped. -/
theorem run_append (state : TextState) (before after : List Char) :
    state.run (before ++ after) = (state.run before).run after := by
  unfold run
  rw [List.foldl_append]

/-- Once markup has started the state stays. -/
theorem run_markup (text : List Char) : run .markup text = .markup := by
  induction text with
  | nil => rfl
  | cons c text ih => exact ih

/-- Text goes on up to an angle bracket. -/
theorem run_plain {text : List Char} (h : ∀ c ∈ text, (c != '<') = true) :
    run .plain text = .plain := by
  induction text with
  | nil => rfl
  | cons c text ih =>
    rw [List.forall_mem_cons, bne_iff_ne] at h
    rw [run_cons, next, afresh, if_neg h.1]
    exact ih h.2

theorem run_declaration {text : List Char} (h : ∀ c ∈ text, (c != '>') = true) :
    run .declaration text = .declaration := by
  induction text with
  | nil => rfl
  | cons c text ih =>
    rw [List.forall_mem_cons, bne_iff_ne] at h
    rw [run_cons, next, if_neg h.1]
    exact ih h.2

/-! ### A `<` that opens nothing -/

/-- Behind `</` text goes on as if the mark were none, unless a letter follows. The same holds of
the other marks that may start markup, each with what must not follow it. -/
theorem isText_run_slash {text : List Char} (h : Stops isAsciiLetter text) :
    (run .slash text).isText = (run .plain text).isText := by
  cases text with
  | nil => rfl
  | cons c text =>
    have hletter : isAsciiLetter c = false := h c rfl
    have hnext : next .slash c = afresh c := by rw [next, if_neg (by simp [hletter])]
    rw [run_cons, run_cons, hnext]
    rfl

theorem isText_run_dash {text : List Char} (h : text.head? ≠ some '-') :
    (run .dash text).isText = (run .plain text).isText := by
  cases text with
  | nil => rfl
  | cons c text =>
    have hdash : c ≠ '-' := by simpa using h
    have hnext : next .dash c = afresh c := by rw [next, if_neg hdash]
    rw [run_cons, run_cons, hnext]
    rfl

theorem isText_run_bang {text : List Char} (h : Stops isAsciiLetter text)
    (hdashes : ¬ ['-', '-'] <+: text) :
    (run .bang text).isText = (run .plain text).isText := by
  cases text with
  | nil => rfl
  | cons c text =>
    have hletter : isAsciiLetter c = false := h c rfl
    by_cases hdash : c = '-'
    · subst hdash
      refine isText_run_dash fun hhead => hdashes ?_
      obtain ⟨tail, rfl⟩ := List.head?_eq_some_iff.1 hhead
      exact List.prefix_append ['-', '-'] tail
    · have hnext : next .bang c = afresh c := by rw [next, if_neg hdash, if_neg (by simp [hletter])]
      rw [run_cons, run_cons, hnext]
      rfl

/-- An angle bracket that opens no markup is a character of text. -/
theorem isText_run_angle {text : List Char} (h : opensMarkup text = false) :
    (run .angle text).isText = (run .plain text).isText := by
  cases text with
  | nil => rfl
  | cons c text =>
    by_cases hbang : c = '!'
    · subst hbang
      rw [opensMarkup_bang] at h
      exact isText_run_bang h.1 h.2
    by_cases hslash : c = '/'
    · subst hslash
      rw [opensMarkup_slash] at h
      exact isText_run_slash h
    · rw [opensMarkup_of_ne hbang hslash] at h
      -- No letter follows, so the bracket is text and reading starts afresh.
      have hnext : next .angle c = afresh c := by
        rw [next, if_neg hbang, if_neg hslash, if_neg (by simp [h])]
      rw [run_cons, run_cons, hnext]
      rfl

end TextState

open TextState

/-! ### Tokens -/

/-- A letter behind `<` or `</` opens a tag, whatever follows. -/
theorem run_tag {name : List Char} (hname : IsTagName name) (rest : List Char) :
    run .plain ('<' :: (name ++ rest)) = .markup ∧
      run .plain ('<' :: '/' :: (name ++ rest)) = .markup := by
  obtain ⟨c, cs, rfl, hletter, -⟩ := hname
  obtain ⟨hbang, hslash, -⟩ := ne_of_isAsciiLetter hletter
  have hangle : next .angle c = .markup := by rw [next, if_neg hbang, if_neg hslash, if_pos hletter]
  have hclose : next .slash c = .markup := by rw [next, if_pos hletter]
  constructor
  · change (next .angle c).run (cs ++ rest) = .markup
    rw [hangle, run_markup]
  · change (next .slash c).run (cs ++ rest) = .markup
    rw [hclose, run_markup]

/-- A token that is not plain is no text. -/
theorem Lexes.run_eq_markup {chars rest : List Char} {token : ContentPart}
    (h : Lexes chars token rest) (hplain : token.isPlain = false) :
    run .plain (chars ++ rest) = .markup := by
  cases h with
  | comment => exact run_markup _
  | openTag hname => exact (run_tag hname rest).1
  | closeTag hname => exact (run_tag hname rest).2
  | _ => contradiction

/-- A letter behind `<!` opens a declaration. -/
theorem run_declaration_start {c : Char} (hletter : isAsciiLetter c = true) (text : List Char) :
    run .plain ('<' :: '!' :: c :: text) = run .declaration text := by
  have hdash : c ≠ '-' := by
    rintro rfl
    exact absurd hletter (by decide)
  change (next .bang c).run text = _
  rw [next, if_neg hdash, if_pos hletter]

/-- A plain token does not change whether a text stays text. -/
theorem Lexes.isText_run {chars rest : List Char} {token : ContentPart} (h : Lexes chars token rest)
    (hplain : token.isPlain = true) :
    (run .plain (chars ++ rest)).isText = (run .plain rest).isText := by
  cases h with
  | text hne hrun hstop => rw [run_append, run_plain hrun]
  | lessThan hopen => exact isText_run_angle hopen
  | @declaration c inner _ hletter hinner =>
    rw [List.forall_mem_cons] at hinner
    have hend : next .declaration '>' = .plain := rfl
    simp only [List.cons_append, List.append_assoc, List.nil_append]
    rw [run_declaration_start hletter, run_append, run_declaration hinner.2, run_cons, hend]
  | _ => contradiction

/-- A text in which the lexer finds a fault does not stay text. -/
theorem isText_run_of_fault {text : List Char} {lexeme : Lexeme ContentFault ContentPart}
    {fault : ContentFault} (h : lexContent text = some lexeme)
    (hfault : lexeme.token = .error fault) : (run .plain text).isText = false := by
  unfold lexContent at h
  split at h
  · contradiction
  next c cs =>
    split at h
    next hc =>
      obtain rfl := Option.some.inj h
      subst hc
      unfold lexAngle at hfault
      split at hfault
      -- A comment is opened, whether it ends or not.
      next rest => exact congrArg isText (run_markup rest)
      next d rest _ =>
        split at hfault
        next hletter =>
          unfold lexDeclaration at hfault
          split at hfault
          next => contradiction
          next hdrop =>
            -- A declaration without an end stays open.
            have hall := List.takeWhile_append_dropWhile (p := (· != '>')) (l := d :: rest)
            rw [hdrop, List.append_nil] at hall
            have hinner : ∀ e ∈ d :: rest, (e != '>') = true := by
              intro e he
              rw [← hall] at he
              exact of_mem_takeWhile (p := (· != '>')) he
            rw [List.forall_mem_cons] at hinner
            rw [run_declaration_start hletter, run_declaration hinner.2]
            rfl
        next => contradiction
      next =>
        split at hfault
        · contradiction
        · contradiction
      next =>
        split at hfault
        · contradiction
        · contradiction
      next => contradiction
    next =>
      obtain rfl := Option.some.inj h
      contradiction

/-- A text stays text when it stands before an edge. -/
def staysText (value : List Char) : Bool :=
  (run .plain value).isText

/-- **Where the states say that a text stays text, it is a run of plain text.** -/
theorem plainRun_of_staysText {value : List Char} (h : staysText value = true) :
    PlainRun value [] := by
  -- Token by token: a fault, or a token that is no text, would have led out of the text.
  cases hlex : lexContent value with
  | none =>
    cases value with
    | nil => exact .refl []
    | cons c cs =>
      rw [lexContent] at hlex
      split at hlex <;> contradiction
  | some lexeme =>
    have hshorter := lexContent_rest_lt hlex
    cases htoken : lexeme.token with
    | error fault =>
      rw [staysText, isText_run_of_fault hlex htoken] at h
      contradiction
    | ok token =>
      have hlexes := lexes_of_lexContent hlex htoken
      rw [← lexContent_append hlex] at h ⊢
      unfold staysText at h
      cases hplain : token.isPlain with
      | false =>
        rw [hlexes.run_eq_markup hplain] at h
        contradiction
      | true =>
        rw [hlexes.isText_run hplain] at h
        exact .step hlexes hplain (plainRun_of_staysText h)
termination_by value.length

/-- **The texts that stay text are those that plain tokens lead through.** -/
theorem plainRun_nil_iff {value : List Char} : PlainRun value [] ↔ staysText value = true := by
  refine ⟨fun h => ?_, plainRun_of_staysText⟩
  generalize hend : ([] : List Char) = rest at h
  induction h with
  | refl =>
    rw [← hend]
    rfl
  | step hlex hplain _ ih =>
    rw [staysText, hlex.isText_run hplain]
    exact ih hend

/-! ### Blanks -/

namespace TextState

/-- The state after blanks. -/
def afterBlank : TextState → TextState
  | .declaration => .declaration
  | .markup => .markup
  | _ => .plain

/-- A blank ends what a mark has started. -/
theorem next_blank {c : Char} (hc : isBlank c = true) (state : TextState) :
    state.next c = state.afterBlank := by
  have hletter := isAsciiLetter_of_isBlank hc
  have hne {d : Char} (hd : isBlank d = false) : c ≠ d := by
    rintro rfl
    rw [hc] at hd
    contradiction
  have hangle : c ≠ '<' := hne (by decide)
  have hbang : c ≠ '!' := hne (by decide)
  have hslash : c ≠ '/' := hne (by decide)
  have hdash : c ≠ '-' := hne (by decide)
  have hclose : c ≠ '>' := hne (by decide)
  cases state <;> simp [next, afresh, afterBlank, hletter, hangle, hbang, hslash, hdash, hclose]

@[simp] theorem afterBlank_afterBlank (state : TextState) :
    state.afterBlank.afterBlank = state.afterBlank := by
  cases state <;> rfl

@[simp] theorem isText_afterBlank (state : TextState) : state.afterBlank.isText = state.isText := by
  cases state <;> rfl

/-- One blank does what many do. -/
theorem run_afterBlank {blanks : List Char} (h : ∀ c ∈ blanks, isBlank c = true)
    (state : TextState) :
    state.afterBlank.run blanks = state.afterBlank := by
  induction blanks with
  | nil => rfl
  | cons c blanks ih =>
    obtain ⟨hc, hblanks⟩ := List.forall_mem_cons.1 h
    rw [run_cons, next_blank hc, afterBlank_afterBlank]
    exact ih hblanks

theorem run_plain_blanks {blanks : List Char} (h : ∀ c ∈ blanks, isBlank c = true) :
    run .plain blanks = .plain :=
  run_afterBlank h .plain

/-- Blanks do not turn text into markup, nor markup into text. -/
theorem isText_run_blanks {blanks : List Char} (h : ∀ c ∈ blanks, isBlank c = true)
    (state : TextState) :
    (state.run blanks).isText = state.isText := by
  cases blanks with
  | nil => rfl
  | cons c blanks =>
    obtain ⟨hc, hblanks⟩ := List.forall_mem_cons.1 h
    rw [run_cons, next_blank hc, run_afterBlank hblanks, isText_afterBlank]

end TextState

end Triptych.Markup
