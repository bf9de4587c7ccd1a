import Triptych.Markup.Token
import Triptych.Proofs.Text.Search

/-!
# What the content lexer takes

`lexContent` decides by looking ahead. `Lexes chars token rest` says the same without an algorithm:
the characters `chars`, standing before `rest`, are the token. The two agree (`lexContent_of_lexes`,
`lexes_of_lexContent`), so what depends on the text after a token can be read off the constructors
of `Lexes`: the name of a tag must not go on, a run of text must not go on, and a lone `<` must not
open anything.

Nothing of this looks beyond the next `<`. `Lexes.cut` puts that to use: where a text is cut at an
*edge*, its end or a `<`, what is behind the edge can be replaced.

Tokens that end up in text are *plain*. `PlainRun text rest` says that plain tokens lead from `text`
to `rest`, and `AtEdge` that a text is at its end or starts something that is not plain.
-/

namespace Triptych.Markup

open Text

/-! ### Tokens -/

/-- The name of a tag: a letter, then letters, digits and a few signs. -/
def IsTagName (name : List Char) : Prop :=
  ∃ c cs, name = c :: cs ∧ isAsciiLetter c = true ∧ ∀ d ∈ cs, isTagNameChar d = true

/-- True when a `<` before this text opens a comment, a declaration or a tag. -/
def opensMarkup : List Char → Bool
  | '!' :: '-' :: '-' :: _ => true
  | '!' :: c :: _ => isAsciiLetter c
  | '/' :: c :: _ => isAsciiLetter c
  | c :: _ => isAsciiLetter c
  | [] => false

/-- The characters, standing before `rest`, are the token. -/
inductive Lexes : List Char → ContentPart → List Char → Prop
  | comment {value rest : List Char} (hend : EndsFirst commentStop value) :
    Lexes (commentStart ++ (value ++ commentStop)) (.comment (String.ofList value)) rest
  | declaration {c : Char} {inner rest : List Char} (hletter : isAsciiLetter c = true)
    (hinner : ∀ d ∈ c :: inner, (d != '>') = true) :
    Lexes ('<' :: '!' :: (c :: inner ++ ['>']))
      (.declaration (String.ofList ('<' :: '!' :: (c :: inner ++ ['>'])))) rest
  | openTag {name rest : List Char} (hname : IsTagName name) (hstop : Stops isTagNameChar rest) :
    Lexes ('<' :: name) (.openTag (String.ofList name)) rest
  | closeTag {name rest : List Char} (hname : IsTagName name) (hstop : Stops isTagNameChar rest) :
    Lexes ('<' :: '/' :: name) (.closeTag (String.ofList name)) rest
  | text {run rest : List Char} (hne : run ≠ []) (hrun : ∀ c ∈ run, (c != '<') = true)
    (hstop : Stops (· != '<') rest) : Lexes run (.text (String.ofList run)) rest
  | lessThan {rest : List Char} (hopen : opensMarkup rest = false) : Lexes ['<'] .lessThan rest

/-! ### The lexer and its tokens -/

/-- A letter is not one of the signs that may follow `<`. -/
theorem ne_of_isAsciiLetter {c : Char} (h : isAsciiLetter c = true) :
    c ≠ '!' ∧ c ≠ '/' ∧ c ≠ '<' := by
  refine ⟨?_, ?_, ?_⟩ <;> rintro rfl <;> exact absurd h (by decide)

/-- Characters that are a token are what the lexer takes. -/
theorem lexContent_of_lexes {chars rest : List Char} {token : ContentPart}
    (h : Lexes chars token rest) :
    lexContent (chars ++ rest) = some { chars, token := .ok token, rest } := by
  cases h with
  | @comment value _ hend =>
    -- The first mark stays the first one, whatever comes later.
    have hbreak := breakOn_append hend rest
    rw [List.append_assoc] at hbreak
    have hlex : lexContent (commentStart ++ (value ++ commentStop) ++ rest) =
        some (lexMarkupComment (value ++ (commentStop ++ rest))) := by
      simp [commentStart, lexContent, lexAngle]
    rw [hlex, lexMarkupComment, hbreak]
    simp [commentStop]
  | @declaration c inner _ hletter hinner =>
    have hstop : Stops (· != '>') ('>' :: rest) := by simp [Stops]
    -- A letter after `<!` is no dash, so this is not a comment.
    have hlex : lexContent ('<' :: '!' :: (c :: inner ++ ['>']) ++ rest) =
        some (lexDeclaration (c :: inner ++ '>' :: rest)) := by
      have hdash : c ≠ '-' := by rintro rfl; exact absurd hletter (by decide)
      simp [lexContent, lexAngle, hletter, hdash]
    rw [hlex, lexDeclaration, dropWhile_append_of_stops hinner hstop,
      takeWhile_append_of_stops hinner hstop]
  | @openTag name _ hname hstop =>
    obtain ⟨c, cs, rfl, hletter, htail⟩ := hname
    obtain ⟨hbang, hslash, -⟩ := ne_of_isAsciiLetter hletter
    -- A name starts with a letter, which decides between the branches.
    have hlex : lexAngle (c :: (cs ++ rest)) =
        { chars := '<' :: c :: (cs ++ rest).takeWhile isTagNameChar
          token := .ok (.openTag (String.ofList (c :: (cs ++ rest).takeWhile isTagNameChar)))
          rest := (cs ++ rest).dropWhile isTagNameChar } := by
      simp [lexAngle, hbang, hslash, hletter]
    rw [List.cons_append, List.cons_append, lexContent, if_pos rfl, hlex,
      takeWhile_append_of_stops htail hstop, dropWhile_append_of_stops htail hstop]
  | @closeTag name _ hname hstop =>
    obtain ⟨c, cs, rfl, hletter, htail⟩ := hname
    have hlex : lexAngle ('/' :: c :: (cs ++ rest)) =
        { chars := '<' :: '/' :: c :: (cs ++ rest).takeWhile isTagNameChar
          token := .ok (.closeTag (String.ofList (c :: (cs ++ rest).takeWhile isTagNameChar)))
          rest := (cs ++ rest).dropWhile isTagNameChar } := by
      simp [lexAngle, hletter]
    rw [List.cons_append, List.cons_append, List.cons_append, lexContent, if_pos rfl, hlex,
      takeWhile_append_of_stops htail hstop, dropWhile_append_of_stops htail hstop]
  | text hne hrun hstop =>
    obtain ⟨c, cs, rfl⟩ := List.exists_cons_of_ne_nil hne
    have hc : c ≠ '<' := by simpa using hrun c (by simp)
    have htail : ∀ d ∈ cs, (d != '<') = true := fun d hd => hrun d (List.mem_cons_of_mem _ hd)
    rw [List.cons_append, lexContent, if_neg hc, takeWhile_append_of_stops htail hstop,
      dropWhile_append_of_stops htail hstop]
  | lessThan hopen =>
    have hlex : lexAngle rest = lexLessThan rest := by
      -- Every branch that takes more than `<` needs a letter or two dashes.
      unfold lexAngle
      split
      · simp [opensMarkup] at hopen
      · next c after hdash =>
        have hletter : isAsciiLetter c = false := by
          rwa [opensMarkup] at hopen
          exact hdash
        rw [if_neg (by simp [hletter])]
      · next c after =>
        have hletter : isAsciiLetter c = false := by rwa [opensMarkup] at hopen
        rw [if_neg (by simp [hletter])]
      · next c after h1 h2 h3 =>
        have hletter : isAsciiLetter c = false := by rwa [opensMarkup] at hopen <;> assumption
        rw [if_neg (by simp [hletter])]
      · rfl
    rw [List.singleton_append, lexContent, if_pos rfl, hlex]
    rfl

/-- **What the lexer takes for a token is one**, by what it starts with: a comment, a declaration,
and an angle bracket that is text. -/
theorem lexes_lexMarkupComment {rest : List Char} {token : ContentPart}
    (h : (lexMarkupComment rest).token = .ok token) :
    Lexes (lexMarkupComment rest).chars token (lexMarkupComment rest).rest := by
  unfold lexMarkupComment at h ⊢
  split at h
  next value found hbreak =>
    obtain rfl := Except.ok.inj h
    -- What was found starts with the mark, so the value ends right before it.
    obtain ⟨-, tail, rfl⟩ := breakOn_spec hbreak
    simp only [List.append_assoc]
    exact .comment (endsFirst_of_breakOn hbreak)
  next => contradiction

theorem lexes_lexDeclaration {c : Char} {body : List Char} {token : ContentPart}
    (hletter : isAsciiLetter c = true) (h : (lexDeclaration (c :: body)).token = .ok token) :
    Lexes (lexDeclaration (c :: body)).chars token (lexDeclaration (c :: body)).rest := by
  have hc : (c != '>') = true := by
    rw [bne_iff_ne]
    rintro rfl
    exact absurd hletter (by decide)
  -- The letter is part of the run up to `>`.
  unfold lexDeclaration at h ⊢
  rw [List.takeWhile_cons_of_pos (p := (· != '>')) hc, List.dropWhile_cons_of_pos
    (p := (· != '>')) hc] at h ⊢
  cases hdrop : body.dropWhile (· != '>') with
  | nil => simp [hdrop] at h
  | cons d rest =>
    -- The run stops at `>` and nowhere else.
    have hd : d = '>' := by
      simpa using stops_dropWhile (p := (· != '>')) body d (by rw [hdrop]; rfl)
    subst hd
    simp only [hdrop] at h ⊢
    obtain rfl := Except.ok.inj h
    refine .declaration hletter ?_
    intro e he
    rcases List.mem_cons.1 he with rfl | he
    · exact hc
    · exact of_mem_takeWhile (p := (· != '>')) he

theorem lexes_lexLessThan {rest : List Char} {token : ContentPart}
    (hopen : opensMarkup rest = false) (h : (lexLessThan rest).token = .ok token) :
    Lexes (lexLessThan rest).chars token (lexLessThan rest).rest := by
  obtain rfl := Except.ok.inj h
  exact .lessThan hopen

/-- Everything that starts with an angle bracket. -/
theorem lexes_lexAngle {cs : List Char} {token : ContentPart}
    (h : (lexAngle cs).token = .ok token) :
    Lexes (lexAngle cs).chars token (lexAngle cs).rest := by
  -- The branches in order: comment, declaration, closing tag, opening tag, a lone `<`.
  unfold lexAngle at h ⊢
  split at h
  · exact lexes_lexMarkupComment h
  · next c rest hdash =>
    split at h
    next hletter =>
      rw [if_pos hletter]
      exact lexes_lexDeclaration hletter h
    next hletter =>
      rw [if_neg hletter]
      refine lexes_lexLessThan ?_ h
      rw [opensMarkup]
      · simpa using hletter
      · exact hdash
  · next c rest =>
    split at h
    next hletter =>
      rw [if_pos hletter]
      obtain rfl := Except.ok.inj h
      exact .closeTag ⟨c, _, rfl, hletter, fun d hd => of_mem_takeWhile hd⟩ (stops_dropWhile _)
    next hletter =>
      rw [if_neg hletter]
      refine lexes_lexLessThan ?_ h
      rw [opensMarkup]
      simpa using hletter
  · next c rest h₁ h₂ h₃ =>
    split at h
    next hletter =>
      rw [if_pos hletter]
      obtain rfl := Except.ok.inj h
      exact .openTag ⟨c, _, rfl, hletter, fun d hd => of_mem_takeWhile hd⟩ (stops_dropWhile _)
    next hletter =>
      rw [if_neg hletter]
      refine lexes_lexLessThan ?_ h
      rw [opensMarkup]
      · simpa using hletter
      all_goals assumption
  · exact lexes_lexLessThan rfl h

/-- What the lexer takes is a token. -/
theorem lexes_of_lexContent {text : List Char} {lexeme : Lexeme ContentFault ContentPart}
    {token : ContentPart} (h : lexContent text = some lexeme) (htoken : lexeme.token = .ok token) :
    Lexes lexeme.chars token lexeme.rest := by
  unfold lexContent at h
  split at h
  · contradiction
  next c cs =>
    split at h
    next =>
      obtain rfl := Option.some.inj h
      exact lexes_lexAngle htoken
    next hc =>
      obtain rfl := Option.some.inj h
      obtain rfl := Except.ok.inj htoken
      refine .text (by simp) ?_ (stops_dropWhile _)
      intro d hd
      rcases List.mem_cons.1 hd with rfl | hd
      · simpa using hc
      · exact of_mem_takeWhile (p := (· != '<')) hd

/-- The lexer stops at the end of the text only. -/
theorem eq_nil_of_lexContent {text : List Char} (h : lexContent text = none) : text = [] := by
  unfold lexContent at h
  split at h
  · rfl
  · split at h <;> contradiction

/-! ### Replacing what is behind an edge -/

/-- The text is at its end or goes on with `<`. -/
def Clear (text : List Char) : Prop :=
  Stops (· != '<') text

theorem clear_nil : Clear [] := by simp [Clear, Stops]

theorem clear_angle (text : List Char) : Clear ('<' :: text) := by simp [Clear, Stops]

/-- A clear text is empty or starts with `<`. -/
theorem clear_cases {text : List Char} (h : Clear text) :
    text = [] ∨ ∃ rest, text = '<' :: rest := by
  cases text with
  | nil => exact .inl rfl
  | cons c cs =>
    have hc : c = '<' := by simpa using h c rfl
    exact .inr ⟨cs, by rw [hc]⟩

/-- A class without `<` stops at a clear text. -/
theorem stops_of_clear {p : Char → Bool} {text : List Char} (hp : p '<' = false) (h : Clear text) :
    Stops p text := by
  obtain rfl | ⟨rest, rfl⟩ := clear_cases h
  · simp [Stops]
  · simpa [Stops] using hp

/-- What decides whether an angle bracket opens markup is the character behind it, or what follows a
slash or an exclamation mark. -/
theorem opensMarkup_of_ne {c : Char} (hbang : c ≠ '!') (hslash : c ≠ '/') (text : List Char) :
    opensMarkup (c :: text) = isAsciiLetter c := by
  simp [opensMarkup, hbang, hslash]

theorem opensMarkup_slash {text : List Char} :
    opensMarkup ('/' :: text) = false ↔ Stops isAsciiLetter text := by
  cases text <;> simp [opensMarkup, Stops, isAsciiLetter]

theorem opensMarkup_bang {text : List Char} :
    opensMarkup ('!' :: text) = false ↔ Stops isAsciiLetter text ∧ ¬ ['-', '-'] <+: text := by
  match text with
  | [] => simp [opensMarkup, Stops, isAsciiLetter]
  | [c] => simp [opensMarkup, Stops]
  | c :: d :: rest =>
    -- Two dashes open a comment, anything else is decided by the first character.
    by_cases hdash : c = '-' ∧ d = '-'
    · obtain ⟨rfl, rfl⟩ := hdash
      simp [opensMarkup]
    · have hshort : ¬ ['-', '-'] <+: c :: d :: rest := by
        simpa [List.cons_prefix_cons, eq_comm] using hdash
      have hopen : opensMarkup ('!' :: c :: d :: rest) = isAsciiLetter c := by
        rw [opensMarkup]
        rintro rest' heq
        simp_all
      simp [hopen, hshort, Stops]

/-- True of the characters that can make a tag name longer, or let a `<` open something. -/
def continuesAngle (c : Char) : Bool :=
  isTagNameChar c || c == '!' || c == '/'

/-- What does not go on with what an angle bracket starts is in no name. -/
theorem isAsciiLetter_of_not_continuesAngle {c : Char} (h : continuesAngle c = false) :
    isAsciiLetter c = false := by
  simp only [continuesAngle, isTagNameChar, Bool.or_eq_false_iff] at h
  exact h.1.1.1.1.1.1.1

theorem isTagNameChar_of_not_continuesAngle {c : Char} (h : continuesAngle c = false) :
    isTagNameChar c = false := by
  simp only [continuesAngle, Bool.or_eq_false_iff] at h
  exact h.1.1

/-- Two dashes do not reach into a text that does not start with one. -/
theorem dashes_prefix_cut {common tail tail' : List Char} (h : ¬ ['-', '-'] <+: common ++ tail)
    (htail : Stops continuesAngle tail') : ¬ ['-', '-'] <+: common ++ tail' := by
  have hdash (mark : List Char) : ¬ '-' :: mark <+: tail' := by
    rintro ⟨rest, rfl⟩
    exact absurd (htail '-' rfl) (by decide)
  -- With fewer than two characters in front, a dash would have to come from the tail.
  match common with
  | [] => exact hdash ['-']
  | [c] => exact fun hdashes => hdash [] (List.cons_prefix_cons.1 hdashes).2
  | c :: d :: cs => simpa [List.cons_prefix_cons] using h

/-- Whether a `<` opens markup is decided before a text that cannot make it do so. -/
theorem opensMarkup_cut {common tail tail' : List Char} (h : opensMarkup (common ++ tail) = false)
    (htail : Stops continuesAngle tail') : opensMarkup (common ++ tail') = false := by
  have hletter : Stops isAsciiLetter tail' :=
    fun c hc => isAsciiLetter_of_not_continuesAngle (htail c hc)
  -- At most three characters are looked at.
  cases common with
  | nil =>
    cases tail' with
    | nil => rfl
    | cons c cs =>
      have hc := htail c rfl
      have hbang : c ≠ '!' := by rintro rfl; exact absurd hc (by decide)
      have hslash : c ≠ '/' := by rintro rfl; exact absurd hc (by decide)
      rw [List.nil_append, opensMarkup_of_ne hbang hslash]
      exact hletter c rfl
  | cons c cs =>
    rw [List.cons_append] at h ⊢
    by_cases hbang : c = '!'
    · subst hbang
      rw [opensMarkup_bang] at h ⊢
      exact ⟨h.1.cut hletter, dashes_prefix_cut h.2 htail⟩
    by_cases hslash : c = '/'
    · subst hslash
      rw [opensMarkup_slash] at h ⊢
      exact h.cut hletter
    · rw [opensMarkup_of_ne hbang hslash] at h ⊢
      exact h

/-- **Nothing looks behind an edge.** A token before an edge stays one when the text behind the edge
is replaced. -/
theorem Lexes.cut {chars common tail tail' : List Char} {token : ContentPart}
    (h : Lexes chars token (common ++ tail)) (htail : Clear tail') :
    Lexes chars token (common ++ tail') := by
  cases h with
  | comment hend => exact .comment hend
  | declaration hletter hinner => exact .declaration hletter hinner
  | openTag hname hstop => exact .openTag hname (hstop.cut (stops_of_clear (by decide) htail))
  | closeTag hname hstop => exact .closeTag hname (hstop.cut (stops_of_clear (by decide) htail))
  | text hne hrun hstop => exact .text hne hrun (hstop.cut (stops_of_clear (by decide) htail))
  | lessThan hopen => exact .lessThan (opensMarkup_cut hopen (stops_of_clear (by decide) htail))

/-- **Only text goes on.** Every other token stays what it is when a text is put behind its rest, as
long as that text cannot make a name longer or a `<` open something. -/
theorem Lexes.append {chars rest more : List Char} {token : ContentPart}
    (h : Lexes chars token rest) (htoken : ∀ value, token ≠ .text value)
    (hmore : Stops continuesAngle more) :
    Lexes chars token (rest ++ more) := by
  have hname : Stops isTagNameChar more :=
    fun c hc => isTagNameChar_of_not_continuesAngle (hmore c hc)
  rw [← List.append_nil rest] at h
  cases h with
  | comment hend => exact .comment hend
  | declaration hletter hinner => exact .declaration hletter hinner
  | openTag htag hstop => exact .openTag htag (hstop.cut hname)
  | closeTag htag hstop => exact .closeTag htag (hstop.cut hname)
  | text => exact absurd rfl (htoken _)
  | lessThan hopen => exact .lessThan (opensMarkup_cut hopen hmore)

/-- No token is empty. -/
theorem Lexes.chars_ne_nil {chars rest : List Char} {token : ContentPart}
    (h : Lexes chars token rest) :
    chars ≠ [] := by
  cases h with
  | text hne => exact hne
  | comment => simp [commentStart]
  | _ => simp

/-! ### Plain tokens -/

/-- True of a token that ends up in text. -/
def ContentPart.isPlain : ContentPart → Bool
  | .text _ | .lessThan | .declaration _ => true
  | .comment _ | .openTag _ | .closeTag _ => false

/-- Plain tokens lead from a text to its rest. -/
inductive PlainRun : List Char → List Char → Prop
  | refl (text : List Char) : PlainRun text text
  | step {chars after rest : List Char} {token : ContentPart} (hlex : Lexes chars token after)
    (hplain : token.isPlain = true) (hrun : PlainRun after rest) : PlainRun (chars ++ after) rest

/-- What stands after the `<` of a comment, a closing tag or an opening tag. -/
inductive OpensNode : List Char → Prop
  | comment : OpensNode ['!', '-', '-']
  | closeTag {c : Char} (hletter : isAsciiLetter c = true) : OpensNode ['/', c]
  | openTag {c : Char} (hletter : isAsciiLetter c = true) : OpensNode [c]

/-- The text is at its end or starts a comment or a tag. -/
def AtEdge (text : List Char) : Prop :=
  text = [] ∨ ∃ mark rest, OpensNode mark ∧ text = '<' :: (mark ++ rest)

theorem atEdge_nil : AtEdge [] := .inl rfl

/-- Tags and comments are edges. -/
theorem atEdge_openTag {name : List Char} (hname : IsTagName name) (rest : List Char) :
    AtEdge ('<' :: (name ++ rest)) := by
  obtain ⟨c, cs, rfl, hletter, -⟩ := hname
  exact .inr ⟨[c], cs ++ rest, .openTag hletter, rfl⟩

theorem atEdge_closeTag {name : List Char} (hname : IsTagName name) (rest : List Char) :
    AtEdge ('<' :: '/' :: (name ++ rest)) := by
  obtain ⟨c, cs, rfl, hletter, -⟩ := hname
  exact .inr ⟨['/', c], cs ++ rest, .closeTag hletter, rfl⟩

theorem atEdge_comment (rest : List Char) : AtEdge (commentStart ++ rest) :=
  .inr ⟨['!', '-', '-'], rest, .comment, rfl⟩

/-- An edge is clear, as no text goes on there. -/
theorem AtEdge.clear {text : List Char} (h : AtEdge text) : Clear text := by
  obtain rfl | ⟨mark, rest, -, rfl⟩ := h
  · exact clear_nil
  · exact clear_angle _

/-- What opens a comment or a tag opens markup. -/
theorem OpensNode.opensMarkup {mark : List Char} (h : OpensNode mark) (rest : List Char) :
    opensMarkup (mark ++ rest) = true := by
  cases h with
  | comment => rfl
  | closeTag hletter => simpa [Markup.opensMarkup] using hletter
  | openTag hletter =>
    obtain ⟨hbang, hslash, -⟩ := ne_of_isAsciiLetter hletter
    rw [List.singleton_append, opensMarkup_of_ne hbang hslash, hletter]

/-- A plain token does not start at an edge. -/
theorem Lexes.not_atEdge {chars rest : List Char} {token : ContentPart} (h : Lexes chars token rest)
    (hplain : token.isPlain = true) : ¬ AtEdge (chars ++ rest) := by
  rintro (hnil | ⟨mark, after, hmark, heq⟩)
  · exact h.chars_ne_nil (List.append_eq_nil_iff.1 hnil).1
  -- Each plain token starts in a way that no comment and no tag does.
  cases h with
  | text hne hrun hstop =>
    obtain ⟨c, cs, rfl⟩ := List.exists_cons_of_ne_nil hne
    obtain rfl : c = '<' := by simpa using congrArg List.head? heq
    simpa using hrun '<' (by simp)
  | lessThan hopen =>
    obtain rfl : rest = mark ++ after := by simpa using heq
    rw [hmark.opensMarkup] at hopen
    contradiction
  | @declaration c inner _ hletter hinner =>
    have hdash : c ≠ '-' := by rintro rfl; exact absurd hletter (by decide)
    cases hmark with
    | comment => simp [hdash] at heq
    | closeTag => simp at heq
    | openTag hmark =>
      obtain ⟨hbang, -, -⟩ := ne_of_isAsciiLetter hmark
      simp [hbang.symm] at heq
  | _ => contradiction

/-- What has no `<` in it stands before the edge if it stands there at all. -/
theorem prefix_of_clear {mark common tail : List Char} (h : mark <+: common ++ tail)
    (hmark : '<' ∉ mark) (htail : Clear tail) : mark <+: common := by
  refine prefix_of_stops h (fun c hc => ?_) htail
  rw [bne_iff_ne]
  rintro rfl
  exact hmark hc

/-- The marks that open nodes hold no second angle bracket. -/
theorem OpensNode.angle_not_mem {mark : List Char} (h : OpensNode mark) : '<' ∉ mark := by
  cases h with
  | comment => decide
  | closeTag hletter | openTag hletter =>
    obtain ⟨-, -, hangle⟩ := ne_of_isAsciiLetter hletter
    simp [hangle.symm]

/-- Whether a text is at an edge is decided before the next edge. -/
theorem AtEdge.cut {common tail tail' : List Char} (h : AtEdge (common ++ tail))
    (htail : Clear tail) (htail' : AtEdge tail') : AtEdge (common ++ tail') := by
  cases common with
  | nil => exact htail'
  | cons c cs =>
    obtain hnil | ⟨mark, rest, hmark, heq⟩ := h
    · simp at hnil
    obtain ⟨rfl, hbody⟩ : c = '<' ∧ cs ++ tail = mark ++ rest := by simpa using heq
    -- The mark has no `<` in it, so it stands before the edge as a whole.
    obtain ⟨more, rfl⟩ := prefix_of_clear ⟨rest, hbody.symm⟩ hmark.angle_not_mem htail
    exact .inr ⟨mark, more ++ tail', hmark, by simp⟩

/-- A plain run is a part of the text from its start. -/
theorem PlainRun.exists_append {text rest : List Char} (h : PlainRun text rest) :
    ∃ value, text = value ++ rest := by
  induction h with
  | refl text => exact ⟨[], rfl⟩
  | @step chars after rest token hlex hplain hrun ih =>
    obtain ⟨value, rfl⟩ := ih
    exact ⟨chars ++ value, by rw [List.append_assoc]⟩

/-- A text that starts with plain tokens does not start at an edge. -/
theorem PlainRun.not_atEdge {value rest : List Char} (h : PlainRun (value ++ rest) rest)
    (hne : value ≠ []) :
    ¬ AtEdge (value ++ rest) := by
  generalize htext : value ++ rest = text at h
  cases h with
  | refl => exact absurd (by simpa using htext) hne
  | step hlex hplain _ => exact hlex.not_atEdge hplain

/-- Plain tokens before an edge stay plain when the text behind the edge is replaced. -/
theorem PlainRun.cut {value tail tail' : List Char} (h : PlainRun (value ++ tail) tail)
    (htail : Clear tail') : PlainRun (value ++ tail') tail' := by
  generalize htext : value ++ tail = text at h
  induction h generalizing value with
  | refl text =>
    obtain rfl : value = [] := by simpa using htext
    exact .refl _
  | @step chars after rest token hlex hplain hrun ih =>
    obtain ⟨value', rfl⟩ := hrun.exists_append
    obtain rfl : value = chars ++ value' := by
      rw [← List.append_assoc] at htext
      exact List.append_cancel_right htext
    rw [List.append_assoc]
    exact .step (hlex.cut htail) hplain (ih rfl)

end Triptych.Markup
