import Mathlib.Data.List.TakeWhile
import Triptych.Proofs.Markup.Layout

/-!
# What parse errors point at

A parse error has a span, and the span covers what the error talks about: the token that should not
be there, the closing tag that does not fit, the opening tag of an element that nothing closes.
`ParseError.PointsAt` says what that is, for each kind of error. All of it is stated through
`Covers`, so that spans lie in the source and cut it between characters.

Errors are found in two places. A lexer finds a piece of text that is no token; what such a piece
looks like is said by `FailsToLex` and `FailsToLexTag`, beside `Lexes` and `LexesTag` for the pieces
that are tokens. A reader finds a token where it does not belong, or the end of the source. In both
cases the reader knows where it stands, and every step of it keeps to that (`Advances`); the opening
tags that it has not seen closed are kept in its stack, and each of them is in its place
(`OpenedBy`).

The error for a piece that is no token is told from the first characters of the piece, which is
enough: `refusedContent_eq` and `refusedTag_eq` say that this finds the fault that the lexer met.
The offset of an error is kept beside its span; `ParseError.Placed` says that it is the start of the
span and that the error points at what it is about.

* `placed_of_readTag`, `placed_of_readTagEnd`, `placed_of_readRawText`: errors inside a tag and in
  raw text;
* `placed_of_parseNodes`: errors of a whole run of the parser.
-/

namespace Triptych.Markup

open Text

/-! ### Pieces that are no token -/

/-- The characters, standing before `rest`, are a piece of content that is no token: the start of a
comment that does not end, or a declaration that goes on to the end of the text. -/
inductive FailsToLex : List Char → ContentFault → List Char → Prop
  | comment {rest : List Char} (hend : ¬ commentStop <:+: rest) :
      FailsToLex commentStart .unterminatedComment rest
  | declaration {c : Char} {body : List Char} (hletter : isAsciiLetter c = true)
      (hbody : '>' ∉ body) :
    FailsToLex ('<' :: '!' :: c :: body) .unterminatedDeclaration []

/-- The characters, standing before `rest`, are a piece of a tag that is no token: a quoted value
that goes on to the end of the text, or a `<`. -/
inductive FailsToLexTag : List Char → TagFault → List Char → Prop
  | value {mark : Char} {value : List Char} (hmark : mark = '"' ∨ mark = '\'')
      (hvalue : mark ∉ value) :
    FailsToLexTag (mark :: value) .unterminatedValue []
  | lessThan {rest : List Char} : FailsToLexTag ['<'] .lessThan rest

/-- A run up to a mark that does not come is all of the text. -/
theorem takeWhile_ne_of_dropWhile_eq_nil {mark : Char} {text : List Char}
    (h : text.dropWhile (· != mark) = []) :
    text.takeWhile (· != mark) = text ∧ mark ∉ text := by
  have hall : ∀ c ∈ text, (c != mark) = true := List.dropWhile_eq_nil_iff.1 h
  refine ⟨List.takeWhile_eq_self_iff.2 hall, fun hmem => ?_⟩
  simpa using hall mark hmem

/-- **A refused piece is of the kind that its fault says**, by what it starts with: a comment, a
declaration, and in tags a quote. -/
theorem failsToLex_lexMarkupComment {rest : List Char} {fault : ContentFault}
    (h : (lexMarkupComment rest).token = .error fault) :
    FailsToLex (lexMarkupComment rest).chars fault (lexMarkupComment rest).rest := by
  unfold lexMarkupComment at h ⊢
  split at h
  next => contradiction
  next hbreak =>
    obtain rfl := Except.error.inj h
    exact .comment ((breakOn_eq_none_iff (by simp [commentStop])).1 hbreak)

theorem failsToLex_lexDeclaration {c : Char} {body : List Char} {fault : ContentFault}
    (hletter : isAsciiLetter c = true) (h : (lexDeclaration (c :: body)).token = .error fault) :
    FailsToLex (lexDeclaration (c :: body)).chars fault (lexDeclaration (c :: body)).rest := by
  unfold lexDeclaration at h ⊢
  split at h
  next => contradiction
  next hdrop =>
    obtain rfl := Except.error.inj h
    -- Nothing ends the declaration, so the run up to `>` is all of it.
    obtain ⟨hrun, hnone⟩ := takeWhile_ne_of_dropWhile_eq_nil hdrop
    rw [hrun]
    exact .declaration hletter fun hmem => hnone (List.mem_cons_of_mem c hmem)

/-- **What the content lexer refuses** is a comment or a declaration without an end. -/
theorem failsToLex_of_lexContent {text : List Char} {lexeme : Lexeme ContentFault ContentPart}
    {fault : ContentFault} (h : lexContent text = some lexeme)
    (hfault : lexeme.token = .error fault) :
    FailsToLex lexeme.chars fault lexeme.rest := by
  unfold lexContent at h
  split at h
  · contradiction
  split at h
  next c cs _ =>
    obtain rfl := Option.some.inj h
    -- Of what may follow `<` only these two can have no end.
    unfold lexAngle at hfault ⊢
    split at hfault
    · exact failsToLex_lexMarkupComment hfault
    · split at hfault
      next hletter =>
        rw [if_pos hletter]
        exact failsToLex_lexDeclaration hletter hfault
      next => contradiction
    · split at hfault <;> contradiction
    · split at hfault <;> contradiction
    · contradiction
  next =>
    obtain rfl := Option.some.inj h
    contradiction

theorem failsToLexTag_lexQuoted {gap rest : List Char} {mark : Char} {token : String → TagPart}
    {fault : TagFault} (hmark : mark = '"' ∨ mark = '\'')
    (h : (lexQuoted gap mark token rest).token = .error fault) :
    FailsToLexTag (lexQuoted gap mark token rest).chars fault
      (lexQuoted gap mark token rest).rest := by
  unfold lexQuoted at h ⊢
  split at h
  next => contradiction
  next hdrop =>
    obtain rfl := Except.error.inj h
    obtain ⟨hrun, hnone⟩ := takeWhile_ne_of_dropWhile_eq_nil hdrop
    rw [hrun]
    exact .value hmark hnone

/-- **What the tag lexer refuses** is a value without its closing quote, or a `<`. -/
theorem failsToLexTag_of_lexTag {text : List Char} {lexeme : Lexeme TagFault TagPart}
    {fault : TagFault} (h : lexTag text = some lexeme) (hfault : lexeme.token = .error fault) :
    FailsToLexTag lexeme.chars fault lexeme.rest := by
  unfold lexTag at h
  split at h
  · contradiction
  next c cs hdrop =>
    obtain rfl := Option.some.inj h
    -- One split for each first character that the lexer knows.
    unfold lexTagAt at hfault ⊢
    split at hfault
    next => contradiction
    next hclose =>
    rw [if_neg hclose]
    split at hfault
    next => split at hfault <;> contradiction
    next hslash =>
    rw [if_neg hslash]
    split at hfault
    next => contradiction
    next hequals =>
    rw [if_neg hequals]
    split at hfault
    next hangle =>
      obtain rfl := Except.error.inj hfault
      rw [if_pos hangle, hangle]
      exact .lessThan
    next hangle =>
    rw [if_neg hangle]
    split at hfault
    next hdouble =>
      rw [if_pos hdouble]
      exact failsToLexTag_lexQuoted (.inl hdouble) hfault
    next hdouble =>
    rw [if_neg hdouble]
    split at hfault
    next hsingle =>
      rw [if_pos hsingle]
      exact failsToLexTag_lexQuoted (.inr hsingle) hfault
    next => contradiction

/-! ### What a refused piece is called -/

/-- **The start of a comment tells a comment without an end** from a declaration without one. -/
theorem refusedContent_eq {chars rest : List Char} {fault : ContentFault}
    (h : FailsToLex chars fault rest) (pos : Nat) :
    refusedContent pos (byteLength chars) (chars ++ rest) =
      match fault with
      | .unterminatedComment => .invalidSyntax ⟨pos, pos + byteLength chars⟩ .unterminatedComment
      | .unterminatedDeclaration => .unterminatedDeclaration ⟨pos, pos + byteLength chars⟩ := by
  cases h with
  | @comment rest =>
    have hstart : commentStart.isPrefixOf (commentStart ++ rest) = true :=
      List.isPrefixOf_iff_prefix.2 (List.prefix_append commentStart rest)
    unfold refusedContent
    rw [if_pos hstart]
    rfl
  | @declaration c body hletter _ =>
    have hpiece : max (byteLength ('<' :: '!' :: c :: body)) 1 =
        byteLength ('<' :: '!' :: c :: body) := by
      refine Nat.max_eq_left ?_
      exact Nat.le_trans (Char.utf8Size_pos '<') (Nat.le_add_right _ _)
    -- What follows `<!` is a letter, so no comment starts here.
    have hstart : ¬ commentStart.isPrefixOf ('<' :: '!' :: c :: body ++ []) = true := by
      rintro hstart
      obtain ⟨rfl, -⟩ : '-' = c ∧ ['-'] <+: body := by simpa [commentStart] using hstart
      exact absurd hletter (by decide)
    unfold refusedContent
    rw [if_neg hstart, hpiece]

/-- **The first character tells an unfinished value from a lone `<`**, and there is nothing else to
tell. -/
theorem refusedTag_eq {chars rest : List Char} {fault : TagFault}
    (h : FailsToLexTag chars fault rest) (span : Span) :
    refusedTag span (chars ++ rest) =
      match fault with
      | .unterminatedValue => .invalidSyntax span .unterminatedValue
      | .lessThan => .invalidSyntax span .lessThanInTag := by
  cases h with
  | value hmark => rcases hmark with rfl | rfl <;> rfl
  | lessThan => rfl

/-! ### The statement -/

/-- **The span covers a complete opening tag** for the name, up to letter case: from `<` and the
name to the `>` that ends the tag, and no further. -/
def OpenedBy (source : List Char) (span : Span) (name : String) : Prop :=
  ∃ tag body, Covers source span ('<' :: tag.name.toList ++ body ++ ['>']) ∧
    OpensWith span.start ('<' :: tag.name.toList ++ body ++ ['>']) tag span.stop [] ∧
    tag.selfClosing = false ∧ equalsIgnoringCase tag.name.toList name.toList = true

/-- What a broken rule is about: the closing tag that nothing opened, up to the end of its name; the
start of the comment that no mark ends; the value from its quote to the end of the source; the
`<`. -/
def SyntaxFault.PointsAt (source : List Char) (span : Span) : SyntaxFault → Prop
  | .closingTagAtTopLevel name => Covers source span ('<' :: '/' :: name.toList)
  | .strayClosingTag name => Covers source span ('<' :: '/' :: name.toList)
  | .unterminatedComment => Covers source span commentStart ∧
      ¬ commentStop <:+: dropBytes span.stop source
  | .unterminatedValue => ∃ mark value, (mark = '"' ∨ mark = '\'') ∧ mark ∉ value ∧
      Covers source span (mark :: value) ∧ span.stop = byteLength source
  | .lessThanInTag => Covers source span ['<']

/-- **What an error is about**: the token that was found, as it is written; the end of the source;
what breaks a rule; the closing tag of another name, up to the end of that name; the opening tag of
an element without an end; the declaration from `<!` and a letter to the end of the source, without
a `>`. -/
def ParseError.PointsAt (source : List Char) : ParseError → Prop
  | .unexpectedToken span _ found _ => ∃ chars rest, Covers source span chars ∧
      LexesTag chars found rest
  | .unexpectedEnd offset _ => offset = byteLength source
  | .invalidSyntax span fault _ => fault.PointsAt source span
  | .mismatchedClosingTag span expected found _ =>
    Covers source span ('<' :: '/' :: found.toList) ∧
      equalsIgnoringCase expected.toList found.toList = false
  | .unclosedElement span name _ => OpenedBy source span name
  | .unterminatedDeclaration span _ => ∃ letter body, isAsciiLetter letter = true ∧ '>' ∉ body ∧
      Covers source span ('<' :: '!' :: letter :: body) ∧ span.stop = byteLength source

/-- **An error in its place**: the offset that it keeps is the start of its span, and it points at
what it is about. -/
structure ParseError.Placed (source : List Char) (error : ParseError) : Prop where
  offset_eq : error.offset = error.span.start
  pointsAt : error.PointsAt source

/-- No token of a tag is empty. -/
theorem LexesTag.chars_ne_nil {chars rest : List Char} {part : TagPart}
    (h : LexesTag chars part rest) : chars ≠ [] := by
  cases h with
  | name hne => exact hne
  | _ => simp

/-- What a fault points at is a part of the source, and not empty. -/
theorem SyntaxFault.PointsAt.covers {source : List Char} {span : Span} {fault : SyntaxFault}
    (h : fault.PointsAt source span) : ∃ chars, chars ≠ [] ∧ Covers source span chars := by
  cases fault with
  | closingTagAtTopLevel name => exact ⟨_, List.cons_ne_nil _ _, h⟩
  | strayClosingTag name => exact ⟨_, List.cons_ne_nil _ _, h⟩
  | unterminatedComment => exact ⟨_, List.cons_ne_nil _ _, h.1⟩
  | unterminatedValue =>
    obtain ⟨mark, value, -, -, hcovers, -⟩ := h
    exact ⟨_, List.cons_ne_nil _ _, hcovers⟩
  | lessThanInTag => exact ⟨_, List.cons_ne_nil _ _, h⟩

/-- What an error is about is at least one character, or it is the end of the source. -/
theorem ParseError.PointsAt.covers {source : List Char} {error : ParseError}
    (h : error.PointsAt source) :
    (∃ chars, chars ≠ [] ∧ Covers source error.span chars) ∨
      ∃ expected, error = .unexpectedEnd (byteLength source) expected := by
  cases error with
  | unexpectedToken span expected found pos =>
    obtain ⟨chars, rest, hcovers, hlexes⟩ := h
    exact .inl ⟨chars, hlexes.chars_ne_nil, hcovers⟩
  | unexpectedEnd offset expected =>
    obtain rfl : offset = byteLength source := h
    exact .inr ⟨expected, rfl⟩
  | invalidSyntax span fault pos => exact .inl (SyntaxFault.PointsAt.covers h)
  | mismatchedClosingTag span expected found pos => exact .inl ⟨_, List.cons_ne_nil _ _, h.1⟩
  | unclosedElement span name pos =>
    obtain ⟨tag, body, hcovers, -⟩ := h
    exact .inl ⟨_, by simp, hcovers⟩
  | unterminatedDeclaration span pos =>
    obtain ⟨letter, body, -, -, hcovers, -⟩ := h
    exact .inl ⟨_, List.cons_ne_nil _ _, hcovers⟩

/-! ### What a reader sees from where it stands -/

section Readers

variable {source text : List Char} {pos : Nat}

/-- The end of the source is as far away as the text that is left is long. -/
theorem placed_unexpectedEnd (hsource : Advances 0 source pos text) (expected : Expected) :
    (ParseError.unexpectedEnd (pos + byteLength text) expected).Placed source := by
  obtain ⟨read, rfl, rfl⟩ := hsource
  refine ⟨rfl, ?_⟩
  show 0 + byteLength read + byteLength text = byteLength (read ++ text)
  rw [byteLength_append, Nat.zero_add]

/-- A reader with nothing left stands at the end. -/
theorem eq_byteLength_of_advances (hsource : Advances 0 source pos []) :
    pos = byteLength source := by
  obtain ⟨read, rfl, rfl⟩ := hsource
  simp

/-- A token of a tag stands behind its blanks. -/
theorem advances_lexTag {lexeme : Lexeme TagFault TagPart} (hlex : lexTag text = some lexeme)
    (hsource : Advances 0 source pos text) :
    Advances 0 source (pos + byteLength lexeme.gap) (lexeme.chars ++ lexeme.rest) := by
  rw [← lexTag_append hlex] at hsource
  exact hsource.read

/-- **An error is placed in the source**, one reader at a time: first the piece that the lexers
refuse. -/
theorem placed_of_failsToLex {chars rest : List Char} {fault : ContentFault}
    (h : FailsToLex chars fault rest) (hsource : Advances 0 source pos (chars ++ rest)) :
    (refusedContent pos (byteLength chars) (chars ++ rest)).Placed source := by
  have hcovers := Covers.of_advances hsource
  have hbehind := hsource.read
  rw [refusedContent_eq h]
  cases h with
  | comment hend =>
    rw [← hbehind.dropBytes_eq] at hend
    exact ⟨rfl, hcovers, hend⟩
  | declaration hletter hbody =>
    exact ⟨rfl, _, _, hletter, hbody, hcovers, eq_byteLength_of_advances hbehind⟩

theorem placed_of_failsToLexTag {chars rest : List Char} {fault : TagFault}
    (h : FailsToLexTag chars fault rest) (hsource : Advances 0 source pos (chars ++ rest)) :
    (refusedTag ⟨pos, pos + byteLength chars⟩ (chars ++ rest)).Placed source := by
  have hcovers := Covers.of_advances hsource
  rw [refusedTag_eq h]
  cases h with
  | value hmark hvalue =>
    exact ⟨rfl, _, _, hmark, hvalue, hcovers, eq_byteLength_of_advances hsource.read⟩
  | lessThan => exact ⟨rfl, hcovers⟩

/-- A piece of a tag that is no token is what the error is about. -/
theorem placed_of_tagFault {lexeme : Lexeme TagFault TagPart} {fault : TagFault}
    (hlex : lexTag text = some lexeme) (hfault : lexeme.token = .error fault)
    (hsource : Advances 0 source pos text) :
    (refusedTag ⟨pos + byteLength lexeme.gap, pos + byteLength lexeme.gap + byteLength lexeme.chars⟩
      (lexeme.chars ++ lexeme.rest)).Placed source :=
  placed_of_failsToLexTag (failsToLexTag_of_lexTag hlex hfault) (advances_lexTag hlex hsource)

/-- A token of a tag that does not belong there is what the error is about. -/
theorem placed_unexpectedToken {lexeme : Lexeme TagFault TagPart} {part : TagPart}
    (hlex : lexTag text = some lexeme) (hpart : lexeme.token = .ok part)
    (hsource : Advances 0 source pos text) (expected : Expected) :
    (ParseError.unexpectedToken
      ⟨pos + byteLength lexeme.gap, pos + byteLength lexeme.gap + byteLength lexeme.chars⟩ expected
      part).Placed source :=
  ⟨rfl, lexeme.chars, lexeme.rest, Covers.of_advances (advances_lexTag hlex hsource),
    (lexesTag_of_lexTag hlex hpart).2⟩

/-! ### Inside a tag -/

/-- Then the readers of values, of tags and of raw text. -/
theorem placed_of_readValue {error : ParseError} (h : readValue pos text = .error error)
    (hsource : Advances 0 source pos text) : error.Placed source := by
  unfold readValue at h
  -- A bare value is read without an error.
  split at h
  · contradiction
  split at h
  next =>
    obtain rfl := Except.error.inj h
    exact placed_unexpectedEnd hsource _
  -- Otherwise the error is that of the lexer, or a token that is no value.
  next lexeme hlex =>
    dsimp only at h
    split at h
    next fault hfault =>
      obtain rfl := Except.error.inj h
      exact placed_of_tagFault hlex hfault hsource
    · contradiction
    · contradiction
    next part _ _ hpart =>
      obtain rfl := Except.error.inj h
      exact placed_unexpectedToken hlex hpart hsource _

theorem placed_of_readTagEnd {error : ParseError} (h : readTagEnd pos text = .error error)
    (hsource : Advances 0 source pos text) : error.Placed source := by
  unfold readTagEnd at h
  split at h
  next =>
    obtain rfl := Except.error.inj h
    exact placed_unexpectedEnd hsource _
  next lexeme hlex =>
    dsimp only at h
    split at h
    next fault hfault =>
      obtain rfl := Except.error.inj h
      exact placed_of_tagFault hlex hfault hsource
    · contradiction
    next part _ hpart =>
      obtain rfl := Except.error.inj h
      exact placed_unexpectedToken hlex hpart hsource _

/-- **Errors inside an opening tag** point at what they are about, whatever attributes have been
read before. -/
theorem placed_of_readAttributes {pending : Option (String × Span)} {done : List Attribute}
    {error : ParseError} (h : readAttributes pending done pos text = .error error)
    (hsource : Advances 0 source pos text) :
    error.Placed source := by
  -- Along the run: a token that is read leads to where the rest of the run starts.
  fun_induction readAttributes pending done pos text with
  | case1 pending done pos text hlex =>
    obtain rfl := Except.error.inj h
    exact placed_unexpectedEnd hsource _
  | case2 pending done pos text lexeme hlex _ _ _ fault hfault =>
    obtain rfl := Except.error.inj h
    exact placed_of_tagFault hlex hfault hsource
  | case3 | case4 => contradiction
  | case5 _ _ pos _ lexeme hlex _ _ _ _ ih => exact ih h (hsource.trans (lexTag_advances pos hlex))
  | case6 _ _ pos _ lexeme hlex _ _ _ _ _ ih =>
    exact ih h (hsource.trans (lexTag_advances pos hlex))
  | case7 done pos text lexeme hlex _ _ _ hpart =>
    obtain rfl := Except.error.inj h
    exact placed_unexpectedToken hlex hpart hsource _
  | case8 done pos text lexeme hlex _ _ _ _ _ _ _ hvalue =>
    obtain rfl := Except.error.inj h
    exact placed_of_readValue hvalue (hsource.trans (lexTag_advances pos hlex))
  | case9 done pos text lexeme hlex _ _ _ _ _ _ value hvalue _ ih =>
    exact ih h ((hsource.trans (lexTag_advances pos hlex)).trans (readValue_advances hvalue))
  | case10 pending done pos text lexeme hlex _ _ _ part _ _ _ _ _ hpart =>
    obtain rfl := Except.error.inj h
    exact placed_unexpectedToken hlex hpart hsource _

theorem placed_of_readTag {error : ParseError} (h : readTag pos text = .error error)
    (hsource : Advances 0 source pos text) : error.Placed source :=
  placed_of_readAttributes h hsource

/-! ### Elements that are open -/

/-- A tag that takes a closing one does not close itself. -/
theorem selfClosing_of_takesClosingTag {tag : Tag} (h : tag.takesClosingTag = true) :
    tag.selfClosing = false := by
  rw [Tag.takesClosingTag, Bool.and_eq_true, Bool.not_eq_true'] at h
  exact h.1

/-- **An opening tag that has been read is in its place**, as long as it opens something. -/
theorem openedBy_of_opensWith {mid : Nat} {after : List Char} {tag : Tag} {name : String}
    (h : OpensWith pos text tag mid after) (hself : tag.selfClosing = false)
    (hname : equalsIgnoringCase tag.name.toList name.toList = true)
    (hsource : Advances 0 source pos text) :
    OpenedBy source ⟨pos, mid⟩ name := by
  obtain ⟨body, hcovers⟩ := (h.tagPlaced hsource).covers
  obtain ⟨read, rfl, rfl, hcut⟩ := h.cut
  -- What was read is what the span covers, and it reads the same with nothing behind it.
  have hread : read = '<' :: tag.name.toList ++ body ++ ['>'] :=
    (Covers.of_advances hsource).slice_eq.symm.trans hcovers.slice_eq
  have halone := hcut []
  rw [List.append_nil, hread] at halone
  exact ⟨tag, body, hcovers, by rwa [hread], hself, hname⟩

theorem placed_of_readRawText {name : String} {opening : Span} {error : ParseError}
    (h : readRawText name opening pos text = .error error) (hopening : OpenedBy source opening name)
    (hsource : Advances 0 source pos text) : error.Placed source := by
  unfold readRawText at h
  split at h
  next =>
    obtain rfl := Except.error.inj h
    exact ⟨rfl, hopening⟩
  next content found hbreak =>
    dsimp only at h
    split at h
    next endError hend =>
      obtain rfl := Except.error.inj h
      -- The closing tag is found behind the content, and its end is looked for behind its name.
      rw [← (breakAtClosingTag_spec hbreak).1] at hsource
      have hclosing := hsource.read
      rw [← List.take_append_drop (2 + name.toList.length) found] at hclosing
      exact placed_of_readTagEnd hend hclosing.read
    next => contradiction

/-! ### A run of the parser -/

/-- A closing tag is covered up to the end of its name. -/
theorem covers_closeTag {lexeme : Lexeme ContentFault ContentPart} {name : String}
    (hlex : lexContent text = some lexeme) (htoken : lexeme.token = .ok (.closeTag name))
    (hsource : Advances 0 source pos text) :
    Covers source ⟨pos, pos + byteLength lexeme.chars⟩ ('<' :: '/' :: name.toList) := by
  have hlexes := lexes_of_lexContent hlex htoken
  rw [← lexContent_append hlex] at hsource
  have hcovers := Covers.of_advances hsource
  generalize lexeme.chars = chars, lexeme.rest = rest at *
  cases hlexes with
  | closeTag => rwa [String.toList_ofList]

/-- A piece of content that is no token is what the error is about. -/
theorem placed_of_contentFault {lexeme : Lexeme ContentFault ContentPart} {fault : ContentFault}
    (hlex : lexContent text = some lexeme) (hfault : lexeme.token = .error fault)
    (hsource : Advances 0 source pos text) :
    (refusedContent pos (byteLength lexeme.chars) text).Placed source := by
  rw [← lexContent_append hlex] at hsource ⊢
  exact placed_of_failsToLex (failsToLex_of_lexContent hlex hfault) hsource

/-- **Errors of a run point at what they are about**, if the opening tags that the run started with
are in their places. -/
theorem placed_of_parseNodes {enclosing : Option Enclosing} {stack : List Frame} {nodes : List Node}
    {error : ParseError} (h : parseNodes enclosing stack nodes pos text = .error error)
    (houter : ∀ outer ∈ enclosing, OpenedBy source outer.span outer.name)
    (hstack : ∀ frame ∈ stack, OpenedBy source frame.span frame.tag.name)
    (hsource : Advances 0 source pos text) :
    error.Placed source := by
  -- Along the run. Only an opening tag puts something on the stack, and it is in its place then.
  fun_induction parseNodes enclosing stack nodes pos text with
  | case1 nodes pos text hlex frame stack =>
    obtain rfl := Except.error.inj h
    exact ⟨rfl, hstack frame List.mem_cons_self⟩
  | case2 nodes pos text hlex outer henclosing =>
    obtain rfl := Except.error.inj h
    exact ⟨rfl, houter outer henclosing⟩
  | case3 => contradiction
  | case4 stack nodes pos text lexeme hlex _ fault hfault =>
    obtain rfl := Except.error.inj h
    exact placed_of_contentFault hlex hfault hsource
  | case5 stack nodes pos text lexeme hlex _ _ _ _ ih =>
    exact ih h hstack (hsource.trans (lexContent_advances pos hlex))
  | case6 stack nodes pos text lexeme hlex _ _ _ _ tagError htag =>
    obtain rfl := Except.error.inj h
    exact placed_of_readTag htag (hsource.trans (lexContent_advances pos hlex))
  | case7 stack nodes pos text lexeme hlex _ _ _ _ found htag _ _ _ ih =>
    exact ih h hstack ((hsource.trans (lexContent_advances pos hlex)).trans
      (readAttributes_advances htag))
  | case8 stack nodes pos text lexeme hlex _ _ name htoken found htag _ tag htakes _ rawError
      hraw =>
    obtain rfl := Except.error.inj h
    have hopen := opensWith_of_lexContent hlex htoken htag
    have hopening :=
      openedBy_of_opensWith hopen (selfClosing_of_takesClosingTag (by simpa using htakes))
      (equalsIgnoringCase_refl _) hsource
    exact placed_of_readRawText hraw hopening
      ((hsource.trans (lexContent_advances pos hlex)).trans (readAttributes_advances htag))
  | case9 stack nodes pos text lexeme hlex _ _ _ _ found htag _ _ _ _ raw hraw _ _ ih =>
    exact ih h hstack
      (((hsource.trans (lexContent_advances pos hlex)).trans (readAttributes_advances htag)).trans
      (readRawText_advances hraw))
  | case10 stack nodes pos text lexeme hlex _ _ name htoken found htag _ tag htakes _ ih =>
    have hopen := opensWith_of_lexContent hlex htoken htag
    have hopening :=
      openedBy_of_opensWith hopen (selfClosing_of_takesClosingTag (by simpa using htakes))
      (equalsIgnoringCase_refl _) hsource
    refine ih h ?_ ((hsource.trans (lexContent_advances pos hlex)).trans
      (readAttributes_advances htag))
    exact List.forall_mem_cons.2 ⟨hopening, hstack⟩
  | case11 nodes pos text lexeme hlex _ _ name _ frame stack _ endError hend =>
    obtain rfl := Except.error.inj h
    exact placed_of_readTagEnd hend (hsource.trans (lexContent_advances pos hlex))
  | case12 nodes pos text lexeme hlex _ _ name _ frame stack _ stop rest hend _ ih =>
    exact ih h (List.forall_mem_cons.1 hstack).2
      ((hsource.trans (lexContent_advances pos hlex)).trans (readTagEnd_advances hend))
  | case13 nodes pos text lexeme hlex _ _ name htoken frame stack hname =>
    obtain rfl := Except.error.inj h
    exact ⟨rfl, covers_closeTag hlex htoken hsource, by simpa using hname⟩
  | case14 nodes pos text lexeme hlex _ _ name _ outer _ _ endError hend =>
    obtain rfl := Except.error.inj h
    exact placed_of_readTagEnd hend (hsource.trans (lexContent_advances pos hlex))
  | case15 => contradiction
  | case16 nodes pos text lexeme hlex _ _ name htoken outer _ hname =>
    obtain rfl := Except.error.inj h
    exact ⟨rfl, covers_closeTag hlex htoken hsource, by simpa using hname⟩
  | case17 nodes pos text lexeme hlex _ _ name htoken =>
    obtain rfl := Except.error.inj h
    exact ⟨rfl, covers_closeTag hlex htoken hsource⟩
  | case18 stack nodes pos text lexeme hlex _ _ _ _ _ _ _ ih =>
    exact ih h hstack (hsource.trans (lexContent_advances pos hlex))

end Readers

end Triptych.Markup
