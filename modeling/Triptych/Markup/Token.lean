import Triptych.Text.Position

/-!
# Tokens of markup

Markup is read by two lexers. Between tags the *content* lexer finds comments, declarations, the
starts of opening and closing tags, and text; after the name of a tag the *tag* lexer finds
attribute names, equals signs, quoted values and the end of the tag. Each takes the longest token
and always takes something: a character that starts nothing else is text between tags, and part of a
name inside one.

A `Lexeme` is what one step of a lexer found: the blanks it skipped, the characters of the token,
the token or the fault, and the rest of the text. The laws `lexContent_append` and `lexTag_append`
say that nothing is lost: blanks, characters and rest make up the text.
-/

namespace Triptych.Markup

open Text

/-- One step of a lexer. -/
structure Lexeme (Fault Token : Type) where
  /-- Blanks skipped before the token. -/
  gap : List Char := []
  /-- The characters of the token, as written. -/
  chars : List Char
  /-- What the characters mean. -/
  token : Except Fault Token
  /-- The text after the token. -/
  rest : List Char

/-! ### Between tags -/

/-- What stands between tags. -/
inductive ContentPart where
  /-- A comment; the value is what stands between its delimiters. -/
  | comment (value : String)
  /-- A declaration such as a document type, as written. -/
  | declaration (body : String)
  /-- The start of an opening tag. -/
  | openTag (name : String)
  /-- The start of a closing tag. -/
  | closeTag (name : String)
  /-- A run of characters without `<`. -/
  | text (value : String)
  /-- A `<` that starts nothing. -/
  | lessThan
deriving DecidableEq, Repr

/-- Why a piece of content is no token. -/
inductive ContentFault where
  | unterminatedComment
  | unterminatedDeclaration
deriving DecidableEq, Repr

/-- The characters that may follow the first letter of a tag name. -/
def isTagNameChar (c : Char) : Bool :=
  isAsciiLetter c || isAsciiDigit c || c == '_' || c == ':' || c == '.' || c == '-'

/-- The four characters that start a comment. -/
def commentStart : List Char := ['<', '!', '-', '-']

/-- The three characters that end a comment. -/
def commentStop : List Char := ['-', '-', '>']

/-- Reads a comment whose start has been taken off. The comment ends at the first end mark after its
start; without one only the start itself is the fault. -/
def lexMarkupComment (rest : List Char) : Lexeme ContentFault ContentPart :=
  match breakOn commentStop rest with
  | some (value, found) =>
    { chars := commentStart ++ value ++ commentStop
      token := .ok (.comment (String.ofList value))
      rest := found.drop 3 }
  | none => { chars := commentStart, token := .error .unterminatedComment, rest := rest }

/-- Reads a declaration from its first letter on, up to the next `>`. Without one the fault is all
of the text. -/
def lexDeclaration (body : List Char) : Lexeme ContentFault ContentPart :=
  let inner := body.takeWhile (· != '>')
  match body.dropWhile (· != '>') with
  | c :: rest =>
    let chars := '<' :: '!' :: (inner ++ [c])
    { chars, token := .ok (.declaration (String.ofList chars)), rest }
  | [] => { chars := '<' :: '!' :: inner, token := .error .unterminatedDeclaration, rest := [] }

/-- A `<` that starts nothing, before `rest`. -/
def lexLessThan (rest : List Char) : Lexeme ContentFault ContentPart :=
  { chars := ['<'], token := .ok .lessThan, rest }

/-- Reads what starts with `<`, given the text after it. -/
def lexAngle : List Char → Lexeme ContentFault ContentPart
  | '!' :: '-' :: '-' :: rest => lexMarkupComment rest
  | '!' :: c :: rest => if isAsciiLetter c then lexDeclaration (c :: rest)
      else lexLessThan ('!' :: c :: rest)
  | '/' :: c :: rest =>
    if isAsciiLetter c then
      let name := c :: rest.takeWhile isTagNameChar
      { chars := '<' :: '/' :: name
        token := .ok (.closeTag (String.ofList name))
        rest := rest.dropWhile isTagNameChar }
    else lexLessThan ('/' :: c :: rest)
  | c :: rest =>
    if isAsciiLetter c then
      let name := c :: rest.takeWhile isTagNameChar
      { chars := '<' :: name
        token := .ok (.openTag (String.ofList name))
        rest := rest.dropWhile isTagNameChar }
    else lexLessThan (c :: rest)
  | [] => lexLessThan []

/-- The next token of content; nothing at the end of the text. -/
def lexContent : List Char → Option (Lexeme ContentFault ContentPart)
  | [] => none
  | c :: cs =>
    if c = '<' then some (lexAngle cs)
    else
      let run := c :: cs.takeWhile (· != '<')
      some { chars := run, token := .ok (.text (String.ofList run))
             rest := cs.dropWhile (· != '<') }

/-! ### Inside a tag -/

/-- What stands inside a tag, after its name. -/
inductive TagPart where
  /-- The end `>`. -/
  | close
  /-- The end `/>`. -/
  | selfClose
  /-- A `/` that ends nothing. -/
  | slash
  | equals
  | doubleQuoted (value : String)
  | singleQuoted (value : String)
  | name (value : String)
deriving DecidableEq, Repr

/-- Why a piece of a tag is no token. -/
inductive TagFault where
  | unterminatedValue
  | lessThan
deriving DecidableEq, Repr

/-- The characters of an attribute name: all but blanks, quotes and the signs of a tag. -/
def isAttributeNameChar (c : Char) : Bool :=
  !(isAsciiBlank c || c == '"' || c == '\'' || c == '<' || c == '>' || c == '=' || c == '/')

/-- Reads a value whose opening quote has been taken off. Without a closing quote the fault is all
of the text. -/
def lexQuoted (gap : List Char) (mark : Char) (token : String → TagPart) (rest : List Char) :
    Lexeme TagFault TagPart :=
  let value := rest.takeWhile (· != mark)
  match rest.dropWhile (· != mark) with
  | c :: rest =>
    { gap, chars := mark :: (value ++ [c]), token := .ok (token (String.ofList value)), rest }
  | [] => { gap, chars := mark :: value, token := .error .unterminatedValue, rest := [] }

/-- Reads the token that starts with `c`, which is no blank, before `cs`. -/
def lexTagAt (gap : List Char) (c : Char) (cs : List Char) : Lexeme TagFault TagPart :=
  if c = '>' then { gap, chars := [c], token := .ok .close, rest := cs }
  else if c = '/' then
    match cs with
    | '>' :: rest => { gap, chars := [c, '>'], token := .ok .selfClose, rest }
    | rest => { gap, chars := [c], token := .ok .slash, rest }
  else if c = '=' then { gap, chars := [c], token := .ok .equals, rest := cs }
  else if c = '<' then { gap, chars := [c], token := .error .lessThan, rest := cs }
  else if c = '"' then lexQuoted gap c .doubleQuoted cs
  else if c = '\'' then lexQuoted gap c .singleQuoted cs
  else
    let name := c :: cs.takeWhile isAttributeNameChar
    { gap, chars := name, token := .ok (.name
      (String.ofList name)), rest := cs.dropWhile isAttributeNameChar }

/-- The next token of a tag, after blanks; nothing when only blanks are left. -/
def lexTag (text : List Char) : Option (Lexeme TagFault TagPart) :=
  match text.dropWhile isAsciiBlank with
  | [] => none
  | c :: cs => some (lexTagAt (text.takeWhile isAsciiBlank) c cs)

/-! ### Names of tokens in messages -/

/-- The token as a message shows it. -/
def ContentPart.display : ContentPart → String
  | .comment _ => "comment"
  | .declaration body => "declaration " ++ body
  | .openTag name => "<" ++ name
  | .closeTag name => "</" ++ name
  | .text _ => "text"
  | .lessThan => "'<'"

/-- The token as a message shows it. -/
def TagPart.display : TagPart → String
  | .close => "'>'"
  | .selfClose => "'/>'"
  | .slash => "'/'"
  | .equals => "'='"
  | .doubleQuoted value => "string \"" ++ value ++ "\""
  | .singleQuoted value => "string '" ++ value ++ "'"
  | .name value => "name '" ++ value ++ "'"

/-! ### Nothing is lost -/

/-- What a lexer has taken and what it has left make up the text, for each of them. -/
theorem lexMarkupComment_append (rest : List Char) :
    (lexMarkupComment rest).chars ++ (lexMarkupComment rest).rest = commentStart ++ rest := by
  unfold lexMarkupComment
  split
  next value found h =>
    obtain ⟨happend, tail, rfl⟩ := breakOn_spec h
    simp [← happend, commentStop]
  next => rfl

theorem lexDeclaration_append (body : List Char) :
    (lexDeclaration body).chars ++ (lexDeclaration body).rest = '<' :: '!' :: body := by
  have hsplit := List.takeWhile_append_dropWhile (p := (· != '>')) (l := body)
  unfold lexDeclaration
  split
  next c rest h =>
    rw [h] at hsplit
    simp [hsplit]
  next h =>
    rw [h] at hsplit
    simpa using hsplit

theorem lexAngle_append (cs : List Char) :
    (lexAngle cs).chars ++ (lexAngle cs).rest = '<' :: cs := by
  unfold lexAngle
  split
  · simpa [commentStart] using lexMarkupComment_append _
  · split
    · exact lexDeclaration_append _
    · rfl
  · split
    · simp
    · rfl
  · split
    · simp
    · rfl
  · rfl

/-- The characters of a content token and the rest make up the text. -/
theorem lexContent_append {text : List Char} {lexeme : Lexeme ContentFault ContentPart}
    (h : lexContent text = some lexeme) : lexeme.chars ++ lexeme.rest = text := by
  unfold lexContent at h
  split at h
  · contradiction
  · split at h
    next hc =>
      obtain rfl := Option.some.inj h
      rw [lexAngle_append, hc]
    next =>
      obtain rfl := Option.some.inj h
      simp

/-- Each of them takes a character at least. -/
theorem lexMarkupComment_chars_ne_nil (rest : List Char) : (lexMarkupComment rest).chars ≠ [] := by
  unfold lexMarkupComment
  split <;> simp [commentStart]

theorem lexDeclaration_chars_ne_nil (body : List Char) : (lexDeclaration body).chars ≠ [] := by
  unfold lexDeclaration
  split <;> simp

theorem lexAngle_chars_ne_nil (cs : List Char) : (lexAngle cs).chars ≠ [] := by
  unfold lexAngle
  split
  · exact lexMarkupComment_chars_ne_nil _
  · split
    · exact lexDeclaration_chars_ne_nil _
    · simp [lexLessThan]
  · split <;> simp [lexLessThan]
  · split <;> simp [lexLessThan]
  · simp [lexLessThan]

/-- A content token has at least one character. -/
theorem lexContent_chars_ne_nil {text : List Char} {lexeme : Lexeme ContentFault ContentPart}
    (h : lexContent text = some lexeme) : lexeme.chars ≠ [] := by
  unfold lexContent at h
  split at h
  · contradiction
  · split at h
    next =>
      obtain rfl := Option.some.inj h
      exact lexAngle_chars_ne_nil _
    next =>
      obtain rfl := Option.some.inj h
      simp

/-- Reading content makes the text shorter. -/
theorem lexContent_rest_lt {text : List Char} {lexeme : Lexeme ContentFault ContentPart}
    (h : lexContent text = some lexeme) : lexeme.rest.length < text.length := by
  have hlen := congrArg List.length (lexContent_append h)
  have hpos := List.length_pos_iff.2 (lexContent_chars_ne_nil h)
  simp only [List.length_append] at hlen
  omega

/-- The lexers of tags also keep the blanks before a token. -/
theorem lexQuoted_append (gap : List Char) (mark : Char) (token : String → TagPart)
    (rest : List Char) :
    (lexQuoted gap mark token rest).gap ++ ((lexQuoted gap mark token rest).chars ++
      (lexQuoted gap mark token rest).rest) = gap ++ mark :: rest := by
  have hsplit := List.takeWhile_append_dropWhile (p := (· != mark)) (l := rest)
  unfold lexQuoted
  split
  next c after h =>
    rw [h] at hsplit
    simp [hsplit]
  next h =>
    rw [h] at hsplit
    simpa using hsplit

theorem lexTagAt_append (gap : List Char) (c : Char) (cs : List Char) :
    (lexTagAt gap c cs).gap ++ ((lexTagAt gap c cs).chars ++ (lexTagAt gap c cs).rest) =
      gap ++ c :: cs := by
  unfold lexTagAt
  split
  · simp
  split
  · split <;> simp
  split
  · simp
  split
  · simp
  split
  · exact lexQuoted_append ..
  split
  · exact lexQuoted_append ..
  · simp

/-- The skipped blanks, the characters of a tag token and the rest make up the text. -/
theorem lexTag_append {text : List Char} {lexeme : Lexeme TagFault TagPart}
    (h : lexTag text = some lexeme) : lexeme.gap ++ (lexeme.chars ++ lexeme.rest) = text := by
  unfold lexTag at h
  split at h
  · contradiction
  next c cs hdrop =>
    obtain rfl := Option.some.inj h
    rw [lexTagAt_append, ← hdrop, List.takeWhile_append_dropWhile]

/-- A tag token has at least one character. -/
theorem lexTagAt_chars_ne_nil (gap : List Char) (c : Char) (cs : List Char) :
    (lexTagAt gap c cs).chars ≠ [] := by
  unfold lexTagAt lexQuoted
  repeat' split
  all_goals simp

/-- Reading a tag makes the text shorter. -/
theorem lexTag_rest_lt {text : List Char} {lexeme : Lexeme TagFault TagPart}
    (h : lexTag text = some lexeme) : lexeme.rest.length < text.length := by
  have hlen := congrArg List.length (lexTag_append h)
  simp only [List.length_append] at hlen
  unfold lexTag at h
  split at h
  · contradiction
  next c cs _ =>
    obtain rfl := Option.some.inj h
    have hpos := List.length_pos_iff.2 (lexTagAt_chars_ne_nil (text.takeWhile isAsciiBlank) c cs)
    omega

/-- Reading a content token brings the reader to its end. -/
theorem lexContent_advances {text : List Char} {lexeme : Lexeme ContentFault ContentPart}
    (pos : Nat) (h : lexContent text = some lexeme) :
    Advances pos text (pos + byteLength lexeme.chars) lexeme.rest :=
  ⟨lexeme.chars, (lexContent_append h).symm, rfl⟩

/-- Reading a tag token brings the reader past the blanks before it to its end. -/
theorem lexTag_advances {text : List Char} {lexeme : Lexeme TagFault TagPart} (pos : Nat)
    (h : lexTag text = some lexeme) :
    Advances pos text (pos + byteLength lexeme.gap + byteLength lexeme.chars) lexeme.rest :=
  ⟨lexeme.gap ++ lexeme.chars, by rw [List.append_assoc]; exact (lexTag_append h).symm,
    by simp [Nat.add_assoc]⟩

/-! ### Whole texts -/

/-- All content tokens and faults of a text that starts at `pos`, with their spans. Lexing goes on
after a fault. -/
def contentTokens (pos : Nat) (text : List Char) :
    List (Except ContentFault ContentPart × Span) :=
  match _h : lexContent text with
  | none => []
  | some lexeme =>
    let stop := pos + byteLength lexeme.chars
    (lexeme.token, ⟨pos, stop⟩) :: contentTokens stop lexeme.rest
termination_by text.length
decreasing_by exact lexContent_rest_lt _h

/-- All tag tokens and faults of a text that starts at `pos`, with their spans. Lexing goes on after
a fault. -/
def tagTokens (pos : Nat) (text : List Char) : List (Except TagFault TagPart × Span) :=
  match _h : lexTag text with
  | none => []
  | some lexeme =>
    let start := pos + byteLength lexeme.gap
    let stop := start + byteLength lexeme.chars
    (lexeme.token, ⟨start, stop⟩) :: tagTokens stop lexeme.rest
termination_by text.length
decreasing_by exact lexTag_rest_lt _h

end Triptych.Markup
