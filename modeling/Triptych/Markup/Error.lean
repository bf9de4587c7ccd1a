import Triptych.Markup.Token

/-!
# Parse errors

A `ParseError` says what is wrong with a source and where; the wording is `ParseError.message`, and
`ParseError.label` is the short form that stands beside the marked place in a report.
-/

namespace Triptych.Markup

/-- What was looked for inside a tag. -/
inductive Expected where
  | tagEnd
  | attributeName
  | attributeValue
deriving DecidableEq, Repr

/-- What was looked for, as a message says it. -/
def Expected.display : Expected → String
  | .tagEnd => "'>'"
  | .attributeName => "attribute name"
  | .attributeValue => "attribute value"

/-- The ways in which a source breaks a rule other than that of the next token. -/
inductive SyntaxFault where
  | closingTagAtTopLevel (name : String)
  | strayClosingTag (name : String)
  | unterminatedComment
  | unterminatedValue
  | lessThanInTag
deriving DecidableEq, Repr

/-- The rule that was broken, as a message says it. -/
def SyntaxFault.message : SyntaxFault → String
  | .closingTagAtTopLevel name => s!"Unexpected closing tag </{name}> at top level"
  | .strayClosingTag name => s!"Unexpected closing tag </{name}>"
  | .unterminatedComment => "Unterminated comment"
  | .unterminatedValue => "Unterminated attribute value"
  | .lessThanInTag => "Unexpected '<' inside tag"

/-- Why a source cannot be read. Beside the span of the part that is at fault an error keeps the
offset that it points at; where an error is made this is the start of the span. -/
inductive ParseError where
  /-- A tag holds something else than it should at this place. -/
  | unexpectedToken (span : Span) (expected : Expected) (found : TagPart) (pos : Nat := span.start)
  /-- The source ends inside a tag. -/
  | unexpectedEnd (pos : Nat) (expected : Expected)
  | invalidSyntax (span : Span) (fault : SyntaxFault) (pos : Nat := span.start)
  /-- A closing tag names another element than the innermost open one. -/
  | mismatchedClosingTag (span : Span) (expected found : String) (pos : Nat := span.start)
  /-- The source ends inside an element; the span is its opening tag. -/
  | unclosedElement (span : Span) (name : String) (pos : Nat := span.start)
  /-- A piece of the source is no token, and no more is said about it: a declaration without an
  end. -/
  | unterminatedDeclaration (span : Span) (pos : Nat := span.start)
deriving DecidableEq, Repr

namespace ParseError

/-- The byte offset that the error points at. -/
def offset : ParseError → Nat
  | .unexpectedToken _ _ _ pos => pos
  | .unexpectedEnd pos _ => pos
  | .invalidSyntax _ _ pos => pos
  | .mismatchedClosingTag _ _ _ pos => pos
  | .unclosedElement _ _ pos => pos
  | .unterminatedDeclaration _ pos => pos

/-- The part of the source that is at fault; empty at the end of the source. -/
def span : ParseError → Span
  | .unexpectedToken span _ _ _ => span
  | .unexpectedEnd pos _ => ⟨pos, pos⟩
  | .invalidSyntax span _ _ => span
  | .mismatchedClosingTag span _ _ _ => span
  | .unclosedElement span _ _ => span
  | .unterminatedDeclaration span _ => span

/-- The error, found in a part of a text, with the offsets of the whole text in which the part
begins at `base`. -/
def shift (base : Nat) : ParseError → ParseError
  | .unexpectedToken span expected found pos =>
    .unexpectedToken (span.shift base) expected found (pos + base)
  | .unexpectedEnd pos expected => .unexpectedEnd (pos + base) expected
  | .invalidSyntax span fault pos => .invalidSyntax (span.shift base) fault (pos + base)
  | .mismatchedClosingTag span expected found pos =>
    .mismatchedClosingTag (span.shift base) expected found (pos + base)
  | .unclosedElement span name pos => .unclosedElement (span.shift base) name (pos + base)
  | .unterminatedDeclaration span pos => .unterminatedDeclaration (span.shift base) (pos + base)

/-- The error in words. -/
def message : ParseError → String
  | .unexpectedToken _ expected found pos =>
    s!"Unexpected token at {pos}: expected {expected.display}, found {found.display}"
  | .unexpectedEnd pos expected => s!"Unexpected end of file at {pos}: expected {expected.display}"
  | .invalidSyntax _ fault pos => s!"Invalid syntax at {pos}: {fault.message}"
  | .mismatchedClosingTag _ expected found pos =>
    s!"Closing tag </{found}> at {pos} does not match <{expected}>"
  | .unclosedElement _ name pos => s!"Element <{name}> opened at {pos} is never closed"
  | .unterminatedDeclaration _ pos => s!"Lexer error at {pos}"

/-- The short text beside the marked place of a report. -/
def label : ParseError → String
  | .unexpectedToken _ expected _ _ => s!"expected {expected.display}"
  | .unexpectedEnd _ expected => s!"expected {expected.display}"
  | .invalidSyntax _ fault _ => fault.message
  | .mismatchedClosingTag _ expected _ _ => s!"expected </{expected}>"
  | .unclosedElement _ name _ => s!"<{name}> opened here"
  | .unterminatedDeclaration _ _ => "unrecognised input"

end ParseError

/-! ### Pieces that are no token -/

/-- The error for a piece of content that is no token. It stands at `pos`, where `text` is left of
the source, and takes `size` bytes; a piece is given at least one. -/
def refusedContent (pos size : Nat) (text : List Char) : ParseError :=
  let span : Span := ⟨pos, pos + max size 1⟩
  if commentStart.isPrefixOf text then .invalidSyntax span .unterminatedComment
  else .unterminatedDeclaration span

/-- The error for a piece of a tag that is no token, told by the first character of what is left of
the source there. No piece that the lexer refuses gets to the last case (`refusedTag_eq`). -/
def refusedTag (span : Span) (text : List Char) : ParseError :=
  match text.head? with
  | some '"' | some '\'' => .invalidSyntax span .unterminatedValue
  | some '<' => .invalidSyntax span .lessThanInTag
  | _ => .unterminatedDeclaration span

end Triptych.Markup
