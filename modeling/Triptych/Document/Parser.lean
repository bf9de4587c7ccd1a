import Triptych.Markup.Parser
import Triptych.Document.Section

/-!
# Reading documents

Between sections nothing means anything: text, comments, declarations and lone `<` are skipped, and
only a closing tag is an error. A section runs to the closing tag of its own name, up to the case of
ASCII letters. A `template` without a language is read as markup up to that tag; every other section
is raw text.
-/

namespace Triptych.Document

open Text Markup

/-- True when one of the attributes is named `lang` and has a value other than blanks. -/
def declaresLanguage (attributes : List Attribute) : Bool :=
  attributes.any fun attr =>
    attr.name == "lang" && attr.value.any fun value => !isBlankText value.toList

/-- A section and the text after it. -/
structure ReadSection where
  found : Section
  stop : Nat
  rest : List Char

/-- Reads a section of which the opening `<` stands at `start` and the text after its tag name at
`pos`. -/
def readSection (source : List Char) (openedAs : String) (start pos : Nat) (text : List Char) :
    Except ParseError ReadSection :=
  match readTag pos text with
  | .error error => .error error
  | .ok tag =>
    let name := String.ofList (lower openedAs.toList)
    let location := Location.ofOffset source tag.stop
    let build (raw : List Char) (content : SectionBody) (contentStop stop : Nat)
        (rest : List Char) : ReadSection :=
      { found :=
          { name, attributes := tag.attributes, raw := String.ofList raw, content
            span := ⟨start, stop⟩
            contentSpan := ⟨tag.stop, contentStop⟩, location }
        stop, rest }
    if tag.selfClosing then .ok (build [] (.text "") tag.stop tag.stop tag.rest)
    else if name == "template" && !declaresLanguage tag.attributes then
      match parseNodes (some ⟨name, ⟨start, tag.stop⟩⟩) [] [] tag.stop tag.rest with
      | .error error => .error error
      | .ok body =>
        let raw := takeBytes (body.contentStop - tag.stop) tag.rest
        .ok (build raw (.markup body.nodes) body.contentStop body.stop body.rest)
    else
      match readRawText name ⟨start, tag.stop⟩ tag.stop tag.rest with
      | .error error => .error error
      | .ok body =>
        let value := String.ofList body.content
        .ok (build body.content (.text value) body.contentStop body.stop body.rest)

/-- Reading a section brings the reader past its closing tag. -/
theorem readSection_advances {source : List Char} {openedAs : String} {start pos : Nat}
    {text : List Char} {result : ReadSection}
    (h : readSection source openedAs start pos text = .ok result) :
    Advances pos text result.stop result.rest := by
  unfold readSection at h
  split at h
  · contradiction
  next tag htag =>
    refine (readAttributes_advances htag).trans ?_
    simp only at h
    split at h
    · -- A self-closing section ends with its tag.
      obtain rfl := Except.ok.inj h
      exact Advances.refl _ _
    split at h
    · split at h
      · contradiction
      next body hbody =>
        obtain rfl := Except.ok.inj h
        exact parseNodes_advances hbody
    · split at h
      · contradiction
      next body hbody =>
        obtain rfl := Except.ok.inj h
        exact readRawText_advances hbody

/-- Reads sections from offset `pos` of `source` to its end. -/
def readSections (source : List Char) (pos : Nat) (text : List Char) :
    Except ParseError (List Section) :=
  match hlex : lexContent text with
  | none => .ok []
  | some lexeme =>
    have := lexContent_rest_lt hlex
    let stop := pos + byteLength lexeme.chars
    match lexeme.token with
    | .error _ => .error (refusedContent pos (byteLength lexeme.chars) text)
    | .ok (.openTag name) =>
      match hsection : readSection source name pos stop lexeme.rest with
      | .error error => .error error
      | .ok result =>
        have := (readSection_advances hsection).length_le
        match readSections source result.stop result.rest with
        | .error error => .error error
        | .ok sections => .ok (result.found :: sections)
    | .ok (.closeTag name) => .error (.invalidSyntax ⟨pos, stop⟩ (.closingTagAtTopLevel name))
    | .ok _ => readSections source stop lexeme.rest
termination_by text.length

/-- Reads a document. -/
def parse (source : String) : Except ParseError Document :=
  (readSections source.toList 0 source.toList).map Document.mk

/-- The sections of a document are those that are read from the start of its source. -/
theorem readSections_of_parse {source : String} {document : Document}
    (h : parse source = .ok document) :
    readSections source.toList 0 source.toList = .ok document.sections := by
  unfold parse at h
  cases hsections : readSections source.toList 0 source.toList with
  | error error =>
    rw [hsections] at h
    contradiction
  | ok sections =>
    rw [hsections] at h
    obtain rfl := Except.ok.inj h
    rfl

/-- The error of a document is that of reading its sections. -/
theorem readSections_of_parse_error {source : String} {error : ParseError}
    (h : parse source = .error error) :
    readSections source.toList 0 source.toList = .error error := by
  unfold parse at h
  cases hsections : readSections source.toList 0 source.toList with
  | error sectionsError =>
    rw [hsections] at h
    exact congrArg _ (Except.error.inj h)
  | ok sections =>
    rw [hsections] at h
    contradiction

end Triptych.Document
