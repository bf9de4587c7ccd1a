import Triptych.Markup.Node

/-!
# Sections of a document

A document is a sequence of top-level *sections*, each between an opening and a closing tag. Three
names mean something: `template` holds markup, `script` holds logic and `style` holds styling;
`SectionRole` is that choice. Sections with other names are kept and ignored later.

A section keeps its inner text as written. A markup section that declares no language of its own is
also read as markup, so that it can be checked and made smaller.
-/

namespace Triptych

open Markup

/-- What a section holds: plain text, or markup that has been read. -/
inductive SectionBody where
  | text (value : String)
  | markup (nodes : List Node)
deriving Repr, Inhabited

/-- A top-level section of a document. -/
structure Section where
  /-- The tag name in small letters. -/
  name : String
  attributes : List Attribute
  /-- The inner text as written. -/
  raw : String
  content : SectionBody
  /-- From the opening tag to the end of the closing tag. -/
  span : Span
  /-- The inner text. -/
  contentSpan : Span
  /-- Where the inner text starts. -/
  location : Location
deriving Repr, Inhabited

/-- The sections of a document, in order. -/
structure Document where
  sections : List Section
deriving Repr, Inhabited

namespace Section

/-- The first attribute with exactly this name. -/
def attribute? (s : Section) (name : String) : Option Attribute :=
  s.attributes.find? fun attr => attr.name == name

/-- The value of the first attribute with exactly this name. -/
def attributeValue? (s : Section) (name : String) : Option String :=
  (s.attribute? name).bind (·.value)

/-- True when there is an attribute with exactly this name. -/
def hasAttribute (s : Section) (name : String) : Bool :=
  s.attributes.any fun attr => attr.name == name

/-- The language that the section declares with its first `lang` attribute, without blanks around
it; an empty one does not count. -/
def language? (s : Section) : Option String :=
  match s.attributeValue? "lang" with
  | none => none
  | some value =>
    let trimmed := Text.trim value.toList
    if trimmed.isEmpty then none else some (String.ofList trimmed)

/-- The markup of a section that was read as markup. -/
def nodes (s : Section) : List Node :=
  match s.content with
  | .markup nodes => nodes
  | .text _ => []

/-- True of a section that was not read as markup. -/
def holdsText (s : Section) : Bool :=
  match s.content with
  | .text _ => true
  | .markup _ => false

end Section

namespace Document

/-- The sections with exactly this name. -/
def named (document : Document) (name : String) : List Section :=
  document.sections.filter fun s => s.name == name

end Document

/-- What a section is for. -/
inductive SectionRole where
  | markup
  | logic
  | styling
deriving DecidableEq, Repr, Inhabited

namespace SectionRole

/-- The tag name that introduces a section of this kind. -/
def sectionTag : SectionRole → String
  | .markup => "template"
  | .logic => "script"
  | .styling => "style"

/-- The kind that a tag name introduces, up to the case of ASCII letters. -/
def ofTag? (name : String) : Option SectionRole :=
  [markup, logic, styling].find? fun kind =>
    Text.equalsIgnoringCase kind.sectionTag.toList name.toList

/-- The language of a section that declares none. Markup has no such language: it is passed on. -/
def usualLanguage? : SectionRole → Option String
  | .markup => none
  | .logic => some "js"
  | .styling => some "css"

/-- The kind as messages name it. -/
def display : SectionRole → String
  | .markup => "markup"
  | .logic => "logic"
  | .styling => "styling"

end SectionRole

end Triptych
