import Triptych.Text.Position

/-!
# Markup trees

A piece of markup is a list of `Node`s: elements with their children, texts and comments. Every node
knows the span of the source it was read from; the `Tag` of an element is its opening tag as
written, with the attributes in their order and the kind of quote around each value, so that
printing the tree gives the source back up to blanks inside tags.
-/

namespace Triptych.Markup

/-- How the value of an attribute is quoted. -/
inductive Quote where
  | double
  | single
  | none
deriving DecidableEq, Repr, Inhabited

/-- An attribute of a tag. A bare one, such as `disabled`, has no value. -/
structure Attribute where
  name : String
  value : Option String
  quote : Quote
  span : Span
deriving DecidableEq, Repr, Inhabited

namespace Attribute

/-- True of an attribute without a value. -/
def isValueless (attr : Attribute) : Bool :=
  attr.value.isNone

/-- A bare attribute. -/
def bare (name : String) (span : Span) : Attribute :=
  ⟨name, none, .none, span⟩

/-- The attribute `base` bytes further on. -/
def shift (attr : Attribute) (base : Nat) : Attribute :=
  { attr with span := attr.span.shift base }

end Attribute

/-- The elements that never have a closing tag. -/
def voidElements : List String :=
  ["area", "base", "br", "col", "embed", "hr", "img", "input", "link", "meta", "param", "source",
    "track", "wbr"]

/-- The elements whose content is text and never markup. -/
def rawTextElements : List String :=
  ["script", "style"]

/-- Membership in a list of names, up to the case of ASCII letters. -/
def isNamedIn (names : List String) (name : String) : Bool :=
  names.any fun known => Text.equalsIgnoringCase known.toList name.toList

/-- True of the name of an element that never has a closing tag. -/
def isVoidName (name : String) : Bool :=
  isNamedIn voidElements name

/-- True of the name of an element whose content is text and never markup. -/
def holdsRawText (name : String) : Bool :=
  isNamedIn rawTextElements name

/-- An opening tag. `selfClosing` tells that it was written with `/>`. -/
structure Tag where
  name : String
  attributes : List Attribute
  selfClosing : Bool
deriving DecidableEq, Repr, Inhabited

namespace Tag

/-- The first attribute with this name, up to the case of ASCII letters. -/
def attribute? (tag : Tag) (name : String) : Option Attribute :=
  tag.attributes.find? fun a => Text.equalsIgnoringCase a.name.toList name.toList

/-- True when the tag has an attribute with this name, up to the case of ASCII letters. -/
def hasAttribute (tag : Tag) (name : String) : Bool :=
  (tag.attribute? name).isSome

/-- True of the tag of an element that never has a closing tag. -/
def isVoid (tag : Tag) : Bool :=
  isVoidName tag.name

/-- True when a closing tag follows the content of the element. -/
def takesClosingTag (tag : Tag) : Bool :=
  !tag.selfClosing && !tag.isVoid

/-- The tag `base` bytes further on. -/
def shift (tag : Tag) (base : Nat) : Tag :=
  { tag with attributes := tag.attributes.map (·.shift base) }

end Tag

/-- A node of a markup tree. -/
inductive Node where
  /-- An element, from its opening tag to the end of its closing tag if it has one. -/
  | element (tag : Tag) (children : List Node) (span : Span)
  /-- A text as written. -/
  | text (value : String) (span : Span)
  /-- A comment; the value is what stands between its delimiters. -/
  | comment (value : String) (span : Span)
deriving Repr, Inhabited

namespace Node

/-- The part of the source that the node was read from. -/
def span : Node → Span
  | .element _ _ span | .text _ span | .comment _ span => span

mutual

/-- The node `base` bytes further on, with all that is in it. -/
def shift (base : Nat) : Node → Node
  | .element tag children span => .element (tag.shift base) (shiftAll base children)
      (span.shift base)
  | .text value span => .text value (span.shift base)
  | .comment value span => .comment value (span.shift base)

/-- `shift` on every node. -/
def shiftAll (base : Nat) : List Node → List Node
  | [] => []
  | node :: nodes => shift base node :: shiftAll base nodes

end

mutual

/-- Changes the tags, the texts and the comments of a node, and leaves its shape. -/
def mapParts (onTag : Tag → Tag) (onText onComment : String → String) : Node → Node
  | .element tag children span =>
    .element (onTag tag) (mapAllParts onTag onText onComment children) span
  | .text value span => .text (onText value) span
  | .comment value span => .comment (onComment value) span

/-- `mapParts` on every node. -/
def mapAllParts (onTag : Tag → Tag) (onText onComment : String → String) : List Node → List Node
  | [] => []
  | node :: nodes => mapParts onTag onText onComment node :: mapAllParts onTag onText onComment
      nodes

end

/-- **Induction over nodes**: along a list, and into the children of each element. -/
@[elab_as_elim]
theorem listInduction {motive : List Node → Prop} (nil : motive [])
    (element : ∀ tag children span nodes, motive children → motive nodes →
      motive (.element tag children span :: nodes))
    (text : ∀ value span nodes, motive nodes → motive (.text value span :: nodes))
    (comment : ∀ value span nodes, motive nodes → motive (.comment value span :: nodes))
    (nodes : List Node) : motive nodes := by
  cases nodes with
  | nil => exact nil
  | cons node nodes =>
    have hnodes := listInduction nil element text comment nodes
    cases node with
    | element tag children span =>
      have hchildren := listInduction nil element text comment children
      exact element tag children span nodes hchildren hnodes
    | text value span => exact text value span nodes hnodes
    | comment value span => exact comment value span nodes hnodes

end Node

end Triptych.Markup
