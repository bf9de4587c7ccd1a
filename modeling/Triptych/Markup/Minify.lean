import Triptych.Markup.Parser
import Triptych.Markup.Printer

/-!
# Smaller markup

Four independent reductions, each with its switch in `Reductions`: dropping comments, collapsing
blanks, dropping the values of boolean attributes that say nothing, and dropping quotes around
values that do not need them. `reduceNodes` applies them to a tree, `minify` to a text.

Blanks are collapsed level by level. On a level every run of blanks in a text becomes one space; a
text of blanks only is kept only between two inline neighbours; and unless the parent is inline, the
first text of the level loses its leading blanks and the last one its trailing blanks. Elements that
keep their blanks are left alone with all that is in them.
-/

namespace Triptych.Markup

open Text

/-- Which reductions are made. All are off by default. -/
structure Reductions where
  /-- Collapse runs of blanks, and drop those that do not separate inline content. -/
  collapseWhitespace : Bool := false
  removeComments : Bool := false
  /-- Write `disabled="disabled"` as `disabled`. -/
  collapseBooleanAttributes : Bool := false
  /-- Drop the quotes around values that do not need them. -/
  removeAttributeQuotes : Bool := false
deriving DecidableEq, Repr, Inhabited

namespace Reductions

/-- The reductions that are made when nothing is configured. -/
def standard : Reductions :=
  { collapseWhitespace := true, removeComments := true, collapseBooleanAttributes := true }

/-- True when no reduction is on. -/
def changesNothing (options : Reductions) : Bool :=
  options == {}

end Reductions

/-! ### Comments -/

mutual

/-- The node without the comments inside it. -/
def Node.withoutComments : Node → Node
  | .element tag children span => .element tag (dropComments children) span
  | node => node

/-- The nodes without comments, at any depth. -/
def dropComments : List Node → List Node
  | [] => []
  | .comment _ _ :: nodes => dropComments nodes
  | node :: nodes => node.withoutComments :: dropComments nodes

end

/-! ### Blanks -/

/-- The elements that stand in a line of text. -/
def inlineElements : List String :=
  ["a", "abbr", "b", "bdi", "bdo", "br", "button", "cite", "code", "data", "dfn", "em", "i", "img",
    "input", "kbd", "label", "mark", "q", "s", "samp", "select", "small", "span", "strong", "sub",
    "sup", "textarea", "time", "u", "var"]

/-- The elements whose blanks are part of what they show or run. -/
def blankKeepingElements : List String :=
  ["pre", "textarea"] ++ rawTextElements

/-- True of the name of an element that stands in a line of text. -/
def isInlineName (name : String) : Bool :=
  isNamedIn inlineElements name

/-- True of the name of an element whose blanks are left alone. -/
def keepsBlanks (name : String) : Bool :=
  isNamedIn blankKeepingElements name

/-- True of a text and of an element that stands in a line of text. -/
def Node.isInline : Node → Bool
  | .element tag _ _ => isInlineName tag.name
  | .text _ _ => true
  | .comment _ _ => false

/-- Puts one space for every run of blanks; `inRun` tells that the character before was a blank. -/
def squeezeBlanks (inRun : Bool) : List Char → List Char
  | [] => []
  | c :: cs =>
    if isBlank c then if inRun then squeezeBlanks true cs else ' ' :: squeezeBlanks true cs
    else c :: squeezeBlanks false cs

/-- The node with its runs of blanks collapsed, if it is a text. -/
def Node.collapseText : Node → Node
  | .text value span => .text (String.ofList (squeezeBlanks false value.toList)) span
  | node => node

/-- True of a text of blanks only. -/
def Node.isBlankText : Node → Bool
  | .text value _ => Text.isBlankText value.toList
  | _ => false

/-- True of a text without characters. -/
def Node.isEmptyText : Node → Bool
  | .text value _ => value.isEmpty
  | _ => false

/-- A text without characters is an empty text. -/
theorem Node.isEmptyText_iff {node : Node} :
    node.isEmptyText = true ↔ ∃ span, node = .text "" span := by
  cases node with
  | element | comment => simp [Node.isEmptyText]
  | text value span => simp [Node.isEmptyText]

/-- Drops the texts of blanks only, but for those between two inline neighbours; `before` is the
node before the list. -/
def dropLooseBlanks (before : Option Node) : List Node → List Node
  | [] => []
  | node :: nodes =>
    let between := before.any Node.isInline && nodes.head?.any Node.isInline
    if node.isBlankText && !between then dropLooseBlanks (some node) nodes
    else node :: dropLooseBlanks (some node) nodes

/-- Changes the value of a text. -/
def Node.mapText (f : List Char → List Char) : Node → Node
  | .text value span => .text (String.ofList (f value.toList)) span
  | node => node

/-- Takes the leading blanks from the first node, if it is a text. -/
def trimFirst : List Node → List Node
  | [] => []
  | node :: nodes => node.mapText trimStart :: nodes

/-- Takes the trailing blanks from the last node, if it is a text. -/
def trimLast : List Node → List Node
  | [] => []
  | [node] => [node.mapText trimEnd]
  | node :: next :: nodes => node :: trimLast (next :: nodes)

/-- Collapses the blanks of one level, given whether its parent stands in a line of text. -/
def settle (inline : Bool) (nodes : List Node) : List Node :=
  let nodes := dropLooseBlanks none (nodes.map Node.collapseText)
  if inline then nodes else (trimLast (trimFirst nodes)).filter fun node => !node.isEmptyText

mutual

/-- The node with the blanks on all levels inside it collapsed. -/
def Node.collapseInside : Node → Node
  | .element tag children span =>
    if keepsBlanks tag.name then .element tag children span
    else .element tag (settle (isInlineName tag.name) (collapseEach children)) span
  | node => node

/-- `collapseInside` on every node. -/
def collapseEach : List Node → List Node
  | [] => []
  | node :: nodes => node.collapseInside :: collapseEach nodes

end

/-- Collapses the blanks of a tree on all its levels. -/
def collapseBlanks (nodes : List Node) : List Node :=
  settle false (collapseEach nodes)

/-! ### Attributes -/

/-- The attributes whose mere presence means yes. -/
def booleanAttributes : List String :=
  ["allowfullscreen", "async", "autofocus", "autoplay", "checked", "controls", "default", "defer",
    "disabled", "formnovalidate", "hidden", "ismap", "loop", "multiple", "muted", "nomodule",
    "novalidate", "open", "readonly", "required", "reversed", "selected"]

/-- True of the name of an attribute whose mere presence means yes. -/
def isBooleanName (name : String) : Bool :=
  isNamedIn booleanAttributes name

/-- True of a value that may stand without quotes. -/
def needsNoQuotes (value : List Char) : Bool :=
  !value.isEmpty &&
    !value.any (fun c => isBlank c || c == '"' || c == '\'' || c == '`' || c == '=' || c == '<' ||
      c == '>') &&
    value.getLast? != some '/'

/-- Drops the value of a boolean attribute when it is empty or repeats the name. -/
def Attribute.collapseBoolean (attr : Attribute) : Attribute :=
  match attr.value with
  | some value =>
    if isBooleanName attr.name &&
        (value.isEmpty || equalsIgnoringCase value.toList attr.name.toList) then
      { attr with value := none, quote := .none }
    else attr
  | none => attr

/-- Drops the quotes around a value that does not need them. -/
def Attribute.unquote (attr : Attribute) : Attribute :=
  if attr.value.any fun value => needsNoQuotes value.toList then { attr with quote := .none }
    else attr

/-- Makes the reductions that concern one attribute. -/
def Attribute.minify (options : Reductions) (attr : Attribute) : Attribute :=
  let attr := if options.collapseBooleanAttributes then attr.collapseBoolean else attr
  if options.removeAttributeQuotes then attr.unquote else attr

/-- Makes the reductions that concern attributes on a whole tree. -/
def minifyAttributes (options : Reductions) (nodes : List Node) : List Node :=
  Node.mapAllParts
    (fun tag => { tag with attributes := tag.attributes.map (Attribute.minify options) }) id id
      nodes

/-! ### All together -/

/-- Makes the reductions that are on. -/
def reduceNodes (options : Reductions) (nodes : List Node) : List Node :=
  let nodes := if options.removeComments then dropComments nodes else nodes
  let nodes := if options.collapseWhitespace then collapseBlanks nodes else nodes
  minifyAttributes options nodes

/-- Makes a text of markup smaller. With no reduction on, the text is returned as it is, without
being read. -/
def minify (options : Reductions) (source : String) : Except ParseError String :=
  if options.changesNothing then .ok source
  else (parse source).map fun nodes => renderNodes (reduceNodes options nodes)

/-- Why markup could not be made smaller, in words. -/
def minifyFailure (error : ParseError) : String :=
  s!"Compiled markup is not well-formed: {error.message}"

end Triptych.Markup
