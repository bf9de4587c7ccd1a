import Triptych.Markup.Node

/-!
# Writing markup

`render` writes a tree as markup. Names, values, texts and comments are written as they were read,
and a value keeps its quotes; only the blanks inside tags and the letter case of closing tags are
settled: one space before each attribute, and a closing tag that repeats the name of the opening
one.
-/

namespace Triptych.Markup

/-- The value between its quotes. -/
def Quote.wrap (quote : Quote) (value : String) : String :=
  match quote with
  | .double => "\"" ++ value ++ "\""
  | .single => "'" ++ value ++ "'"
  | .none => value

/-- An attribute as it is written in a tag. -/
def Attribute.render (attr : Attribute) : String :=
  match attr.value with
  | none => attr.name
  | some value => attr.name ++ "=" ++ attr.quote.wrap value

/-- An opening tag up to its end. -/
def Tag.renderStart (tag : Tag) : String :=
  "<" ++ tag.name ++ String.join (tag.attributes.map fun attr => " " ++ attr.render)

mutual

/-- A node as markup. An element whose tag ends in `/>`, or that never has a closing tag, is its tag
alone. -/
def Node.render : Node → String
  | .element tag children _ =>
    if tag.selfClosing then tag.renderStart ++ "/>"
    else if tag.isVoid then tag.renderStart ++ ">"
    else tag.renderStart ++ ">" ++ renderNodes children ++ "</" ++ tag.name ++ ">"
  | .text value _ => value
  | .comment value _ => "<!--" ++ value ++ "-->"

/-- A list of nodes as markup. -/
def renderNodes : List Node → String
  | [] => ""
  | node :: nodes => node.render ++ renderNodes nodes

end

end Triptych.Markup
