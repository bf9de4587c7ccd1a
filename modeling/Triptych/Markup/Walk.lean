import Triptych.Markup.Node

/-!
# Walking a tree

`Node.visits` lists what a reader of a tree meets, in the order of the source: an element, then its
attributes, then what is in it. `elementsOf` keeps of that only the elements.
-/

namespace Triptych.Markup

/-- What a reader of a tree meets. The depth of a node is the number of elements around it. -/
inductive Visit where
  | element (depth : Nat) (tag : Tag)
  | attribute (tag : Tag) (attr : Attribute)
  | text (depth : Nat) (value : String)
  | comment (depth : Nat) (value : String)
deriving Repr

mutual

/-- The visits of a node. -/
def Node.visits (depth : Nat) : Node → List Visit
  | .element tag children _ =>
    .element depth tag :: (tag.attributes.map (.attribute tag) ++ visitsOf (depth + 1) children)
  | .text value _ => [.text depth value]
  | .comment value _ => [.comment depth value]

/-- The visits of a list of nodes. -/
def visitsOf (depth : Nat) : List Node → List Visit
  | [] => []
  | node :: nodes => node.visits depth ++ visitsOf depth nodes

end

/-- An element of a tree, taken out of it. -/
structure Element where
  tag : Tag
  children : List Node
  span : Span
deriving Repr

mutual

/-- The elements of a node, each before those inside it. -/
def Node.elements : Node → List Element
  | .element tag children span => ⟨tag, children, span⟩ :: elementsOf children
  | .text _ _ => []
  | .comment _ _ => []

/-- The elements of a list of nodes, each before those inside it. -/
def elementsOf : List Node → List Element
  | [] => []
  | node :: nodes => node.elements ++ elementsOf nodes

end

end Triptych.Markup
