import Triptych.Lint.Rule

/-!
# Repeated attributes

An attribute that an element has already, up to the case of ASCII letters, is ignored by browsers.
-/

namespace Triptych.Lint.Repetition

open Markup

/-- The attributes whose name occurs before them, given the names seen so far in small letters. -/
def repeated (seen : List (List Char)) : List Attribute → List Attribute
  | [] => []
  | attr :: attributes =>
    let name := Text.lower attr.name.toList
    if seen.contains name then attr :: repeated seen attributes
    else repeated (name :: seen) attributes

/-- The rule. -/
def rule : Rule where
  name := "no-duplicate-attributes"
  description := "Disallow repeating an attribute on one element"
  checkElement element :=
    (repeated [] element.tag.attributes).map fun attr =>
      .warning "no-duplicate-attributes"
        s!"Duplicate attribute '{attr.name}' on <{element.tag.name}>"
        "Only the first occurrence is honoured by browsers; remove the others" attr.span

end Triptych.Lint.Repetition
