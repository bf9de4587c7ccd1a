import Triptych.Lint.Rule

/-!
# Obsolete elements

Elements that should no longer be used, each with what takes its place.
-/

namespace Triptych.Lint.Obsolete

open Markup

/-- The obsolete elements and their replacements. -/
def replacements : List (String × String) :=
  [("acronym", "<abbr>"), ("big", "CSS font-size"), ("blink", "CSS animations"),
    ("center", "CSS text-align or flexbox"), ("font", "CSS font properties"), ("frame", "<iframe>"),
    ("frameset", "<iframe>"), ("marquee", "CSS animations"), ("strike", "<s> or <del>"),
    ("tt", "<code> or <kbd>")]

/-- The rule. -/
def rule : Rule where
  name := "no-deprecated-elements"
  description := "Disallow obsolete HTML elements"
  checkElement element :=
    match replacements.find? fun entry => isNamedIn [entry.1] element.tag.name with
    | none => []
    | some (name, replacement) =>
      [.warning "no-deprecated-elements" s!"<{name}> is obsolete" s!"Use {replacement} instead"
        element.span]

end Triptych.Lint.Obsolete
