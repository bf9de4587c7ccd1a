import Triptych.Markup.Walk

/-!
# Findings and rules

A linter looks for what is allowed and yet unwise. A `Diagnostic` is one finding; a `Rule` looks at
one element at a time, or at the text of a section as a whole, or at both. Rules do not know lines:
the linter fills in the location of a finding from its span.
-/

namespace Triptych.Lint

open Markup

/-- How grave a finding is. -/
inductive Level where
  | error
  | warning
  | info
deriving DecidableEq, Repr, Inhabited

/-- The level as messages name it. -/
def Level.display : Level → String
  | .error => "error"
  | .warning => "warning"
  | .info => "info"

/-- The level as data files name it. -/
def Level.name : Level → String
  | .error => "Error"
  | .warning => "Warning"
  | .info => "Info"

/-- A finding. -/
structure Diagnostic where
  level : Level
  /-- The rule that it comes from. -/
  rule : String
  message : String
  /-- The part of the document that it is about. -/
  span : Span
  /-- Where that part starts. -/
  location : Location := {}
  /-- What could be done about it. -/
  suggestion : Option String := none
deriving DecidableEq, Repr

namespace Diagnostic

/-- A warning with a suggestion. -/
def warning (rule message suggestion : String) (span : Span) : Diagnostic :=
  { level := .warning, rule, message, span, suggestion := some suggestion }

/-- The finding on one line. -/
def display (d : Diagnostic) : String :=
  s!"{d.location.display} {d.level.display}: {d.message} [{d.rule}]"

end Diagnostic

/-- Something to look for. -/
structure Rule where
  name : String
  description : String
  /-- The findings about one element; those inside it are looked at on their own. -/
  checkElement : Element → List Diagnostic := fun _ => []
  /-- The findings about the text of a section that starts at an offset of the document. -/
  checkText : List Char → Nat → List Diagnostic := fun _ _ => []

end Triptych.Lint
