import Triptych.Document.Section
import Triptych.Lint.Accessibility
import Triptych.Lint.Repetition
import Triptych.Lint.Obsolete
import Triptych.Lint.Important
import Triptych.Lint.Indentation

/-!
# The linter

Every rule looks at the text of a markup section, then at each of its elements, an element before
those inside it. The findings of a section are sorted by where they start; findings at the same
place keep the order in which they were made.
-/

namespace Triptych.Lint

open Markup

/-- The rules that apply, in order. -/
abbrev RuleSet := List Rule

namespace RuleSet

/-- All rules of this library. -/
def default : RuleSet :=
  [Accessibility.rule, Repetition.rule, Obsolete.rule, Important.rule, Indentation.rule]

/-- A short account of a rule set. -/
def summary (rules : RuleSet) : String :=
  s!"RuleRegistry \x7b rules: \"{rules.length} rules\" \x7d"

end RuleSet

/-- The findings of a section in the order in which they are made, without locations. -/
def rawFindings (rules : RuleSet) (s : Section) : List Diagnostic :=
  (rules.flatMap fun rule => rule.checkText s.raw.toList s.contentSpan.start) ++
    ((elementsOf s.nodes).flatMap fun element => rules.flatMap fun rule =>
      rule.checkElement element)

/-- The findings of a section of `source`, with their locations, by where they start. -/
def sectionFindings (rules : RuleSet) (source : List Char) (s : Section) : List Diagnostic :=
  ((rawFindings rules s).map fun d =>
    { d with location := Location.ofOffset source d.span.start }).mergeSort
      fun a b => a.span.start ≤ b.span.start

/-- The findings of all markup sections of a document, section by section. -/
def documentFindings (rules : RuleSet) (source : List Char) (document : Document) :
    List Diagnostic :=
  (document.named SectionRole.markup.sectionTag).flatMap (sectionFindings rules source)

end Triptych.Lint
