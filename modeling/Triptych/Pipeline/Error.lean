import Triptych.Code.Fault
import Triptych.Document.Section
import Triptych.Markup.Minify

/-!
# Why a compile fails

A compile stops at the first thing that goes wrong. `CompileError` says what that was and
`CompileError.message` says it in words; where a tool reported a line, `CompileError.line?` has it.
-/

namespace Triptych

open Markup

/-- Why a document could not be compiled. -/
inductive CompileError where
  /-- It is not a document. -/
  | parse (error : ParseError)
  /-- It has more than one markup section. -/
  | structural (count : Nat)
  /-- The tool for one of its languages failed. -/
  | tool (language : String) (kind : SectionRole) (failure : Failure)
  /-- It has markup, but the language of its logic cannot take markup in. -/
  | missingInject (language : String)
  /-- It has no logic section. -/
  | missingLogic
  /-- Its compiled markup is not markup. -/
  | minify (error : ParseError)
  /-- A plugin for stylesheets failed. -/
  | postProcess (plugin : String) (failure : Failure)
  /-- The configuration names a plugin that does not exist. -/
  | unknownPlugin (name : String)
deriving DecidableEq, Repr

namespace CompileError

/-- The error in words. -/
def message : CompileError → String
  | .parse error => s!"Parse error: {error.message}"
  | .structural count =>
    s!"A document may contain at most one <template> section, found {count}"
  | .tool language kind failure =>
    s!"{kind.display} compiler '{language}' failed: {failure.display}"
  | .missingInject language =>
    s!"Language '{language}' has no injector; compiled markup cannot be woven into its logic"
  | .missingLogic => "Document has no <script> section"
  | .minify error => s!"Compiled markup could not be minified: {minifyFailure error}"
  | .postProcess plugin failure =>
    s!"Post-processing plugin '{plugin}' failed: {failure.display}"
  | .unknownPlugin name => s!"Unknown post-processing plugin '{name}'"

/-- True of the error of having too many markup sections. -/
def concernsStructure : CompileError → Bool
  | .structural _ => true
  | _ => false

/-- The line that a failing tool or plugin reported. -/
def line? : CompileError → Option Nat
  | .tool _ _ failure => failure.line
  | .postProcess _ failure => failure.line
  | _ => none

end CompileError

end Triptych
