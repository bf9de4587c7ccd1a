import Triptych.Pipeline.Capability
import Triptych.Pipeline.Event
import Triptych.Stylesheet.Minify

/-!
# Options of a pipeline

What can be set for a pipeline: how markup is made smaller, which plugins a compiled stylesheet goes
through, the options of each language, and whether markup is linted. Language names are kept in
small letters, so a language has one set of options.
-/

namespace Triptych

open Markup

/-- Where a stylesheet comes from and where it goes, as plugins are told. -/
structure PluginContext where
  source : String
  target : String
deriving DecidableEq, Repr

/-- A step that a compiled stylesheet goes through. -/
structure StylesheetPlugin where
  name : String
  process : PluginContext → String → Except Failure String
  /-- What is entered into the journal about a stylesheet before and after the step. -/
  remark : PluginContext → String → String → List Event := fun _ _ _ => []

namespace StylesheetPlugin

/-- Makes the stylesheet smaller. -/
def minify : StylesheetPlugin where
  name := "minify"
  process _ css := .ok (String.ofList (Stylesheet.minify css.toList))
  remark context before after :=
    let sizes := (Text.byteLength before.toList, Text.byteLength after.toList)
    [.minified context.source sizes.1 sizes.2 (Stylesheet.savedPercent sizes.1 sizes.2).tenths]

/-- The plugins of this library. -/
def builtins : List StylesheetPlugin := [minify]

/-- The plugin of this library with exactly this name. -/
def builtin? (name : String) : Option StylesheetPlugin :=
  builtins.find? fun plugin => plugin.name == name

end StylesheetPlugin

/-- The steps that compiled stylesheets go through, in order, and what plugins are told. -/
structure PostProcessing where
  plugins : List StylesheetPlugin := []
  source : Option String := none
  target : Option String := none

namespace PostProcessing

/-- What plugins are told about a document: what is set, else the document itself. -/
def context (post : PostProcessing) (document : String) : PluginContext :=
  ⟨post.source.getD document, post.target.getD document⟩

end PostProcessing

/-- What can be set for a pipeline. -/
structure PipelineSetup where
  minifier : Reductions := {}
  postProcessing : PostProcessing := {}
  /-- The options of each language, by its name in small letters. -/
  languages : SortedMap Json := []
  /-- Whether markup without a language of its own is linted. -/
  lint : Bool := true

namespace PipelineSetup

/-- The options of a language, up to the case of ASCII letters; `null` when there are none. -/
def optionsFor (options : PipelineSetup) (language : String) : Json :=
  (options.languages.get? (languageKey language)).getD .null

end PipelineSetup

end Triptych
