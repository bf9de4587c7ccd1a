import Triptych.Document.Parser
import Triptych.Lint.Linter
import Triptych.Pipeline.Options
import Triptych.Text.Indentation

/-!
# Compiling a document

A document is read, its sections are chosen, and each is compiled by the capability for its
language. Markup comes first, then styling, then logic, which takes the compiled markup in; the
first failure ends the compile.

The text of a logic or styling section is preceded by as many empty lines as there are lines before
it in the document, so that the lines that capabilities report are lines of the document. Markup is
not: it loses its common indentation and the blanks around it. Logic loses its common indentation
after the markup went in.
-/

namespace Triptych

open Text Lint Markup

/-- A set of capabilities and the options under which they work. -/
structure Pipeline where
  registry : Registry
  options : PipelineSetup := {}
  /-- The rules that markup is linted with. -/
  rules : RuleSet := RuleSet.default

/-- A compiled document. -/
structure Output where
  /-- The logic with the markup in it. -/
  code : String
  /-- The module that applies the stylesheet, if there is one. -/
  style : Option String
deriving DecidableEq, Repr

/-- The document being compiled. -/
structure Source where
  text : String
  /-- Identifies the document in reports. -/
  id : String

/-- The size of a text in bytes. -/
def textSize (text : String) : Nat :=
  byteLength text.toList

namespace Pipeline

variable (p : Pipeline)

/-! ### Choosing the sections -/

/-- Reads a document and chooses its sections. -/
def chooseSections (text : String) : Traced Slots := do
  let document ← Traced.orFail (Document.parse text) .parse
  Traced.note (.parsed document.sections.length)
  if document.isValid then
    Traced.note .validated
    Traced.noteAll ((Slots.remarks {} document.sections).map .placement)
    return document.slots
  else Traced.fail (.structural document.countMarkup)

/-! ### One section -/

/-- Compiles the text of a section with the capability for a language. Without a language or a
capability for it the text is passed on, without line breaks before it. -/
def applyCapability (kind : SectionRole) (language : Option String) (origin : Section)
    (text : String) (source : Source) : Traced String :=
  match language.bind fun name => (p.registry.lookup name).map fun capability =>
    (name, capability) with
  | none => do
    Traced.note (.passedThrough kind language)
    return String.ofList (text.toList.dropWhile isLineBreak)
  | some (name, capability) => do
    Traced.note (.compiling kind name)
    let context : Context :=
      { document := source.id, kind, origin, options := p.options.optionsFor name }
    if capability.keepsRecord then
      Traced.note (.called ⟨capability.language, kind, source.id, text, origin⟩)
    Traced.orFail (capability.compile context text) (.tool name kind)

/-- The findings of the linter about a markup section, if it is to be linted. -/
def lintFindings (origin : Section) (source : Source) : List Diagnostic :=
  if origin.language?.isNone && p.options.lint then sectionFindings p.rules source.text.toList
    origin
  else []

/-- The text of a markup section as it is compiled: without common indentation, without line breaks
before it and without blanks after it. -/
def markupText (origin : Section) : String :=
  String.ofList (trimEnd ((dedent origin.raw.toList).dropWhile isLineBreak))

/-- Compiles a markup section. -/
def compileMarkup (origin : Section) (source : Source) : Traced String := do
  let findings := p.lintFindings origin source
  if !findings.isEmpty then
    Traced.note (.linted findings.length)
    Traced.noteAll (findings.map (.finding source.id))
  let language := origin.language?.or SectionRole.markup.usualLanguage?
  let compiled ← p.applyCapability .markup language origin (markupText origin) source
  let code ← Traced.orFail (Markup.minify p.options.minifier compiled) .minify
  Traced.note (.compiled .markup (textSize code))
  return code

/-- The text of a section after empty lines that make up for the lines before it. -/
def paddedText (origin : Section) : String :=
  String.ofList (padAbove origin.location.linesAbove origin.raw.toList)

/-- Sends a stylesheet through plugins, in order. -/
def runPlugins (context : PluginContext) (css : String) : List StylesheetPlugin → Traced String
  | [] => pure css
  | plugin :: plugins => do
    Traced.note (.pluginStarted plugin.name context.source context.target)
    let processed ← Traced.orFail (plugin.process context css) (.postProcess plugin.name)
    Traced.noteAll (plugin.remark context css processed)
    runPlugins context processed plugins

/-- The module that applies a stylesheet. -/
def styleModule (css : String) : String :=
  "export default __weave_inject_style__(" ++ String.ofList (Json.quote css.toList) ++ ");"

/-- Compiles a styling section. -/
def compileStyling (origin : Section) (source : Source) : Traced String := do
  let language := origin.language?.or SectionRole.styling.usualLanguage?
  let compiled ← p.applyCapability .styling language origin (paddedText origin) source
  let post := p.options.postProcessing
  let css ← runPlugins (post.context source.id) compiled post.plugins
  let code := styleModule css
  Traced.note (.compiled .styling (textSize code))
  return code

/-- Takes compiled markup into the text of the logic, if there is any. -/
def insertMarkup (language : String) (text : String) : Option String → Traced String
  | none => pure text
  | some markup =>
    match (p.registry.lookup language).bind Capability.inject? with
    | none => Traced.fail (.missingInject language)
    | some inject => do
      Traced.note (.injecting language (textSize markup))
      Traced.orFail (inject text markup) (.tool language .logic)

/-- Compiles the logic section with the compiled markup. -/
def compileLogic (origin : Option Section) (markup : Option String) (source : Source) :
    Traced String :=
  match origin with
  | none => Traced.fail .missingLogic
  | some origin => do
    let language := (origin.language?.or SectionRole.logic.usualLanguage?).getD ""
    let woven ← p.insertMarkup language (paddedText origin) markup
    let text := String.ofList (dedent woven.toList)
    let code ← p.applyCapability .logic (some language) origin text source
    Traced.note (.compiled .logic (textSize code))
    return code

/-! ### The whole document -/

/-- Does something with a section if there is one. -/
def whenPresent {α : Type} (origin : Option Section) (compile : Section → Traced α) :
    Traced (Option α) :=
  match origin with
  | none => pure none
  | some origin => do return some (← compile origin)

/-- Compiles the chosen sections of a document. -/
def compileSlots (slots : Slots) (source : Source) : Traced Output := do
  let markup ← whenPresent slots.markup fun origin => p.compileMarkup origin source
  let style ← whenPresent slots.styling fun origin => p.compileStyling origin source
  let code ← p.compileLogic slots.logic markup source
  return { code, style }

/-- Compiles a document; the journal does not yet say how it started and ended. -/
def run (source : Source) : Traced Output := do
  p.compileSlots (← chooseSections source.text) source

/-- The last event of a compile. -/
def lastEvent : Except CompileError Output → Event
  | .ok output => .completed output.style.isSome
  | .error error => .failed error

/-- Compiles a document. -/
def compile (text id : String) : Traced Output :=
  let outcome := p.run ⟨text, id⟩
  ⟨outcome.result, .started :: (outcome.events ++ [lastEvent outcome.result])⟩

end Pipeline

end Triptych
