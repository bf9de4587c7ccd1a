import Triptych.Code.Fault
import Triptych.Document.Section
import Triptych.Json.Value
import Triptych.Script.Check
import Triptych.Script.Inject
import Triptych.SortedMap
import Triptych.Stylesheet.Check

/-!
# Language tools

A *capability* compiles the sections of one language. It gets the text of a section and a `Context`:
the section itself and the options configured for the language. The capability of a logic language
may also be able to take compiled markup into the logic.

A `Registry` holds capabilities under language names, up to the case of ASCII letters. Two come with
the library: stylesheets and scripts are checked and passed on, trimmed.
-/

namespace Triptych

/-- What a capability knows about the section that it compiles. -/
structure Context where
  /-- Identifies the document. -/
  document : String
  kind : SectionRole
  /-- The section that the text was taken from. -/
  origin : Section
  /-- The options configured for the language; `null` when there are none. -/
  options : Json

namespace Context

/-- The option with this key. -/
def option? (context : Context) (key : String) : Option Json :=
  context.options.get? key

/-- A yes-or-no option; anything that is not yes or no counts as not given. -/
def flag (context : Context) (key : String) (default : Bool) : Bool :=
  match context.option? key with
  | some (.bool value) => value
  | _ => default

end Context

/-- A tool for one language. -/
structure Capability where
  /-- The name under which it is registered if no other is given. -/
  language : String
  /-- Compiles the text of a section. -/
  compile : Context → String → Except Failure String
  /-- Takes compiled markup, the second text, into logic. -/
  inject? : Option (String → String → Except Failure String) := none
  /-- Whether each call is entered into the journal of a compile. -/
  keepsRecord : Bool := false

/-! ### The tools of this library -/

/-- Checks a stylesheet and passes it on without blanks around it. -/
def compileStylesheet (source : String) : Except Failure String :=
  match Stylesheet.check source.toList with
  | .error fault => .error fault.toFailure
  | .ok () => .ok (String.ofList (Text.trim source.toList))

/-- Checks a script, unless the check is switched off, and passes it on without blanks around it and
with one line feed at its end. -/
def compileScript (check : Bool) (source : String) : Except Failure String :=
  let code := String.ofList (Text.trim source.toList ++ ['\n'])
  if check then
    match Script.check source.toList with
    | .error fault => .error fault.toFailure
    | .ok () => .ok code
  else .ok code

/-- Puts markup into the object that a script exports. -/
def injectTemplate (logic markup : String) : Except Failure String :=
  match Script.inject? logic.toList markup.toList with
  | some woven => .ok (String.ofList woven)
  | none => .error { message := Script.injectFailure }

namespace Capability

/-- The capability for stylesheets. -/
def css : Capability where
  language := "css"
  compile _ source := compileStylesheet source

/-- The capability for scripts. Its option `check` switches the check off. -/
def js : Capability where
  language := "js"
  compile context source := compileScript (context.flag "check" true) source
  inject? := some injectTemplate

end Capability

/-! ### Registries -/

/-- A language name as it is looked up: in small letters. -/
def languageKey (language : String) : String :=
  String.ofList (Text.lower language.toList)

/-- Capabilities by language name. -/
structure Registry where
  entries : SortedMap Capability := []

namespace Registry

/-- No capabilities: every section is passed on. -/
def empty : Registry := {}

/-- The capability for a language. -/
def lookup (registry : Registry) (language : String) : Option Capability :=
  registry.entries.get? (languageKey language)

/-- The registry with a capability under a name; an older one under that name is replaced. -/
def registerUnder (registry : Registry) (language : String) (capability : Capability) : Registry :=
  ⟨registry.entries.insert (languageKey language) capability⟩

/-- The registry with a capability under its own name. -/
def register (registry : Registry) (capability : Capability) : Registry :=
  registry.registerUnder capability.language capability

/-- The capabilities of this library. -/
def builtin : Registry :=
  (empty.register .css).register .js

/-- True when there is a capability for the language. -/
def contains (registry : Registry) (language : String) : Bool :=
  (registry.lookup language).isSome

/-- The names of the languages, sorted. -/
def languages (registry : Registry) : List String :=
  registry.entries.keys

end Registry

end Triptych
