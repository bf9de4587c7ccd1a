import Triptych.Json.Parser
import Triptych.Pipeline.Options

/-!
# Configuration

The JSON form of a pipeline's options. Every setting may be missing and then takes its default; a
setting that is there must have the right type, and may be there only once. Names are exact, and
unknown ones are ignored. A group of settings may also be written as an array of its values in
order, from which values may be missing at the end.

`PipelineSettings` is what was written. `PipelineSettings.toSetup` finds the plugins that it names,
which can fail, and puts the languages under their names in small letters.
-/

namespace Triptych

open Markup

/-- Why a configuration cannot be read. -/
inductive ConfigError where
  /-- It is not JSON. -/
  | json (fault : Json.Fault)
  | wrongType (setting expected : String)
  | repeated (setting : String)
  | tooManyValues (expected : Nat)
deriving DecidableEq, Repr

namespace ConfigError

/-- The error in words, for a configuration with this text. -/
def message (text : List Char) : ConfigError → String
  | .json fault => fault.message text
  | .wrongType setting expected => s!"invalid type for \x60{setting}\x60, expected {expected}"
  | .repeated setting => s!"duplicate field \x60{setting}\x60"
  | .tooManyValues expected => s!"invalid length, expected at most {expected} elements"

end ConfigError

/-! ### Reading settings -/

namespace Settings

/-- The value of a setting in the members of an object. -/
def member? (members : List (String × Json)) (name : String) : Except ConfigError (Option Json) :=
  match members.filter fun entry => entry.1 == name with
  | [] => .ok none
  | [entry] => .ok (some entry.2)
  | _ => .error (.repeated name)

/-- The values of the settings with these names, from an object or an array. -/
def values (what : String) (names : List String) :
    Json → Except ConfigError (String → Except ConfigError (Option Json))
  | .object members => .ok (member? members)
  | .array items =>
    if names.length < items.length then .error (.tooManyValues names.length)
    else .ok fun name => .ok (((names.zip items).find? fun entry => entry.1 == name).map Prod.snd)
  | _ => .error (.wrongType what "an object")

/-- A yes-or-no setting. -/
def bool (name : String) (default : Bool) : Option Json → Except ConfigError Bool
  | none => .ok default
  | some (.bool value) => .ok value
  | some _ => .error (.wrongType name "a boolean")

/-- A text setting. -/
def string (name : String) (default : String) : Option Json → Except ConfigError String
  | none => .ok default
  | some (.string value) => .ok value
  | some _ => .error (.wrongType name "a string")

/-- A text setting that may be `null`. -/
def string? (name : String) : Option Json → Except ConfigError (Option String)
  | none => .ok none
  | some .null => .ok none
  | some (.string value) => .ok (some value)
  | some _ => .error (.wrongType name "a string")

/-- The texts of an array. -/
def stringItems (name : String) : List Json → Except ConfigError (List String)
  | [] => .ok []
  | .string value :: items => (stringItems name items).map (value :: ·)
  | _ :: _ => .error (.wrongType name "a list of strings")

/-- A setting that is a list of texts. -/
def strings (name : String) : Option Json → Except ConfigError (List String)
  | none => .ok []
  | some (.array items) => stringItems name items
  | some _ => .error (.wrongType name "a list of strings")

/-- The entries of an object in the order in which they were written; of a repeated key only the
last entry is kept. -/
def lastEntries : List (String × Json) → List (String × Json)
  | [] => []
  | entry :: rest =>
    if rest.any fun later => later.1 == entry.1 then lastEntries rest else entry :: lastEntries rest

/-- A setting that is an object with any keys. -/
def entries (name : String) : Option Json → Except ConfigError (List (String × Json))
  | none => .ok []
  | some (.object members) =>
    .ok ((lastEntries members).map fun entry => (entry.1, entry.2.normalize))
  | some _ => .error (.wrongType name "an object")

end Settings

/-! ### Groups of settings -/

namespace Markup.Reductions

/-- Reads the switches of the minifier. -/
def ofJson (json : Json) : Except ConfigError Reductions := do
  let names :=
    ["collapseWhitespace", "removeComments", "collapseBooleanAttributes", "removeAttributeQuotes"]
  let get ← Settings.values "minifier" names json
  let switch (name : String) := do Settings.bool name false (← get name)
  return { collapseWhitespace := ← switch "collapseWhitespace"
           removeComments := ← switch "removeComments"
           collapseBooleanAttributes := ← switch "collapseBooleanAttributes"
           removeAttributeQuotes := ← switch "removeAttributeQuotes" }

/-- Writes the switches of the minifier. -/
def toJson (options : Reductions) : Json :=
  .object
    [("collapseWhitespace", .bool options.collapseWhitespace),
      ("removeComments", .bool options.removeComments),
      ("collapseBooleanAttributes", .bool options.collapseBooleanAttributes),
      ("removeAttributeQuotes", .bool options.removeAttributeQuotes)]

end Markup.Reductions

/-- The plugins for stylesheets by name, and what they are told. -/
structure StyleSettings where
  plugins : List String := []
  source : Option String := none
  target : Option String := none
deriving DecidableEq, Repr, Inhabited

namespace StyleSettings

/-- Reads the settings for stylesheets. -/
def ofJson (json : Json) : Except ConfigError StyleSettings := do
  let get ← Settings.values "postProcessing" ["plugins", "from", "to"] json
  return { plugins := ← Settings.strings "plugins" (← get "plugins")
           source := ← Settings.string? "from" (← get "from")
           target := ← Settings.string? "to" (← get "to") }

/-- Writes the settings for stylesheets. -/
def toJson (config : StyleSettings) : Json :=
  .object
    [("plugins", .array (config.plugins.map .string)), ("from", .ofOption config.source),
      ("to", .ofOption config.target)]

end StyleSettings

/-- The configuration of a pipeline as it was written. -/
structure PipelineSettings where
  minifier : Reductions := .standard
  postProcessing : StyleSettings := {}
  /-- The options of each language, by its name as written. -/
  languages : List (String × Json) := []
  lint : Bool := true
deriving Inhabited

namespace PipelineSettings

/-- The names of the settings, in order. -/
def names : List String :=
  ["minifier", "postProcessing", "languages", "lint"]

/-- Reads the settings, given how to look one up. -/
def ofSettings (get : String → Except ConfigError (Option Json)) :
    Except ConfigError PipelineSettings := do
  let minifier ← match ← get "minifier" with
    | none => pure Reductions.standard
    | some json => Reductions.ofJson json
  let postProcessing ← match ← get "postProcessing" with
    | none => pure {}
    | some json => StyleSettings.ofJson json
  return { minifier, postProcessing
           languages := ← Settings.entries "languages" (← get "languages")
           lint := ← Settings.bool "lint" true (← get "lint") }

/-- Reads the configuration of a pipeline. -/
def ofJson (json : Json) : Except ConfigError PipelineSettings := do
  ofSettings (← Settings.values "configuration" names json)

/-- The members that write the configuration. -/
def toMembers (config : PipelineSettings) : List (String × Json) :=
  [("minifier", config.minifier.toJson), ("postProcessing", config.postProcessing.toJson),
    ("languages", .object config.languages), ("lint", .bool config.lint)]

/-- The plugins with these names; the first name that is not known is an error. -/
def resolvePlugins : List String → Except CompileError (List StylesheetPlugin)
  | [] => .ok []
  | name :: names =>
    match StylesheetPlugin.builtin? name with
    | none => .error (.unknownPlugin name)
    | some plugin => (resolvePlugins names).map (plugin :: ·)

/-- The options of the languages under their names in small letters. -/
def resolveLanguages (languages : List (String × Json)) : SortedMap Json :=
  .ofEntries (languages.map fun entry => (languageKey entry.1, entry.2))

/-- The options that the configuration describes. -/
def toSetup (config : PipelineSettings) : Except CompileError PipelineSetup :=
  (resolvePlugins config.postProcessing.plugins).map fun plugins =>
    { minifier := config.minifier
      postProcessing :=
        { plugins, source := config.postProcessing.source, target := config.postProcessing.target }
      languages := resolveLanguages config.languages
      lint := config.lint }

end PipelineSettings

end Triptych
