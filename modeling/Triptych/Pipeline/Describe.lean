import Triptych.Json.Printer
import Triptych.Pipeline.Compile

/-!
# Descriptions for debugging

How a registry, the settings for stylesheets and a whole pipeline are shown to someone who looks for
a mistake in their setup. Languages are shown in the order of their names.
-/

namespace Triptych

open Text

/-- A value with named parts. -/
def describeParts (name : String) (parts : List (String × String)) : String :=
  let shown := parts.map fun part => part.1 ++ ": " ++ part.2
  name ++ " \x7b " ++ ", ".intercalate shown ++ " \x7d"

/-- Entries between braces. -/
def describeEntries (entries : List (String × String)) : String :=
  "\x7b" ++ ", ".intercalate (entries.map fun entry => showQuoted entry.1 ++ ": " ++ entry.2) ++
    "\x7d"

/-- Yes or no. -/
def describeBool (value : Bool) : String :=
  if value then "true" else "false"

mutual

/-- A JSON value with the kind of each part. -/
def Json.describe : Json → String
  | .null => "Null"
  | .bool value => "Bool(" ++ describeBool value ++ ")"
  | .number value => "Number(" ++ value.text ++ ")"
  | .string value => "String(" ++ showQuoted value ++ ")"
  | .array items => "Array [" ++ ", ".intercalate (describeItems items) ++ "]"
  | .object members => "Object " ++ describeEntries (describeMembers members)

/-- `describe` of every item. -/
def describeItems : List Json → List String
  | [] => []
  | item :: items => item.describe :: describeItems items

/-- `describe` of the value of every member. -/
def describeMembers : List (String × Json) → List (String × String)
  | [] => []
  | (key, value) :: members => (key, value.describe) :: describeMembers members

end

/-- The languages of a registry. -/
def Registry.describe (registry : Registry) : String :=
  describeParts "CompilerRegistry" [("languages", showList registry.languages)]

/-- The switches of the minifier. -/
def Markup.Reductions.describe (options : Markup.Reductions) : String :=
  describeParts "MinifyOptions"
    [("collapse_whitespace", describeBool options.collapseWhitespace),
      ("remove_comments", describeBool options.removeComments),
      ("collapse_boolean_attributes", describeBool options.collapseBooleanAttributes),
      ("remove_attribute_quotes", describeBool options.removeAttributeQuotes)]

/-- The names of the plugins and what they are told. -/
def PostProcessing.describe (post : PostProcessing) : String :=
  describeParts "PostProcessOptions"
    [("plugins", showList (post.plugins.map (·.name))), ("from", showOption post.source),
      ("to", showOption post.target)]

/-- All options. -/
def PipelineSetup.describe (options : PipelineSetup) : String :=
  describeParts "PipelineOptions"
    [("minifier", options.minifier.describe), ("post_processing", options.postProcessing.describe),
      ("languages", describeEntries (describeMembers options.languages)),
      ("lint", describeBool options.lint)]

/-- The registry and the options of a pipeline; its other parts are left out. -/
def Pipeline.describe (p : Pipeline) : String :=
  s!"Pipeline \x7b registry: {p.registry.describe}, options: {p.options.describe}, .. \x7d"

end Triptych
