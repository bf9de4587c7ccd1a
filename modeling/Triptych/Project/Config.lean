import Triptych.Json.Printer
import Triptych.Pipeline.Config

/-!
# Configuration of a project

A project is configured by one JSON file at its root. Besides the settings of the pipeline it says
where documents are, what extension their file names have, and where compiled files go. All settings
stand side by side in one object; an array is not accepted here.
-/

namespace Triptych.Project

/-- The name of the configuration file. -/
def configName : String := "weave.config.json"

/-- The configuration of a project. -/
structure Config where
  /-- The directory of the documents, seen from the root. -/
  srcDir : String := "src"
  /-- The extension of documents, without the dot. -/
  extension : String := "weave"
  /-- The directory for compiled files, seen from the root. -/
  outDir : String := "dist"
  pipeline : PipelineSettings := {}
deriving Inhabited

namespace Config

/-- Reads a configuration. -/
def ofJson (json : Json) : Except ConfigError Config :=
  match json with
  | .object members => do
    let get := Settings.member? members
    return { srcDir := ← Settings.string "srcDir" "src" (← get "srcDir")
             extension := ← Settings.string "extension" "weave" (← get "extension")
             outDir := ← Settings.string "outDir" "dist" (← get "outDir")
             pipeline := ← PipelineSettings.ofSettings get }
  | _ => .error (.wrongType "configuration" "an object")

/-- Reads the text of a configuration file. -/
def parse (text : List Char) : Except ConfigError Config := do
  ofJson (← (Json.parse text).mapError .json)

/-- Writes a configuration, with every setting. -/
def toJson (config : Config) : Json :=
  .object
    ([("srcDir", .string config.srcDir), ("extension", .string config.extension),
      ("outDir", .string config.outDir)] ++ config.pipeline.toMembers)

end Config

end Triptych.Project
