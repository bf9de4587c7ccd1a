import Triptych.Project.Command

/-!
# Starting a project

`startProject` puts a configuration file and an example document in place. What is there already is
kept, except that an old configuration file is replaced when that is asked for.
-/

namespace Triptych.Project

/-- How a project is to be started. -/
structure InitRequest where
  /-- The directory of the documents. -/
  srcDir : String := "src"
  /-- Replace an old configuration file. -/
  force : Bool := false
deriving DecidableEq, Repr

/-- The lines of the example document. -/
def exampleLines : List String :=
  [ "<template>"
  , "  <button class=\"greeting\" @click=\"greet\">"
  , "    Hello, \x7b\x7b name \x7d\x7d!"
  , "  </button>"
  , "</template>"
  , ""
  , "<script>"
  , "export default \x7b"
  , "  data() \x7b"
  , "    return \x7b name: \"Weave\" \x7d;"
  , "  \x7d,"
  , "  methods: \x7b"
  , "    greet() \x7b"
  , "      console.log(`Hello from ${this.name}`);"
  , "    \x7d,"
  , "  \x7d,"
  , "\x7d;"
  , "</script>"
  , ""
  , "<style>"
  , ".greeting \x7b"
  , "  padding: 8px 16px;"
  , "  margin: 0px;"
  , "  color: #ffffff;"
  , "  background: #3366ff;"
  , "\x7d"
  , "</style>" ]

/-- The example document. -/
def exampleDocument : String :=
  String.join (exampleLines.map (· ++ "\n"))

/-- The configuration of a new project: the defaults, and stylesheets are minified. -/
def newConfig (srcDir : String) : Config :=
  { srcDir, pipeline := { postProcessing := { plugins := ["minify"] } } }

section

variable {m : Type → Type} [Monad m] [FileStore m] [Console m]

/-- Writes what a new project consists of. -/
def writeProject (configPath srcDir : Path) (request : InitRequest) : Command m Unit := do
  let config := newConfig request.srcDir
  let exampleName := s!"App.{config.extension}"
  say "📝 Initializing Weave project..."
  if (← kindOf srcDir).isNone then
    withFiles (createDirectories srcDir)
    say s!"  ✓ Created {request.srcDir}/"
  let examplePath := srcDir.join (Path.ofText exampleName)
  if (← kindOf examplePath).isNone then
    withFiles (FileStore.write examplePath exampleDocument)
    say s!"  ✓ Created {exampleName}"
  withFiles (FileStore.write configPath config.toJson.pretty)
  say s!"  ✓ Created {configName}"
  say ""
  say "✅ Project initialized!"
  say ""
  say "Next steps:"
  say s!"  1. Edit {request.srcDir}/{exampleName}"
  say "  2. Run: weave compile"
  say s!"  3. Check output in {config.outDir}/"

/-- Starts a project in a directory. -/
def startProject (cwd : Path) (request : InitRequest) : Command m Unit := do
  let configPath := cwd.join (Path.ofText configName)
  if (← kindOf configPath).isSome && !request.force then
    say s!"⚠️ {configName} already exists"
    say "Use --force to overwrite"
  else writeProject configPath (cwd.join (Path.ofText request.srcDir)) request

end

end Triptych.Project
