import Triptych.Pipeline.Compile
import Triptych.Project.Command
import Triptych.Report

/-!
# Compiling a project

`compileProject` compiles the documents of a project, or a single one. Documents do not depend on
one another, so they may be compiled in any order: each has a number, the place of its path among
all of them, and results are put back in that order before anything is written. `compileScheduled`
takes the order as an argument.

A document `pages/App.weave` becomes `pages/App.js` and, if it has a stylesheet,
`pages/App.style.js` in the output directory.
-/

namespace Triptych.Project

open Text

/-- What is to be compiled. -/
structure CompileRequest where
  /-- A document or the directory of a project. -/
  path : String := "."
  /-- Print the results instead of writing files. -/
  toConsole : Bool := false
  /-- The output directory, if it is not that of the configuration. -/
  outDir : Option String := none
deriving DecidableEq, Repr

/-! ### One document -/

/-- Why there is nothing to show for a document. -/
inductive DocumentError where
  /-- It could not be read, or its results could not be written. -/
  | file (error : FileError)
  /-- The document at a path, with this text, does not compile. -/
  | compile (path : Path) (source : String) (error : CompileError)
deriving Repr

/-- A number in a column of at least five places. -/
def columnText (n : Nat) : String :=
  let digits := toString n
  String.ofList (List.replicate (5 - digits.length) ' ') ++ digits

/-- A line of a source, after its number. -/
def numberedLine (source : String) (line : Nat) : String :=
  let rest := dropBytes (lineStart source.toList line) source.toList
  s!"{columnText line} | " ++ String.ofList ((displayLines rest).headD [])

/-- The error in words. A document that cannot be read is reported with a drawing; any other error
with the line it is in, as far as that is known. -/
def DocumentError.message : DocumentError → String
  | .file error => error.message
  | .compile path source (.parse error) =>
    "\n" ++ Report.render (path.fileName?.getD "unknown") source error
  | .compile _ source error =>
    match error.line? with
    | some line => s!"{error.message}\n{numberedLine source line}"
    | none => error.message

/-- The files that a document becomes: its code and its stylesheet. -/
def resultPaths (outDir document : Path) : Path × Path :=
  let base := outDir.join document
  (base.withExtension "js", base.withExtension "style.js")

section

variable {m : Type → Type} [Monad m] [FileStore m] [Console m]

/-- Compiles the document at a path. -/
def compileFile (pipeline : Pipeline) (file : Path) : m (Except DocumentError Output) := do
  match ← FileStore.read file with
  | .error error => return .error (.file error)
  | .ok source =>
    return (pipeline.compile source file.text).result.mapError (.compile file source)

/-- Writes the files of a compiled document and says which. -/
def writeOutput (outDir document : Path) (output : Output) : ExceptT FileError m (List Path) := do
  let (codePath, stylePath) := resultPaths outDir document
  ExceptT.mk (createDirectories codePath.parent)
  ExceptT.mk (FileStore.write codePath output.code)
  match output.style with
  | none => return [codePath]
  | some style =>
    ExceptT.mk (FileStore.write stylePath style)
    return [codePath, stylePath]

/-- Prints a compiled document. -/
def printOutput (output : Output) : m Unit := do
  Console.printLine .output output.code
  match output.style with
  | none => return ()
  | some style => Console.printLine .output style

/-! ### All documents -/

/-- Where results go. -/
inductive Destination where
  | console
  | directory (path : Path)
deriving DecidableEq, Repr

/-- A document to compile, with its place among all of them. -/
structure Job where
  index : Nat
  file : Path
deriving DecidableEq, Repr

/-- The jobs for some documents. -/
def jobsFor (files : List Path) : List Job :=
  files.zipIdx.map fun (file, index) => ⟨index, file⟩

/-- A job with what came out of it. -/
structure FinishedJob extends Job where
  result : Except DocumentError Output

/-- Does a job. -/
def Job.run (pipeline : Pipeline) (job : Job) : m FinishedJob := do
  return { job with result := ← compileFile pipeline job.file }

/-- Finished jobs in the order of their documents, however they were finished. -/
def inDocumentOrder (finished : List FinishedJob) : List FinishedJob :=
  finished.mergeSort fun a b => a.index ≤ b.index

/-- How many documents were compiled, and how many not. -/
structure Tally where
  compiled : Nat := 0
  failed : Nat := 0
deriving DecidableEq, Repr

/-- Sends a compiled document where it is to go and says so. -/
def deliver (destination : Destination) (document : Path) (output : Output) :
    m (Except DocumentError Unit) := do
  match destination with
  | .console =>
    printOutput output
    return .ok ()
  | .directory outDir =>
    match ← (writeOutput outDir document output).run with
    | .error error => return .error (.file error)
    | .ok written =>
      let places := ", ".intercalate (written.map Path.text)
      Console.printLine .output s!"  ✓ {document.text} → {places}"
      return .ok ()

/-- Delivers the result of a job, or reports why there is none, and counts it. The document is named
as it is seen from `root`. -/
def settle (destination : Destination) (root : Path) (tally : Tally) (job : FinishedJob) :
    m Tally := do
  let document := Path.relativeTo root job.file
  let delivered ← match job.result with
    | .ok output => deliver destination document output
    | .error error => pure (.error error)
  match delivered with
  | .ok () => return { tally with compiled := tally.compiled + 1 }
  | .error error =>
    Console.printLine .errors s!"  ✗ {document.text} - {error.message}"
    return { tally with failed := tally.failed + 1 }

/-- Settles finished jobs in the order of their documents. -/
def settleAll (destination : Destination) (root : Path) (finished : List FinishedJob) : m Tally :=
  (inDocumentOrder finished).foldlM (settle destination root) {}

/-- The lines that say how a compile went. There are none among printed results. -/
def Tally.summary (destination : Destination) (tally : Tally) : List String :=
  match destination with
  | .console => []
  | .directory _ =>
    ["", if tally.failed = 0 then s!"✅ Compiled {tally.compiled} files successfully"
      else s!"⚠️ Compiled {tally.compiled} files, {tally.failed} errors"]

/-- Says how a compile went; it failed if one document did. -/
def conclude (destination : Destination) (tally : Tally) : Command m Unit := do
  sayAll (tally.summary destination)
  if tally.failed ≠ 0 then throw (.failedDocuments tally.failed)

/-- Compiles documents and delivers the results. The jobs are done in the order that `schedule` puts
them in. -/
def compileDocuments (schedule : List Job → List Job) (pipeline : Pipeline)
    (destination : Destination) (root : Path) (files : List Path) : Command m Unit := do
  let finished ← ExceptT.lift ((schedule (jobsFor files)).mapM (Job.run pipeline))
  conclude destination (← ExceptT.lift (settleAll destination root finished))

/-! ### The command -/

/-- What there is to compile. -/
structure Selection where
  /-- The directory that documents are seen from. -/
  root : Path
  files : List Path
  /-- The directory of the project. -/
  projectDir : Path
  config : Config

/-- Finds what is to be compiled: one file, under the configuration of the working directory, or the
documents of the project in a directory. -/
def select (cwd target : Path) : Command m Selection := do
  if (← kindOf target) = some .file then
    return { root := target.parent, files := [target], projectDir := cwd,
             config := ← loadConfig cwd }
  else
    let config ← loadConfig target
    let srcDir := target.join (Path.ofText config.srcDir)
    if (← kindOf srcDir).isNone then throw (.missingSource srcDir)
    let files ← documentsBelow srcDir config.extension
    return { root := srcDir, files, projectDir := target, config }

/-- Where the results of a selection go. -/
def destinationFor (cwd : Path) (selection : Selection) (request : CompileRequest) : Destination :=
  if request.toConsole then .console
  else
    .directory <| match request.outDir with
      | some outDir => cwd.join (Path.ofText outDir)
      | none => selection.projectDir.join (Path.ofText selection.config.outDir)

/-- Compiles a project. What is done with the documents that were found is up to `compile`. -/
def compileSelected (compile : Pipeline → Destination → Path → List Path → Command m Unit)
    (cwd : Path) (request : CompileRequest) : Command m Unit := do
  let selection ← select cwd (cwd.join (Path.ofText request.path))
  if !request.toConsole then say "🔨 Compiling Weave documents..."
  if selection.files.isEmpty then say s!"⚠️  No .{selection.config.extension} files found"
  else
    match selection.config.pipeline.toSetup with
    | .error error => throw (.options error)
    | .ok options =>
      compile { registry := .builtin, options } (destinationFor cwd selection request)
        selection.root selection.files

/-- Compiles a project, the jobs in the order that `schedule` puts them in. -/
def compileScheduled (schedule : List Job → List Job) (cwd : Path) (request : CompileRequest) :
    Command m Unit :=
  compileSelected (compileDocuments schedule) cwd request

/-- Compiles a project, one document after the other. -/
def compileProject (cwd : Path) (request : CompileRequest) : Command m Unit :=
  compileScheduled id cwd request

end

end Triptych.Project
