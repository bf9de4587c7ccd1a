import Triptych.Document.Parser
import Triptych.Json.Printer
import Triptych.Lint.Linter
import Triptych.Project.Command
import Triptych.Report

/-!
# Linting a project

`lintProject` prints the findings about one document or about all documents below a directory, for a
reader or as JSON. A document that cannot be read counts as an error. The command fails when there
are errors.
-/

namespace Triptych.Project

open Lint

/-- What is to be linted, and how findings are shown. -/
structure LintRequest where
  /-- A document or a directory. -/
  path : String := "."
  /-- Name documents without findings, and show findings that are mere remarks. -/
  verbose : Bool := false
  /-- With `json`, findings are printed as data. -/
  format : String := "text"
deriving DecidableEq, Repr

/-- True when findings are to be printed as data. -/
def LintRequest.asData (request : LintRequest) : Bool :=
  request.format == "json"

/-- A finding as data. -/
def findingJson (d : Diagnostic) : Json :=
  .object
    [ ("level", .string d.level.name)
    , ("rule", .string d.rule)
    , ("message", .string d.message)
    , ("span", .object [("start", .nat d.span.start), ("end", .nat d.span.stop)])
    , ("location", .object [("line", .nat d.location.line), ("column", .nat d.location.column)])
    , ("suggestion", .ofOption d.suggestion) ]

/-- A finding for a reader: one line, and one more for a suggestion. -/
def findingLines (d : Diagnostic) : List String :=
  s!"  {d.location.display} {d.level.display} [{d.rule}] {d.message}" ::
    (d.suggestion.toList.map fun suggestion => s!"    💡 {suggestion}")

/-- The lines about the findings of one document for a reader. -/
def findingsText (verbose : Bool) (file : Path) (findings : List Diagnostic) : List String :=
  if findings.isEmpty then
    if verbose then [s!"✓ {file.text}"] else []
  else
    let shown := findings.filter fun d => verbose || d.level ≠ .info
    file.text :: (shown.flatMap findingLines ++ [""])

/-- What was found so far. -/
structure Findings where
  total : Nat := 0
  errors : Nat := 0
  warnings : Nat := 0
deriving DecidableEq, Repr

namespace Findings

/-- The number of findings of a level. -/
def count (level : Level) (findings : List Diagnostic) : Nat :=
  findings.countP fun d => d.level = level

/-- Counts the findings of a document. -/
def add (found : Findings) (findings : List Diagnostic) : Findings :=
  { total := found.total + findings.length
    errors := found.errors + count .error findings
    warnings := found.warnings + count .warning findings }

/-- Counts a document that cannot be read. -/
def addUnreadable (found : Findings) : Findings :=
  { found with errors := found.errors + 1 }

/-- The lines at the end of a report for a reader. -/
def summary (found : Findings) (files : Nat) : List String :=
  ["", "✨ Done Linting complete!", s!"   Files checked: {files}",
    s!"   Total diagnostics: {found.total}"] ++
  (if found.errors = 0 then [] else [s!"   Errors: {found.errors}"]) ++
  (if found.warnings = 0 then [] else [s!"   Warnings: {found.warnings}"]) ++
  (if found.errors = 0 && found.warnings = 0 then ["   ✓ No issues found!"] else [])

end Findings

section

variable {m : Type → Type} [Monad m] [FileStore m] [Console m]

/-- Lints one document and counts what is found. -/
def lintAt (request : LintRequest) (found : Findings) (file : Path) : Command m Findings := do
  let source ← withFiles (FileStore.read file)
  match Document.parse source with
  | .error error =>
    let report := Report.render (file.fileName?.getD "unknown") source error
    ExceptT.lift (Console.printLine .errors s!"✗ Failed to parse {file.text}:\n{report}")
    return found.addUnreadable
  | .ok document =>
    let findings := documentFindings RuleSet.default source.toList document
    if request.asData then say (Json.array (findings.map findingJson)).pretty
    else sayAll (findingsText request.verbose file findings)
    return found.add findings

/-- The documents to lint: a file as it is, or those below a directory that have the extension of
its configuration. -/
def lintTargets (request : LintRequest) (input : Path) : Command m (List Path) := do
  match ← kindOf input with
  | some .file => return [input]
  | some .directory =>
    let config ← loadConfig input
    let files ← documentsBelow input config.extension
    if !request.asData then sayAll [s!"   Found {files.length} .{config.extension} files", ""]
    return files
  | none => throw (.missingInput input)

/-- Lints a document or the documents below a directory. -/
def lintProject (cwd : Path) (request : LintRequest) : Command m Unit := do
  let input := cwd.join (Path.ofText request.path)
  if !request.asData then
    sayAll ["🔍 Starting Weave Linter", s!"   Input: {input.text}", ""]
  let files ← lintTargets request input
  let found ← files.foldlM (lintAt request) {}
  if !request.asData then sayAll (found.summary files.length)
  if found.errors ≠ 0 then throw (.lintErrors found.errors)

end

end Triptych.Project
