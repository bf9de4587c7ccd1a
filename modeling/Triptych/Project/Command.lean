import Triptych.Pipeline.Error
import Triptych.Project.Config
import Triptych.Project.Console
import Triptych.Project.FileStore

/-!
# What commands share

A command works in any monad with files and a console and may fail; `CommandError` says how.
Commands find their documents with `documentsBelow` and read the configuration of a project with
`loadConfig`.
-/

namespace Triptych.Project

/-- Why a command failed. -/
inductive CommandError where
  | file (error : FileError)
  /-- The configuration file at a path, with this text, is not valid. -/
  | config (path : Path) (text : String) (error : ConfigError)
  /-- The configuration asks for something that there is not. -/
  | options (error : CompileError)
  | missingSource (directory : Path)
  | missingInput (path : Path)
  | failedDocuments (count : Nat)
  | lintErrors (count : Nat)
deriving Repr

namespace CommandError

/-- The error in words. -/
def message : CommandError → String
  | .file error => error.message
  | .config path text error => s!"Invalid {path.text}: {error.message text.toList}"
  | .options error => error.message
  | .missingSource directory => s!"Source directory does not exist: {directory.text}"
  | .missingInput path => s!"Input path does not exist: {path.text}"
  | .failedDocuments count => s!"{count} document(s) failed to compile"
  | .lintErrors count => s!"{count} lint error(s)"

end CommandError

/-- A command that may fail. -/
abbrev Command (m : Type → Type) := ExceptT CommandError m

section

variable {m : Type → Type} [Monad m] [FileStore m] [Console m]

/-- Prints a line of output. -/
def say (line : String) : Command m Unit :=
  ExceptT.lift (Console.printLine .output line)

/-- Prints lines of output. -/
def sayAll (lines : List String) : Command m Unit :=
  lines.forM say

/-- Does something with files as part of a command. -/
def withFiles {α : Type} (action : m (Except FileError α)) : Command m α :=
  ExceptT.mk (return (← action).mapError .file)

/-- What a path names. -/
def kindOf (path : Path) : Command m (Option EntryKind) :=
  ExceptT.lift (FileStore.kind? path)

/-- Reads the configuration of the project in a directory; without a file every setting has its
default. -/
def loadConfig (directory : Path) : Command m Config := do
  let path := directory.join (Path.ofText configName)
  match ← kindOf path with
  | none => return {}
  | some _ =>
    let text ← withFiles (FileStore.read path)
    match Config.parse text.toList with
    | .ok config => return config
    | .error error => throw (.config path text error)

/-- The documents among some files: those with the given extension, in the order of paths. -/
def documentsAmong (extension : String) (files : List Path) : List Path :=
  (files.filter fun file => file.extension? = some extension).mergeSort Path.precedes

/-- The documents in and below a directory. -/
def documentsBelow (directory : Path) (extension : String) : Command m (List Path) := do
  return documentsAmong extension (← ExceptT.lift (FileStore.filesBelow directory))

end

end Triptych.Project
