import Triptych.Project.Path

/-!
# Where files are kept

Commands read and write files through `FileStore`, which any monad can provide: a store in memory,
on which one can reason, or the files of a computer. A store makes one directory at a time;
`createDirectories` makes all that a path needs.
-/

namespace Triptych.Project

/-- Why a file or directory could not be used. -/
inductive FileError where
  | notFound
  | alreadyExists
  | notADirectory
  | isADirectory
  /-- A name, or a whole path, is longer than a store can keep. -/
  | nameTooLong
  /-- A path has a NUL in it, which ends every name. -/
  | nulInName
  /-- The store gives another reason. -/
  | other (reason : String)
deriving DecidableEq, Repr

/-- The error in words, with its customary number. -/
def FileError.message : FileError → String
  | .notFound => "No such file or directory (os error 2)"
  | .alreadyExists => "File exists (os error 17)"
  | .notADirectory => "Not a directory (os error 20)"
  | .isADirectory => "Is a directory (os error 21)"
  | .nameTooLong => "File name too long (os error 36)"
  | .nulInName => "file name contained an unexpected NUL byte"
  | .other reason => reason

/-- What a path can name. -/
inductive EntryKind where
  | file
  | directory
deriving DecidableEq, Repr

/-- A monad with files. -/
class FileStore (m : Type → Type) where
  /-- What a path names, if anything. -/
  kind? : Path → m (Option EntryKind)
  /-- The text of a file. -/
  read : Path → m (Except FileError String)
  /-- Gives a file a text. The file is made if need be; its directory has to be there. -/
  write : Path → String → m (Except FileError Unit)
  /-- Makes a directory where nothing is yet. The directory that it is in has to be there. -/
  makeDirectory : Path → m (Except FileError Unit)
  /-- All files in a directory and in those below it, in any order; of a file, itself. -/
  filesBelow : Path → m (List Path)

section

variable {m : Type → Type} [Monad m] [FileStore m]

/-- Sees to it that there is a directory: makes it, unless it is there already. -/
def ensureDirectory (path : Path) : m (Except FileError Unit) := do
  match ← FileStore.makeDirectory path with
  | .error .alreadyExists =>
    if (← FileStore.kind? path) = some .directory then return .ok ()
      else return .error .alreadyExists
  | result => return result

/-- Sees to it that there are directories, of which each is in the next. Only as far as the way to
one is missing are those after it looked at. -/
def ensureNested : List Path → m (Except FileError Unit)
  | [] => return .ok ()
  | path :: outer => do
    match ← ensureDirectory path with
    | .error .notFound =>
      match ← ensureNested outer with
      | .ok () => ensureDirectory path
      | .error error => return .error error
    | result => return result

/-- Makes a directory and those above it, as far as they are missing. What was made stays when a
later one cannot be. -/
def createDirectories (path : Path) : m (Except FileError Unit) :=
  ensureNested path.ancestry

end

end Triptych.Project
