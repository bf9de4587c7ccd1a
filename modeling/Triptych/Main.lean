import Triptych.Project.CommandLine

/-!
# The program

The commands of this library on the files of the computer that the program runs on.
-/

namespace Triptych.Project

/-- The error of a store that an error of the system stands for. -/
def FileError.ofSystem (error : IO.Error) : FileError :=
  match error with
  | .noFileOrDirectory .. => .notFound
  | .alreadyExists .. => .alreadyExists
  | error => .other (toString error)

/-- Does something with files and keeps its error as a value. -/
def attempt {α : Type} (action : IO α) : IO (Except FileError α) := do
  match ← action.toBaseIO with
  | .ok value => return .ok value
  | .error error => return .error (.ofSystem error)

instance : FileStore IO where
  kind? path := do
    let place := (← IO.currentDir) / path.text
    if ← place.isDir then return some .directory
    else if ← place.pathExists then return some .file
    else return none
  read path := attempt (IO.FS.readFile path.text)
  write path text := attempt (IO.FS.writeFile path.text text)
  makeDirectory path := attempt (IO.FS.createDir path.text)
  filesBelow path := do
    let place := (← IO.currentDir) / path.text
    if ← place.isDir then
      let found ← place.walkDir
      let files ← found.filterM fun entry => return !(← entry.isDir)
      return files.toList.map fun entry => Path.ofText entry.toString
    else if ← place.pathExists then return [path]
    else return []

instance : Console IO where
  printLine
    | .output, line => IO.println line
    | .errors, line => IO.eprintln line

end Triptych.Project

/-- Runs a command line in the current directory. -/
def main (words : List String) : IO UInt32 := do
  let cwd := Triptych.Project.Path.ofText (← IO.currentDir).toString
  return (← Triptych.Project.runCommandLine cwd words).code
