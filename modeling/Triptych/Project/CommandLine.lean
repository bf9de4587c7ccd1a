import Triptych.Project.Help

/-!
# The command line

`runCommandLine` understands the words of a command line, does what they ask for and says how it
went.
-/

namespace Triptych.Project

/-- How a command line ended. -/
inductive ExitStatus where
  | success
  /-- The command failed. -/
  | failure
  /-- The words were not understood. -/
  | misuse
deriving DecidableEq, Repr

/-- The number of a status. -/
def ExitStatus.code : ExitStatus → UInt32
  | .success => 0
  | .failure => 1
  | .misuse => 2

section

variable {m : Type → Type} [Monad m] [FileStore m] [Console m]

/-- Does what is asked for. -/
def Request.run (cwd : Path) : Request → Command m Unit
  | .init request => startProject cwd request
  | .compile request => compileProject cwd request
  | .lint request => lintProject cwd request
  | .help topic => sayAll (helpLines topic)
  | .version => say versionLine

/-- Runs a command line in a directory. -/
def runCommandLine (cwd : Path) (words : List String) : m ExitStatus := do
  match parseArguments words with
  | .error error =>
    Console.printLine .errors s!"error: {error.message}"
    Console.printLine .errors "For more information, try '--help'."
    return .misuse
  | .ok request =>
    match ← (request.run cwd).run with
    | .ok () => return .success
    | .error error =>
      Console.printLine .errors ""
      Console.printLine .errors s!"Error: {error.message}"
      Console.printLine .errors ""
      return .failure

end

end Triptych.Project
