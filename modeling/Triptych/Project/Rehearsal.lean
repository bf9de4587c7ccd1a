import Triptych.Project.Console
import Triptych.Project.FileTree

/-!
# Commands in memory

`Rehearsal` is the monad in which a command runs without touching anything: its state holds a tree
of files and the lines printed so far.
-/

namespace Triptych.Project

/-- A printed line. -/
structure Printed where
  stream : Stream
  line : String
deriving DecidableEq, Repr

/-- The state of a run in memory. -/
structure Scene where
  tree : FileTree
  /-- What was printed, in order. -/
  printed : List Printed := []
deriving Repr, Inhabited

namespace Scene

/-- All that was printed to one stream. -/
def transcript (scene : Scene) (stream : Stream) : String :=
  String.join ((scene.printed.filter fun p => p.stream = stream).map fun p => p.line ++ "\n")

end Scene

/-- A run in memory. -/
abbrev Rehearsal := StateM Scene

namespace Rehearsal

/-- Asks the tree. -/
def inspect {α : Type} (question : FileTree → α) : Rehearsal α :=
  return question (← get).tree

/-- Changes the tree, unless that fails. -/
def change (edit : FileTree → Except FileError FileTree) : Rehearsal (Except FileError Unit) := do
  match edit (← get).tree with
  | .error error => return .error error
  | .ok tree =>
    modify fun scene => { scene with tree }
    return .ok ()

end Rehearsal

instance : FileStore Rehearsal where
  kind? path := Rehearsal.inspect (·.kind? path)
  read path := Rehearsal.inspect (·.read path)
  write path text := Rehearsal.change (·.write path text)
  makeDirectory path := Rehearsal.change (·.makeDirectory path)
  filesBelow path := Rehearsal.inspect (·.filesBelow path)

instance : Console Rehearsal where
  printLine stream line :=
    modify fun scene => { scene with printed := scene.printed ++ [⟨stream, line⟩] }

end Triptych.Project
