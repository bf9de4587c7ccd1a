/-!
# What commands print

A command prints lines to one of two streams, through `Console`, which any monad can provide.
-/

namespace Triptych.Project

/-- Where a line is printed. -/
inductive Stream where
  | output
  | errors
deriving DecidableEq, Repr

/-- A monad with a console. -/
class Console (m : Type → Type) where
  /-- Prints a text and ends the line. -/
  printLine : Stream → String → m Unit

end Triptych.Project
