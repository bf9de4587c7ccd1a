import Triptych.Text.Position

/-!
# What checkers report

Stylesheets and scripts are checked for the same kind of mistake: a comment or literal that does not
end, a closing bracket that fits no opening one, an opening bracket that is never closed.
`Code.Fault` is such a mistake with its place. `Failure` is the form in which every tool of a
pipeline reports that it could not do its work: a message and, if it knows them, a line and a
column.
-/

namespace Triptych

/-- Why a tool could not do its work. Line and column count from 1. -/
structure Failure where
  message : String
  line : Option Nat := none
  column : Option Nat := none
deriving DecidableEq, Repr

namespace Failure

/-- The message, followed by the place if a line is known. -/
def display (failure : Failure) : String :=
  match failure.line, failure.column with
  | some line, some column => s!"{failure.message} (line {line}, column {column})"
  | some line, none => s!"{failure.message} (line {line})"
  | none, _ => failure.message

end Failure

namespace Code

/-- What is wrong with a piece of code. -/
inductive Cause where
  | unterminatedComment
  | unterminatedString
  | unterminatedRegex
  | unterminatedTemplate
  /-- A closing bracket that does not fit the innermost open one. -/
  | unexpected (closer : Char)
  /-- The innermost opening bracket at the end of the code. -/
  | unclosed (opener : Char)
deriving DecidableEq, Repr

/-- The cause in words. -/
def Cause.message : Cause → String
  | .unterminatedComment => "Unterminated comment"
  | .unterminatedString => "Unterminated string"
  | .unterminatedRegex => "Unterminated regular expression"
  | .unterminatedTemplate => "Unterminated template literal"
  | .unexpected closer => s!"Unexpected '{closer}'"
  | .unclosed opener => s!"Unclosed '{opener}'"

/-- A mistake and where it is. -/
structure Fault where
  cause : Cause
  location : Location
deriving DecidableEq, Repr

/-- The mistake as a tool reports it. -/
def Fault.toFailure (fault : Fault) : Failure :=
  { message := fault.cause.message
    line := some fault.location.line
    column := some fault.location.column }

end Code

end Triptych
