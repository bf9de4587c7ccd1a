import Triptych.Text.Basic

/-!
# File paths

A `Path` keeps the segments between its separators as they were written, so that a path is shown the
way it was put together: `/work` joined with `.` and `src` is `/work/./src`. What a path names is
another matter. An empty segment and `.` lead nowhere; the segments that do lead somewhere are its
`names`, and two paths are ordered by these.
-/

namespace Triptych.Project

open Text

/-- A path, segment by segment. -/
structure Path where
  /-- Whether it starts at the root. -/
  absolute : Bool
  segments : List String
deriving DecidableEq, Repr, Inhabited

namespace Path

/-! ### Text -/

/-- Reads a path: a leading separator makes it absolute, every other one divides two segments. -/
def ofText (text : String) : Path :=
  let (absolute, rest) := match text.toList with
    | '/' :: rest => (true, rest)
    | chars => (false, chars)
  ⟨absolute, (rest.splitOn '/').map String.ofList⟩

/-- The written form of a path. -/
def text (path : Path) : String :=
  (if path.absolute then "/" else "") ++ "/".intercalate path.segments

/-! ### Segments -/

/-- A segment that leads nowhere. -/
def isIdle (segment : String) : Bool :=
  segment == "" || segment == "."

/-- The segments without the idle ones at their end. -/
def dropIdleEnd (segments : List String) : List String :=
  (segments.reverse.dropWhile isIdle).reverse

/-- The segments without empty ones at their end. -/
def dropEmptyEnd (segments : List String) : List String :=
  (segments.reverse.dropWhile (· == "")).reverse

/-- The segments without an empty one at their end, which a final separator leaves. -/
def dropFinalSeparator (segments : List String) : List String :=
  if segments.getLast? = some "" then segments.dropLast else segments

/-- The segments that lead somewhere. -/
def names (path : Path) : List String :=
  path.segments.filter fun segment => !isIdle segment

/-! ### Joining and parting -/

/-- The path that `path` names when it is read from `base`: itself when it is absolute. -/
def join (base path : Path) : Path :=
  if path.absolute then path
  else ⟨base.absolute, dropFinalSeparator base.segments ++ path.segments⟩

/-- The directory that a path is in. The root is in itself. -/
def parent (path : Path) : Path :=
  { path with segments := dropIdleEnd (dropIdleEnd path.segments).dropLast }

/-- A path and those above it, `count` of them. -/
def upwards : Nat → Path → List Path
  | 0, _ => []
  | count + 1, path => path :: upwards count path.parent

/-- A path and all those above it up to the root, which is left out. -/
def ancestry (path : Path) : List Path :=
  upwards path.names.length path

/-- The segments after those that spell out the names of a directory. -/
def segmentsAfter : List String → List String → Option (List String)
  | [], segments => some (dropIdleEnd (segments.dropWhile isIdle))
  | name :: names, segments =>
    match segments.dropWhile isIdle with
    | [] => none
    | segment :: rest => if segment = name then segmentsAfter names rest else none

/-- A path as it is seen from a directory above it; a path elsewhere stays as it is. -/
def relativeTo (directory path : Path) : Path :=
  if directory.absolute = path.absolute then
    match segmentsAfter directory.names path.segments with
    | some rest => ⟨false, rest⟩
    | none => path
  else path

/-! ### File names -/

/-- The name of the file that a path names; there is none at the root and after a step upwards. -/
def fileName? (path : Path) : Option String :=
  match path.names.getLast? with
  | some name => if name = ".." then none else some name
  | none => none

/-- Parts a file name at its last dot into a stem and an extension. A name whose only dot comes
first is all stem. -/
def splitName (name : List Char) : List Char × Option (List Char) :=
  let reversed := name.reverse
  match reversed.dropWhile (· != '.') with
  | _ :: stem =>
    if stem.isEmpty then (name, none)
    else (stem.reverse, some (reversed.takeWhile (· != '.')).reverse)
  | [] => (name, none)

/-- The extension of the file that a path names. -/
def extension? (path : Path) : Option String :=
  path.fileName?.bind fun name => (splitName name.toList).2.map String.ofList

/-- The path with another extension: everything after the last dot of the file name is replaced, and
a name without an extension gets one. -/
def withExtension (path : Path) (extension : String) : Path :=
  match path.fileName? with
  | some name =>
    let renamed := String.ofList (splitName name.toList).1 ++ "." ++ extension
    { path with segments := (dropIdleEnd path.segments).dropLast ++ [renamed] }
  | none => path

/-- The order of lists of names: the first names that differ decide, by code point, and a list
stands before those it begins. -/
def namesPrecede : List String → List String → Bool
  | [], _ => true
  | _ :: _, [] => false
  | a :: as, b :: bs => if a = b then namesPrecede as bs else decide (a < b)

/-- The order of paths: name by name. -/
def precedes (a b : Path) : Bool :=
  namesPrecede a.names b.names

end Path

end Triptych.Project
