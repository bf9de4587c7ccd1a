import Triptych.Project.FileStore

/-!
# Files in memory

A `FileTree` is a finite tree of files and directories. Both are found by their address, the names
from the root down to them, so a tree is two lists: the texts of files by address and the addresses
of directories.

A path is followed segment by segment, and each segment wants to start from a directory. So `a/` and
`a/.` name nothing when `a` is a file, and `a/../b` names nothing when `a` is missing. Names have at
most 255 bytes and paths at most 4095.
-/

namespace Triptych.Project

/-- The names that lead from the root to a file or a directory. -/
abbrev Address := List String

/-- A tree of files. -/
structure FileTree where
  /-- The text of each file. -/
  files : List (Address × String)
  /-- The directories, apart from the root. -/
  directories : List Address
deriving Repr, Inhabited

namespace FileTree

/-! ### Looking up -/

/-- The text of the file at an address. -/
def textAt? (tree : FileTree) (address : Address) : Option String :=
  (tree.files.find? fun entry => entry.1 == address).map Prod.snd

/-- What is at an address. -/
def kindAt? (tree : FileTree) (address : Address) : Option EntryKind :=
  if (tree.textAt? address).isSome then some .file
  else if address.isEmpty || tree.directories.contains address then some .directory
  else none

/-- Why nothing can be looked for in what is at an address. -/
def obstacle? (tree : FileTree) (address : Address) : Option FileError :=
  match tree.kindAt? address with
  | some .directory => none
  | some .file => some .notADirectory
  | none => some .notFound

/-- The address one segment further. -/
def step (address : Address) (segment : String) : Except FileError Address :=
  if Path.isIdle segment then .ok address
  else if segment = ".." then .ok address.dropLast
  else if 255 < segment.utf8ByteSize then .error .nameTooLong
  else .ok (address ++ [segment])

/-- Follows segments from a directory. The last of them may lead to a place where nothing is yet. -/
def follow (tree : FileTree) : Address → List String → Except FileError Address
  | address, [] => .ok address
  | address, segment :: segments =>
    match tree.obstacle? address with
    | some error => .error error
    | none =>
      match step address segment with
      | .error error => .error error
      | .ok next => tree.follow next segments

/-- Why a path cannot be followed at all. -/
def unusable? (path : Path) : Option FileError :=
  let text := path.text
  if text.toList.contains '\x00' then some .nulInName
  else if 4095 < text.utf8ByteSize then some .nameTooLong
  else none

/-- The address that a path leads to. -/
def locate (tree : FileTree) (path : Path) : Except FileError Address :=
  match unusable? path with
  | some error => .error error
  | none => tree.follow [] path.segments

/-- What a path names. -/
def kind? (tree : FileTree) (path : Path) : Option EntryKind :=
  match tree.locate path with
  | .ok address => tree.kindAt? address
  | .error _ => none

/-- The text of a file. -/
def read (tree : FileTree) (path : Path) : Except FileError String := do
  let address ← tree.locate path
  match tree.textAt? address with
  | some text => return text
  | none => throw (if tree.kindAt? address = some .directory then .isADirectory else .notFound)

/-- The files in and below a directory, as paths that start with the one given. -/
def filesBelow (tree : FileTree) (path : Path) : List Path :=
  match tree.locate path with
  | .error _ => []
  | .ok address =>
    if tree.kindAt? address = some .file then [path]
    else
      (tree.files.filter fun entry => address.isPrefixOf entry.1).map fun entry =>
        path.join ⟨false, entry.1.drop address.length⟩

/-! ### Changing -/

/-- Gives the file at an address a text. -/
def setText (tree : FileTree) (address : Address) (text : String) : FileTree :=
  if (tree.textAt? address).isSome then
    { tree with
      files := tree.files.map fun entry => if entry.1 = address then (address, text) else entry }
  else { tree with files := tree.files ++ [(address, text)] }

/-- Gives a file a text. -/
def write (tree : FileTree) (path : Path) (text : String) : Except FileError FileTree := do
  let address ← tree.locate path
  if tree.kindAt? address = some .directory then throw .isADirectory
  else return tree.setText address text

/-- The address that a path leads to when separators at its end are not counted. -/
def locateNew (tree : FileTree) (path : Path) : Except FileError Address :=
  match unusable? path with
  | some error => .error error
  | none => tree.follow [] (Path.dropEmptyEnd path.segments)

/-- Makes a directory where nothing is yet. -/
def makeDirectory (tree : FileTree) (path : Path) : Except FileError FileTree := do
  let address ← tree.locateNew path
  if (tree.kindAt? address).isSome then throw .alreadyExists
  else return { tree with directories := tree.directories ++ [address] }

/-! ### Whole trees -/

/-- The directories on the way to an address, and the address itself. -/
def wayTo (address : Address) : List Address :=
  (List.range address.length).map fun index => address.take (index + 1)

/-- The tree of the given files below one directory, with all directories that they need. -/
def ofFiles (root : Address) (files : List (Path × String)) : FileTree :=
  let addresses := files.map fun (path, text) => (root ++ path.names, text)
  let parents := addresses.map fun entry => entry.1.dropLast
  ⟨addresses, ((root :: parents).flatMap wayTo).eraseDups⟩

/-- The files below a directory with their texts, each under its path from there. -/
def toFiles (tree : FileTree) (root : Address) : List (Path × String) :=
  (tree.files.filter fun entry => root.isPrefixOf entry.1).map fun (address, text) =>
    (⟨false, address.drop root.length⟩, text)

end FileTree

end Triptych.Project
