import Tablature.CommandLine.Files

namespace Tablature

/-- The files of a directory, each by its path below it. -/
structure FileTree where
  files : List (String × String)

/-- A directory: one of the tree, by the steps to it from the tree's own; one that every system has, by the
steps from the root; or one around the tree, of which nothing else is known. -/
inductive Directory where
  | inner (steps : List String)
  | system (steps : List String)
  | around
deriving DecidableEq, Repr

/-- What a directory has under a name. -/
inductive Entry where
  | directory (place : Directory)
  | file (text : String)
  | nothing
deriving DecidableEq, Repr

/-- Where a path ends: at a directory as such, or at a name in one, `asDirectory` if a slash follows it. -/
inductive PathEnd where
  | directory (place : Directory)
  | name (place : Directory) (name : String) (asDirectory : Bool)
deriving DecidableEq, Repr

def Directory.parent : Directory → Directory
  | inner [] => around
  | inner steps => inner steps.dropLast
  | system steps => system steps.dropLast
  | around => around

/-- Directories right below the root. -/
def systemDirectories : List String :=
  ["bin", "dev", "etc", "home", "lib", "opt", "proc", "root", "run", "sbin", "sys", "tmp", "usr", "var"]

/-- The most bytes of a name, and of a path. -/
def nameLimit : Nat :=
  255

def pathLimit : Nat :=
  4095

namespace FileTree

def steps (path : String) : List String :=
  ((path.toList.splitOn '/').map String.ofList).filter (· != "")

def inner (tree : FileTree) (place : List String) : Entry :=
  match tree.files.find? fun (path, _) => steps path == place with
  | some (_, text) => .file text
  | none =>
    if tree.files.any fun (path, _) => place.isPrefixOf (steps path) then .directory (.inner place) else .nothing

/-- Of the system's files only the one that is always empty is known. -/
def systemEntry : List String → String → Entry
  | [], name => if systemDirectories.contains name then .directory (.system [name]) else .nothing
  | ["dev"], name => if name = "null" then .file "" else .nothing
  | _, _ => .nothing

/-- The entry of a directory under a name. -/
def entry (tree : FileTree) (place : Directory) (name : String) : Except FileError Entry :=
  if nameLimit < name.utf8ByteSize then .error .nameTooLong
  else
    .ok <| match place with
      | .inner place => tree.inner (place ++ [name])
      | .system place => systemEntry place name
      | .around => .nothing

/-- One step of a path that goes on after it. -/
def enter (tree : FileTree) (place : Directory) (step : String) : Except FileError Directory :=
  if step = "." then .ok place
  else if step = ".." then .ok place.parent
  else do
    match ← tree.entry place step with
    | .directory next => return next
    | .file _ => throw .notDirectory
    | .nothing => throw .notFound

def locate (tree : FileTree) (path : String) : Except FileError PathEnd := do
  if path.isEmpty then throw .notFound
  else if pathLimit < path.utf8ByteSize then throw .nameTooLong
  else
    let start : Directory := if path.startsWith "/" then .system [] else .inner []
    let steps := steps path
    let place ← steps.dropLast.foldlM tree.enter start
    match steps.getLast? with
    | none => return .directory place
    | some step =>
      if step = "." ∨ step = ".." then .directory <$> tree.enter place step
      else return .name place step (path.endsWith "/")

/-- A slash after its name is not allowed for a file. -/
def read (tree : FileTree) (path : String) : Except FileError String := do
  match ← tree.locate path with
  | .directory _ => throw .isDirectory
  | .name place name asDirectory =>
    match ← tree.entry place name with
    | .directory _ => throw .isDirectory
    | .file text => if asDirectory then throw .notDirectory else return text
    | .nothing => throw .notFound

/-- What stands in the way of writing to a path. A slash at its end makes it a directory, there or not. -/
def checkWrite (tree : FileTree) (path : String) : Except FileError Unit := do
  match ← tree.locate path with
  | .directory _ => throw .isDirectory
  | .name place name asDirectory =>
    if asDirectory then throw .isDirectory
    else
      match ← tree.entry place name with
      | .directory _ => throw .isDirectory
      | .file _ | .nothing => return

def access (tree : FileTree) : FileAccess where
  read := tree.read
  refusal path :=
    match tree.checkWrite path with
    | .error error => some error
    | .ok () => none

/-- The path by which the tree knows a file, if it is one of its own. -/
def name? (tree : FileTree) (path : String) : Option String :=
  match tree.locate path with
  | .ok (.name (.inner place) name _) => some ("/".intercalate (place ++ [name]))
  | _ => none

end FileTree

end Tablature
