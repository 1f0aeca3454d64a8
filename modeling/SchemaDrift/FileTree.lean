import SchemaDrift.Fault
import SchemaDrift.Ordered.Map
import SchemaDrift.Ordered.Set

/-!
A tree of text files below one directory, and the paths that lead through it. There are no links, so
a place in the tree is given by the names from the root down.
-/

namespace SchemaDrift

/-- The names from the root of the tree down. -/
abbrev Location := List String

structure FileTree where
  files : OrderedMap Location String
  directories : OrderedSet Location
  deriving DecidableEq

/-- Where a path leads. -/
inductive Spot where
  /-- A directory that the tree is part of. -/
  | above
  | directory (location : Location)
  | file (location : Location)
  deriving DecidableEq, Repr

namespace FileTree

def empty : FileTree := ⟨OrderedMap.empty, OrderedSet.ofList [[]]⟩

/-- The parts of a path between its slashes. -/
def parts (path : String) : List String :=
  (path.toList.splitOn '/').map String.ofList

/-- Adds a file below a directory, with the directories that its path goes through. -/
def addBelow (text : String) : (directory : Location) → List String → FileTree → FileTree
  | _, [], t => t
  | d, [name], t => { t with files := t.files.insert (d ++ [name]) text }
  | d, name :: rest, t =>
    if name = "" || name = "." then addBelow text d rest t
    else if name = ".." then addBelow text d.dropLast rest t
    else addBelow text (d ++ [name]) rest
      { t with directories := t.directories.insert (d ++ [name]) }

def add (t : FileTree) (path text : String) : FileTree := t.addBelow text [] (parts path)

/-- The tree of the files with these paths and texts. -/
def ofList (files : List (String × String)) : FileTree :=
  files.foldl (fun t f => t.add f.1 f.2) empty

def maxNameBytes : Nat := 255

/-- Follows one part of a path. Empty parts and dots stay in place, but only in a directory. Above
the tree nothing has a name. A name that is too long is refused wherever it could be looked up. -/
def follow (t : FileTree) (spot : Spot) (part : String) : Except FileFault Spot :=
  match spot with
  | .file _ => .error .notDirectory
  | .above =>
    if ["", ".", ".."].contains part then .ok .above
    else if maxNameBytes < part.utf8ByteSize then .error .longName
    else .error .missing
  | .directory d =>
    if part = "" || part = "." then .ok (.directory d)
    else if part = ".." then .ok (if d.isEmpty then .above else .directory d.dropLast)
    else if maxNameBytes < part.utf8ByteSize then .error .longName
    else
      let location := d ++ [part]
      if t.files.contains location then .ok (.file location)
      else if t.directories.contains location then .ok (.directory location)
      else .error .missing

/-- Where a path leads from a directory. A path that starts with a slash leads from above the tree;
the empty path leads nowhere. A path with a NUL in it is refused before it is followed. -/
def resolve (t : FileTree) (directory : Location) (path : String) : Except FileFault Spot :=
  if path.toList.contains '\x00' then .error .nulInPath
  else
    match parts path with
    | [""] => .error .missing
    | "" :: rest => rest.foldlM t.follow .above
    | ps => ps.foldlM t.follow (.directory directory)

def locate (t : FileTree) (directory : Location) (path : String) : Except FileFault Location :=
  match t.resolve directory path with
  | .ok (.file location) => .ok location
  | .ok _ => .error .isDirectory
  | .error fault => .error fault

end FileTree

end SchemaDrift
