import SchemaDrift.FileTree
import SchemaDrift.Source
import SchemaDrift.Source.Define
import SchemaDrift.Text.Blank

/-!
Sources from files. A line that includes another file stands for the text of that file; then the
placeholders are replaced. A file may be included again and again, but not while it is open.
-/

namespace SchemaDrift

/-- The path that a line includes. The word that marks such a line is followed by a blank. -/
def includedPath? (line : List Char) : Option String :=
  match Text.afterStart? "#!include".toList (Text.trim line) with
  | some (c :: cs) => if Text.isBlank c then some (String.ofList (Text.trim (c :: cs))) else none
  | _ => none

namespace FileTree

/-- The text of the file that a path leads to, with the included files in it. The path leads from
`directory`; `unopened` are the files that are not being expanded already. -/
def expand (t : FileTree) (unopened : List Location) (directory : Location) (path : String) :
    Except Fault (List Char) := do
  let location ← (t.locate directory path).mapError .file
  if _closed : location ∈ unopened then
    let lines := Text.lines ((t.files.get? location).getD "").toList
    let expanded ← lines.mapM fun line =>
      match includedPath? line with
      | some target => t.expand (unopened.erase location) location.dropLast target
      | none => .ok line
    return expanded.flatMap (· ++ ['\n'])
  else .error (.includeCycle (Text.joined "/" location))
termination_by unopened.length
decreasing_by
  have := List.length_erase_of_mem _closed
  have := List.length_pos_of_mem _closed
  omega

/-- The source of a file. -/
def source (t : FileTree) (ds : Defines) (path : String) : Except Fault Source := do
  let text ← t.expand t.files.keys [] path
  return Source.ofText path (ds.substitute (String.ofList text))

/-- The sources of several files; the first fault counts. -/
def sources (t : FileTree) (ds : Defines) (paths : List String) : Except Fault (List Source) :=
  paths.mapM (t.source ds)

end FileTree

end SchemaDrift
