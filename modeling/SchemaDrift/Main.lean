import SchemaDrift.Plan.Making
import SchemaDrift.Source.Expansion

/-!
The command line. It prints the plan for schema files and a database that exists and is empty: the
script that would set up all that the files declare.
-/

namespace SchemaDrift

/-- What the command line asks for. -/
structure Invocation where
  database? : Option String
  real : FloatSize
  dropTables : Bool
  defines : Defines
  files : List String

namespace Invocation

def empty : Invocation := ⟨none, .double, true, OrderedMap.empty, []⟩

def usage : String :=
  "usage: schemadrift --database NAME [--real-as-float] [--no-drop-tables] " ++
    "[-D NAME=VALUE]... FILE..."

/-- Reads the arguments in order; a later one overrides an earlier one. -/
def read (i : Invocation) : List String → Except String Invocation
  | [] => .ok i
  | "--database" :: name :: rest => { i with database? := some name }.read rest
  | "--real-as-float" :: rest => { i with real := .single }.read rest
  | "--no-drop-tables" :: rest => { i with dropTables := false }.read rest
  | "-D" :: argument :: rest =>
    match Defines.ofArgument? argument with
    | some (name, value) => { i with defines := i.defines.insert name value }.read rest
    | none => .error (Defines.refusal argument)
  | file :: rest =>
    if Text.startsWith "-" file then .error usage
    else { i with files := i.files ++ [file] }.read rest

/-- The plan, or what is wrong; `tree` holds the files. -/
def plan (i : Invocation) (tree : FileTree) : Except String Plan := do
  let some name := i.database? | .error usage
  if i.files.isEmpty then .error usage
  let d : LiveDatabase := ⟨name, i.real⟩
  let server : Server := .ofAnswers fun query =>
    .ok (if query = d.presenceQuery then [[some name]] else [])
  let sources ← (tree.sources i.defines i.files).mapError Fault.message
  ((((Plan.make ⟨d, i.dropTables⟩ sources).run server).run []).1).mapError Fault.message

end Invocation

/-- Reads the files of the paths and the files that they include. A path that leads to no text is
left out. -/
def gather (paths : List String) : IO FileTree := do
  let mut tree := FileTree.empty
  let mut pending := paths
  repeat
    let path :: rest := pending | break
    pending := rest
    if let .error _ := tree.locate [] path then
      let text? ← try some <$> IO.FS.readFile path catch _ => pure none
      if let some text := text? then
        tree := tree.add path text
        if let .ok location := tree.locate [] path then
          let included := (Text.lines text.toList).filterMap includedPath?
          pending := included.map (fun target =>
            Text.joined "/" (location.dropLast ++ [target])) ++ pending
  return tree

end SchemaDrift

open SchemaDrift in
def main (args : List String) : IO UInt32 := do
  match Invocation.empty.read args with
  | .error reason => IO.eprintln reason; return 2
  | .ok i =>
    match i.plan (← gather i.files) with
    | .error reason => IO.eprintln reason; return 1
    | .ok p =>
      IO.print p.text
      for n in p.notices do IO.eprintln ("error: " ++ n.fault.message)
      return if p.notices.isEmpty then 0 else 1
