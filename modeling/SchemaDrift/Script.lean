import SchemaDrift.Text.Blank

/-!
A script cut into its statements, as a one-pass scan.

The scan knows whether it stands in plain text, in a quoted text or in a comment. Line comments are
left out of the statements, block comments are kept: a version comment can mean something to the
server. Two dashes open a line comment only if a blank or the end of the script follows, so dashes
are held back until the character after them is known.
-/

namespace SchemaDrift.Script

/-- Where the scan stands. -/
inductive Mode where
  /-- Between quoted texts and comments. -/
  | plain
  /-- After one dash that is held back. -/
  | dash
  /-- After two dashes that are held back. -/
  | dashes
  /-- After a slash. -/
  | slash
  /-- Inside a quoted text; the character is its quote. -/
  | quoted (quote : Char)
  /-- After a backslash inside a quoted text. -/
  | escaped (quote : Char)
  /-- Inside a comment that ends with the line. -/
  | lineComment
  /-- Inside a comment that ends with an asterisk and a slash. -/
  | blockComment
  /-- After an asterisk inside a block comment. -/
  | blockStar
  deriving DecidableEq, Repr

/-- The state of the scan: finished statements and the current one, both with the latest part
first. -/
structure Scan where
  mode : Mode
  current : List Char
  finished : List String
  deriving DecidableEq, Repr

namespace Scan

def start : Scan := ⟨.plain, [], []⟩

def keep (s : Scan) (c : Char) : Scan := { s with current := c :: s.current }

/-- Ends the current statement; one that is blank is dropped. -/
def close (s : Scan) : Scan :=
  let text := Text.trim s.current.reverse
  ⟨.plain, [], if text.isEmpty then s.finished else String.ofList text :: s.finished⟩

/-- A character in plain text. -/
def plainStep (s : Scan) (c : Char) : Scan :=
  if c = ';' then s.close
  else if c = '\x27' || c = '\x22' || c = '\x60' then { s.keep c with mode := .quoted c }
  else if c = '#' then { s with mode := .lineComment }
  else if c = '-' then { s with mode := .dash }
  else if c = '/' then { s.keep c with mode := .slash }
  else { s.keep c with mode := .plain }

/-- A character in a line comment; the line feed that ends it is kept. -/
def lineCommentStep (s : Scan) (c : Char) : Scan :=
  if c = '\n' then { s.keep c with mode := .plain } else { s with mode := .lineComment }

/-- Reads one character. -/
def step (s : Scan) (c : Char) : Scan :=
  match s.mode with
  | .plain => s.plainStep c
  | .dash => if c = '-' then { s with mode := .dashes } else (s.keep '-').plainStep c
  | .dashes =>
    if Text.isBlank c then s.lineCommentStep c
    else if c = '-' then s.keep '-'
    else ((s.keep '-').keep '-').plainStep c
  | .slash => if c = '*' then { s.keep c with mode := .blockComment } else s.plainStep c
  | .quoted q =>
    if c = '\\' && q ≠ '\x60' then { s.keep c with mode := .escaped q }
    else if c = q then { s.keep c with mode := .plain }
    else s.keep c
  | .escaped q => { s.keep c with mode := .quoted q }
  | .lineComment => s.lineCommentStep c
  | .blockComment =>
    if c = '*' then { s.keep c with mode := .blockStar } else s.keep c
  | .blockStar =>
    if c = '/' then { s.keep c with mode := .plain }
    else if c = '*' then s.keep c
    else { s.keep c with mode := .blockComment }

def run (s : Scan) (cs : List Char) : Scan := cs.foldl step s

@[simp] theorem run_nil (s : Scan) : s.run [] = s := rfl

@[simp] theorem run_cons (s : Scan) (c : Char) (cs : List Char) :
    s.run (c :: cs) = (s.step c).run cs := rfl

theorem run_append (s : Scan) (as bs : List Char) : s.run (as ++ bs) = (s.run as).run bs := by
  simp [run, List.foldl_append]

/-- The end of the script: a single dash is text after all, two dashes are a comment. -/
def finish (s : Scan) : Scan :=
  if s.mode = .dash then (s.keep '-').close else s.close

end Scan

/-- The statements of a script, trimmed, without the semicolons that end them. -/
def statements (script : String) : List String :=
  (Scan.start.run script.toList).finish.finished.reverse

end SchemaDrift.Script
