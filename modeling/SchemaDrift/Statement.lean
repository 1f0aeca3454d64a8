import SchemaDrift.Grammar.Account
import SchemaDrift.Grammar.Table
import SchemaDrift.Script

/-!
Statements of a schema. The leading words decide what a statement is about; then the grammar for that
reads it. Statements about other things are left alone, and one that its grammar refuses keeps the
reason.
-/

namespace SchemaDrift

inductive StatementKind where
  | table
  | grant
  | revoke
  | account
  | insert
  | unknown
  deriving DecidableEq, Repr

def StatementKind.name : StatementKind → String
  | table => "table"
  | grant => "grant"
  | revoke => "revoke"
  | account => "user"
  | insert => "insert"
  | unknown => "unknown"

/-- What a statement declares. -/
inductive Statement where
  | table (t : Table)
  | grants (verb : GrantVerb) (gs : List Grant)
  | accounts (cs : List AccountClause)
  /-- A statement that writes rows. -/
  | insert
  | unknown
  /-- A statement of a known kind that its grammar refuses. -/
  | invalid (kind : StatementKind) (fault : ReadingFault)
  deriving DecidableEq

namespace Statement

def kind : Statement → StatementKind
  | table _ => .table
  | grants .grant _ => .grant
  | grants .revoke _ => .revoke
  | accounts _ => .account
  | insert => .insert
  | unknown => .unknown
  | invalid kind _ => kind

def fault? : Statement → Option ReadingFault
  | invalid _ fault => some fault
  | _ => none

/-- The kind of the statement that starts at the cursor. -/
def kindAt (c : Cursor) : StatementKind :=
  if c.hasWords ["CREATE", "TABLE"] || c.hasWords ["CREATE", "TEMPORARY", "TABLE"] then .table
  else if c.hasWords ["CREATE", "USER"] || c.hasWords ["ALTER", "USER"] then .account
  else if c.hasWords ["GRANT"] then .grant
  else if c.hasWords ["REVOKE"] then .revoke
  else if c.hasWords ["INSERT"] || c.hasWords ["REPLACE"] then .insert
  else .unknown

/-- What a grammar makes of the statement, or the reason why it refuses it. -/
def outcome {α : Type} (kind : StatementKind) (grammar : Parse α) (build : α → Statement)
    (c : Cursor) : Statement :=
  match grammar c with
  | .ok (a, _) => build a
  | .error fault => .invalid kind fault

/-- Reads a statement; `real` is the size that `REAL` stands for. -/
def read (real : FloatSize) (text : String) : Statement :=
  let c := Cursor.ofText text
  match kindAt c with
  | .table => outcome .table (Grammar.createTable real) .table c
  | .grant => outcome .grant (Grammar.grants .grant) (.grants .grant) c
  | .revoke => outcome .revoke (Grammar.grants .revoke) (.grants .revoke) c
  | .account => outcome .account Grammar.accounts .accounts c
  | .insert => .insert
  | .unknown => .unknown

/-- The statements of a script with what they declare. -/
def readScript (real : FloatSize) (script : String) : List (String × Statement) :=
  (Script.statements script).map fun text => (text, read real text)

end Statement

end SchemaDrift
