import SchemaDrift.Table.Column
import SchemaDrift.Table.Key
import SchemaDrift.Table.Option

/-!
Table declarations.
-/

namespace SchemaDrift

/-- A table's name, with its database where that is named. -/
structure TableName where
  database? : Option String
  name : String
  deriving DecidableEq, Repr

namespace TableName

def sql (n : TableName) : String :=
  match n.database? with
  | some d => Sql.name d ++ "." ++ Sql.name n.name
  | none => Sql.name n.name

def unqualified (n : TableName) : TableName := ⟨none, n.name⟩

end TableName

structure Table where
  name : TableName
  temporary : Bool
  ifNotExists : Bool
  columns : List Column
  keys : List Key
  /-- Foreign keys and checks as written. -/
  constraints : List String
  options : TableOptions
  deriving DecidableEq

namespace Table

/-- A table without columns. -/
def ofName (name : TableName) : Table := ⟨name, false, false, [], [], [], OrderedMap.empty⟩

/-- The column of a name, in any letter case. -/
def column? (t : Table) (name : String) : Option Column :=
  t.columns.find? fun c => Text.sameName c.name name

def primaryKey? (t : Table) : Option Key := t.keys.find? (·.kind = .primary)

/-- The encoding that text columns inherit. -/
def defaultEncoding (t : Table) : Encoding := ⟨t.options.get? "CHARSET", t.options.get? "COLLATE"⟩

/-- The keys with the names by which the server knows them. -/
def namedKeys (t : Table) : List (String × Key) := Key.named (Key.ownNames t.keys) t.keys

/-- The statement that creates the table, without a semicolon. -/
def sql (t : Table) : String :=
  "CREATE " ++ (if t.temporary then "TEMPORARY " else "") ++ "TABLE " ++
  (if t.ifNotExists then "IF NOT EXISTS " else "") ++ t.name.sql ++ " (" ++
  Text.joined "," ((t.columns.map Column.sql ++ t.keys.map Key.sql ++ t.constraints).map
    ("\n  " ++ ·)) ++ "\n)" ++
  (if t.options.isEmpty then "" else " " ++ t.options.sql)

end Table

end SchemaDrift
