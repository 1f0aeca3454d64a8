import SchemaDrift.Ordered.Set
import SchemaDrift.Server
import SchemaDrift.Statement

/-!
What a server says of one of its databases. Tables, accounts and grants are answered as the
statements that would declare them, so they are read like the statements of a schema.
-/

namespace SchemaDrift

/-- A database of a server. -/
structure LiveDatabase where
  name : String
  /-- The size that `REAL` stands for in answers. -/
  real : FloatSize
  deriving DecidableEq, Repr

/-- The tables of a database: their names as the server writes them, by lower-case name. -/
abbrev Listing := OrderedMap String String

/-- What a reported statement declares, if anything; or why it cannot be read. -/
abbrev Reported (α : Type) := Except ReadingFault (Option α)

/-- The grants that a server reports. -/
structure LiveGrants where
  grants : List Grant
  /-- Why some of the reported statements cannot be read. -/
  faults : List ReadingFault
  deriving DecidableEq

namespace LiveDatabase

def sourceName : String := "database"

/-- A statement of the server cannot be read. -/
def unreadable (fault : ReadingFault) : Fault := .unreadable sourceName fault

/-! ### Queries -/

/-- The name as a pattern that nothing else matches. -/
def pattern (name : String) : String :=
  String.ofList (name.toList.flatMap fun c =>
    if c = '\\' || c = '_' || c = '%' then ['\\', c] else [c])

def presenceQuery (d : LiveDatabase) : String :=
  "SHOW DATABASES LIKE " ++ Sql.literal (pattern d.name)

def charsetQuery : String := "SHOW CHARACTER SET"

def listingQuery (d : LiveDatabase) : String := "SHOW TABLES FROM " ++ Sql.name d.name

def tableQuery (d : LiveDatabase) (name : String) : String :=
  "SHOW CREATE TABLE " ++ TableName.sql ⟨some d.name, name⟩

def accountsQuery (names : List String) : String :=
  "SELECT User, Host FROM mysql.user WHERE User IN (" ++
    Text.joined ", " (names.map Sql.literal) ++ ")"

/-- An account in a query. -/
def accountLiteral (a : Account) : String := Sql.literal a.user ++ "@" ++ Sql.literal a.host

def accountQuery (a : Account) : String := "SHOW CREATE USER " ++ accountLiteral a

/-- The query for all accounts that hold privileges on the database, its tables or columns. -/
def granteesQuery (d : LiveDatabase) : String :=
  Text.joined " UNION " (["schema", "table", "column"].map fun level =>
    "SELECT GRANTEE FROM information_schema." ++ level ++ "_privileges WHERE TABLE_SCHEMA = " ++
      Sql.literal d.name)

def grantsQuery (a : Account) : String := "SHOW GRANTS FOR " ++ accountLiteral a

/-! ### Answers -/

/-- A reported character set: name, default collation and bytes per character. -/
def charset? : Row → Option (String × String × Nat)
  | some name :: _ :: some collation :: some maxBytes :: _ =>
    (Text.readCount Text.max32 maxBytes).map fun n => (name, collation, n)
  | _ => none

/-- Of two names that differ in letter case the later one counts. -/
def listingOf (rows : List Row) : Listing :=
  OrderedMap.ofList ((rows.filterMap Row.firstText?).map fun name => (Text.lower name, name))

def account? : Row → Option Account
  | some user :: some host :: _ => some ⟨user, host⟩
  | _ => none

/-- The text between single quotes; a quote inside is written twice. -/
def unquoted? : List Char → Option String
  | '\x27' :: rest =>
    if rest.getLast? = some '\x27' then some (String.ofList (Text.undoubled '\x27' rest.dropLast))
    else none
  | _ => none

/-- The account that a report of privileges names. -/
def grantee? (text : String) : Option Account :=
  (Text.cutLast '@' text.toList).bind fun (user, host) =>
    (unquoted? user).bind fun user => (unquoted? host).map fun host => ⟨user, host⟩

/-- The part of a grant that bears on the database, if there is any. The privilege `USAGE` allows
nothing. -/
def relevant? (d : LiveDatabase) (g : Grant) : Option Grant :=
  let privileges := g.privileges.erase "USAGE"
  if g.database? = some d.name && !privileges.isEmpty then some { g with privileges } else none

/-- The grants of the database among reported statements. -/
def grantsOf (d : LiveDatabase) (statements : List Statement) : LiveGrants where
  grants := statements.flatMap fun
    | .grants .grant gs => gs.filterMap d.relevant?
    | _ => []
  faults := statements.filterMap Statement.fault?

/-- What a reported statement declares, as far as `part?` looks for it. -/
def reported {α : Type} (d : LiveDatabase) (part? : Statement → Option α) :
    Option String → Reported α
  | none => .ok none
  | some text =>
    match Statement.read d.real text with
    | .invalid _ fault => .error fault
    | s => .ok (part? s)

def tablePart? : Statement → Option Table
  | .table t => some t
  | _ => none

def accountPart? : Statement → Option AccountClause
  | .accounts (c :: _) => some c
  | _ => none

/-! ### Asking -/

/-- Whether the server has the database. -/
def isPresent (d : LiveDatabase) : Attempt Bool := do
  let rows ← Attempt.query d.presenceQuery
  return rows.any fun r => r.firstText? = some d.name

def catalog : Attempt Catalog := do
  let rows ← Attempt.query charsetQuery
  return Catalog.ofReport (rows.filterMap charset?)

def listing (d : LiveDatabase) : Attempt Listing := do
  return listingOf (← Attempt.query d.listingQuery)

/-- A table of the listing; a name outside it is not asked for. -/
def table? (d : LiveDatabase) (l : Listing) (name : String) : Attempt (Reported Table) :=
  match l.get? (Text.lower name) with
  | none => return .ok none
  | some actual => do
    let rows ← Attempt.query (d.tableQuery actual)
    return d.reported tablePart? (rows.head?.bind fun r => r[1]?.join)

/-- The accounts that have one of the names. -/
def accounts (names : OrderedSet String) : Attempt (OrderedSet Account) := do
  if names.isEmpty then return OrderedSet.empty
  let rows ← Attempt.query (accountsQuery names.toList)
  return OrderedSet.ofList (rows.filterMap account?)

def accountClause? (d : LiveDatabase) (a : Account) : Attempt (Reported AccountClause) := do
  let rows ← Attempt.query (accountQuery a)
  return d.reported accountPart? (rows.head?.bind Row.firstText?)

/-- The grants of the accounts in the database. Only accounts that hold something there are asked
for their grants. -/
def grants (d : LiveDatabase) (accounts : OrderedSet Account) : Attempt LiveGrants := do
  if accounts.isEmpty then return ⟨[], []⟩
  let rows ← Attempt.query d.granteesQuery
  let grantees := rows.filterMap fun r => r.firstText?.bind grantee?
  let answers ← (accounts.toList.filter grantees.contains).mapM fun a =>
    Attempt.query (grantsQuery a)
  return d.grantsOf ((answers.flatten.filterMap Row.firstText?).map (Statement.read d.real))

end LiveDatabase

/-- A live database with its listing, once that has been read. -/
structure Inspector where
  database : LiveDatabase
  listing? : Option Listing

namespace Inspector

/-- Reads the listing unless it is known; a refusal leaves it unknown. -/
def listing (i : Inspector) : Session (Except Fault Listing × Inspector) := do
  match i.listing? with
  | some l => return (.ok l, i)
  | none =>
    match ← i.database.listing.run with
    | .ok l => return (.ok l, { i with listing? := some l })
    | .error fault => return (.error fault, i)

/-- A table of the listing. -/
def table? (i : Inspector) (name : String) :
    Session (Except Fault (Reported Table) × Inspector) := do
  match ← i.listing with
  | (.ok l, i) => return (← (i.database.table? l name).run, i)
  | (.error fault, i) => return (.error fault, i)

end Inspector

end SchemaDrift
