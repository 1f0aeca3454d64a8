import SchemaDrift.Account
import SchemaDrift.Privilege.Scope

/-!
Grants and revocations: one account's privileges on one object.
-/

namespace SchemaDrift

inductive GrantVerb where
  | grant
  | revoke
  deriving DecidableEq, Repr

def GrantVerb.name : GrantVerb → String
  | grant => "grant"
  | revoke => "revoke"

/-- The kinds of objects that a grant can name. -/
inductive ObjectKind where
  | table
  | function
  | procedure
  deriving DecidableEq, Repr

def ObjectKind.sql : ObjectKind → String
  | table => "TABLE"
  | function => "FUNCTION"
  | procedure => "PROCEDURE"

structure Grant where
  verb : GrantVerb
  account : Account
  objectKind? : Option ObjectKind
  /-- The database, where the statement names one. -/
  database? : Option String
  /-- The object's name; an asterisk stands for all of the database. -/
  object : String
  privileges : Privileges
  deriving DecidableEq

namespace Grant

/-- The name of the privilege to pass privileges on. -/
def grantOption : String := "GRANT OPTION"

/-- The name that stands for all objects of a database, and for all databases. -/
def everything : String := "*"

def isDatabaseWide (g : Grant) : Bool := g.object = everything

/-- The text that identifies the verb, account and object. -/
def key (g : Grant) : String :=
  g.verb.name ++ ":" ++ g.account.key ++ ":" ++ g.database?.getD "" ++ "." ++ g.object

/-- Names the database where the statement left it open. -/
def inDatabase (database : String) (g : Grant) : Grant :=
  { g with database? := some (g.database?.getD database) }

/-- A name in the level of a grant. -/
def levelSql (name : String) : String := if name = everything then name else Sql.name name

def privilegeSql (name : String) : Scope → String
  | .whole => name
  | .columns cols _ => name ++ " (" ++ Text.joined ", " (cols.toList.map Sql.name) ++ ")"

/-- The object with its database and kind. -/
def levelsSql (g : Grant) : String :=
  (match g.objectKind? with
    | some k => k.sql ++ " "
    | none => "") ++
  (match g.database? with
    | some d => levelSql d ++ "."
    | none => "") ++ levelSql g.object

/-- Whether the right to pass privileges on is written at the end. -/
def endsWithOption (g : Grant) : Bool :=
  g.verb = .grant && g.privileges.contains grantOption && 1 < g.privileges.size

/-- The statement, without a semicolon. -/
def sql (g : Grant) : String :=
  let listed := g.privileges.entries.filter fun p => !(g.endsWithOption && p.1 = grantOption)
  let privileges := Text.joined ", " (listed.map fun p => privilegeSql p.1 p.2)
  match g.verb with
  | .grant => "GRANT " ++ privileges ++ " ON " ++ g.levelsSql ++ " TO " ++ g.account.sql ++
      if g.endsWithOption then " WITH GRANT OPTION" else ""
  | .revoke => "REVOKE " ++ privileges ++ " ON " ++ g.levelsSql ++ " FROM " ++ g.account.sql

end Grant

end SchemaDrift
