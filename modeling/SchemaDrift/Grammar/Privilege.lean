import SchemaDrift.Privilege.Grant
import SchemaDrift.Grammar.Cursor

/-!
The grammar of `GRANT` and `REVOKE`.
-/

namespace SchemaDrift.Grammar

open Parse

/-- The names of static privileges; those of several words stand before their first words alone. -/
def privilegeNames : List (List String) := [
  ["CREATE", "TEMPORARY", "TABLES"],
  ["ALL", "PRIVILEGES"], ["ALTER", "ROUTINE"], ["CREATE", "ROUTINE"], ["CREATE", "TABLESPACE"],
  ["CREATE", "USER"], ["CREATE", "VIEW"], ["CREATE", "ROLE"], ["DROP", "ROLE"],
  ["GRANT", "OPTION"], ["LOCK", "TABLES"], ["REPLICATION", "CLIENT"], ["REPLICATION", "SLAVE"],
  ["SHOW", "DATABASES"], ["SHOW", "VIEW"],
  ["ALL"], ["ALTER"], ["CREATE"], ["DELETE"], ["DROP"], ["EVENT"], ["EXECUTE"], ["FILE"],
  ["INDEX"], ["INSERT"], ["PROCESS"], ["PROXY"], ["REFERENCES"], ["RELOAD"], ["SELECT"],
  ["SHUTDOWN"], ["SUPER"], ["TRIGGER"], ["UPDATE"], ["USAGE"]]

/-- The name under which a privilege is known. -/
def privilegeKey (words : List String) : String :=
  if words = ["ALL"] then "ALL PRIVILEGES" else Text.joined " " words

/-- A static privilege, or a dynamic one: a word with an underscore. -/
def privilegeName : Parse String := do
  match privilegeNames.find? (← get).hasWords with
  | some words =>
    let _ ← acceptWords words
    return privilegeKey words
  | none =>
    match ← upperWord? with
    | some word =>
      if word.toList.contains '_' then
        advance
        return word
      else expected "privilege type"
    | none => expected "privilege type"

def privilege : Parse (String × Scope) := do
  let name ← privilegeName
  if ← accept .openParen then
    let columns ← separated (identifier "column name")
    expect .closeParen "`,` or `)` in the column list"
    return (name, Scope.ofNames columns)
  else return (name, .whole)

/-- A name, or an asterisk for all. -/
def levelPart : Parse String := do
  if ← accept .star then return Grant.everything else identifier "database or table name"

/-- `database . object`, or an object alone. -/
def level : Parse (Option String × String) := do
  let first ← levelPart
  if ← accept .dot then return (some first, ← levelPart) else return (none, first)

def objectKind? : Parse (Option ObjectKind) := do
  match ← upperWord? with
  | some "TABLE" => advance; return some .table
  | some "FUNCTION" => advance; return some .function
  | some "PROCEDURE" => advance; return some .procedure
  | _ => return none

/-- `user [@ host]`; without a host any will do. -/
def account : Parse Account := do
  let user ← accountPart "user name"
  if ← accept .atSign then return ⟨user, ← accountPart "host name"⟩ else return ⟨user, "%"⟩

/-- A grant or revocation, as one for each account. -/
def grants (verb : GrantVerb) : Parse (List Grant) := do
  keyword (match verb with | .grant => "GRANT" | .revoke => "REVOKE")
  let listed ← separated privilege
  let privileges : Privileges := listed.foldl (fun ps p => ps.grant p.1 p.2) OrderedMap.empty
  keyword "ON"
  let objectKind ← objectKind?
  let (database?, object) ← level
  keyword (match verb with | .grant => "TO" | .revoke => "FROM")
  let accounts ← separated account
  let withOption ← if verb = .grant then acceptWord "WITH" else pure false
  let privileges ← if withOption then do
      if ← acceptWords ["GRANT", "OPTION"] then
        pure (privileges.insert Grant.grantOption .whole)
      else expected "GRANT OPTION"
    else pure privileges
  ending
  return accounts.map fun account => ⟨verb, account, objectKind, database?, object, privileges⟩

end SchemaDrift.Grammar
