import SchemaDrift.Text.Case
import SchemaDrift.Text.Joined
import SchemaDrift.Text.Decimal

/-!
Names and strings as SQL writes them. A name stands bare where that is unambiguous and in back
quotes elsewhere; a string stands in single quotes, with its special characters escaped.
-/

namespace SchemaDrift.Sql

/-- Words that cannot stand bare as names. -/
def reserved : List String := [
  "ADD", "ALL", "ALTER", "ANALYZE", "AND", "AS", "ASC", "BEFORE", "BETWEEN", "BIGINT", "BINARY",
  "BLOB", "BOTH", "BY", "CALL", "CASCADE", "CASE", "CHANGE", "CHAR", "CHARACTER", "CHECK",
  "COLLATE", "COLUMN", "CONDITION", "CONSTRAINT", "CONTINUE", "CONVERT", "CREATE", "CROSS",
  "CUBE", "CURRENT_DATE", "CURRENT_TIME", "CURRENT_TIMESTAMP", "CURRENT_USER", "CURSOR",
  "DATABASE", "DATABASES", "DECIMAL", "DECLARE", "DEFAULT", "DELETE", "DESC", "DESCRIBE",
  "DISTINCT", "DIV", "DOUBLE", "DROP", "DUAL", "EACH", "ELSE", "ELSEIF", "ENCLOSED", "ESCAPED",
  "EXCEPT", "EXISTS", "EXIT", "EXPLAIN", "FALSE", "FETCH", "FLOAT", "FOR", "FORCE", "FOREIGN",
  "FROM", "FULLTEXT", "FUNCTION", "GENERATED", "GET", "GRANT", "GROUP", "GROUPS", "HAVING", "IF",
  "IGNORE", "IN", "INDEX", "INNER", "INSERT", "INT", "INTEGER", "INTERVAL", "INTO", "IS",
  "ITERATE", "JOIN", "KEY", "KEYS", "KILL", "LEADING", "LEAVE", "LEFT", "LIKE", "LIMIT", "LINES",
  "LOAD", "LOCK", "LONG", "LOOP", "MATCH", "MOD", "NATURAL", "NOT", "NULL", "NUMERIC", "OF", "ON",
  "OPTION", "OR", "ORDER", "OUT", "OUTER", "OVER", "PARTITION", "PRIMARY", "PROCEDURE", "RANGE",
  "RANK", "READ", "REAL", "RECURSIVE", "REFERENCES", "REGEXP", "RELEASE", "RENAME", "REPEAT",
  "REPLACE", "REQUIRE", "RESTRICT", "RETURN", "REVOKE", "RIGHT", "RLIKE", "ROW", "ROWS", "SCHEMA",
  "SELECT", "SET", "SHOW", "SMALLINT", "SPATIAL", "SQL", "STARTING", "SYSTEM", "TABLE",
  "TERMINATED", "THEN", "TO", "TRAILING", "TRIGGER", "TRUE", "UNION", "UNIQUE", "UNLOCK",
  "UNSIGNED", "UPDATE", "USAGE", "USE", "USING", "VALUES", "VARCHAR", "VARYING", "VIRTUAL",
  "WHEN", "WHERE", "WHILE", "WINDOW", "WITH", "WRITE", "XOR", "ZEROFILL"]

def isNameChar (c : Char) : Bool := c.isAlphanum || c = '_' || c = '$'

/-- Whether a name can stand without quotes: ASCII word characters, not digits alone, not
reserved. -/
def isBareName (name : String) : Bool :=
  let cs := name.toList
  !cs.isEmpty && cs.all isNameChar && !cs.all Char.isDigit &&
    !reserved.any fun w => Text.sameName w name

/-- A name, in back quotes where it needs them. -/
def name (n : String) : String :=
  if isBareName n then n else "`" ++ String.ofList (Text.doubled '\x60' n.toList) ++ "`"

/-- What both ways of writing a string escape alike. -/
def escapedControl? (c : Char) : Option (List Char) :=
  if c = '\\' then some ['\\', '\\']
  else if c = '\x00' then some ['\\', '0']
  else if c = '\n' then some ['\\', 'n']
  else if c = '\r' then some ['\\', 'r']
  else if c = '\x1a' then some ['\\', 'Z']
  else none

/-- A string literal; a single quote inside is written twice. -/
def string (s : String) : String :=
  "'" ++ String.ofList (s.toList.flatMap fun c =>
    if c = '\x27' then ['\x27', '\x27'] else (escapedControl? c).getD [c]) ++ "'"

/-- The inside of a string literal that is sent to a server; a single quote is escaped by a
backslash. -/
def escape (s : String) : String :=
  String.ofList (s.toList.flatMap fun c =>
    if c = '\x27' then ['\\', '\x27'] else (escapedControl? c).getD [c])

/-- A string literal that is sent to a server. -/
def literal (s : String) : String := "'" ++ escape s ++ "'"

def strings (separator : String) (ss : List String) : String := Text.joined separator (ss.map string)

end SchemaDrift.Sql
