import SchemaDrift.Grammar.Fault
import SchemaDrift.Account

/-!
What can go wrong between sources, server and schema, by cause, with the words for each cause.
-/

namespace SchemaDrift

/-- Why a file cannot be read. -/
inductive FileFault where
  | missing
  | notDirectory
  | isDirectory
  | longName
  /-- The path holds the character that ends texts for the system. -/
  | nulInPath
  deriving DecidableEq, Repr

def FileFault.message : FileFault → String
  | missing => "No such file or directory (os error 2)"
  | notDirectory => "Not a directory (os error 20)"
  | isDirectory => "Is a directory (os error 21)"
  | longName => "File name too long (os error 36)"
  | nulInPath => "file name contained an unexpected NUL byte"

inductive Fault where
  /-- A statement of a source cannot be read. -/
  | unreadable (source : String) (fault : ReadingFault)
  /-- Two sources declare the same thing differently. -/
  | collision (thing first second : String)
  | missingAccount (account : Account)
  | missingDatabase (database : String)
  /-- A statement would damage rows. -/
  | endangeredRows (sql : String) (rows : Nat)
  /-- The server refused a statement. -/
  | refused (sql message : String)
  | file (fault : FileFault)
  /-- A source includes itself. -/
  | includeCycle (path : String)
  deriving DecidableEq, Repr

def Fault.message : Fault → String
  | unreadable source fault => source ++ ": " ++ fault.message
  | collision thing first second =>
    thing ++ " is declared in both " ++ first ++ " and " ++ second
  | missingAccount account => "user " ++ account.sql ++ " does not exist"
  | missingDatabase database => "database " ++ database ++ " does not exist"
  | endangeredRows sql rows => Text.decimal rows ++ " row(s) would be affected by: " ++ sql
  | refused sql message => "execution of `" ++ sql ++ "` failed: " ++ message
  | file fault => "IO error: " ++ fault.message
  | includeCycle path => "include cycle through " ++ path

end SchemaDrift
