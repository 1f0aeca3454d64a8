import SchemaDrift.Ordered.Map
import SchemaDrift.Sql

/-!
Table options: the dictionary of those that a declaration may set, and the options that one table
sets, by canonical name.
-/

namespace SchemaDrift

/-- The values that an option takes. -/
inductive OptionValues where
  /-- Any single token. -/
  | any
  /-- `0` or `1`. -/
  | flag
  /-- One of a list, in any letter case. -/
  | oneOf (choices : List String)
  deriving DecidableEq, Repr

/-- An entry of the dictionary. -/
structure TableOption where
  name : String
  /-- The word sequences that introduce the option. -/
  spellings : List (List String)
  values : OptionValues
  /-- The value of a table that does not set the option. -/
  implied : Option String
  /-- Whether the value is written as a string. -/
  quoted : Bool
  deriving DecidableEq, Repr

namespace TableOption

/-- Whether two values mean the same. Free text is compared as it is, all else without regard to
letter case. -/
def sameValue (o : TableOption) (a b : String) : Bool :=
  if o.quoted && o.values = .any then a = b else Text.sameName a b

def accepts (o : TableOption) (value : String) : Bool :=
  match o.values with
  | .any => true
  | .flag => value = "0" || value = "1"
  | .oneOf choices => choices.any fun c => Text.sameName c value

/-- The option as a declaration sets it. -/
def sql (o : TableOption) (value : String) : String :=
  o.name ++ "=" ++ if o.quoted then Sql.string value else value

/-- An entry that is introduced by its own name. -/
def single (name : String) (values : OptionValues) (implied : Option String) (quoted : Bool) :
    TableOption := ⟨name, [[name]], values, implied, quoted⟩

def triState : OptionValues := .oneOf ["0", "1", "DEFAULT"]

def dictionary : List TableOption := [
  single "AUTO_INCREMENT" .any none false,
  single "AVG_ROW_LENGTH" .any none false,
  ⟨"CHARSET", [["DEFAULT", "CHARACTER", "SET"], ["DEFAULT", "CHARSET"], ["CHARACTER", "SET"],
    ["CHARSET"]], .any, none, false⟩,
  single "CHECKSUM" .flag (some "0") false,
  ⟨"COLLATE", [["DEFAULT", "COLLATE"], ["COLLATE"]], .any, none, false⟩,
  single "COMMENT" .any (some "") true,
  single "COMPRESSION" (.oneOf ["ZLIB", "LZ4", "NONE"]) (some "NONE") true,
  single "CONNECTION" .any none true,
  ⟨"DATA DIRECTORY", [["DATA", "DIRECTORY"]], .any, none, true⟩,
  single "DELAY_KEY_WRITE" .flag (some "0") false,
  single "ENCRYPTION" (.oneOf ["Y", "N"]) (some "N") true,
  single "ENGINE" .any none false,
  ⟨"INDEX DIRECTORY", [["INDEX", "DIRECTORY"]], .any, none, true⟩,
  single "INSERT_METHOD" (.oneOf ["NO", "FIRST", "LAST"]) (some "NO") false,
  single "KEY_BLOCK_SIZE" .any (some "0") false,
  single "MAX_ROWS" .any (some "0") false,
  single "MIN_ROWS" .any (some "0") false,
  single "PACK_KEYS" triState (some "DEFAULT") false,
  single "PASSWORD" .any none true,
  single "ROW_FORMAT" (.oneOf ["DEFAULT", "DYNAMIC", "FIXED", "COMPRESSED", "REDUNDANT",
    "COMPACT"]) (some "DEFAULT") false,
  single "STATS_AUTO_RECALC" triState (some "DEFAULT") false,
  single "STATS_PERSISTENT" triState (some "DEFAULT") false,
  single "STATS_SAMPLE_PAGES" .any none false,
  single "TABLESPACE" .any none false]

/-- The entry of an option name, in any letter case. -/
def find? (name : String) : Option TableOption :=
  dictionary.find? fun o => Text.sameName o.name name

/-- A named option as a declaration sets it; a name outside the dictionary is written bare. -/
def setting (name value : String) : String :=
  match find? name with
  | some o => o.sql value
  | none => name ++ "=" ++ value

end TableOption

/-- The options that a table sets, by canonical name. -/
abbrev TableOptions := OrderedMap String String

/-- The options as a declaration sets them. -/
def TableOptions.sql (os : TableOptions) : String :=
  Text.joined " " (os.entries.map fun o => TableOption.setting o.1 o.2)

end SchemaDrift
