import SchemaDrift.Table
import SchemaDrift.Grammar.Type

/-!
The grammar of `CREATE TABLE`. Definitions are read one after the other into a draft of the table;
what concerns several of them at once is settled when the statement has ended.
-/

namespace SchemaDrift.Grammar

open Parse

/-- `[database .] table`. -/
def tableName : Parse TableName := do
  let first ← identifier "table name"
  if ← accept .dot then return ⟨some first, ← identifier "table name"⟩ else return ⟨none, first⟩

/-! ### Columns -/

/-- The optional digits after the name of the current moment. -/
def momentDigits : Parse Nat := do
  if ← accept .openParen then
    let fraction ← match ← next with
      | .number _ => number "fractional seconds precision"
      | _ => pure 0
    expect .closeParen "`)`"
    return fraction
  else return 0

/-- A default that starts with the unquoted word `word`. -/
def wordDefault (word : String) : Parse DefaultValue := do
  match Text.upper word with
  | "NULL" => advance; return .null
  | "TRUE" => advance; return .value "1"
  | "FALSE" => advance; return .value "0"
  | "CURRENT_TIMESTAMP" | "NOW" | "LOCALTIME" | "LOCALTIMESTAMP" =>
    advance
    return .now (← momentDigits)
  | _ =>
    match (← get).lexemeAt 1 with
    | .string text =>
      -- a string that names its character set, as in _utf8mb4 'text'
      if word.toList.head? = some '_' then
        advance
        advance
        return .value text
      else expected "default value"
    | _ => expected "default value"

/-- The value after `DEFAULT` or `ON UPDATE`. -/
def defaultValue : Parse DefaultValue := do
  match ← next with
  | .string text => advance; return .value text
  | .number text => advance; return .value text
  | .literal text => advance; return .literal text
  | .openParen => return .expression (← balanced)
  | .word word => wordDefault word
  | .other sign =>
    if sign = '-' || sign = '+' then
      advance
      let text ← taking (fun | .number text => some text | _ => none) "number"
      return .value (if sign = '-' then "-" ++ text else text)
    else expected "default value"
  | _ => expected "default value"

/-- A column whose attributes are being read, and what they say about the table. -/
structure ColumnDraft where
  column : Column
  charset? : Option String
  collation? : Option String
  keys : List Key
  constraints : List String

namespace ColumnDraft

def ofColumn (c : Column) : ColumnDraft := ⟨c, none, none, [], []⟩

/-- Adds a key over this column alone. -/
def addKey (d : ColumnDraft) (kind : KeyKind) : ColumnDraft :=
  { d with keys := d.keys ++ [Key.ofParts kind [KeyPart.ofColumn d.column.name]] }

def namesEncoding (d : ColumnDraft) : Bool := d.charset?.isSome || d.collation?.isSome

/-- The type with the encoding that the attributes name. -/
def encodedType (d : ColumnDraft) : ColumnType :=
  let e := d.column.type.encoding?.getD .none
  d.column.type.withEncoding ⟨d.charset?.orElse fun _ => e.charset,
    d.collation?.orElse fun _ => e.collation⟩

end ColumnDraft

def charsetName : Parse String := Charset.canonical <$> value "charset name"

/-- The attribute that starts with the word `word`. -/
def columnAttribute (d : ColumnDraft) (word : String) : Parse ColumnDraft := do
  match word with
  | "NOT" =>
    advance
    keyword "NULL"
    return { d with column.nullable := false }
  | "NULL" => advance; return { d with column.nullable := true }
  | "DEFAULT" =>
    advance
    let value ← defaultValue
    return { d with column.default? := some value }
  | "AUTO_INCREMENT" => advance; return { d with column.autoIncrement := true }
  | "COMMENT" =>
    advance
    let text ← string "comment string"
    return { d with column.comment? := some text }
  | "ON" =>
    advance
    keyword "UPDATE"
    match ← defaultValue with
    | .now fraction => return { d with column.onUpdate? := some fraction }
    | _ => fault .updateNotMoment 1
  | "CHARACTER" =>
    advance
    keyword "SET"
    return { d with charset? := some (← charsetName) }
  | "CHARSET" => advance; return { d with charset? := some (← charsetName) }
  | "COLLATE" =>
    advance
    let name ← value "collation name"
    return { d with collation? := some (Charset.canonicalCollation name) }
  | "PRIMARY" =>
    advance
    keyword "KEY"
    return d.addKey .primary
  | "KEY" => advance; return d.addKey .primary
  | "UNIQUE" =>
    advance
    let _ ← acceptWord "KEY"
    return d.addKey .unique
  | "CHECK" =>
    advance
    let condition ← balanced
    return { d with constraints := d.constraints ++ ["CHECK (" ++ condition ++ ")"] }
  | "COLUMN_FORMAT" | "STORAGE" =>
    advance
    let _ ← value "column format or storage"
    return d
  | "VISIBLE" | "INVISIBLE" => advance; return d
  | _ => expected "column attribute"

/-- The next attribute, unless the definition ends here. -/
def nextAttribute (d : ColumnDraft) : Parse (Option ColumnDraft) := do
  match ← next with
  | .comma | .closeParen | .ending | .semicolon => return none
  | _ =>
    match ← upperWord? with
    | some word => return some (← columnAttribute d word)
    | none => expected "column attribute"

/-- A column definition, added to the table. -/
def column (real : FloatSize) (t : Table) : Parse Table := do
  let name ← identifier "column name or key definition"
  let type ← columnType real
  let d ← repeated nextAttribute (.ofColumn (.ofType name type))
  if d.namesEncoding && !d.column.type.isTextual then
    fault (.encodingRefused d.column.type.name) 1
  else
    let c := if d.namesEncoding then { d.column with type := d.encodedType } else d.column
    return { t with
      columns := t.columns ++ [c]
      keys := t.keys ++ d.keys
      constraints := t.constraints ++ d.constraints }

/-! ### Keys -/

def keyMethod : Parse String := do
  match ← upperWord? with
  | some "BTREE" => advance; return "BTREE"
  | some "HASH" => advance; return "HASH"
  | _ => expected "BTREE or HASH"

/-- `KEY` or `INDEX`. -/
def acceptKeyWord : Parse Bool := do
  if ← acceptWord "KEY" then return true else acceptWord "INDEX"

def keyPart : Parse KeyPart := do
  let part ← if (← next) = .openParen then
      pure (KeyPart.mk (← balanced) true none false)
    else
      let name ← identifier "key column"
      pure ⟨name, false, ← optionalNumber "prefix length", false⟩
  if ← acceptWord "DESC" then return { part with descending := true }
  else
    let _ ← acceptWord "ASC"
    return part

def keyKind : Parse KeyKind := do
  match ← upperWord? with
  | some "PRIMARY" => advance; keyword "KEY"; return .primary
  | some "UNIQUE" => advance; let _ ← acceptKeyWord; return .unique
  | some "FULLTEXT" => advance; let _ ← acceptKeyWord; return .fulltext
  | some "SPATIAL" => advance; let _ ← acceptKeyWord; return .spatial
  | some "KEY" | some "INDEX" => advance; return .plain
  | _ => expected "key definition"

/-- The next attribute after the parts of a key, if there is one. -/
def nextKeyAttribute (k : Key) : Parse (Option Key) := do
  match ← upperWord? with
  | some "USING" =>
    advance
    return some { k with method? := some (← keyMethod) }
  | some "COMMENT" =>
    advance
    return some { k with comment? := some (← string "comment string") }
  | some "KEY_BLOCK_SIZE" =>
    advance
    let _ ← accept .equals
    let _ ← number "key block size"
    return some k
  | some "VISIBLE" | some "INVISIBLE" => advance; return some k
  | some "WITH" =>
    advance
    keyword "PARSER"
    let _ ← identifier "parser name"
    return some k
  | _ => return none

/-- The name of a key: its own, else that of its constraint. -/
def keyName? (kind : KeyKind) (constraint? : Option String) : Parse (Option String) := do
  if kind = .primary then return none
  else if (← next) = .openParen then return constraint?
  else if ← atWord "USING" then return constraint?
  else return some (← identifier "key name")

/-- A key definition; `constraint?` is the name of the constraint that it stands in. -/
def key (constraint? : Option String) : Parse Key := do
  let kind ← keyKind
  let name? ← keyName? kind constraint?
  let method? ← if ← acceptWord "USING" then some <$> keyMethod else pure none
  expect .openParen "`(` opening the key column list"
  let parts ← separated keyPart
  expect .closeParen "`,` or `)` in the key column list"
  repeated nextKeyAttribute ⟨kind, name?, parts, method?, none⟩

/-! ### Definitions -/

def addKey (t : Table) (constraint? : Option String) : Parse Table := do
  return { t with keys := t.keys ++ [← key constraint?] }

def addConstraint (t : Table) (start : Cursor) : Parse Table := do
  return { t with constraints := t.constraints ++ [← restOfDefinition start] }

/-- What follows `CONSTRAINT`: a name, unless a body comes at once, and a key, foreign key or
check. -/
def constraint (t : Table) (start : Cursor) : Parse Table := do
  let atBody (word? : Option String) : Bool :=
    word?.any ["PRIMARY", "UNIQUE", "FOREIGN", "CHECK"].contains
  let name? ← if atBody (← upperWord?) then pure none
    else some <$> identifier "constraint name"
  match ← upperWord? with
  | some "PRIMARY" | some "UNIQUE" => addKey t name?
  | some "FOREIGN" | some "CHECK" => addConstraint t start
  | _ => expected "PRIMARY KEY, UNIQUE, FOREIGN KEY or CHECK"

/-- One definition of the list, added to the table. -/
def definition (real : FloatSize) (t : Table) : Parse Table := do
  let start ← get
  match ← upperWord? with
  | some "CONSTRAINT" => advance; constraint t start
  | some "PRIMARY" | some "UNIQUE" | some "KEY" | some "INDEX" | some "FULLTEXT"
  | some "SPATIAL" => addKey t none
  | some "FOREIGN" | some "CHECK" => addConstraint t start
  | _ => column real t

/-- The definition after a comma, if there is one. -/
def nextDefinition (real : FloatSize) (t : Table) : Parse (Option Table) := do
  if ← accept .comma then return some (← definition real t) else return none

/-! ### Options -/

/-- The longest spelling of an option that stands at the cursor, with its option. -/
def spellingAt? (c : Cursor) : Option (TableOption × List String) :=
  (TableOption.dictionary.flatMap fun o => o.spellings.map (o, ·)).foldl
    (fun best? (o, words) =>
      if c.hasWords words && best?.all (fun b => b.2.length ≤ words.length) then some (o, words)
      else best?) none

/-- A value as the option stores it. -/
def storedValue (o : TableOption) (value : String) : String :=
  if o.name = "CHARSET" then Charset.canonical value
  else if o.name = "COLLATE" then Charset.canonicalCollation value
  else value

/-- The next option, before which a comma may stand if it is not the first. -/
def nextOption (os : TableOptions) : Parse (Option TableOptions) := do
  if !os.isEmpty then let _ ← accept .comma
  if ← atEnd then return none
  match spellingAt? (← get) with
  | none => expected "table option"
  | some (o, words) =>
    let _ ← acceptWords words
    let _ ← accept .equals
    let v ← value ("value for " ++ o.name)
    if !o.accepts v then fault (.optionValue v o.name) 1
    else if os.contains o.name then fault (.duplicateOption o.name) 1
    else return some (os.insert o.name (storedValue o v))

/-! ### The statement -/

/-- The first column whose name an earlier one has, in any letter case. -/
def repeatedColumn? (earlier : List Column) : List Column → Option Column
  | [] => none
  | c :: cs =>
    if earlier.any fun d => Text.sameName d.name c.name then some c
    else repeatedColumn? (earlier ++ [c]) cs

/-- The columns with their places, counted from `ordinal` on. -/
def placed (place : Place) (ordinal : Nat) : List Column → List Column
  | [] => []
  | c :: cs => { c with ordinal, place } :: placed (.after c.name) (ordinal + 1) cs

/-- The columns of the primary key made mandatory. -/
def withMandatory (primary? : Option Key) (cs : List Column) : List Column :=
  cs.map fun c =>
    if primary?.any fun k => k.parts.any fun p => Text.sameName p.name c.name then
      { c with nullable := false }
    else c

/-- The first key part that names no column. -/
def strayPart? (t : Table) : Option KeyPart :=
  (t.keys.flatMap Key.parts).find? fun p => !p.isExpression && (t.column? p.name).isNone

/-- Checks what concerns several definitions, and completes the columns. -/
def completed (t : Table) : Except FaultCause Table :=
  match repeatedColumn? [] t.columns with
  | some c => .error (.duplicateColumn c.name)
  | none =>
    if 1 < (t.keys.filter (·.kind = .primary)).length then .error .severalPrimaryKeys
    else match strayPart? t with
      | some p => .error (.unknownKeyColumn p.name)
      | none => .ok { t with columns := withMandatory t.primaryKey? (placed .first 0 t.columns) }

/-- `CREATE [TEMPORARY] TABLE [IF NOT EXISTS] name ( definitions ) options`. -/
def createTable (real : FloatSize) : Parse Table := do
  keyword "CREATE"
  let temporary ← acceptWord "TEMPORARY"
  keyword "TABLE"
  let ifNotExists ← acceptWord "IF"
  if ifNotExists then
    keyword "NOT"
    keyword "EXISTS"
  let name ← tableName
  expect .openParen "`(` opening the definition list"
  let t ← definition real { Table.ofName name with temporary, ifNotExists }
  let t ← repeated (nextDefinition real) t
  expect .closeParen "`,` or `)` after a definition"
  let options ← repeated nextOption OrderedMap.empty
  ending
  match completed { t with options } with
  | .ok t => return t
  | .error cause => fault cause 0

end SchemaDrift.Grammar
