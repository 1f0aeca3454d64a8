import SchemaDrift.Drift.Moves
import SchemaDrift.Drift.Sides
import SchemaDrift.Guard
import SchemaDrift.ColumnType.Canonical
import SchemaDrift.Number.Binary64
import SchemaDrift.Ordered.Set
import SchemaDrift.Step

/-!
The drift of a table: columns, keys and options that differ between its live and its declared form,
and the alterations that bring the one to the other. The alterations of a table have a fixed order:
keys dropped, columns added, modified and dropped, keys added, options set.
-/

namespace SchemaDrift

structure ColumnDrift where
  name : String
  verdict : Verdict
  /-- On both sides, but outside the order that they share. -/
  moved : Bool
  sides : Sides Column
  deriving DecidableEq

structure KeyDrift where
  name : String
  verdict : Verdict
  sides : Sides Key
  deriving DecidableEq

structure OptionDrift where
  name : String
  verdict : Verdict
  sides : Sides String
  deriving DecidableEq

/-- A table's two forms, and the character sets of the server. -/
structure TablePair where
  live : Table
  declared : Table
  catalog : Catalog

namespace TablePair

/-! ### Columns -/

/-- The encoding that live columns inherit. -/
def liveEncoding (p : TablePair) : Encoding :=
  let e := p.live.defaultEncoding
  if e.isEmpty then ⟨some Charset.fallback, none⟩ else e

/-- The encoding that declared columns inherit: that of the live table, if the declaration names
none. -/
def declaredEncoding (p : TablePair) : Encoding :=
  let e := p.declared.defaultEncoding
  if e.isEmpty then p.liveEncoding else e

/-- A column in the form in which columns are compared. -/
def canonicalColumn (catalog : Catalog) (defaults : Encoding) (c : Column) : Column :=
  { c with
    type := c.type.canonical defaults catalog
    default? := c.effectiveDefault?
    comment? := c.comment?.filter fun text => !text.isEmpty }

def canonicalLive (p : TablePair) (c : Column) : Column := canonicalColumn p.catalog p.liveEncoding c

def canonicalDeclared (p : TablePair) (c : Column) : Column :=
  canonicalColumn p.catalog p.declaredEncoding c

/-- Equality of defaults; on a numeric column values are compared as numbers. -/
def sameDefault (numeric : Bool) : Option DefaultValue → Option DefaultValue → Bool
  | some (.value x), some (.value y) => if numeric then sameNumber x y else x = y
  | a, b => a = b

/-- Equality of canonical columns, wherever they stand. -/
def sameColumn (a b : Column) : Bool :=
  a.type = b.type && a.nullable = b.nullable && a.autoIncrement = b.autoIncrement &&
    a.comment? = b.comment? && sameDefault a.type.isNumeric a.default? b.default? &&
    a.onUpdate? = b.onUpdate?

/-- The names of the columns, in lower case. -/
def columnNames (t : Table) : List String := t.columns.map fun c => Text.lower c.name

/-- The common columns that moved, in lower case. -/
def movedColumns (p : TablePair) : List String :=
  let live := columnNames p.live
  let declared := columnNames p.declared
  Moves.moved (declared.filter live.contains) (live.filter declared.contains)

/-- What became of a declared column, if it differs; `movedNames` are the columns that moved. -/
def declaredColumnDrift? (p : TablePair) (movedNames : List String) (c : Column) :
    Option ColumnDrift :=
  let moved := movedNames.contains (Text.lower c.name)
  let sides : Sides Column := ⟨p.live.column? c.name, some c⟩
  let verdict := sides.verdictBy fun a b => sameColumn (p.canonicalLive a) (p.canonicalDeclared b)
  match verdict with
  | .unchanged => if moved then some ⟨c.name, .modified, moved, sides⟩ else none
  | v => some ⟨c.name, v, moved, sides⟩

/-- The columns that differ: declared ones in their order, then those that are only live. -/
def columnDrifts (p : TablePair) : List ColumnDrift :=
  p.declared.columns.filterMap (p.declaredColumnDrift? p.movedColumns) ++
    (p.live.columns.filter fun c => (p.declared.column? c.name).isNone).map fun c =>
      ⟨c.name, .dropped, false, ⟨some c, none⟩⟩

/-- The added and moved columns that stand elsewhere than where their addition puts them: those that
moved, and added ones after such a column. Additions run before all moves. -/
def displacedColumns (p : TablePair) : List String :=
  p.columnDrifts.foldl
    (fun displaced d =>
      let follows := match d.sides.declared.map Column.place with
        | some (.after previous) => displaced.contains (Text.lower previous)
        | _ => false
      if d.moved || (d.verdict = .added && follows) then displaced ++ [Text.lower d.name]
      else displaced) []

/-! ### Keys -/

/-- The last key of a name, in any letter case, under that very name. -/
def keyNamed? (name : String) (keys : List (String × Key)) : Option Key :=
  (keys.reverse.find? fun k => Text.sameName k.1 name).map fun k => k.2.withName name

def declaredKeyDrift? (p : TablePair) (named : String × Key) : Option KeyDrift :=
  let sides : Sides Key :=
    ⟨keyNamed? named.1 p.live.namedKeys, some (named.2.withName named.1)⟩
  match sides.verdictBy Key.sameDefinition with
  | .unchanged => none
  | v => some ⟨named.1, v, sides⟩

/-- The keys that differ, by the names that the server knows them by. -/
def keyDrifts (p : TablePair) : List KeyDrift :=
  let declared := p.declared.namedKeys
  declared.filterMap p.declaredKeyDrift? ++
    (p.live.namedKeys.filter fun k => !declared.any fun d => Text.sameName d.1 k.1).map
      fun (name, k) => ⟨name, .dropped, ⟨some (k.withName name), none⟩⟩

/-! ### Options -/

/-- The options that change without anyone declaring it. -/
def driftingOptions : List String := ["AUTO_INCREMENT"]

/-- The options that are compared: a collation that the character set implies does not count. -/
def comparedOptions (p : TablePair) (t : Table) : TableOptions :=
  let kept := t.options.filter fun name _ => !driftingOptions.contains name
  let implied := match t.defaultEncoding.effectiveCharset?, kept.get? "COLLATE" with
    | some charset, some collation => p.catalog.isDefaultCollation charset collation
    | _, _ => false
  if implied then kept.erase "COLLATE" else kept

/-- What became of an option, if it differs. A table that does not set it has the value that the
dictionary implies; an option without such a value is left as it is. -/
def optionDrift? (name : String) (live? declared? : Option String) : Option OptionDrift :=
  let spec? := TableOption.find? name
  let same (a b : String) : Bool := match spec? with
    | some o => o.sameValue a b
    | none => a = b
  let implied? := spec?.bind (·.implied)
  let drift (live? : Option String) (declared : String) : Option OptionDrift :=
    let sides : Sides String := ⟨live?, some declared⟩
    some ⟨name, sides.verdict, sides⟩
  match live?, declared? with
  | some a, some b => if same a b then none else drift (some a) b
  | some a, none => implied?.bind fun d => if same a d then none else drift (some a) d
  | none, some b => if implied?.any (same b) then none else drift none b
  | none, none => none

/-- The options that differ, in order of their names. -/
def optionDrifts (p : TablePair) : List OptionDrift :=
  let live := p.comparedOptions p.live
  let declared := p.comparedOptions p.declared
  (OrderedSet.ofList (declared.keys ++ live.keys)).toList.filterMap fun name =>
    optionDrift? name (live.get? name) (declared.get? name)

def isEmpty (p : TablePair) : Bool :=
  p.columnDrifts.isEmpty && p.keyDrifts.isEmpty && p.optionDrifts.isEmpty

end TablePair

/-! ### Alterations -/

/-- One change to an existing table. -/
inductive Alteration where
  | dropKey (name : String) (kind : KeyKind)
  /-- Adds a column at its place. -/
  | addColumn (column : Column)
  /-- Redefines a column, and moves it if a place is given. -/
  | modifyColumn (column : Column) (place? : Option Place)
  | dropColumn (name : String)
  | addKey (name : String) (key : Key)
  | setOptions (settings : List (String × String))
  deriving DecidableEq

namespace Alteration

def action : Alteration → Action
  | dropKey .. => .dropKey
  | addColumn _ => .addColumn
  | modifyColumn .. => .modifyColumn
  | dropColumn _ => .dropColumn
  | addKey .. => .addKey
  | setOptions _ => .alterOptions

def subject? : Alteration → Option String
  | dropKey name _ | addKey name _ | dropColumn name => some name
  | addColumn c | modifyColumn c _ => some c.name
  | setOptions _ => none

/-- The part of the statement after the table's name. -/
def clause : Alteration → String
  | dropKey name kind =>
    "DROP " ++ if kind = .primary then "PRIMARY KEY" else "KEY " ++ Sql.name name
  | addColumn c => "ADD COLUMN " ++ c.sql ++ " " ++ c.place.sql
  | modifyColumn c place? =>
    "MODIFY COLUMN " ++ c.sql ++
      match place? with
      | some place => " " ++ place.sql
      | none => ""
  | dropColumn name => "DROP COLUMN " ++ Sql.name name
  | addKey _ k => "ADD " ++ k.sql
  | setOptions settings =>
    Text.joined " " (settings.map fun (name, value) => TableOption.setting name value)

def sql (table : TableName) (a : Alteration) : String :=
  "ALTER TABLE " ++ table.sql ++ " " ++ a.clause ++ ";"

end Alteration

/-- An alteration with its guard and the change of type that it makes. -/
structure PlannedAlteration where
  alteration : Alteration
  guard? : Option Guard
  retyping? : Option (ColumnType × ColumnType)
  deriving DecidableEq

namespace PlannedAlteration

/-- An alteration that endangers nothing. -/
def harmless (a : Alteration) : PlannedAlteration := ⟨a, none, none⟩

def step (table : TableName) (p : PlannedAlteration) : Step :=
  let target := table.name ++
    match p.alteration.subject? with
    | some name => "." ++ name
    | none => ""
  let sql := p.alteration.sql table
  let context? := p.retyping?.map fun (a, b) => a.sql ++ " -> " ++ b.sql
  match p.guard? with
  | some g => { Step.guarded p.alteration.action target sql g.sql with context? }
  | none => { Step.harmless p.alteration.action target sql with context? }

end PlannedAlteration

namespace TablePair

/-- The name in statements, which run with the database selected. -/
def name (p : TablePair) : TableName := p.declared.name.unqualified

def keyDrops (p : TablePair) : List PlannedAlteration :=
  p.keyDrifts.filterMap fun d =>
    match d.verdict, d.sides.live with
    | .dropped, some k | .modified, some k => some (.harmless (.dropKey d.name k.kind))
    | _, _ => none

def columnAdditions (p : TablePair) : List PlannedAlteration :=
  p.columnDrifts.filterMap fun d =>
    match d.verdict, d.sides.declared with
    | .added, some c => some (.harmless (.addColumn c))
    | _, _ => none

/-- The modification of a column that is on both sides. -/
def modification (p : TablePair) (moved : Bool) (live declared : Column) : PlannedAlteration :=
  let before := p.canonicalLive live
  let after := p.canonicalDeclared declared
  ⟨.modifyColumn declared (if moved then some declared.place else none),
    Guard.ofModifyColumn p.name p.catalog before after, some (before.type, after.type)⟩

/-- Modifications in declared order, so that a column is put after one that has its place already.
An added column that is displaced is put in its place as well. -/
def columnModifications (p : TablePair) : List PlannedAlteration :=
  let displaced := p.displacedColumns
  p.columnDrifts.filterMap fun d =>
    match d.verdict, d.sides.live, d.sides.declared with
    | .added, _, some c =>
      if displaced.contains (Text.lower d.name) then
        some (.harmless (.modifyColumn c (some c.place)))
      else none
    | .modified, some live, some c => some (p.modification d.moved live c)
    | _, _, _ => none

def columnDrops (p : TablePair) : List PlannedAlteration :=
  p.columnDrifts.filterMap fun d =>
    match d.verdict, d.sides.live with
    | .dropped, some c => some ⟨.dropColumn d.name, some (Guard.ofDropColumn p.name c), none⟩
    | _, _ => none

def keyAdditions (p : TablePair) : List PlannedAlteration :=
  p.keyDrifts.filterMap fun d =>
    match d.verdict, d.sides.declared with
    | .added, some k | .modified, some k => some (.harmless (.addKey d.name k))
    | _, _ => none

def optionSettings (p : TablePair) : List PlannedAlteration :=
  let settings := p.optionDrifts.filterMap fun d => d.sides.declared.map fun v => (d.name, v)
  if settings.isEmpty then [] else [.harmless (.setOptions settings)]

/-- The alterations that bring the live table to its declared form, in the order in which they
run. -/
def alterations (p : TablePair) : List PlannedAlteration :=
  p.keyDrops ++ p.columnAdditions ++ p.columnModifications ++ p.columnDrops ++ p.keyAdditions ++
    p.optionSettings

end TablePair

/-! ### Tables on either side -/

inductive TableVerdict where
  | created
  | dropped
  | altered
  | unchanged
  deriving DecidableEq, Repr

/-- A table that may be live, declared or both. -/
structure TableDrift where
  sides : Sides Table
  catalog : Catalog

namespace TableDrift

def pair? (d : TableDrift) : Option TablePair :=
  match d.sides.live, d.sides.declared with
  | some live, some declared => some ⟨live, declared, d.catalog⟩
  | _, _ => none

def name (d : TableDrift) : TableName :=
  match d.sides.declared, d.sides.live with
  | some t, _ | none, some t => t.name.unqualified
  | none, none => ⟨none, ""⟩

def columns (d : TableDrift) : List ColumnDrift :=
  match d.pair? with
  | some p => p.columnDrifts
  | none => []

def keys (d : TableDrift) : List KeyDrift :=
  match d.pair? with
  | some p => p.keyDrifts
  | none => []

def options (d : TableDrift) : List OptionDrift :=
  match d.pair? with
  | some p => p.optionDrifts
  | none => []

/-- Whether no column, key or option differs. -/
def isEmpty (d : TableDrift) : Bool := d.columns.isEmpty && d.keys.isEmpty && d.options.isEmpty

def verdict (d : TableDrift) : TableVerdict :=
  match d.sides.live, d.sides.declared with
  | none, some _ => .created
  | some _, none => .dropped
  | some _, some _ => if d.isEmpty then .unchanged else .altered
  | none, none => .unchanged

/-- The steps that bring the live side to the declared one. -/
def steps (d : TableDrift) : List Step :=
  match d.sides.live, d.sides.declared with
  | none, some t =>
    [.harmless .createTable d.name.name ({ t with name := d.name }.sql ++ ";")]
  | some _, none =>
    [.guarded .dropTable d.name.name ("DROP TABLE " ++ d.name.sql ++ ";")
      (Guard.ofDropTable d.name).sql]
  | some live, some declared =>
    let p : TablePair := ⟨live, declared, d.catalog⟩
    p.alterations.map (PlannedAlteration.step p.name)
  | none, none => []

end TableDrift

end SchemaDrift
