import SchemaDrift.ColumnType

/-!
Columns of a table declaration.
-/

namespace SchemaDrift

/-- The moment of a change, with the digits of its fraction of a second. -/
def currentMoment (fraction : Nat) : String :=
  "CURRENT_TIMESTAMP" ++ if fraction = 0 then "" else "(" ++ Text.decimal fraction ++ ")"

/-- The value that a column takes where a row gives none. -/
inductive DefaultValue where
  | null
  /-- A number or string; `0` and `'0'` are the same value. -/
  | value (text : String)
  /-- The moment of insertion. -/
  | now (fraction : Nat)
  /-- A bit or hex literal as written. -/
  | literal (text : String)
  /-- An expression as written, without its outer parentheses. -/
  | expression (text : String)
  deriving DecidableEq, Repr

def DefaultValue.sql : DefaultValue → String
  | null => "NULL"
  | value text => Sql.string text
  | now fraction => currentMoment fraction
  | literal text => text
  | expression text => "(" ++ text ++ ")"

/-- Where a column stands in its table. -/
inductive Place where
  | first
  | after (column : String)
  deriving DecidableEq, Repr

def Place.sql : Place → String
  | first => "FIRST"
  | after column => "AFTER " ++ Sql.name column

structure Column where
  name : String
  type : ColumnType
  nullable : Bool
  default? : Option DefaultValue
  autoIncrement : Bool
  comment? : Option String
  /-- The fraction digits of the moment that an update writes, if it writes one. -/
  onUpdate? : Option Nat
  /-- The number of columns declared before this one. -/
  ordinal : Nat
  place : Place
  deriving DecidableEq, Repr

namespace Column

def ofType (name : String) (type : ColumnType) : Column :=
  ⟨name, type, true, none, false, none, none, 0, .first⟩

/-- The default, with the one filled in that a nullable column has without saying so. -/
def effectiveDefault? (c : Column) : Option DefaultValue :=
  if c.default?.isNone && c.nullable && !c.autoIncrement then some .null else c.default?

def sql (c : Column) : String :=
  Sql.name c.name ++ " " ++ c.type.sql ++
  (if c.nullable then "" else " NOT NULL") ++
  (match c.default? with
    | some d => " DEFAULT " ++ d.sql
    | none => "") ++
  (match c.onUpdate? with
    | some fraction => " ON UPDATE " ++ currentMoment fraction
    | none => "") ++
  (if c.autoIncrement then " AUTO_INCREMENT" else "") ++
  (match c.comment? with
    | some text => " COMMENT " ++ Sql.string text
    | none => "")

end Column

end SchemaDrift
