import SchemaDrift.Charset
import SchemaDrift.Sql

/-!
Column types, with synonyms already resolved: each type that a server tells apart is one value.
-/

namespace SchemaDrift

/-! ### The parts of types -/

inductive IntegerSize where
  | tiny
  | small
  | medium
  | regular
  | big
  deriving DecidableEq, Repr

namespace IntegerSize

def name : IntegerSize → String
  | tiny => "TINYINT"
  | small => "SMALLINT"
  | medium => "MEDIUMINT"
  | regular => "INT"
  | big => "BIGINT"

def bytes : IntegerSize → Nat
  | tiny => 1
  | small => 2
  | medium => 3
  | regular => 4
  | big => 8

def low (s : IntegerSize) (isUnsigned : Bool) : Int :=
  if isUnsigned then 0 else -(Nat.pow 2 (8 * s.bytes - 1) : Nat)

def high (s : IntegerSize) (isUnsigned : Bool) : Int :=
  (Nat.pow 2 (if isUnsigned then 8 * s.bytes else 8 * s.bytes - 1) : Nat) - 1

/-- The most characters that a value takes in decimal, its sign included. -/
def maxChars : IntegerSize → Bool → Nat
  | tiny, false => 4
  | tiny, true => 3
  | small, false => 6
  | small, true => 5
  | medium, _ => 8
  | regular, false => 11
  | regular, true => 10
  | big, _ => 20

end IntegerSize

inductive FloatSize where
  | single
  | double
  deriving DecidableEq, Repr

def FloatSize.name : FloatSize → String
  | single => "FLOAT"
  | double => "DOUBLE"

/-- Whether every value of the first size is one of the second. -/
def FloatSize.fits : FloatSize → FloatSize → Bool
  | double, single => false
  | _, _ => true

/-- What strings consist of. -/
inductive Content where
  | text
  | bytes
  deriving DecidableEq, Repr

inductive LobSize where
  | tiny
  | regular
  | medium
  | long
  deriving DecidableEq, Repr

namespace LobSize

def all : List LobSize := [tiny, regular, medium, long]

/-- The most bytes that a value takes. -/
def capacity : LobSize → Nat
  | tiny => 0xFF
  | regular => 0xFFFF
  | medium => 0xFFFFFF
  | long => 0xFFFFFFFF

/-- The smallest size that holds `length` bytes, or the greatest one. -/
def fitting (length : Nat) : LobSize := (all.find? fun s => length ≤ s.capacity).getD long

def name (s : LobSize) (content : Content) : String :=
  (match s with
    | tiny => "TINY"
    | regular => ""
    | medium => "MEDIUM"
    | long => "LONG") ++
  (match content with
    | .text => "TEXT"
    | .bytes => "BLOB")

end LobSize

/-- The two ways to choose among listed members: one of them, or any number. -/
inductive ChoiceKind where
  | enum
  | set
  deriving DecidableEq, Repr

def ChoiceKind.name : ChoiceKind → String
  | enum => "ENUM"
  | set => "SET"

/-- The types of moments and durations with fractional seconds. -/
inductive ClockKind where
  | time
  | datetime
  | timestamp
  deriving DecidableEq, Repr

def ClockKind.name : ClockKind → String
  | time => "TIME"
  | datetime => "DATETIME"
  | timestamp => "TIMESTAMP"

/-- The types without arguments. -/
inductive PlainType where
  | date
  | year
  | json
  | geometry
  | point
  | linestring
  | polygon
  | multipoint
  | multilinestring
  | multipolygon
  | geometrycollection
  | geomcollection
  deriving DecidableEq, Repr

namespace PlainType

def all : List PlainType := [date, year, json, geometry, point, linestring, polygon, multipoint,
  multilinestring, multipolygon, geometrycollection, geomcollection]

def name : PlainType → String
  | date => "DATE"
  | year => "YEAR"
  | json => "JSON"
  | geometry => "GEOMETRY"
  | point => "POINT"
  | linestring => "LINESTRING"
  | polygon => "POLYGON"
  | multipoint => "MULTIPOINT"
  | multilinestring => "MULTILINESTRING"
  | multipolygon => "MULTIPOLYGON"
  | geometrycollection => "GEOMETRYCOLLECTION"
  | geomcollection => "GEOMCOLLECTION"

def ofName? (n : String) : Option PlainType := all.find? fun t => t.name = n

end PlainType

/-- The two modifiers of numeric types. -/
structure NumberFlags where
  isUnsigned : Bool
  zerofill : Bool
  deriving DecidableEq, Repr

/-- Signed and not filled with zeros. -/
def NumberFlags.none : NumberFlags := ⟨false, false⟩

def NumberFlags.sql (f : NumberFlags) : String :=
  (if f.isUnsigned then " UNSIGNED" else "") ++ (if f.zerofill then " ZEROFILL" else "")

/-- Character set and collation of a text type, as far as they are named. -/
structure Encoding where
  charset : Option String
  collation : Option String
  deriving DecidableEq, Repr

namespace Encoding

def none : Encoding := ⟨.none, .none⟩

def isEmpty (e : Encoding) : Bool := e.charset.isNone && e.collation.isNone

/-- The character set: the one that is named, else that of the collation. -/
def effectiveCharset? (e : Encoding) : Option String :=
  match e.charset with
  | some c => some (Charset.canonical c)
  | .none => e.collation.map Charset.ofCollation

def sql (e : Encoding) : String :=
  (match e.charset with
    | some c => " CHARACTER SET " ++ c
    | .none => "") ++
  (match e.collation with
    | some c => " COLLATE " ++ c
    | .none => "")

end Encoding

/-! ### Types -/

inductive ColumnType where
  | integer (size : IntegerSize) (width : Option Nat) (flags : NumberFlags)
  /-- Exact numbers of `precision` digits, `scale` of them after the point. -/
  | decimal (precision scale : Nat) (flags : NumberFlags)
  | floating (size : FloatSize) (digits : Option (Nat × Nat)) (flags : NumberFlags)
  /-- Strings of at most `length` characters or bytes; padded ones are stored at full length. -/
  | string (padded : Bool) (content : Content) (length : Nat) (encoding : Encoding)
  /-- Long strings, bounded in bytes. -/
  | lob (size : LobSize) (content : Content) (encoding : Encoding)
  | choice (kind : ChoiceKind) (members : List String) (encoding : Encoding)
  | clock (kind : ClockKind) (fraction : Nat)
  | bit (length : Option Nat)
  | plain (type : PlainType)
  deriving DecidableEq, Repr

namespace ColumnType

def name : ColumnType → String
  | integer size _ _ => size.name
  | decimal .. => "DECIMAL"
  | floating size _ _ => size.name
  | string true .text _ _ => "CHAR"
  | string false .text _ _ => "VARCHAR"
  | string true .bytes _ _ => "BINARY"
  | string false .bytes _ _ => "VARBINARY"
  | lob size content _ => size.name content
  | choice kind _ _ => kind.name
  | clock kind _ => kind.name
  | bit _ => "BIT"
  | plain t => t.name

def isNumeric : ColumnType → Bool
  | integer .. | decimal .. | floating .. => true
  | _ => false

/-- Whether values are characters, as opposed to bytes. -/
def isTextual : ColumnType → Bool
  | string _ content _ _ | lob _ content _ => content = .text
  | choice .. => true
  | _ => false

def encoding? : ColumnType → Option Encoding
  | string _ _ _ e | lob _ _ e | choice _ _ e => some e
  | _ => none

/-- Puts another encoding into a string or choice type. -/
def withEncoding (e : Encoding) : ColumnType → ColumnType
  | string padded content length _ => string padded content length e
  | lob size content _ => lob size content e
  | choice kind members _ => choice kind members e
  | t => t

def mapFlags (f : NumberFlags → NumberFlags) : ColumnType → ColumnType
  | integer size width flags => integer size width (f flags)
  | decimal precision scale flags => decimal precision scale (f flags)
  | floating size digits flags => floating size digits (f flags)
  | t => t

def argument : Option Nat → String
  | some n => "(" ++ Text.decimal n ++ ")"
  | none => ""

def twoArguments (m n : Nat) : String :=
  "(" ++ Text.decimal m ++ "," ++ Text.decimal n ++ ")"

/-- What follows the name of a type. -/
def arguments : ColumnType → String
  | integer _ width flags => argument width ++ flags.sql
  | decimal precision scale flags => twoArguments precision scale ++ flags.sql
  | floating _ digits flags =>
    (match digits with
      | some (p, s) => twoArguments p s
      | none => "") ++ flags.sql
  | string _ _ length e => argument (some length) ++ e.sql
  | lob _ _ e => e.sql
  | choice _ members e => "(" ++ Sql.strings "," members ++ ")" ++ e.sql
  | clock _ fraction => if fraction = 0 then "" else argument (some fraction)
  | bit length => argument length
  | plain _ => ""

def sql (t : ColumnType) : String := t.name ++ t.arguments

/-- The members of a choice type that another one no longer lists. -/
def removedMembers : ColumnType → ColumnType → List String
  | choice _ old _, choice _ new _ => old.filter fun v => !new.contains v
  | _, _ => []

end ColumnType

end SchemaDrift
