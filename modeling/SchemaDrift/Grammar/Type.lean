import SchemaDrift.ColumnType
import SchemaDrift.Grammar.Cursor

/-!
The grammar of column types. A type's name decides what may follow it; synonyms have the same reading
as the name they stand for.
-/

namespace SchemaDrift.Grammar

open Parse

/-- What the name of a type is followed by. -/
inductive TypeHead where
  | integer (size : IntegerSize)
  | boolean
  | decimal
  /-- `FLOAT`, where a precision alone chooses the size. -/
  | float
  | floating (size : FloatSize)
  /-- `DOUBLE`, with an optional `PRECISION`. -/
  | double
  | real
  /-- `CHAR`, and with `VARYING` its variable form. -/
  | char
  /-- `NCHAR`, and with `VARCHAR` or `VARYING` its variable form. -/
  | nationalChar
  | nationalVarchar
  /-- `NATIONAL`, before a character type. -/
  | national
  | string (padded : Bool) (content : Content)
  | lob (size : LobSize) (content : Content)
  /-- `TEXT` and `BLOB`, where a length chooses the size. -/
  | sizedLob (content : Content)
  /-- `LONG`, alone or before `VARCHAR` or `VARBINARY`. -/
  | long
  | choice (kind : ChoiceKind)
  | clock (kind : ClockKind)
  | bit
  | year
  deriving DecidableEq, Repr

/-- The names of types, in upper case. -/
def typeHeads : List (String × TypeHead) := [
  ("TINYINT", .integer .tiny), ("INT1", .integer .tiny),
  ("SMALLINT", .integer .small), ("INT2", .integer .small),
  ("MEDIUMINT", .integer .medium), ("INT3", .integer .medium), ("MIDDLEINT", .integer .medium),
  ("INT", .integer .regular), ("INTEGER", .integer .regular), ("INT4", .integer .regular),
  ("BIGINT", .integer .big), ("INT8", .integer .big),
  ("BOOL", .boolean), ("BOOLEAN", .boolean),
  ("DECIMAL", .decimal), ("DEC", .decimal), ("NUMERIC", .decimal), ("FIXED", .decimal),
  ("FLOAT", .float), ("FLOAT4", .floating .single), ("FLOAT8", .floating .double),
  ("DOUBLE", .double), ("REAL", .real),
  ("CHAR", .char), ("CHARACTER", .char), ("NCHAR", .nationalChar),
  ("NVARCHAR", .nationalVarchar), ("NATIONAL", .national),
  ("VARCHAR", .string false .text), ("VARCHARACTER", .string false .text),
  ("BINARY", .string true .bytes), ("VARBINARY", .string false .bytes),
  ("TINYTEXT", .lob .tiny .text), ("TEXT", .sizedLob .text),
  ("MEDIUMTEXT", .lob .medium .text), ("LONGTEXT", .lob .long .text),
  ("TINYBLOB", .lob .tiny .bytes), ("BLOB", .sizedLob .bytes),
  ("MEDIUMBLOB", .lob .medium .bytes), ("LONGBLOB", .lob .long .bytes),
  ("LONG", .long),
  ("ENUM", .choice .enum), ("SET", .choice .set),
  ("TIME", .clock .time), ("DATETIME", .clock .datetime), ("TIMESTAMP", .clock .timestamp),
  ("BIT", .bit), ("YEAR", .year)]

/-- The character set of national strings. -/
def nationalCharset : String := "utf8mb3"

def maxPrecision : Nat := 65

def maxScale : Nat := 30

/-- The most digits of a fraction of a second. -/
def maxFraction : Nat := 6

def optionalDigits : Parse (Option (Nat × Option Nat)) := do
  if ← accept .openParen then
    let precision ← number "precision"
    let scale? ← if ← accept .comma then some <$> number "scale" else pure none
    expect .closeParen "`)` closing the precision"
    return some (precision, scale?)
  else return none

def decimalType : Parse ColumnType := do
  let (precision, scale) := match ← optionalDigits with
    | none => (10, 0)
    | some (p, s?) => (p, s?.getD 0)
  if precision = 0 || maxPrecision < precision then fault (.decimalPrecision precision) 1
  else if maxScale < scale || precision < scale then fault (.decimalScale scale) 1
  else return .decimal precision scale .none

/-- A precision without a scale counts bits and chooses the size. -/
def floatType : Parse ColumnType := do
  match ← optionalDigits with
  | none => return .floating .single none .none
  | some (p, some s) => return .floating .single (some (p, s)) .none
  | some (p, none) =>
    if p ≤ 24 then return .floating .single none .none
    else if p ≤ 53 then return .floating .double none .none
    else fault (.floatPrecision p) 1

def floatingType (size : FloatSize) : Parse ColumnType := do
  match ← optionalDigits with
  | none => return .floating size none .none
  | some (p, some s) => return .floating size (some (p, s)) .none
  | some (_, none) => fault .scaleMissing 1

/-- A string type; padded ones have length 1 where none is given. -/
def stringType (padded : Bool) (content : Content) (charset? : Option String) :
    Parse ColumnType := do
  match ← optionalNumber "length" with
  | some length => return .string padded content length ⟨charset?, none⟩
  | none =>
    if padded then return .string padded content 1 ⟨charset?, none⟩
    else expected "`(` with the length"

def choiceType (kind : ChoiceKind) : Parse ColumnType := do
  expect .openParen "`(` opening the value list"
  let members ← separated (string "quoted value")
  expect .closeParen "`,` or `)` in the value list"
  return .choice kind members .none

def clockType (kind : ClockKind) : Parse ColumnType := do
  let fraction := (← optionalNumber "fractional seconds precision").getD 0
  if maxFraction < fraction then fault (.fractionDigits fraction) 1
  else return .clock kind fraction

/-- What follows `NATIONAL`. -/
def nationalType : Parse ColumnType := do
  match ← upperWord? with
  | some "VARCHAR" =>
    advance
    stringType false .text nationalCharset
  | some "CHAR" | some "CHARACTER" =>
    advance
    let varying ← acceptWord "VARYING"
    stringType (!varying) .text nationalCharset
  | _ => expected "CHAR or VARCHAR after NATIONAL"

/-- What follows the name of a type; `real` is the size that `REAL` stands for. -/
def typeBody (real : FloatSize) : TypeHead → Parse ColumnType
  | .integer size => return .integer size (← optionalNumber "display width") .none
  | .boolean => return .integer .tiny (some 1) .none
  | .decimal => decimalType
  | .float => floatType
  | .floating size => floatingType size
  | .double => do
    let _ ← acceptWord "PRECISION"
    floatingType .double
  | .real => floatingType real
  | .char => do
    let varying ← acceptWord "VARYING"
    stringType (!varying) .text none
  | .nationalChar => do
    if ← acceptWord "VARCHAR" then stringType false .text nationalCharset
    else
      let varying ← acceptWord "VARYING"
      stringType (!varying) .text nationalCharset
  | .nationalVarchar => stringType false .text nationalCharset
  | .national => nationalType
  | .string padded content => stringType padded content none
  | .lob size content => return .lob size content .none
  | .sizedLob content => do
    match ← optionalNumber "length" with
    | some length => return .lob (LobSize.fitting length) content .none
    | none => return .lob .regular content .none
  | .long => do
    if ← acceptWord "VARBINARY" then return .lob .medium .bytes .none
    else
      let _ ← acceptWord "VARCHAR"
      return .lob .medium .text .none
  | .choice kind => choiceType kind
  | .clock kind => clockType kind
  | .bit => return .bit (← optionalNumber "bit count")
  | .year => do
    let _ ← optionalNumber "year width"
    return .plain .year

/-- The modifiers of numeric types, in any order and number; the last sign counts. -/
def modifier (f : NumberFlags) : Parse (Option NumberFlags) := do
  if ← acceptWord "UNSIGNED" then return some { f with isUnsigned := true }
  else if ← acceptWord "SIGNED" then return some { f with isUnsigned := false }
  else if ← acceptWord "ZEROFILL" then return some { f with zerofill := true }
  else return none

/-- A type with its arguments and modifiers. -/
def columnType (real : FloatSize) : Parse ColumnType := do
  match ← upperWord? with
  | none => expected "data type"
  | some word =>
    advance
    match typeHeads.lookup word with
    | some head =>
      let type ← typeBody real head
      if type.isNumeric then
        let flags ← repeated modifier .none
        return type.mapFlags fun _ => flags
      else return type
    | none =>
      match PlainType.ofName? word with
      | some type => return .plain type
      | none => fault (.unknownType word) 1

end SchemaDrift.Grammar
