import SchemaDrift.Token
import SchemaDrift.Text.Decimal

/-!
Why a statement cannot be read: the cause, and the tokens from the offending one on.
-/

namespace SchemaDrift

inductive FaultCause where
  /-- Something else had to stand here. -/
  | expected (what : String)
  | unknownType (name : String)
  | decimalPrecision (precision : Nat)
  | decimalScale (scale : Nat)
  | floatPrecision (precision : Nat)
  | scaleMissing
  | fractionDigits (digits : Nat)
  /-- A character set or collation on a type that has none. -/
  | encodingRefused (type : String)
  | updateNotMoment
  | optionValue (value option : String)
  | duplicateOption (option : String)
  | duplicateColumn (column : String)
  | severalPrimaryKeys
  | unknownKeyColumn (column : String)
  | duplicateRequirement (name : String)
  deriving DecidableEq, Repr

structure ReadingFault where
  cause : FaultCause
  /-- The offending token and all after it. -/
  tokens : List Token
  deriving DecidableEq, Repr

namespace ReadingFault

/-- The offending token in words. -/
def found (f : ReadingFault) : String :=
  match f.tokens with
  | t :: _ => t.lexeme.shown
  | [] => Lexeme.ending.shown

def span (f : ReadingFault) : Span :=
  match f.tokens with
  | t :: _ => t.span
  | [] => ⟨0, 0⟩

/-- What had to stand in the place of the offending token; empty if that token is right but says
something impossible. -/
def wanted (f : ReadingFault) : String :=
  match f.cause with
  | .expected what => what
  | _ => ""

/-- The reason why the offending token is malformed, if it is. -/
def malformed? (f : ReadingFault) : Option Malformed :=
  match f.tokens with
  | ⟨_, _, .malformed r, _⟩ :: _ => some r
  | _ => none

def reason (f : ReadingFault) : String :=
  match f.cause with
  | .expected what =>
    match f.malformed? with
    | some r => r.message
    | none => "expected " ++ what ++ ", found " ++ f.found
  | .unknownType name => "unknown data type " ++ name
  | .decimalPrecision p => "decimal precision " ++ Text.decimal p ++ " out of range"
  | .decimalScale s => "decimal scale " ++ Text.decimal s ++ " out of range"
  | .floatPrecision p => "float precision " ++ Text.decimal p ++ " out of range"
  | .scaleMissing => "expected precision and scale"
  | .fractionDigits n =>
    "fractional seconds precision " ++ Text.decimal n ++ " out of range"
  | .encodingRefused type => type ++ " does not take a character set"
  | .updateNotMoment => "ON UPDATE only accepts CURRENT_TIMESTAMP"
  | .optionValue value option => "invalid value " ++ value ++ " for table option " ++ option
  | .duplicateOption option => "duplicate table option " ++ option
  | .duplicateColumn column => "duplicate column name " ++ column
  | .severalPrimaryKeys => "multiple primary keys defined"
  | .unknownKeyColumn column => "key column " ++ column ++ " does not exist"
  | .duplicateRequirement name => "duplicate REQUIRE option " ++ name

/-- The tokens from the offending one to the end of the statement, in words. -/
def remainder (f : ReadingFault) : List String :=
  (f.tokens.takeWhile (·.lexeme ≠ .ending)).map (·.lexeme.shown)

/-- The reason with the place in the statement's text. -/
def message (f : ReadingFault) : String :=
  f.reason ++ " at position " ++ Text.decimal f.span.start ++ ".." ++ Text.decimal f.span.stop

end ReadingFault

end SchemaDrift
