import SchemaDrift.ColumnType.Lossless
import SchemaDrift.Table

/-!
Conditions on the values of a column, and the conditions under which a value does not survive a
change of type.
-/

namespace SchemaDrift

/-- A condition on the value of a column. -/
inductive Condition where
  | isNull
  | isNotNull
  /-- The value differs from the one that an SQL text stands for; nulls are equal. -/
  | differsFrom (sql : String)
  /-- The value does not read as a whole number. -/
  | notWhole
  /-- The value does not read as a decimal number. -/
  | notDecimal
  | below (bound : Int)
  | above (bound : Int)
  /-- The value has a fraction. -/
  | fractional
  /-- The absolute value is at least this power of ten. -/
  | reaches (power : Nat)
  /-- The value has more digits after the point. -/
  | finerThan (scale : Nat)
  | changedByCast (size : FloatSize)
  | moreBytes (bound : Nat)
  | moreChars (bound : Nat)
  /-- The text does not come back from a character set and back. -/
  | changedByCharset (target source : String)
  /-- A set value holds the member. -/
  | hasMember (member : String)
  /-- A set value holds several members. -/
  | severalMembers
  | isOneOf (values : List String)
  | isNoneOf (values : List String)
  /-- The microseconds are no multiple of the unit. -/
  | finerMoment (unit : Nat)
  deriving DecidableEq, Repr

namespace Condition

/-- The condition as SQL, on the column with the written name `col`. -/
def sql (col : String) : Condition → String
  | isNull => col ++ " IS NULL"
  | isNotNull => col ++ " IS NOT NULL"
  | differsFrom text => "NOT (" ++ col ++ " <=> " ++ text ++ ")"
  | notWhole => col ++ " NOT REGEXP '^[-+]?[0-9]+$'"
  | notDecimal => col ++ " NOT REGEXP '^[-+]?[0-9]*[.]?[0-9]+$'"
  | below bound => col ++ " < " ++ Text.signedDecimal bound
  | above bound => col ++ " > " ++ Text.signedDecimal bound
  | fractional => col ++ " <> ROUND(" ++ col ++ ")"
  | reaches power => "ABS(" ++ col ++ ") >= 1e" ++ Text.decimal power
  | finerThan scale => col ++ " <> ROUND(" ++ col ++ ", " ++ Text.decimal scale ++ ")"
  | changedByCast size => col ++ " <> CAST(" ++ col ++ " AS " ++ size.name ++ ")"
  | moreBytes bound => "LENGTH(" ++ col ++ ") > " ++ Text.decimal bound
  | moreChars bound => "CHAR_LENGTH(" ++ col ++ ") > " ++ Text.decimal bound
  | changedByCharset target source =>
    "CONVERT(CONVERT(" ++ col ++ " USING " ++ target ++ ") USING " ++ source ++ ") <> " ++ col
  | hasMember member => "FIND_IN_SET(" ++ Sql.string member ++ ", " ++ col ++ ") > 0"
  | severalMembers => col ++ " LIKE '%,%'"
  | isOneOf values => col ++ " IN (" ++ Sql.strings ", " values ++ ")"
  | isNoneOf values => col ++ " NOT IN (" ++ Sql.strings ", " values ++ ")"
  | finerMoment unit => "MICROSECOND(" ++ col ++ ") % " ++ Text.decimal unit ++ " <> 0"

end Condition

namespace ColumnType

/-- The character set of a type's values. -/
def charset (t : ColumnType) : String := charsetOf (t.encoding?.getD .none)

/-- The condition on characters that the new type's character set lacks. -/
def charsetLoss (a b : ColumnType) : List Condition :=
  if a.isTextual && !Charset.covers a.charset b.charset then
    [.changedByCharset b.charset a.charset]
  else []

/-- The conditions on the members that another choice type lacks. -/
def memberLoss (a b : ColumnType) (kind : ChoiceKind) (members : List String) : List Condition :=
  match a with
  | choice .set _ _ =>
    (removedMembers a b).map .hasMember ++ if kind = .enum then [.severalMembers] else []
  | choice .enum _ _ =>
    let removed := removedMembers a b
    if removed.isEmpty then [] else [.isOneOf removed]
  | _ => [.isNoneOf members]

/-- Whether values have digits after the point. -/
def hasFraction : ColumnType → Bool
  | decimal .. | floating .. => true
  | _ => false

/-- Conditions of which at least one holds of every value of `a` that `b` cannot store, as far as one
can be stated. -/
def losses (a b : ColumnType) : List Condition :=
  match b with
  | integer size _ flags =>
    (if a.isNumeric then [] else [.notWhole]) ++
      [.below (size.low flags.isUnsigned), .above (size.high flags.isUnsigned)] ++
      if a.hasFraction then [.fractional] else []
  | decimal precision scale flags =>
    (if a.isNumeric then [] else [.notDecimal]) ++
      [.reaches (precision - scale), .finerThan scale] ++
      if flags.isUnsigned then [.below 0] else []
  | floating size _ flags =>
    [.changedByCast size] ++ if flags.isUnsigned then [.below 0] else []
  | string _ .bytes length _ => [.moreBytes length]
  | string _ .text length _ => [.moreChars length] ++ charsetLoss a b
  | lob size .bytes _ => [.moreBytes size.capacity]
  | lob size .text _ => [.moreBytes size.capacity] ++ charsetLoss a b
  | choice kind members _ => memberLoss a b kind members
  | clock kind fraction =>
    match a with
    | clock old _ =>
      if old = kind && fraction < 6 then [.finerMoment (Nat.pow 10 (6 - fraction))] else [.isNotNull]
    | _ => [.isNotNull]
  | bit _ | plain _ => [.isNotNull]

/-- The value that a mandatory column takes where a row gives none. -/
def impliedDefault? : ColumnType → Option String
  | integer .. | decimal .. | floating .. => some "0"
  | string .. | lob .. => some ""
  | choice .enum members _ => members.head?
  | choice .set _ _ => some ""
  | _ => none

end ColumnType

end SchemaDrift
