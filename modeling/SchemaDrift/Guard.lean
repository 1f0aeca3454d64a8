import SchemaDrift.Guard.Condition

/-!
Guards: queries that count the rows which a statement would damage. A statement that can destroy
something comes with a guard, and runs only if that counts nothing.
-/

namespace SchemaDrift

/-- The rows that a statement endangers. -/
inductive Endangered where
  | all
  /-- Those with a certain value in a column. -/
  | matching (column : String) (condition : Condition)
  /-- Those where one of the conditions holds. -/
  | matchingAny (column : String) (conditions : List Condition)
  deriving DecidableEq, Repr

structure Guard where
  table : TableName
  rows : Endangered
  deriving DecidableEq, Repr

namespace Guard

/-- The query that counts the endangered rows. -/
def sql (g : Guard) : String :=
  "SELECT count(*) FROM " ++ g.table.sql ++
  match g.rows with
  | .all => ""
  | .matching column condition => " WHERE " ++ condition.sql (Sql.name column)
  | .matchingAny column conditions =>
    " WHERE " ++ Text.joined " OR " (conditions.map fun c => "(" ++ c.sql (Sql.name column) ++ ")")

/-- Dropping a table endangers all its rows. -/
def ofDropTable (table : TableName) : Guard := ⟨table, .all⟩

/-- Dropping a column endangers the values that are not the default. -/
def ofDropColumn (table : TableName) (c : Column) : Guard :=
  ⟨table, .matching c.name <|
    match c.effectiveDefault? with
    | some .null | some (.now _) => .isNotNull
    | some d => .differsFrom d.sql
    | none =>
      match c.type.impliedDefault? with
      | some v => .differsFrom (Sql.string v)
      | none => .isNotNull⟩

/-- Whether a column keeps every value when its type changes and no member disappears. -/
def keepsValues (catalog : Catalog) (before after : Column) : Bool :=
  before.type.losslessTo catalog after.type && (before.type.removedMembers after.type).isEmpty

/-- The conditions on values that a change of the type endangers. -/
def endangeredValues (before after : ColumnType) : List Condition :=
  let losses := before.losses after
  if losses.isEmpty then [.isNotNull] else losses

/-- Changing a column endangers the values that its new type cannot store, and the nulls of one that
becomes mandatory. A change that endangers nothing has no guard. -/
def ofModifyColumn (table : TableName) (catalog : Catalog) (before after : Column) :
    Option Guard :=
  let kept := keepsValues catalog before after
  let tightened := before.nullable && !after.nullable
  if kept && !tightened then none
  else some ⟨table, .matchingAny before.name
    ((if kept then [] else endangeredValues before.type after.type) ++
      if tightened then [.isNull] else [])⟩

end Guard

end SchemaDrift
