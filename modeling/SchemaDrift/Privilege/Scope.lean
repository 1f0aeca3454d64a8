import SchemaDrift.Ordered.Map
import SchemaDrift.Ordered.Set
import SchemaDrift.Text.Case

/-!
How far a privilege on an object reaches: the whole object or some of its columns; and the
privileges that are held on an object, by name.
-/

namespace SchemaDrift

/-- The reach of a privilege. A list of columns is never empty: it would reach nothing. -/
inductive Scope where
  | whole
  | columns (cols : OrderedSet String) (nonempty : cols.toList ≠ [])
  deriving DecidableEq

namespace Scope

/-- The scope of a set of columns, if there are any. -/
def ofSet? (cols : OrderedSet String) : Option Scope :=
  if h : cols.toList ≠ [] then some (columns cols h) else none

/-- The scope of a written column list; letter case does not count, and no column at all means the
whole object. -/
def ofNames (names : List String) : Scope :=
  (ofSet? (OrderedSet.ofList (names.map Text.lower))).getD whole

/-- What either scope reaches. -/
def merge : Scope → Scope → Scope
  | columns a h, columns b _ => columns (a.union b) (OrderedSet.union_ne_empty h b)
  | _, _ => whole

/-- Whether the first scope reaches all that the second one does. -/
def covers : Scope → Scope → Bool
  | whole, _ => true
  | columns .., whole => false
  | columns a _, columns b _ => b.subset a

/-- The part of the first scope that the second one does not reach. The whole object without some
columns is still the whole object, for there is no other way to name it. -/
def subtract : Scope → Scope → Option Scope
  | _, whole => none
  | whole, columns .. => some whole
  | columns a _, columns b _ => ofSet? (a.diff b)

/-- The part that both scopes reach. -/
def intersect : Scope → Scope → Option Scope
  | whole, s => some s
  | s, whole => some s
  | columns a _, columns b _ => ofSet? (a.inter b)

end Scope

/-- Privileges by name, with their reach. -/
abbrev Privileges := OrderedMap String Scope

namespace Privileges

/-- Adds a privilege to those that are held; its reach adds to that of the same name. -/
def grant (ps : Privileges) (name : String) (scope : Scope) : Privileges :=
  ps.alter name fun held? =>
    match held? with
    | some held => held.merge scope
    | none => scope

/-- Adds all privileges of the second map. -/
def merge (ps qs : Privileges) : Privileges := qs.entries.foldl (fun m e => m.grant e.1 e.2) ps

/-- What is left of the privileges when the second map's are taken away; a privilege of which nothing
is left is gone. -/
def subtract (ps qs : Privileges) : Privileges :=
  ps.filterMap fun name scope =>
    match qs.get? name with
    | some taken => scope.subtract taken
    | none => some scope

end Privileges

end SchemaDrift
