import SchemaDrift.Drift.Access
import SchemaDrift.Drift.Table
import SchemaDrift.Schema

/-!
Plans: all that a run would do and has to say, as a list of items in order. The steps of a plan are
those of its items; everything else in an item explains them.
-/

namespace SchemaDrift

/-- Where a table was found. Something found on neither side has privileges alone. -/
inductive Presence where
  | bothOrNeither
  | declaredOnly
  | liveOnly
  deriving DecidableEq, Repr

namespace Presence

def ofSides {α : Type} (s : Sides α) : Presence :=
  match s.live, s.declared with
  | none, some _ => .declaredOnly
  | some _, none => .liveOnly
  | _, _ => .bothOrNeither

/-- The presence in words. -/
def text : Presence → String
  | bothOrNeither => "Intersection"
  | declaredOnly => "FileOnly"
  | liveOnly => "DatabaseOnly"

end Presence

/-- What there is to do for a table: its drift and that of the privileges on it. -/
structure TableItem where
  name : String
  presence : Presence
  /-- The sources that declare the table, then the server if it has it. -/
  sources : List String
  columns : List ColumnDrift
  keys : List KeyDrift
  options : List OptionDrift
  access : List AccessDrift
  deriving DecidableEq

inductive PlanItem where
  | notice (n : Notice)
  | database (name : String) (steps : List Step)
  | account (drift : AccountDrift) (steps : List Step)
  | table (t : TableItem) (steps : List Step)
  /-- Declarations that take no part. -/
  | skipped (reason : SkipReason) (count : Nat)
  deriving DecidableEq

namespace PlanItem

def ofDatabase (name : String) : PlanItem :=
  .database name [.harmless .createDatabase name ("CREATE DATABASE " ++ Sql.name name ++ ";")]

def ofAccount (d : AccountDrift) : PlanItem := .account d d.steps

/-- The skips for one reason, if there are any. -/
def ofSkips? (skips : List SkipReason) (reason : SkipReason) : Option PlanItem :=
  let count := skips.count reason
  if count = 0 then none else some (.skipped reason count)

/-- The steps in the order in which they run. -/
def steps : PlanItem → List Step
  | database _ ss | account _ ss | table _ ss => ss
  | notice _ | skipped .. => []

/-- Puts other steps into an item that has steps. -/
def withSteps (ss : List Step) : PlanItem → PlanItem
  | database name _ => .database name ss
  | account d _ => .account d ss
  | table t _ => .table t ss
  | item => item

/-- The number of declarations that the item skips. -/
def skipCount : PlanItem → Nat
  | skipped _ count => count
  | _ => 0

/-- The comment above the steps, if the item has one. -/
def heading? : PlanItem → Option String
  | notice n => some ("error: " ++ n.fault.message)
  | table t _ => some ("table " ++ t.name ++ " (" ++ t.presence.text ++ ")")
  | skipped reason count => some ("skipped " ++ Text.decimal count ++ ": " ++ reason.text)
  | database .. | account .. => none

end PlanItem

def commentLine (text : String) : String := "-- " ++ text

/-- A step with what is known of it, line by line. -/
def Step.lines (s : Step) : List String :=
  s.context?.toList.map commentLine ++
    s.guard?.toList.map (fun g => commentLine ("guard: " ++ g)) ++ [s.sql]

structure Plan where
  items : List PlanItem
  /-- The statements that are not interpreted. -/
  passthrough : List String
  deriving DecidableEq

namespace Plan

def empty : Plan := ⟨[], []⟩

def steps (p : Plan) : List Step := p.items.flatMap PlanItem.steps

/-- Whether nothing would be run. -/
def isEmpty (p : Plan) : Bool := p.steps.isEmpty

def notices (p : Plan) : List Notice := p.items.filterMap fun
  | .notice n => some n
  | _ => none

/-- The number of declarations that take no part. -/
def skipped (p : Plan) : Nat := p.items.foldr (fun item n => item.skipCount + n) 0

def lines (p : Plan) : List String := p.items.flatMap fun item =>
  item.heading?.toList.map commentLine ++ item.steps.flatMap Step.lines

/-- The plan as a script with comments. -/
def text (p : Plan) : String := String.join (p.lines.map (· ++ "\n"))

end Plan

end SchemaDrift
