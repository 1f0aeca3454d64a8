import SchemaDrift.Server

/-!
Steps: statements to be run, each with its clearance. A step that can do no damage is cleared from
the start; a guarded one is cleared when its guard counts no row. Clearance is decided at most once.
-/

namespace SchemaDrift

/-- What a step does. -/
inductive Action where
  | createDatabase
  | createTable
  | dropTable
  | addColumn
  | modifyColumn
  | dropColumn
  | dropKey
  | addKey
  | alterOptions
  | createAccount
  | alterAccount
  | dropAccount
  | grant
  | revoke
  deriving DecidableEq, Repr

inductive Clearance where
  /-- Not yet decided. -/
  | open
  | cleared
  /-- The step would damage rows, or nothing shows that it would not. -/
  | refused
  deriving DecidableEq, Repr

structure Step where
  action : Action
  /-- The table, column or account that the step is about. -/
  target : String
  sql : String
  /-- The change in words. -/
  context? : Option String
  /-- The query that counts the rows in danger. -/
  guard? : Option String
  clearance : Clearance
  /-- Why the step was refused, or failed. -/
  warning? : Option String
  deriving DecidableEq, Repr

namespace Step

/-- A step that can do no damage. -/
def harmless (action : Action) (target sql : String) : Step :=
  ⟨action, target, sql, none, none, .cleared, none⟩

/-- A step that runs only if its guard counts no row. -/
def guarded (action : Action) (target sql guard : String) : Step :=
  ⟨action, target, sql, none, some guard, .open, none⟩

def isCleared (s : Step) : Bool := s.clearance = .cleared

def clear (s : Step) : Step := { s with clearance := .cleared }

def refuse (s : Step) (warning : String) : Step :=
  { s with clearance := .refused, warning? := some warning }

/-- The row count in an answer: the first value of the first row. -/
def count? (rows : List Row) : Option Nat :=
  (rows.head?.bind Row.firstText?).bind (Text.readCount Text.max64)

/-- The step after its guard was answered. -/
def judged (s : Step) : Except Fault (List Row) → Step
  | .error fault => s.refuse ("guard query failed: " ++ fault.message)
  | .ok rows =>
    match count? rows with
    | some 0 => s.clear
    | some n => s.refuse (Fault.endangeredRows s.sql n).message
    | none => s.refuse "guard query returned no row count"

/-- Decides the clearance if it is open. -/
def resolve (s : Step) : Session Step :=
  match s.clearance, s.guard? with
  | .open, some guard => return s.judged (← Session.ask guard)
  | .open, none => return s.refuse "no guard query available"
  | _, _ => return s

end Step

end SchemaDrift
