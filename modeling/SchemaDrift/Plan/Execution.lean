import SchemaDrift.Plan

/-!
Carrying out a plan. The steps run in order, and none depends on the success of another: a step
that is not cleared is passed over, and one that the server refuses keeps the reason.
-/

namespace SchemaDrift

/-- How a plan is carried out. -/
structure RunMode where
  /-- Runs every step without asking its guard. -/
  force : Bool
  /-- Asks the guards and runs nothing. -/
  dryRun : Bool
  deriving DecidableEq, Repr

/-- What became of a step. -/
inductive Outcome where
  /-- The step was not cleared. -/
  | withheld
  /-- The step would have run. -/
  | listed (sql : String)
  | executed
  /-- The server refused the step. -/
  | failed
  deriving DecidableEq, Repr

/-- Runs a step that nothing holds back. -/
def Step.run (mode : RunMode) (s : Step) : Session (Step × Outcome) := do
  if mode.dryRun then return (s, .listed s.sql)
  match ← Session.ask s.sql with
  | .ok _ => return (s, .executed)
  | .error fault => return ({ s with warning? := some fault.message }, .failed)

/-- Runs a step if it is cleared, or if all are forced. -/
def Step.attempt (mode : RunMode) (s : Step) : Session (Step × Outcome) := do
  if mode.force then s.run mode
  else
    let s ← s.resolve
    if s.isCleared then s.run mode else return (s, .withheld)

/-- The number of steps for every outcome; a listed step counts as executed. -/
structure Tally where
  executed : Nat
  withheld : Nat
  failed : Nat
  /-- The statements that would have run. -/
  listed : List String
  deriving DecidableEq, Repr

namespace Tally

def isExecuted : Outcome → Bool
  | .listed _ | .executed => true
  | _ => false

def ofOutcomes (os : List Outcome) : Tally where
  executed := os.countP isExecuted
  withheld := os.count .withheld
  failed := os.count .failed
  listed := os.filterMap fun
    | .listed sql => some sql
    | _ => none

end Tally

/-- Runs the steps of an item; the item keeps what became of them. -/
def PlanItem.run (mode : RunMode) (item : PlanItem) : Session (PlanItem × List Outcome) := do
  let results ← item.steps.mapM (Step.attempt mode)
  return (item.withSteps (results.map (·.1)), results.map (·.2))

/-- Runs all steps of a plan in order. -/
def Plan.run (mode : RunMode) (p : Plan) : Session (Plan × Tally) := do
  let results ← p.items.mapM (PlanItem.run mode)
  return ({ p with items := results.map (·.1) }, .ofOutcomes (results.flatMap (·.2)))

end SchemaDrift
