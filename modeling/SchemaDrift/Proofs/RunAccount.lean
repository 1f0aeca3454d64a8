import Mathlib
import SchemaDrift.Proofs.PlanRun

/-!
The account of a run. Every step has its turn, in order: it sends the guard that it waits for, and
then itself, if nothing holds it back. What is on record after the run are the queries of the turns
one after the other, and the tally counts what became of each of them.
-/

namespace SchemaDrift

/-- The turn of a step in a run: the step, and what was on record before it. -/
structure Turn where
  step : Step
  past : List String

namespace Turn

variable (mode : RunMode) (server : Server) (t : Turn)

def guards : List String :=
  if mode.force = false ∧ t.step.clearance = .open then t.step.guard?.toList else []

/-- Whether the step is still not cleared after its clearance was decided. -/
def isWithheld : Bool := !mode.force && !(t.step.resolve server t.past).1.isCleared

/-- The step's own statement, unless the step is withheld or only tried. -/
def statements : List String :=
  if mode.dryRun || t.isWithheld mode server then [] else [t.step.sql]

/-- All that the turn sends, in order. -/
def queries : List String := t.guards mode ++ t.statements mode server

/-- Whether the server refuses the statement that the turn sends. -/
def fails : Bool :=
  (t.statements mode server).any fun sql => !(server (t.past ++ t.guards mode) sql).isOk

def outcome : Outcome :=
  if t.isWithheld mode server then .withheld
  else if mode.dryRun then .listed t.step.sql
  else if t.fails mode server then .failed
  else .executed

end Turn

/-- The turns of some steps, the first of which finds `past` on record. -/
def turns (mode : RunMode) (server : Server) (past : List String) : List Step → List Turn
  | [] => []
  | s :: ss =>
    let t : Turn := ⟨s, past⟩
    t :: turns mode server (past ++ t.queries mode server) ss

section

variable {mode : RunMode} {server : Server} {past : List String}

/-! ### One turn -/

lemma Session.mapM_cons_apply {α β : Type} (f : α → Session β) (a : α) (l : List α) :
    (a :: l).mapM f server past = ((f a server past).1 :: (l.mapM f server (f a server past).2).1,
      (l.mapM f server (f a server past).2).2) := by
  rw [List.mapM_cons]
  rfl

namespace Step

lemma sql_resolve (s : Step) : (s.resolve server past).1.sql = s.sql := by
  unfold resolve
  rcases s.clearance with _ | _ | _ <;> rcases s.guard? with _ | guard
  case open.some => exact s.sql_judged _
  all_goals rfl

lemma record_resolve (s : Step) : (s.resolve server past).2 =
    past ++ if s.clearance = .open then s.guard?.toList else [] := by
  unfold resolve
  rcases hclearance : s.clearance with _ | _ | _ <;> rcases hguard : s.guard? with _ | guard <;>
    simp

lemma outcome_run (s : Step) : (s.run mode server past).1.2 =
    if mode.dryRun then .listed s.sql else
      if (server past s.sql).isOk then .executed else .failed := by
  rcases hdry : mode.dryRun with _ | _
  · rcases hanswer : server past s.sql with reason | rows <;>
      simp [run, hdry, hanswer, Except.mapError, Except.isOk, Except.toBool]
  · simp [run, hdry]

theorem attempt_turn (s : Step) :
    (s.attempt mode server past).1.2 = (⟨s, past⟩ : Turn).outcome mode server ∧
      (s.attempt mode server past).2 = past ++ (⟨s, past⟩ : Turn).queries mode server := by
  rcases hforce : mode.force with _ | _
  · have hattempt : s.attempt mode server past =
        if (s.resolve server past).1.isCleared then
          (s.resolve server past).1.run mode server (s.resolve server past).2
        else (((s.resolve server past).1, .withheld), (s.resolve server past).2) := by
      rw [attempt, hforce, if_neg Bool.false_ne_true, Session.bind_apply]
      split <;> rfl
    rcases hcleared : (s.resolve server past).1.isCleared with _ | _
    · rw [hattempt, hcleared, if_neg Bool.false_ne_true]
      simp [Turn.outcome, Turn.queries, Turn.statements, Turn.guards, Turn.isWithheld, hforce,
        hcleared, record_resolve]
    · rw [hattempt, hcleared, if_pos rfl, outcome_run, record_run, sql_resolve, record_resolve]
      rcases hdry : mode.dryRun with _ | _
      · rcases hanswer : (server (past ++ if s.clearance = .open then s.guard?.toList else [])
          s.sql).isOk <;>
          simp [Turn.outcome, Turn.queries, Turn.statements, Turn.guards, Turn.isWithheld,
            Turn.fails, hforce, hcleared, hdry, hanswer]
      · simp [Turn.outcome, Turn.queries, Turn.statements, Turn.guards, Turn.isWithheld, hforce,
          hcleared, hdry]
  · have hattempt : s.attempt mode server past = s.run mode server past := by
      rw [attempt, hforce, if_pos rfl]
    rw [hattempt, outcome_run, record_run]
    rcases hdry : mode.dryRun with _ | _
    · rcases hanswer : (server past s.sql).isOk <;>
        simp [Turn.outcome, Turn.queries, Turn.statements, Turn.guards, Turn.isWithheld,
          Turn.fails, hforce, hdry, hanswer]
    · simp [Turn.outcome, Turn.queries, Turn.statements, Turn.guards, Turn.isWithheld, hforce,
        hdry]

end Step

/-! ### All turns -/

lemma turns_append (mode : RunMode) (server : Server) (past : List String) (ss ss' : List Step) :
    turns mode server past (ss ++ ss') = turns mode server past ss ++
      turns mode server (past ++ (turns mode server past ss).flatMap (·.queries mode server))
        ss' := by
  induction ss generalizing past with
  | nil => simp [turns]
  | cons s ss ih => simp [turns, ih]

lemma map_step_turns (mode : RunMode) (server : Server) (past : List String) (ss : List Step) :
    (turns mode server past ss).map (·.step) = ss := by
  induction ss generalizing past with
  | nil => rfl
  | cons s ss ih => rw [turns, List.map_cons, ih]

lemma past_of_turns {ss : List Step} {before after : List Turn} {t : Turn}
    (h : turns mode server past ss = before ++ t :: after) :
    t.past = past ++ before.flatMap (·.queries mode server) := by
  induction ss generalizing past before with
  | nil => simp [turns] at h
  | cons s ss ih =>
    rw [turns] at h
    rcases before with _ | ⟨b, before⟩
    · obtain ⟨rfl, -⟩ := List.cons.inj h
      simp
    · obtain ⟨rfl, hrest⟩ := List.cons.inj h
      rw [ih hrest, List.flatMap_cons, List.append_assoc]

lemma mapM_attempt (past : List String) (ss : List Step) :
    (ss.mapM (Step.attempt mode) server past).1.map (·.2) =
        (turns mode server past ss).map (·.outcome mode server) ∧
      (ss.mapM (Step.attempt mode) server past).2 =
        past ++ (turns mode server past ss).flatMap (·.queries mode server) := by
  induction ss generalizing past with
  | nil => simp [turns]
  | cons s ss ih =>
    obtain ⟨houtcome, hrecord⟩ := @Step.attempt_turn mode server past s
    obtain ⟨houtcomes, hrecords⟩ := ih (s.attempt mode server past).2
    rw [Session.mapM_cons_apply, turns, List.map_cons, List.map_cons, List.flatMap_cons,
      houtcomes, hrecords, houtcome, hrecord]
    exact ⟨rfl, List.append_assoc _ _ _⟩

lemma mapM_run (past : List String) (items : List PlanItem) :
    (items.mapM (PlanItem.run mode) server past).1.flatMap (·.2) =
        (turns mode server past (items.flatMap PlanItem.steps)).map (·.outcome mode server) ∧
      (items.mapM (PlanItem.run mode) server past).2 = past ++
        (turns mode server past (items.flatMap PlanItem.steps)).flatMap (·.queries mode server) := by
  induction items generalizing past with
  | nil => simp [turns]
  | cons item items ih =>
    obtain ⟨houtcome, hrecord⟩ := @mapM_attempt mode server past item.steps
    have hrun : item.run mode server past =
        ((item.withSteps ((item.steps.mapM (Step.attempt mode) server past).1.map (·.1)),
          (item.steps.mapM (Step.attempt mode) server past).1.map (·.2)),
          (item.steps.mapM (Step.attempt mode) server past).2) := rfl
    obtain ⟨houtcomes, hrecords⟩ := ih (item.run mode server past).2
    rw [Session.mapM_cons_apply, List.flatMap_cons, List.flatMap_cons, turns_append,
      List.map_append, List.flatMap_append, houtcomes, hrecords, hrun, houtcome, hrecord]
    exact ⟨rfl, List.append_assoc _ _ _⟩

end

/-! ### The tally -/

namespace Turn

variable {mode : RunMode} {server : Server} {t : Turn}

lemma outcome_eq_withheld_iff :
    t.outcome mode server = .withheld ↔ t.isWithheld mode server = true := by
  unfold outcome
  split_ifs with hwithheld <;> simp [hwithheld]

lemma outcome_eq_failed_iff : t.outcome mode server = .failed ↔ t.fails mode server = true := by
  unfold outcome
  split_ifs with hwithheld hdry hfails
  · simp [fails, statements, hwithheld]
  · simp [fails, statements, hdry]
  · simp [hfails]
  · simp [hfails]

lemma queries_of_cleared (h : t.step.clearance = .cleared) :
    t.queries mode server = if mode.dryRun then [] else [t.step.sql] := by
  have hwithheld : t.isWithheld mode server = false := by
    simp [isWithheld, Step.resolve, h, Step.isCleared]
  simp [queries, guards, statements, h, hwithheld]

end Turn

namespace Tally

lemma total_ofOutcomes (os : List Outcome) :
    (ofOutcomes os).executed + (ofOutcomes os).withheld + (ofOutcomes os).failed = os.length := by
  simp only [ofOutcomes]
  induction os with
  | nil => rfl
  | cons o os ih =>
    cases o <;> simp [List.countP_cons, isExecuted] <;> omega

variable {mode : RunMode} {server : Server}

lemma withheld_ofOutcomes (ts : List Turn) :
    (ofOutcomes (ts.map (·.outcome mode server))).withheld =
      ts.countP (·.isWithheld mode server) := by
  change (ts.map (·.outcome mode server)).count .withheld = _
  rw [List.count_eq_countP, List.countP_map]
  exact List.countP_congr fun t _ => by simp [Turn.outcome_eq_withheld_iff]

lemma failed_ofOutcomes (ts : List Turn) :
    (ofOutcomes (ts.map (·.outcome mode server))).failed = ts.countP (·.fails mode server) := by
  change (ts.map (·.outcome mode server)).count .failed = _
  rw [List.count_eq_countP, List.countP_map]
  exact List.countP_congr fun t _ => by simp [Turn.outcome_eq_failed_iff]

lemma listed_ofOutcomes (ts : List Turn) :
    (ofOutcomes (ts.map (·.outcome mode server))).listed = if mode.dryRun then
      (ts.filter fun t => !t.isWithheld mode server).map (·.step.sql) else [] := by
  simp only [ofOutcomes]
  induction ts with
  | nil => simp
  | cons t ts ih =>
    rw [List.map_cons, List.filterMap_cons, ih, Turn.outcome]
    rcases hwithheld : t.isWithheld mode server <;> rcases hdry : mode.dryRun <;>
      rcases hfails : t.fails mode server <;> simp [hwithheld]

end Tally

namespace Plan

/-- **The account of a run.** Whatever the server answers,

every step has one turn, in order, and a turn finds on record what was there before the run and what
the turns before it sent;

the run sends what the turns send, one after the other: the guard of an undecided step unless steps
are forced, then the step itself unless it is withheld or only tried;

every step is counted once, as executed, withheld or failed; withheld are those that are not cleared
after their clearance was decided, and failed are those that were sent and that the server refused;

a run that is only tried lists the statements of all steps that are not withheld, in order;

a step that is cleared from the start is sent whatever became of the steps before it. -/
theorem run_account (p : Plan) (mode : RunMode) (server : Server) (past : List String) :
    let ts := turns mode server past p.steps
    let tally := (p.run mode server past).1.2
    ts.map (·.step) = p.steps ∧
      (∀ before t after, ts = before ++ t :: after →
        t.past = past ++ before.flatMap (·.queries mode server)) ∧
      (p.run mode server past).2 = past ++ ts.flatMap (·.queries mode server) ∧
      tally.executed + tally.withheld + tally.failed = p.steps.length ∧
      tally.withheld = ts.countP (·.isWithheld mode server) ∧
      tally.failed = ts.countP (·.fails mode server) ∧
      tally.listed = (if mode.dryRun then
        (ts.filter fun t => !t.isWithheld mode server).map (·.step.sql) else []) ∧
      ∀ t ∈ ts, t.step.clearance = .cleared →
        t.queries mode server = if mode.dryRun then [] else [t.step.sql] := by
  intro ts tally
  obtain ⟨houtcomes, hrecord⟩ := @mapM_run mode server past p.items
  have htally : tally = .ofOutcomes (ts.map (·.outcome mode server)) :=
    congrArg Tally.ofOutcomes houtcomes
  have hsteps : ts.map (·.step) = p.steps := map_step_turns mode server past p.steps
  refine ⟨hsteps, fun before t after h => past_of_turns h, hrecord, ?_, ?_, ?_, ?_,
    fun t _ h => Turn.queries_of_cleared h⟩
  · rw [htally, Tally.total_ofOutcomes, List.length_map, ← hsteps, List.length_map]
  · rw [htally, Tally.withheld_ofOutcomes]
  · rw [htally, Tally.failed_ofOutcomes]
  · rw [htally, Tally.listed_ofOutcomes]

end Plan

end SchemaDrift
