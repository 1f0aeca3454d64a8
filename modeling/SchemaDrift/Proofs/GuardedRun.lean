import Mathlib
import SchemaDrift.Proofs.ColumnAlterations
import SchemaDrift.Proofs.FirstWord
import SchemaDrift.Proofs.PlanRun
import SchemaDrift.Proofs.StepOrigins

/-!
No stored value is lost without a guard. A step that drops a table or a column, or that modifies a
column whose values it may lose, has a guard from the start; unless steps are forced it is sent only
right after that guard, and only if the guard counts no row. A guard is never the text of a step, so
a run that is only tried sends no step at all.
-/

namespace SchemaDrift

/-! ### Guards of alterations -/

namespace PlannedAlteration

variable (a : PlannedAlteration) (table : TableName)

@[simp] lemma action_step : (a.step table).action = a.alteration.action := by
  unfold step
  rcases a.guard? with _ | g <;> rfl

@[simp] lemma sql_step : (a.step table).sql = a.alteration.sql table := by
  unfold step
  rcases a.guard? with _ | g <;> rfl

@[simp] lemma guard?_step : (a.step table).guard? = a.guard?.map Guard.sql := by
  unfold step
  rcases a.guard? with _ | g <;> rfl

@[simp] lemma clearance_step :
    (a.step table).clearance = if a.guard?.isSome then .open else .cleared := by
  unfold step
  rcases a.guard? with _ | g <;> rfl

end PlannedAlteration

lemma Guard.ofModifyColumn_isSome_iff {table : TableName} {catalog : Catalog}
    {before after : Column} : (ofModifyColumn table catalog before after).isSome ↔
      keepsValues catalog before after = false ∨
        before.nullable = true ∧ after.nullable = false := by
  unfold ofModifyColumn
  rcases keepsValues catalog before after with _ | _
  · simp
  · rcases before.nullable <;> rcases after.nullable <;> simp

namespace TablePair

variable {p : TablePair} {a : PlannedAlteration}

lemma mem_alterations_cases (h : a ∈ p.alterations) :
    a.alteration.action ∈ [.dropKey, .addColumn, .addKey, .alterOptions] ∨
      (∃ c ∈ p.declared.columns, p.modificationOf? c = some a) ∨
      ∃ c ∈ p.droppedColumns,
        a = ⟨.dropColumn c.name, some (Guard.ofDropColumn p.name c), none⟩ := by
  rw [alterations, columnAdditions_eq, columnModifications_eq, columnDrops_eq] at h
  simp only [List.mem_append] at h
  rcases h with ((((h | h) | h) | h) | h) | h
  · obtain ⟨d, -, hd⟩ := List.mem_filterMap.1 h
    split at hd <;> cases hd <;>
      exact .inl (by simp [PlannedAlteration.harmless, Alteration.action])
  · obtain ⟨c, -, hc⟩ := List.mem_filterMap.1 h
    rw [additionOf?_eq] at hc
    split at hc <;> cases hc
    exact .inl (by simp [PlannedAlteration.harmless, Alteration.action])
  · exact .inr (.inl (List.mem_filterMap.1 h))
  · obtain ⟨c, hc, rfl⟩ := List.mem_map.1 h
    exact .inr (.inr ⟨c, hc, rfl⟩)
  · obtain ⟨d, -, hd⟩ := List.mem_filterMap.1 h
    split at hd <;> cases hd <;>
      exact .inl (by simp [PlannedAlteration.harmless, Alteration.action])
  · obtain ⟨settings, rfl⟩ := p.exists_of_mem_optionSettings h
    exact .inl (by simp [PlannedAlteration.harmless, Alteration.action])

lemma action_of_modificationOf? {c : Column} (h : p.modificationOf? c = some a) :
    a.alteration.action = .modifyColumn := by
  unfold modificationOf? at h
  split at h
  all_goals
    split at h
    all_goals cases h
    rfl

lemma guard?_isSome_of_dropColumn (h : a ∈ p.alterations)
    (haction : a.alteration.action = .dropColumn) : a.guard?.isSome := by
  rcases mem_alterations_cases h with hmem | ⟨c, -, hc⟩ | ⟨c, -, rfl⟩
  · rw [haction] at hmem
    simp at hmem
  · rw [action_of_modificationOf? hc] at haction
    cases haction
  · rfl

/-- Modifying a live column into a declared one can lose what it holds: its type does not keep every
value, or nulls are no longer allowed. -/
def MayLose (p : TablePair) (live declared : Column) : Prop :=
  (p.canonicalLive live).type.losslessTo p.catalog (p.canonicalDeclared declared).type = false ∨
    live.nullable = true ∧ declared.nullable = false

lemma guard?_isSome_of_mayLose (h : a ∈ p.alterations) {c l : Column} {place? : Option Place}
    (ha : a.alteration = .modifyColumn c place?) (hl : p.live.column? c.name = some l)
    (hlose : p.MayLose l c) : a.guard?.isSome := by
  rcases mem_alterations_cases h with hmem | ⟨c', -, hc⟩ | ⟨c', -, rfl⟩
  · rw [ha] at hmem
    simp [Alteration.action] at hmem
  · have hdefinition := p.definition?_of_modificationOf? hc
    rw [ha] at hdefinition
    obtain rfl : c = c' := Option.some.inj hdefinition
    rw [modificationOf?, hl] at hc
    simp only at hc
    split at hc
    · cases hc
    · obtain rfl := Option.some.inj hc
      refine Guard.ofModifyColumn_isSome_iff.2 (hlose.imp (fun htype => ?_) fun hnull => hnull)
      simp [Guard.keepsValues, htype]
  · cases ha

end TablePair

/-! ### Guards of steps -/

namespace TableDrift

/-- The steps of a table: its creation, its drop, or its alterations. -/
lemma mem_steps_cases {d : TableDrift} {s : Step} (h : s ∈ d.steps) :
    (∃ t : Table, s = .harmless .createTable d.name.name (t.sql ++ ";")) ∨
      s = .guarded .dropTable d.name.name ("DROP TABLE " ++ d.name.sql ++ ";")
        (Guard.ofDropTable d.name).sql ∨
      ∃ p : TablePair, d.pair? = some p ∧ ∃ a ∈ p.alterations, s = a.step p.name := by
  unfold steps at h
  unfold pair?
  rcases hlive : d.sides.live with _ | live <;>
    rcases hdeclared : d.sides.declared with _ | declared
  all_goals rw [hlive, hdeclared] at h
  · cases h
  · exact .inl ⟨_, List.mem_singleton.1 h⟩
  · exact .inr (.inl (List.mem_singleton.1 h))
  · obtain ⟨a, ha, rfl⟩ := List.mem_map.1 h
    exact .inr (.inr ⟨_, rfl, a, ha, rfl⟩)

end TableDrift

namespace Step

/-- A step that can lose what is stored: it drops a table or a column, or modifies a live column
whose values it may lose. -/
def Endangers (s : Step) : Prop :=
  s.action = .dropTable ∨ s.action = .dropColumn ∨
    ∃ (p : TablePair) (a : PlannedAlteration) (c l : Column) (place? : Option Place),
      a ∈ p.alterations ∧ s = a.step p.name ∧ a.alteration = .modifyColumn c place? ∧
        p.live.column? c.name = some l ∧ p.MayLose l c

/-- A step that waits for a guard. -/
def IsGuarded (s : Step) : Prop := s.clearance = .open ∧ ∃ g : Guard, s.guard? = some g.sql

/-- A step that nothing holds back. -/
def IsFree (s : Step) : Prop := s.clearance = .cleared ∧ s.guard? = none

end Step

lemma PlannedAlteration.isGuarded_step {a : PlannedAlteration} (h : a.guard?.isSome)
    (table : TableName) : (a.step table).IsGuarded := by
  obtain ⟨g, hg⟩ := Option.isSome_iff_exists.1 h
  exact ⟨by simp [hg], g, by simp [hg]⟩

namespace Plan

variable {t : Target} {sources : List Source} {server : Server} {s : Step}

lemma Origin.isGuarded_or_isFree (h : Origin t sources server s) : s.IsGuarded ∨ s.IsFree := by
  cases h with
  | database => exact .inr ⟨rfl, rfl⟩
  | account change => cases change <;> exact .inr ⟨rfl, rfl⟩
  | access g => exact .inr ⟨rfl, rfl⟩
  | table d hd hs =>
    rcases TableDrift.mem_steps_cases hs with ⟨table, rfl⟩ | rfl | ⟨p, -, a, ha, rfl⟩
    · exact .inr ⟨rfl, rfl⟩
    · exact .inl ⟨rfl, _, rfl⟩
    · rcases hg : a.guard? with _ | g
      · exact .inr ⟨by simp [hg], by simp [hg]⟩
      · exact .inl (PlannedAlteration.isGuarded_step (by simp [hg]) _)

lemma Origin.compared (h : Origin t sources server s)
    (hs : s.action = .dropTable ∨ s.action = .dropColumn ∨ s.action = .modifyColumn) :
    ∃ d, Compared t sources server d ∧ s ∈ d.steps := by
  cases h with
  | database => simp [Step.harmless] at hs
  | account change => cases change <;> simp [AccountChange.step, Step.harmless] at hs
  | access g => rcases hverb : g.verb <;> simp [Grant.step, Step.harmless, hverb] at hs
  | table d hd hs => exact ⟨d, hd, hs⟩

theorem Origin.isGuarded_of_endangers (h : Origin t sources server s) (hs : s.Endangers) :
    s.IsGuarded := by
  rcases hs with hdrop | hdrop | ⟨p, a, c, l, place?, ha, rfl, hmodify, hl, hlose⟩
  · obtain ⟨d, -, hs⟩ := h.compared (.inl hdrop)
    rcases TableDrift.mem_steps_cases hs with ⟨table, rfl⟩ | rfl | ⟨p, -, a, -, rfl⟩
    · cases hdrop
    · exact ⟨rfl, _, rfl⟩
    · rw [PlannedAlteration.action_step] at hdrop
      cases ha : a.alteration <;> rw [ha] at hdrop <;> cases hdrop
  · obtain ⟨d, -, hs⟩ := h.compared (.inr (.inl hdrop))
    rcases TableDrift.mem_steps_cases hs with ⟨table, rfl⟩ | rfl | ⟨p, -, a, ha, rfl⟩
    · cases hdrop
    · cases hdrop
    · rw [PlannedAlteration.action_step] at hdrop
      exact PlannedAlteration.isGuarded_step (TablePair.guard?_isSome_of_dropColumn ha hdrop) _
  · exact PlannedAlteration.isGuarded_step
      (TablePair.guard?_isSome_of_mayLose ha hmodify hl hlose) _

/-! ### Texts of steps and guards -/

end Plan

lemma head?_append {a b : String} {c : Char} (h : a.toList.head? = some c) :
    (a ++ b).toList.head? = some c := by
  rw [String.toList_append, List.head?_append, h, Option.some_or]

lemma Guard.head?_sql (g : Guard) : g.sql.toList.head? = some 'S' := by
  unfold sql
  exact head?_append (head?_append rfl)

lemma AccountClause.exists_head?_sql (c : AccountClause) :
    ∃ letter ∈ ['A', 'C'], c.sql.toList.head? = some letter := by
  unfold sql
  rcases c.verb <;> rcases c.conditional
  · exact ⟨'C', by simp, head?_append (head?_append rfl)⟩
  · exact ⟨'C', by simp, head?_append (head?_append rfl)⟩
  · exact ⟨'A', by simp, head?_append (head?_append rfl)⟩
  · exact ⟨'A', by simp, head?_append (head?_append rfl)⟩

lemma Grant.exists_head?_sql (g : Grant) :
    ∃ letter ∈ ['G', 'R'], g.sql.toList.head? = some letter := by
  unfold sql
  rcases g.verb
  · refine ⟨'G', by simp, ?_⟩
    iterate 6 refine head?_append ?_
    rfl
  · refine ⟨'R', by simp, ?_⟩
    iterate 5 refine head?_append ?_
    rfl

lemma Table.head?_sql (table : Table) : table.sql.toList.head? = some 'C' := by
  unfold sql
  iterate 8 refine head?_append ?_
  rfl

lemma Alteration.head?_sql (a : Alteration) (table : TableName) :
    (a.sql table).toList.head? = some 'A' := by
  unfold sql
  iterate 4 refine head?_append ?_
  rfl

namespace Plan

variable {t : Target} {sources : List Source} {server : Server} {s : Step}

lemma Origin.head?_sql_ne (h : Origin t sources server s) : s.sql.toList.head? ≠ some 'S' := by
  have hne (letter : Char) (hletter : letter ≠ 'S') (hhead : s.sql.toList.head? = some letter) :
      s.sql.toList.head? ≠ some 'S' := by simpa [hhead] using hletter
  cases h with
  | database => exact hne 'C' (by decide) (head?_append (head?_append rfl))
  | account change hread =>
    cases change with
    | create c text? =>
      cases text? with
      | none =>
        obtain ⟨letter, hletter, hhead⟩ := c.exists_head?_sql
        refine hne letter (fun he => ?_) (head?_append hhead)
        simp [he] at hletter
      | some text =>
        obtain ⟨cs, hcs⟩ := hread c text rfl
        exact AccountChange.head?_closedText hcs
    | require a transport =>
      refine hne 'A' (by decide) ?_
      iterate 4 refine head?_append ?_
      rfl
    | drop a => exact hne 'D' (by decide) (head?_append (head?_append rfl))
  | access g =>
    obtain ⟨letter, hletter, hhead⟩ := g.exists_head?_sql
    refine hne letter (fun he => ?_) (head?_append hhead)
    simp [he] at hletter
  | table d hd hs =>
    rcases TableDrift.mem_steps_cases hs with ⟨table, rfl⟩ | rfl | ⟨p, -, a, -, rfl⟩
    · exact hne 'C' (by decide) (head?_append table.head?_sql)
    · exact hne 'D' (by decide) (head?_append (head?_append rfl))
    · refine hne 'A' (by decide) ?_
      rw [PlannedAlteration.sql_step]
      exact a.alteration.head?_sql p.name

/-! ### The run -/

/-- **No loss without a guard.** Whatever the server answers to the making of a plan, and whatever a
server answers to one run of it that is not forced:

the modifications in the plan are those of the tables that were compared;

a step that can lose what is stored has a guard, and its turn sends the guard alone, or the guard
and right after it the step, where the first value of the first row of the guard's answer is the
number zero;

a run that is only tried sends nothing but guards, and no text of a step. -/
theorem run_guards_losses {earlier record : List String} {plan : Plan}
    (hmake : (make t sources).run server earlier = (.ok plan, record)) {mode : RunMode}
    (hforce : mode.force = false) (server' : Server) (earlier' : List String) :
    (∀ s ∈ plan.steps, s.action = .modifyColumn → ∃ d p, Compared t sources server d ∧
        d.pair? = some p ∧ ∃ a ∈ p.alterations, s = a.step p.name) ∧
      (∀ before s after, plan.steps = before ++ s :: after →
        let past := recordAfter mode server' earlier' before
        (plan.run mode server' earlier').2 =
            recordAfter mode server' (s.attempt mode server' past).2 after ∧
          (s.Endangers → ∃ guard, s.guard? = some guard ∧
            ((s.attempt mode server' past).2 = past ++ [guard] ∨
              (s.attempt mode server' past).2 = past ++ [guard, s.sql] ∧ ∃ cell row rows,
                server' past guard = .ok ((some cell :: row) :: rows) ∧
                  Text.readCount Text.max64 cell = some 0))) ∧
      (mode.dryRun = true → ∃ sent, (plan.run mode server' earlier').2 = earlier' ++ sent ∧
        ∀ query ∈ sent, (∃ s ∈ plan.steps, s.guard? = some query) ∧
          ∀ s ∈ plan.steps, query ≠ s.sql) := by
  have horigin : ∀ s ∈ plan.steps, Origin t sources server s := yields_make _ _ _ hmake
  refine ⟨fun s hs hmodify => ?_, fun before s after hsteps => ⟨?_, fun hlose => ?_⟩,
    fun hdry => ?_⟩
  · obtain ⟨d, hd, hmem⟩ := (horigin s hs).compared (.inr (.inr hmodify))
    rcases TableDrift.mem_steps_cases hmem with ⟨table, rfl⟩ | rfl | ⟨p, hp, a, ha, rfl⟩
    · cases hmodify
    · cases hmodify
    · exact ⟨d, p, hd, hp, a, ha, rfl⟩
  · rw [record_run, hsteps, recordAfter_append]
    rfl
  · have hs : s ∈ plan.steps := by simp [hsteps]
    obtain ⟨hopen, g, hguard⟩ := (horigin s hs).isGuarded_of_endangers hlose
    refine ⟨g.sql, hguard, ?_⟩
    rw [Step.record_attempt hforce]
    rcases Step.sent_of_open hopen hguard with hsent | ⟨hsent, hcount⟩
    · exact .inl (by rw [hsent])
    · exact .inr ⟨by rw [hsent], Step.exists_of_countsNone hcount⟩
  · obtain ⟨sent, hsent, hmem⟩ := exists_sent server' earlier' hforce plan.steps
    refine ⟨sent, by rw [record_run, hsent], fun query hq => ?_⟩
    obtain ⟨s, hs, past, hquery⟩ := hmem query hq
    have hguard : s.guard? = some query := Step.guard?_of_mem_sent hdry hquery
    -- A guard is a query that starts with an S, as no text of a step does.
    refine ⟨⟨s, hs, hguard⟩, fun s' hs' he => (horigin s' hs').head?_sql_ne ?_⟩
    rcases (horigin s hs).isGuarded_or_isFree with ⟨-, g, hg⟩ | ⟨-, hnone⟩
    · rw [← he, Option.some.inj (hguard.symm.trans hg)]
      exact g.head?_sql
    · rw [hguard] at hnone
      cases hnone

/-- A server with a table of two columns, the second of which is null throughout. -/
def nullServer : Server := .ofAnswers fun query =>
  if query = "SHOW DATABASES LIKE 'shop'" then .ok [[some "shop"]]
  else if query = "SHOW TABLES FROM shop" then .ok [[some "t"]]
  else if query = "SHOW CREATE TABLE shop.t" then
    .ok [[some "t", some "CREATE TABLE t (a INT, b INT)"]]
  else if query = "SELECT count(*) FROM t WHERE b IS NOT NULL" then .ok [[some "0"]]
  else .ok []

/-- The second column is not declared: its drop is sent after its guard or not at all. -/
theorem run_guards_losses_dropColumn : ∃ plan record s,
    (make ⟨⟨"shop", .double⟩, true⟩ [⟨"schema.sql", ["CREATE TABLE t (a INT)"]⟩]).run
        nullServer [] = (.ok plan, record) ∧
      plan.steps = [s] ∧ s.action = .dropColumn ∧ ∃ guard, s.guard? = some guard ∧
        ((plan.run ⟨false, false⟩ nullServer record).2 = record ++ [guard] ∨
          (plan.run ⟨false, false⟩ nullServer record).2 = record ++ [guard, s.sql]) := by
  have hmade : (((make ⟨⟨"shop", .double⟩, true⟩
      [⟨"schema.sql", ["CREATE TABLE t (a INT)"]⟩]).run nullServer []).1.toOption.map
        fun plan => plan.steps.map (·.action)) = some [.dropColumn] := by decide +kernel
  rcases hmake : (make ⟨⟨"shop", .double⟩, true⟩
    [⟨"schema.sql", ["CREATE TABLE t (a INT)"]⟩]).run nullServer [] with ⟨e | plan, record⟩
  · rw [hmake] at hmade
    cases hmade
  · rw [hmake] at hmade
    obtain ⟨s, hsteps, haction⟩ := List.map_eq_singleton_iff.1 (Option.some.inj hmade)
    have hforce : (⟨false, false⟩ : RunMode).force = false := rfl
    obtain ⟨-, hturns, -⟩ := run_guards_losses hmake hforce nullServer record
    obtain ⟨hrun, hlose⟩ := hturns [] s [] hsteps
    obtain ⟨guard, hguard, hsent⟩ := hlose (.inr (.inl haction))
    refine ⟨plan, record, s, rfl, hsteps, haction, guard, hguard, ?_⟩
    exact hsent.imp hrun.trans fun h => hrun.trans h.1

end Plan

end SchemaDrift
