import Mathlib
import SchemaDrift.Proofs.PlanRun

/-!
How the clearance of a step is decided. One call finds it decided already and does nothing, or it
decides: without a guard by refusing, with one by asking that single query. So over any number of
calls, each against a server of its own, the clearance changes once at most, and the guard is asked
once at most.
-/

namespace SchemaDrift

namespace Step

variable {server : Server} {record : List String} {s : Step}

lemma countsNone_iff {guard : String} : countsNone server record guard = true ↔
    ∃ cell row rows, server record guard = .ok ((some cell :: row) :: rows) ∧
      Text.readCount Text.max64 cell = some 0 := by
  refine ⟨exists_of_countsNone, ?_⟩
  rintro ⟨cell, row, rows, hanswer, hzero⟩
  simp [countsNone, hanswer, count?, Row.firstText?, hzero]

/-- What one call makes of a step and of the record, case by case. -/
inductive Resolves (server : Server) (record : List String) (s : Step) :
    Step × List String → Prop where
  | decided (hclearance : s.clearance ≠ .open) : Resolves server record s (s, record)
  | unguarded (hclearance : s.clearance = .open) (hguard : s.guard? = none) :
      Resolves server record s (s.refuse "no guard query available", record)
  | cleared {guard : String} (hclearance : s.clearance = .open) (hguard : s.guard? = some guard)
      (hcount : countsNone server record guard = true) :
      Resolves server record s (s.clear, record ++ [guard])
  | refused {guard : String} (hclearance : s.clearance = .open) (hguard : s.guard? = some guard)
      (hcount : countsNone server record guard = false) (warning : String) :
      Resolves server record s (s.refuse warning, record ++ [guard])

lemma judged_of_countsNone {guard : String} (h : countsNone server record guard = true) :
    s.judged ((server record guard).mapError (.refused guard)) = s.clear := by
  obtain ⟨cell, row, rows, hanswer, hzero⟩ := countsNone_iff.1 h
  simp [hanswer, Except.mapError, judged, count?, Row.firstText?, hzero]

lemma exists_judged_eq_refuse {guard : String} (h : countsNone server record guard = false) :
    ∃ warning, s.judged ((server record guard).mapError (.refused guard)) = s.refuse warning := by
  unfold countsNone at h
  rcases hanswer : server record guard with reason | rows
  · exact ⟨_, rfl⟩
  · rw [hanswer, decide_eq_false_iff_not] at h
    simp only [Except.mapError, judged]
    rcases hcount : count? rows with _ | _ | n
    · exact ⟨_, rfl⟩
    · exact absurd hcount h
    · exact ⟨_, rfl⟩

lemma resolves_resolve (s : Step) (server : Server) (record : List String) :
    Resolves server record s (s.resolve server record) := by
  by_cases hclearance : s.clearance = .open
  · rcases hguard : s.guard? with _ | guard
    · have hresolve : s.resolve server record = (s.refuse "no guard query available", record) := by
        unfold resolve
        rw [hclearance, hguard]
        rfl
      rw [hresolve]
      exact .unguarded hclearance hguard
    · rw [resolve_open hclearance hguard]
      rcases hcount : countsNone server record guard with _ | _
      · obtain ⟨warning, hjudged⟩ := exists_judged_eq_refuse (s := s) hcount
        rw [hjudged]
        exact .refused hclearance hguard hcount warning
      · rw [judged_of_countsNone hcount]
        exact .cleared hclearance hguard hcount
  · have hresolve : s.resolve server record = (s, record) := by
      unfold resolve
      rcases hc : s.clearance with _ | _ | _
      · exact absurd hc hclearance
      · rfl
      · rfl
    rw [hresolve]
    exact .decided hclearance

lemma resolve_of_decided (h : s.clearance ≠ .open) : s.resolve server record = (s, record) := by
  have hcases := s.resolves_resolve server record
  generalize s.resolve server record = now at hcases ⊢
  cases hcases with
  | decided => rfl
  | unguarded hopen | cleared hopen | refused hopen => exact absurd hopen h

lemma clearance_resolve_ne (s : Step) (server : Server) (record : List String) :
    (s.resolve server record).1.clearance ≠ .open := by
  have hcases := s.resolves_resolve server record
  generalize s.resolve server record = now at hcases ⊢
  cases hcases with
  | decided h => exact h
  | unguarded | cleared | refused => simp [clear, refuse]

/-! ### Any number of calls -/

/-- The step and the record after some calls in order, each against a server of its own. -/
def resolveAll (s : Step) (servers : List Server) (record : List String) : Step × List String :=
  servers.foldl (fun now server => now.1.resolve server now.2) (s, record)

lemma resolveAll_of_decided (h : s.clearance ≠ .open) (servers : List Server) :
    s.resolveAll servers record = (s, record) := by
  induction servers with
  | nil => rfl
  | cons server servers ih =>
    rw [resolveAll, List.foldl_cons, resolve_of_decided h]
    exact ih

/-- Of any number of calls the first one counts. -/
lemma resolveAll_cons (s : Step) (server : Server) (servers : List Server)
    (record : List String) :
    s.resolveAll (server :: servers) record = s.resolve server record :=
  resolveAll_of_decided (s.clearance_resolve_ne server record) servers

/-- **Clearance is decided once.** Whatever the servers answer, a call among any number of them

does nothing if the clearance is decided, and decides it otherwise, which only the first call does;

clears the step exactly if it has a guard whose answer has the number zero as the first value of its
first row;

gives a warning exactly if it refuses the step.

All calls together send nothing but the guard, and that once at most, and they leave what the step
does and is about as it is. -/
theorem resolveAll_decides_once (s : Step) (record : List String) (before : List Server)
    (server : Server) :
    let was := s.resolveAll before record
    let now := was.1.resolve server was.2
    (was.1.clearance ≠ .open → now = was) ∧
      (was.1.clearance = .open → was = (s, record) ∧
        (now.1.clearance = .cleared ∨ now.1.clearance = .refused)) ∧
      (was.1.clearance = .open ∧ now.1.clearance = .cleared ↔
        was.1.clearance = .open ∧ ∃ guard, s.guard? = some guard ∧ ∃ cell row rows,
          server was.2 guard = .ok ((some cell :: row) :: rows) ∧
            Text.readCount Text.max64 cell = some 0) ∧
      (if was.1.clearance = .open ∧ now.1.clearance = .refused then now.1.warning?.isSome
        else now.1.warning? = was.1.warning?) ∧
      (now.2 = record ∨
        s.clearance = .open ∧ ∃ guard, s.guard? = some guard ∧ now.2 = record ++ [guard]) ∧
      now.1 = { s with clearance := now.1.clearance, warning? := now.1.warning? } := by
  intro was now
  -- Without a call before, this one decides; otherwise the first one has.
  cases before with
  | nil =>
    have hwas : was = (s, record) := rfl
    have hcases : Resolves server record s now := s.resolves_resolve server record
    clear_value now
    rw [hwas]
    simp only [← countsNone_iff]
    cases hcases with
    | decided hclearance => simp [hclearance]
    | unguarded hclearance hguard => simp [hclearance, hguard, refuse]
    | cleared hclearance hguard hcount => simp [hclearance, hguard, hcount, clear]
    | refused hclearance hguard hcount => simp [hclearance, hguard, hcount, refuse]
  | cons first rest =>
    have hwas : was = s.resolve first record := s.resolveAll_cons first rest record
    have hdecided : was.1.clearance ≠ .open := hwas ▸ s.clearance_resolve_ne first record
    have hnow : now = was := resolve_of_decided hdecided
    rw [hnow]
    refine ⟨fun _ => rfl, fun h => absurd h hdecided, by simp [hdecided], by simp [hdecided], ?_⟩
    have hcases := s.resolves_resolve first record
    rw [← hwas] at hcases
    clear_value was
    cases hcases with
    | decided => simp
    | unguarded => simp [refuse]
    | cleared hclearance hguard => simp [hclearance, hguard, clear]
    | refused hclearance hguard => simp [hclearance, hguard, refuse]

end Step

end SchemaDrift
