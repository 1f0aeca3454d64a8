import Mathlib
import SchemaDrift.Plan.Execution

/-!
What a run sends to the server. A run attempts its steps one after the other, and each attempt adds
its own queries to the record. Unless steps are forced, a guarded step sends its guard, and after
that itself only if the answer counts no row.
-/

namespace SchemaDrift

namespace Session

variable {α β : Type}

@[simp] lemma pure_apply (a : α) (server : Server) (earlier : List String) :
    (pure a : Session α) server earlier = (a, earlier) := rfl

@[simp] lemma bind_apply (m : Session α) (f : α → Session β) (server : Server)
    (earlier : List String) : (m >>= f) server earlier =
      f (m server earlier).1 server (m server earlier).2 := rfl

@[simp] lemma ask_apply (query : String) (server : Server) (earlier : List String) :
    ask query server earlier =
      ((server earlier query).mapError (.refused query), earlier ++ [query]) := rfl

lemma record_mapM (f : α → Session β) (l : List α) (server : Server) (earlier : List String) :
    (l.mapM f server earlier).2 = l.foldl (fun record a => (f a server record).2) earlier := by
  induction l generalizing earlier with
  | nil => rfl
  | cons a l ih =>
    rw [List.mapM_cons, List.foldl_cons, ← ih]
    rfl

end Session

namespace Step

/-- Whether the guard's answer counts no row. -/
def countsNone (server : Server) (earlier : List String) (guard : String) : Bool :=
  match server earlier guard with
  | .ok rows => count? rows = some 0
  | .error _ => false

/-- What an attempt that is not forced sends. -/
def sent (mode : RunMode) (server : Server) (earlier : List String) (s : Step) : List String :=
  match s.clearance, s.guard? with
  | .cleared, _ => if mode.dryRun then [] else [s.sql]
  | .open, some guard =>
    if countsNone server earlier guard && !mode.dryRun then [guard, s.sql] else [guard]
  | .open, none | .refused, _ => []

variable {mode : RunMode} {server : Server} {earlier : List String}

lemma exists_of_countsNone {guard : String}
    (h : countsNone server earlier guard = true) : ∃ cell row rows,
      server earlier guard = .ok ((some cell :: row) :: rows) ∧
        Text.readCount Text.max64 cell = some 0 := by
  unfold countsNone at h
  rcases hanswer : server earlier guard with reason | rows
  · rw [hanswer] at h
    cases h
  · rw [hanswer, decide_eq_true_eq] at h
    obtain ⟨cell, hcell, hzero⟩ := Option.bind_eq_some_iff.1 h
    obtain ⟨row, hrow, hfirst⟩ := Option.bind_eq_some_iff.1 hcell
    obtain ⟨rest, rfl⟩ := List.head?_eq_some_iff.1 hrow
    obtain ⟨cells, rfl⟩ := List.head?_eq_some_iff.1 (Option.join_eq_some_iff.1 hfirst)
    exact ⟨cell, cells, rest, rfl, hzero⟩

lemma record_run (s : Step) : (s.run mode server earlier).2 =
    if mode.dryRun then earlier else earlier ++ [s.sql] := by
  rcases hdry : mode.dryRun with _ | _
  · rcases h : server earlier s.sql <;> simp [run, hdry, h, Except.mapError]
  · simp [run, hdry]

lemma sql_judged (s : Step) (answer : Except Fault (List Row)) : (s.judged answer).sql = s.sql := by
  unfold judged
  split
  · rfl
  · split <;> rfl

lemma isCleared_judged (s : Step) (guard : String) :
    (s.judged ((server earlier guard).mapError (.refused guard))).isCleared =
      countsNone server earlier guard := by
  unfold countsNone
  rcases server earlier guard with reason | rows
  · rfl
  · simp only [Except.mapError, judged]
    rcases count? rows with _ | _ | n <;> rfl

lemma resolve_open {s : Step} {guard : String} (hclearance : s.clearance = .open)
    (hguard : s.guard? = some guard) : s.resolve server earlier =
      (s.judged ((server earlier guard).mapError (.refused guard)), earlier ++ [guard]) := by
  unfold resolve
  rw [hclearance, hguard]
  rfl

lemma record_attempt (hforce : mode.force = false) (s : Step) :
    (s.attempt mode server earlier).2 = earlier ++ s.sent mode server earlier := by
  have hattempt : (s.attempt mode server earlier).2 =
      if (s.resolve server earlier).1.isCleared then
        ((s.resolve server earlier).1.run mode server (s.resolve server earlier).2).2
      else (s.resolve server earlier).2 := by
    rw [attempt, hforce, if_neg Bool.false_ne_true, Session.bind_apply]
    split <;> rfl
  rw [hattempt]
  rcases hclearance : s.clearance with _ | _ | _
  · rcases hguard : s.guard? with _ | guard
    · simp [resolve, hclearance, hguard, sent, refuse, isCleared]
    · rw [resolve_open hclearance hguard, isCleared_judged, record_run, sql_judged]
      rcases hcount : countsNone server earlier guard <;> rcases hdry : mode.dryRun <;>
        simp [sent, hclearance, hguard, hcount, hdry]
  · rcases hdry : mode.dryRun <;> simp [resolve, hclearance, sent, isCleared, record_run, hdry]
  · simp [resolve, hclearance, sent, isCleared]

lemma sent_of_open {s : Step} {guard : String} (hclearance : s.clearance = .open)
    (hguard : s.guard? = some guard) :
    s.sent mode server earlier = [guard] ∨
      s.sent mode server earlier = [guard, s.sql] ∧ countsNone server earlier guard = true := by
  unfold sent
  rw [hclearance, hguard]
  rcases hcount : countsNone server earlier guard <;> rcases hdry : mode.dryRun <;> simp [hcount]

lemma guard?_of_mem_sent (hdry : mode.dryRun = true) {s : Step} {query : String}
    (h : query ∈ s.sent mode server earlier) : s.guard? = some query := by
  unfold sent at h
  split at h
  · simp [hdry] at h
  · rename_i guard _ hguard
    rw [hdry, Bool.not_true, Bool.and_false, if_neg Bool.false_ne_true] at h
    rw [hguard, List.mem_singleton.1 h]
  · cases h
  · cases h

end Step

namespace Plan

variable {mode : RunMode} {server : Server} {earlier : List String}

/-- The record after some steps are attempted in order. -/
def recordAfter (mode : RunMode) (server : Server) (earlier : List String) (ss : List Step) :
    List String :=
  ss.foldl (fun record s => (s.attempt mode server record).2) earlier

lemma record_run (p : Plan) :
    (p.run mode server earlier).2 = recordAfter mode server earlier p.steps := by
  have hitem (item : PlanItem) (record : List String) :
      (item.run mode server record).2 = recordAfter mode server record item.steps :=
    Session.record_mapM (Step.attempt mode) item.steps server record
  have hitems : (p.run mode server earlier).2 =
      p.items.foldl (fun record item => (item.run mode server record).2) earlier :=
    Session.record_mapM (PlanItem.run mode) p.items server earlier
  simp only [hitems, hitem, recordAfter, steps, List.foldl_flatMap]

lemma recordAfter_append (ss ss' : List Step) : recordAfter mode server earlier (ss ++ ss') =
    recordAfter mode server (recordAfter mode server earlier ss) ss' := by
  simp [recordAfter]

lemma exists_sent (server : Server) (earlier : List String) (hforce : mode.force = false)
    (ss : List Step) : ∃ sent,
    recordAfter mode server earlier ss = earlier ++ sent ∧
      ∀ query ∈ sent, ∃ s ∈ ss, ∃ record, query ∈ s.sent mode server record := by
  induction ss generalizing earlier with
  | nil => exact ⟨[], by simp [recordAfter], by simp⟩
  | cons s ss ih =>
    obtain ⟨sent, hsent, hmem⟩ := ih (s.attempt mode server earlier).2
    refine ⟨s.sent mode server earlier ++ sent, ?_, ?_⟩
    · rw [Step.record_attempt hforce] at hsent
      rw [← List.append_assoc, ← hsent, ← Step.record_attempt hforce]
      rfl
    · intro query hq
      rcases List.mem_append.1 hq with hq | hq
      · exact ⟨s, List.mem_cons_self, earlier, hq⟩
      · obtain ⟨s', hs', record, hq⟩ := hmem query hq
        exact ⟨s', List.mem_cons_of_mem _ hs', record, hq⟩

end Plan

end SchemaDrift
