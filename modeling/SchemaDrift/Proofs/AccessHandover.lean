import Mathlib
import SchemaDrift.Proofs.PlanKnowledge
import SchemaDrift.Proofs.StepOrigins

/-!
What becomes of the drifts of privileges. In a plan for a database that the server has, a drift of
privileges is handed on to the item of its table, whether the table is declared, live, both or
neither. The one exception is a table whose live definition cannot be read: its drifts are lost, and
only the table itself is counted.
-/

namespace SchemaDrift

namespace Plan

def Knowledge.IsUnreadable (k : Knowledge) (name : String) : Prop :=
  ∃ fault, (name, .error fault) ∈ k.tables

/-! ### What is learnt -/

/-- What holds of all that is learnt: every drift of privileges has steps, its table is among the
tables, and each table is there once. -/
structure Knowledge.Sound (k : Knowledge) : Prop where
  steps_ne_nil : ∀ d ∈ k.access, d.steps ≠ []
  exists_table : ∀ d ∈ k.access, ∃ answer, (Text.lower d.object, answer) ∈ k.tables
  nodup : (k.tables.map (·.1)).Nodup

lemma yields_mapM_pair {α β : Type} {server : Server} (f : α → Attempt β) (l : List α) :
    Attempt.Yields server (l.mapM fun a => (fun b => (a, b)) <$> f a) fun ps =>
      ps.map (·.1) = l := by
  induction l with
  | nil => exact .pure rfl
  | cons a l ih =>
    rw [List.mapM_cons, map_eq_pure_bind, bind_assoc]
    refine .bind Attempt.yields_true fun b _ => ?_
    rw [pure_bind]
    exact .bind ih fun ps hps => .pure (by rw [List.map_cons, hps])

lemma steps_ne_nil_of_mem_drifts {l : AccessLedger} {d : AccessDrift} (h : d ∈ l.drifts) :
    d.steps ≠ [] := by
  obtain ⟨⟨holding, g⟩, -, hdrift⟩ := List.mem_filterMap.1 h
  replace hdrift : l.drift? holding g = some d := hdrift
  unfold AccessLedger.drift? at hdrift
  simp only at hdrift
  split at hdrift
  · cases hdrift
  · next hsteps =>
    obtain rfl := Option.some.inj hdrift
    simpa using hsteps

lemma yields_learnTables (t : Target) (s : Schema) (access : List AccessDrift) {server : Server} :
    Attempt.Yields server (learnTables t s access) fun tables => (tables.map (·.1)).Nodup ∧
      ∀ d ∈ access, ∃ answer, (Text.lower d.object, answer) ∈ tables := by
  refine .bind Attempt.yields_true fun listing _ => fun earlier tables later h => ?_
  have htables := yields_mapM_pair _ _ earlier tables later h
  refine ⟨?_, fun d hd => ?_⟩
  · rw [htables]
    exact (tableNames s listing access).increasing.imp ne_of_compare_lt
  · have hname : Text.lower d.object ∈ (tableNames s listing access).toList :=
      OrderedSet.mem_ofList.2 (List.mem_append_right _ (List.mem_map_of_mem hd))
    rw [← htables] at hname
    obtain ⟨⟨name, answer⟩, hmem, hname⟩ := List.mem_map.1 hname
    exact ⟨answer, hname ▸ hmem⟩

lemma yields_learn (t : Target) (s : Schema) {server : Server} :
    Attempt.Yields server (learn t s true) Knowledge.Sound := by
  have haccess (live : OrderedSet Account) :
      Attempt.Yields server (surveyAccess t.database s live) fun r => ∀ d ∈ r.1, d.steps ≠ [] := by
    unfold surveyAccess
    exact .bind Attempt.yields_true fun reported _ => .pure fun d => steps_ne_nil_of_mem_drifts
  refine .bind Attempt.yields_true fun catalog _ => .bind Attempt.yields_true fun accounts _ =>
    .bind (haccess accounts.live) fun access hsteps =>
      .bind (yields_learnTables t s access.1) fun tables htables => ?_
  exact .pure ⟨hsteps, htables.2, htables.1⟩

end Plan

/-! ### Items that hold a drift -/

/-- The item is that of a table, and the drift is one of its privileges. -/
def PlanItem.Holds (item : PlanItem) (d : AccessDrift) : Prop :=
  ∃ table steps, item = .table table steps ∧ d ∈ table.access

namespace Plan

/-- One item of the plan holds the drift, no other does, and the steps of the drift are among the
item's, one after the other. -/
def HandsOn (p : Plan) (d : AccessDrift) : Prop :=
  ∃ before item after, p.items = before ++ item :: after ∧ item.Holds d ∧ d.steps <:+: item.steps ∧
    ∀ other ∈ before ++ after, ¬ other.Holds d

lemma exists_arranged (accounts : List AccountDrift) (tables : List PlanItem) (findings : Findings) :
    ∃ before after, arranged [] accounts tables findings = before ++ tables ++ after ∧
      ∀ item ∈ before ++ after, ∀ d, ¬ item.Holds d := by
  have hnotices : ∀ item ∈ findings.notices.map PlanItem.notice, ∀ d, ¬ item.Holds d := by
    rintro _ hitem d ⟨table, steps, rfl, -⟩
    simp at hitem
  have haccounts (p : AccountDrift → Bool) :
      ∀ item ∈ (accounts.filter p).map PlanItem.ofAccount, ∀ d, ¬ item.Holds d := by
    rintro _ hitem d ⟨table, steps, rfl, -⟩
    simp [PlanItem.ofAccount] at hitem
  have hskips : ∀ item ∈ SkipReason.all.filterMap (PlanItem.ofSkips? findings.skips), ∀ d,
      ¬ item.Holds d := by
    rintro _ hitem d ⟨table, steps, rfl, -⟩
    obtain ⟨reason, -, hskip⟩ := List.mem_filterMap.1 hitem
    simp [PlanItem.ofSkips?] at hskip
  refine ⟨_, _, List.append_assoc _ _ _, fun item hitem => ?_⟩
  simp only [List.append_nil, List.mem_append] at hitem
  rcases hitem with ((h | h) | h) | h | h
  exacts [hnotices item h, haccounts _ item h, haccounts _ item h, haccounts _ item h,
    hskips item h]

namespace Knowledge

variable {k : Knowledge} {t : Target} {s : Schema} {d : AccessDrift}

lemma exists_of_item? {p : String × Reported Table} {item : PlanItem}
    (h : k.item? t s p = some item) : ∃ live?, p.2 = .ok live? ∧
      item = tableItem t k.catalog (k.accessOn p.1) p.1 (s.tables.get? p.1) live? := by
  unfold item? at h
  split at h
  · cases h
  · next live? hlive =>
    simp only at h
    split at h
    · cases h
    · exact ⟨live?, hlive, (Option.some.inj h).symm⟩

lemma holds_of_item? {p : String × Reported Table} {item : PlanItem}
    (h : k.item? t s p = some item) : item.Holds d ↔ d ∈ k.access ∧ Text.lower d.object = p.1 := by
  obtain ⟨live?, -, rfl⟩ := exists_of_item? h
  have hmem : d ∈ k.accessOn p.1 ↔ d ∈ k.access ∧ Text.lower d.object = p.1 := by
    simp [accessOn]
  rw [← hmem]
  constructor
  · rintro ⟨table, steps, hitem, hd⟩
    obtain ⟨rfl, -⟩ := PlanItem.table.inj hitem
    exact hd
  · exact fun hd => ⟨_, _, rfl, hd⟩

lemma Sound.ne_of_mem (hk : k.Sound) {ps qs : List (String × Reported Table)} {name : String}
    {answer : Reported Table} (htables : k.tables = ps ++ (name, answer) :: qs) :
    ∀ p ∈ ps ++ qs, p.1 ≠ name := by
  intro p hp hname
  have hnodup := hk.nodup
  rw [htables, List.map_append, List.map_cons, List.nodup_middle, List.nodup_cons,
    ← List.map_append] at hnodup
  exact hnodup.1 (List.mem_map.2 ⟨p, hp, hname⟩)

lemma handsOn_of_mem (hk : k.Sound) (hd : d ∈ k.access) {live? : Option Table}
    (hanswer : (Text.lower d.object, .ok live?) ∈ k.tables) : (k.plan t s true).HandsOn d := by
  obtain ⟨ps, qs, htables⟩ := List.append_of_mem hanswer
  have hname := hk.ne_of_mem htables
  have hon : d ∈ k.accessOn (Text.lower d.object) :=
    List.mem_filter.2 ⟨hd, decide_eq_true rfl⟩
  obtain ⟨item, hitem, hsteps⟩ : ∃ item,
      k.item? t s (Text.lower d.object, .ok live?) = some item ∧ d.steps <:+: item.steps := by
    obtain ⟨ds, ds', hsplit⟩ := List.append_of_mem hon
    have hinfix : d.steps <:+: (tableItem t k.catalog (k.accessOn (Text.lower d.object))
        (Text.lower d.object) (s.tables.get? (Text.lower d.object)) live?).steps := by
      refine List.IsInfix.trans ?_ (List.suffix_append _ _).isInfix
      rw [hsplit, List.flatMap_append, List.flatMap_cons, ← List.append_assoc]
      exact List.infix_append _ _ _
    refine ⟨_, ?_, hinfix⟩
    -- a drift has steps, so that the item has some
    have hsome : (tableItem t k.catalog (k.accessOn (Text.lower d.object)) (Text.lower d.object)
        (s.tables.get? (Text.lower d.object)) live?).steps.isEmpty = false := by
      rw [List.isEmpty_eq_false_iff]
      intro hnil
      exact hk.steps_ne_nil d hd (List.infix_nil.1 (hnil ▸ hinfix))
    simp only [item?, hsome, Bool.false_eq_true, if_false]
  obtain ⟨before, after, harranged, hothers⟩ := exists_arranged k.accounts.ledger.drifts
    (k.tables.filterMap (k.item? t s)) (k.findings s)
  have hitems : (k.plan t s true).items = (before ++ ps.filterMap (k.item? t s)) ++ item ::
      (qs.filterMap (k.item? t s) ++ after) := by
    refine harranged.trans ?_
    simp [htables, List.filterMap_append, hitem]
  refine ⟨_, item, _, hitems, (holds_of_item? hitem).2 ⟨hd, rfl⟩, hsteps, fun other hother => ?_⟩
  have hcases : other ∈ before ++ after ∨ other ∈ (ps ++ qs).filterMap (k.item? t s) := by
    simp only [List.mem_append, List.filterMap_append] at hother ⊢
    tauto
  rcases hcases with hother | hother
  · exact hothers other hother d
  · obtain ⟨p, hp, hitem⟩ := List.mem_filterMap.1 hother
    rw [holds_of_item? hitem]
    exact fun h => hname p hp h.2.symm

lemma not_handsOn_of_isUnreadable (hk : k.Sound)
    (hunreadable : k.IsUnreadable (Text.lower d.object)) : ¬ (k.plan t s true).HandsOn d := by
  rintro ⟨ahead, item, behind, hitems, hholds, -, -⟩
  obtain ⟨fault, hfault⟩ := hunreadable
  obtain ⟨ps, qs, htables⟩ := List.append_of_mem hfault
  obtain ⟨before, after, harranged, hothers⟩ := exists_arranged k.accounts.ledger.drifts
    (k.tables.filterMap (k.item? t s)) (k.findings s)
  have hmem : item ∈ before ++ k.tables.filterMap (k.item? t s) ++ after := by
    have hplan : item ∈ (k.plan t s true).items := by simp [hitems]
    rwa [← harranged]
  have hcases : item ∈ before ++ after ∨ item ∈ k.tables.filterMap (k.item? t s) := by
    simp only [List.mem_append] at hmem ⊢
    tauto
  rcases hcases with hmem | hmem
  · exact hothers item hmem d hholds
  · obtain ⟨p, hp, hitem⟩ := List.mem_filterMap.1 hmem
    obtain ⟨live?, hlive, -⟩ := exists_of_item? hitem
    have hname : p.1 = Text.lower d.object := ((holds_of_item? hitem).1 hholds).2.symm
    rw [htables] at hp
    rcases List.mem_append.1 hp with hp | hp
    · exact hk.ne_of_mem htables p (List.mem_append_left _ hp) hname
    · rcases List.mem_cons.1 hp with rfl | hp
      · cases hlive
      · exact hk.ne_of_mem htables p (List.mem_append_right _ hp) hname

end Knowledge

/-- **No drift of privileges is lost, but for tables that cannot be read.** In a plan for a database
that the server has,

what is skipped is all that is left out, drifts of privileges apart;

a drift of privileges is handed on to one item with all its steps, or its steps are counted on top,
exactly when its table is not one whose live definition cannot be read. -/
theorem handsOn_iff {t : Target} {sources : List Source} {server : Server}
    {past asked record : List String} {plan : Plan}
    (hpresent : t.database.isPresent.run server past = (.ok true, asked))
    (hmake : (make t sources).run server past = (.ok plan, record)) :
    let s := Schema.ofSources t.database sources
    ∃ k, (learn t s true).run server asked = (.ok k, record) ∧ plan = k.plan t s true ∧
      plan.skipped = k.discards s ∧ ∀ d ∈ k.access,
        plan.HandsOn d ∨ k.discards s + d.steps.length ≤ plan.skipped ↔
          ¬ k.IsUnreadable (Text.lower d.object) := by
  intro s
  rw [run_make hpresent] at hmake
  obtain ⟨k, hlearn, rfl⟩ := Attempt.exists_of_run_map hmake
  have hk : k.Sound := yields_learn t s _ _ _ hlearn
  refine ⟨k, hlearn, rfl, k.skipped_plan t s true, fun d hd => ?_⟩
  constructor
  · rintro (hon | hcounted) hunreadable
    · exact Knowledge.not_handsOn_of_isUnreadable hk hunreadable hon
    · have hsteps := List.length_pos_iff.2 (hk.steps_ne_nil d hd)
      have hle : k.discards s + d.steps.length ≤ k.discards s := k.skipped_plan t s true ▸ hcounted
      omega
  · intro hreadable
    obtain ⟨answer, hanswer⟩ := hk.exists_table d hd
    rcases answer with fault | live?
    · exact absurd ⟨fault, hanswer⟩ hreadable
    · exact .inl (Knowledge.handsOn_of_mem hk hd hanswer)

/-- A server with one account and one table, whose definition nobody can read. -/
def garbledServer : Server := .ofAnswers fun query =>
  if query = "SHOW DATABASES LIKE 'shop'" then .ok [[some "shop"]]
  else if query = "SELECT User, Host FROM mysql.user WHERE User IN ('app')" then
    .ok [[some "app", some "%"]]
  else if query = "SHOW TABLES FROM shop" then .ok [[some "t"]]
  else if query = "SHOW CREATE TABLE shop.t" then .ok [[some "t", some "CREATE TABLE t (a WAT)"]]
  else .ok []

def shop : Target := ⟨⟨"shop", .double⟩, true⟩

/-- One grant on a table. -/
def grantOn (table : String) : List Source :=
  [⟨"grants.sql", ["GRANT SELECT ON shop." ++ table ++ " TO 'app'@'%'"]⟩]

lemma isPresent_garbledServer : shop.database.isPresent.run garbledServer [] =
    (.ok true, ["SHOW DATABASES LIKE 'shop'"]) := rfl

theorem handsOn_iff_absent : ∃ asked record plan d,
    shop.database.isPresent.run garbledServer [] = (.ok true, asked) ∧
      (make shop (grantOn "u")).run garbledServer [] = (.ok plan, record) ∧ plan.HandsOn d := by
  have hmade : ((make shop (grantOn "u")).run garbledServer []).1.isOk = true := by decide +kernel
  have hlearnt : ((learn shop (Schema.ofSources shop.database (grantOn "u")) true).run garbledServer
      ["SHOW DATABASES LIKE 'shop'"]).1.toOption.map (fun k =>
        (k.access.map fun d => (d.object, d.steps.length), k.tables.map fun p => (p.1, p.2.isOk))) =
      some ([("u", 1)], [("t", false), ("u", true)]) := by
    decide +kernel
  rcases hmake : (make shop (grantOn "u")).run garbledServer [] with ⟨e | plan, record⟩
  · rw [hmake] at hmade
    cases hmade
  · obtain ⟨k, hlearn, -, hskipped, hon⟩ := handsOn_iff isPresent_garbledServer hmake
    rw [hlearn] at hlearnt
    obtain ⟨haccess, htables⟩ := Prod.mk.inj (Option.some.inj hlearnt)
    obtain ⟨d, haccess, hd⟩ := List.map_eq_singleton_iff.1 haccess
    obtain ⟨hobject, hlength⟩ := Prod.mk.inj hd
    have hreadable : ¬ k.IsUnreadable (Text.lower d.object) := by
      rintro ⟨fault, hfault⟩
      have hmem := List.mem_map_of_mem (f := fun p : String × Reported Table => (p.1, p.2.isOk))
        hfault
      rw [htables, hobject] at hmem
      change (Text.lower "u", false) ∈ [("t", false), ("u", true)] at hmem
      exact absurd hmem (by decide +kernel)
    refine ⟨_, record, plan, d, isPresent_garbledServer, rfl, ?_⟩
    refine ((hon d (by simp [haccess])).2 hreadable).resolve_right fun hcounted => ?_
    omega

/-- The grant on the table that cannot be read is lost: no item holds it, and what is skipped is the
table alone. -/
theorem exists_lost_unreadable : ∃ asked record plan k d,
    shop.database.isPresent.run garbledServer [] = (.ok true, asked) ∧
      (make shop (grantOn "t")).run garbledServer [] = (.ok plan, record) ∧
      (learn shop (Schema.ofSources shop.database (grantOn "t")) true).run garbledServer asked =
        (.ok k, record) ∧
      d ∈ k.access ∧ ¬ plan.HandsOn d ∧ plan.skipped = 1 := by
  have hlearnt : ((learn shop (Schema.ofSources shop.database (grantOn "t")) true).run garbledServer
      ["SHOW DATABASES LIKE 'shop'"]).1.toOption.map (fun k =>
        (k.access.map (·.object), k.tables.map (fun p => (p.1, p.2.isOk)),
          k.discards (Schema.ofSources shop.database (grantOn "t")))) =
      some (["t"], [("t", false)], 1) := by
    decide +kernel
  rcases hlearn : (learn shop (Schema.ofSources shop.database (grantOn "t")) true).run garbledServer
    ["SHOW DATABASES LIKE 'shop'"] with ⟨e | k, record⟩
  · rw [hlearn] at hlearnt
    cases hlearnt
  · have hk : k.Sound := yields_learn _ _ _ _ _ hlearn
    have hmake : (make shop (grantOn "t")).run garbledServer [] =
        (.ok (k.plan shop (Schema.ofSources shop.database (grantOn "t")) true), record) := by
      rw [run_make isPresent_garbledServer, Attempt.run_map, schemaFor, if_pos rfl, hlearn]
      rfl
    rw [hlearn] at hlearnt
    obtain ⟨haccess, hrest⟩ := Prod.mk.inj (Option.some.inj hlearnt)
    obtain ⟨htables, hdiscards⟩ := Prod.mk.inj hrest
    obtain ⟨d, haccess, hobject⟩ := List.map_eq_singleton_iff.1 haccess
    obtain ⟨⟨name, answer⟩, htable, hp⟩ := List.map_eq_singleton_iff.1 htables
    obtain ⟨rfl, hbad⟩ := Prod.mk.inj hp
    have hunreadable : k.IsUnreadable (Text.lower d.object) := by
      rcases answer with fault | live?
      · refine ⟨fault, ?_⟩
        rw [htable, hobject]
        exact List.mem_singleton.2 (congrArg (·, _) (by decide +kernel))
      · cases hbad
    exact ⟨_, record, _, k, d, isPresent_garbledServer, hmake, hlearn, by simp [haccess],
      Knowledge.not_handsOn_of_isUnreadable hk hunreadable, (k.skipped_plan _ _ _).trans hdiscards⟩

end Plan

end SchemaDrift
