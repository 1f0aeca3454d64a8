import Mathlib
import SchemaDrift.Proofs.AccessHandover
import SchemaDrift.Proofs.AccountSettlement
import SchemaDrift.Proofs.DeclaredTables

/-!
What a plan counts when the server does not have the database. Nothing can be compared then, so all
declarations of tables and all grants are skipped, whether they are for the database or not. The count
is taken of the tables, and not of their declarations: of declarations that say the same only the
first is counted.
-/

namespace SchemaDrift

lemma Attempt.Yields.and {α : Type} {server : Server} {m : Attempt α} {P Q : α → Prop}
    (hP : Yields server m P) (hQ : Yields server m Q) : Yields server m fun a => P a ∧ Q a :=
  fun earlier a later h => ⟨hP earlier a later h, hQ earlier a later h⟩

/-! ### Sums over the keys of a map -/

namespace OrderedMap

variable {κ β : Type} [Ord κ] [Std.LawfulEqOrd κ] [DecidableEq κ]

lemma total_eq_sum (f : β → ℕ) (m : OrderedMap κ β) :
    m.total f = ∑ key ∈ m.keys.toFinset, (m.get? key).elim 0 f := by
  rw [List.sum_toFinset _ m.nodup_keys, total, values, keys, List.map_map, List.map_map]
  refine congrArg List.sum (List.map_congr_left fun e he => ?_)
  have hget : m.get? e.1 = some e.2 := get?_eq_some_iff.2 he
  simp [hget]

end OrderedMap

/-! ### Repeated declarations -/

namespace Schema

variable {d : LiveDatabase}

/-- The declarations of tables after the first, where all declarations of the table say the same. -/
def repeats (d : LiveDatabase) (ds : List (String × Table)) : ℕ :=
  ∑ key ∈ (ds.map (·.2.key)).toFinset,
    if Agree (group d key ds) then (group d key ds).length - 1 else 0

lemma group_eq_nil {key : String} {ds : List (String × Table)}
    (h : key ∉ (ds.map (·.2.key)).toFinset) : group d key ds = [] := by
  refine List.filter_eq_nil_iff.2 fun p hp => ?_
  simp only [List.mem_toFinset, List.mem_map, not_exists, not_and] at h
  simp [h p hp]

lemma repeats_eq_zero_iff {ds : List (String × Table)} : repeats d ds = 0 ↔
    ∀ key, Agree (group d key ds) → (group d key ds).length ≤ 1 := by
  rw [repeats, Finset.sum_eq_zero_iff]
  constructor
  · intro h key hagree
    by_cases hkey : key ∈ (ds.map (·.2.key)).toFinset
    · have hzero := h key hkey
      rw [if_pos hagree] at hzero
      omega
    · simp [group_eq_nil hkey]
  · intro h key _
    split
    · next hagree => exact Nat.sub_eq_zero_of_le (h key hagree)
    · rfl

lemma get?_ofSources (sources : List Source) (key : String) : (ofSources d sources).tables.get? key =
    (Standing.ofGroup (group d key (tableDeclarations d (attributed sources)))).survivor? := by
  rw [ofSources_eq]
  exact congrArg Standing.survivor? ((run_declare d (attributed sources)).1 key)

lemma mem_keys_ofSources {sources : List Source} {key : String} :
    key ∈ (ofSources d sources).tables.keys.toFinset ↔
      group d key (tableDeclarations d (attributed sources)) ≠ [] ∧
        Agree (group d key (tableDeclarations d (attributed sources))) := by
  rw [List.mem_toFinset, OrderedMap.mem_keys_iff, get?_ofSources,
    Standing.isSome_survivor?_ofGroup]

lemma repeats_eq_sum (sources : List Source) :
    repeats d (tableDeclarations d (attributed sources)) =
      ∑ key ∈ (ofSources d sources).tables.keys.toFinset,
        ((group d key (tableDeclarations d (attributed sources))).length - 1) := by
  symm
  refine Finset.sum_subset_zero_on_sdiff (fun key hkey => ?_) (fun key hkey => ?_) fun key hkey => ?_
  · by_contra hnot
    exact (mem_keys_ofSources.1 hkey).1 (group_eq_nil hnot)
  · obtain ⟨-, hgone⟩ := Finset.mem_sdiff.1 hkey
    split
    · next hagree =>
      have hnil : group d key (tableDeclarations d (attributed sources)) = [] := by
        by_contra hne
        exact hgone (mem_keys_ofSources.2 ⟨hne, hagree⟩)
      rw [hnil]
      rfl
    · rfl
  · rw [if_pos (mem_keys_ofSources.1 hkey).2]

lemma total_sources (d : LiveDatabase) (sources : List Source) :
    (ofSources d sources).tables.total (·.sources.length) = (ofSources d sources).tables.size +
      repeats d (tableDeclarations d (attributed sources)) := by
  have hsize : (ofSources d sources).tables.size =
      ∑ key ∈ (ofSources d sources).tables.keys.toFinset, 1 := by
    rw [Finset.sum_const, List.toFinset_card_of_nodup (OrderedMap.nodup_keys _)]
    simp [OrderedMap.size, OrderedMap.keys]
  rw [OrderedMap.total_eq_sum, hsize, repeats_eq_sum, ← Finset.sum_add_distrib]
  refine Finset.sum_congr rfl fun key hkey => ?_
  have hgroup := mem_keys_ofSources.1 hkey
  obtain ⟨u, hu⟩ := Option.isSome_iff_exists.1 (Standing.isSome_survivor?_ofGroup.2 hgroup)
  have hpos := List.length_pos_iff.2 hgroup.1
  rw [get?_ofSources, hu, Option.elim_some, Standing.sources_of_ofGroup hu, List.length_map]
  omega

/-! ### All statements -/

/-- The grants and revocations of statements, for whatever database: one for each account. -/
def grantDeclarations (d : LiveDatabase) (ps : List (String × String)) : List Grant :=
  ps.flatMap fun p =>
    match Statement.read d.real p.2 with
    | .grants _ gs => gs
    | _ => []

def unreadables (d : LiveDatabase) (ps : List (String × String)) : ℕ :=
  ps.countP fun p => (Statement.read d.real p.2).fault?.isSome

/-- The declarations that take no part without the database: those of tables, grants, and statements
that cannot be read. -/
def skippable (d : LiveDatabase) (ps : List (String × String)) : ℕ :=
  (tableDeclarations d ps).length + (grantDeclarations d ps).length + unreadables d ps

/-- The reasons to skip a declaration of a table. -/
def tableReasons : List SkipReason := [.collidingTable, .temporaryTable, .foreignTable]

/-- What a schema accounts for beside declarations of tables: grants, and skips of something else. -/
def aside (s : Schema) : ℕ := s.grants.length + s.findings.skips.countP (· ∉ tableReasons)

variable (s : Schema)

lemma aside_skip (n : ℕ) (reason : SkipReason) :
    (s.skip n reason).aside = s.aside + if reason ∈ tableReasons then 0 else n := by
  have hgrants : (s.skip n reason).grants = s.grants := rfl
  rw [aside, aside, hgrants, skips_skip, List.countP_append, List.countP_replicate, Nat.add_assoc]
  by_cases h : reason ∈ tableReasons <;> simp [h]

lemma aside_report_ofFault (fault : Fault) (source? : Option String) :
    (s.report (.ofFault fault source?)).aside = s.aside := by
  rw [aside, skips_report_ofFault]
  rfl

lemma aside_declareTable (source : String) (t : Table) :
    (s.declareTable d.name source t).aside = s.aside := by
  have hskip (s : Schema) (n : ℕ) {reason : SkipReason} (h : reason ∈ tableReasons) :
      (s.skip n reason).aside = s.aside := by
    rw [aside_skip, if_pos h, Nat.add_zero]
  unfold declareTable declareOwnTable
  simp only
  split
  · exact hskip _ _ (by decide)
  · split
    · exact hskip _ _ (by decide)
    · split
      · exact hskip _ _ (by decide)
      · split
        · rfl
        · split
          · rfl
          · exact (hskip _ _ (by decide)).trans (s.aside_report_ofFault _ _)

lemma aside_foldl_declareGrant (source : String) (gs : List Grant) :
    (gs.foldl (declareGrant d.name source) s).aside = s.aside + gs.length := by
  induction gs generalizing s with
  | nil => rfl
  | cons g gs ih =>
    have hone : (s.declareGrant d.name source g).aside = s.aside + 1 := by
      rw [declareGrant_eq]
      split
      · simp only [aside, List.length_append, List.length_singleton]
        omega
      · rw [aside_skip]
        rfl
    rw [List.foldl_cons, ih, hone, List.length_cons]
    omega

lemma aside_declare (source text : String) : (s.declare d source text).aside =
    s.aside + ((grantDeclarations d [(source, text)]).length + unreadables d [(source, text)]) := by
  simp only [grantDeclarations, unreadables, List.flatMap_singleton, List.countP_singleton, declare]
  cases Statement.read d.real text with
  | table t => exact aside_declareTable s source t
  | grants verb gs => exact aside_foldl_declareGrant s source gs
  | accounts cs | insert | unknown => rfl
  | invalid kind fault =>
    rw [aside_skip, aside_report_ofFault]
    rfl

lemma run_aside (d : LiveDatabase) (ps : List (String × String)) :
    (ps.foldl (fun s p => s.declare d p.1 p.2) s).aside =
      s.aside + ((grantDeclarations d ps).length + unreadables d ps) := by
  induction ps generalizing s with
  | nil => rfl
  | cons p ps ih =>
    obtain ⟨source, text⟩ := p
    have hgrants : grantDeclarations d ((source, text) :: ps) =
        grantDeclarations d [(source, text)] ++ grantDeclarations d ps := by
      simp [grantDeclarations]
    have hunreadables : unreadables d ((source, text) :: ps) =
        unreadables d ps + unreadables d [(source, text)] := by
      simp [unreadables, List.countP_cons]
    simp only [List.foldl_cons, ih, aside_declare, hgrants, hunreadables, List.length_append]
    omega

lemma placed_add_aside : s.placed + s.aside =
    s.tables.total (·.sources.length) + s.grants.length + s.findings.skips.length := by
  have hcount (skips : List SkipReason) : skips.count .collidingTable + skips.count .temporaryTable +
      skips.count .foreignTable + skips.countP (· ∉ tableReasons) = skips.length := by
    induction skips with
    | nil => rfl
    | cons r skips ih =>
      rw [List.length_cons, ← ih]
      cases r <;> simp [tableReasons] <;> omega
  rw [placed, aside, ← hcount]
  omega

/-- What is skipped so far, the tables and the grants are together all declarations but the repeated
ones. -/
lemma accounted_ofSources (d : LiveDatabase) (sources : List Source) :
    (ofSources d sources).findings.skips.length +
        ((ofSources d sources).tables.size + (ofSources d sources).grants.length) +
        repeats d (tableDeclarations d (attributed sources)) =
      skippable d (attributed sources) := by
  have hplaced := (run_declare d (attributed sources)).2
  have haside := run_aside empty d (attributed sources)
  rw [← ofSources_eq] at hplaced haside
  have hsplit := placed_add_aside (ofSources d sources)
  rw [hplaced, haside, total_sources] at hsplit
  have hempty : empty.aside = 0 := rfl
  rw [skippable]
  omega

lemma length_skips_withoutDatabase (database : String) :
    (s.withoutDatabase database).findings.skips.length =
      s.findings.skips.length + (s.tables.size + s.grants.length) := by
  rw [withoutDatabase, skips_skip, skips_report_ofFault, List.length_append, List.length_replicate]

end Schema

/-! ### Accounts that are changed but do not exist -/

namespace AccountLedger

lemma isSome_declared_ofReports (rs : List AccountReport) (a : Account) :
    ((ofReports rs).declared.get? a).isSome = true ↔
      ∃ c text?, .declared c text? ∈ rs ∧ c.account = a := by
  induction rs using List.reverseRecOn with
  | nil => simp [ofReports, empty, OrderedMap.empty, OrderedMap.get?]
  | append_singleton rs r ih =>
    rw [ofReports_append_singleton]
    rcases r with ⟨c, text?⟩ | c
    · have hget : (((ofReports rs).declare c text?).declared.get? a).isSome = true ↔
          c.account = a ∨ ((ofReports rs).declared.get? a).isSome = true := by
        rw [declare, OrderedMap.get?_alter]
        split
        · next ha => simp [ha]
        · next ha => simp [Ne.symm ha]
      rw [add, hget, ih]
      constructor
      · rintro (ha | ⟨c', text'?, hmem, ha⟩)
        · exact ⟨c, text?, by simp, ha⟩
        · exact ⟨c', text'?, List.mem_append_left _ hmem, ha⟩
      · rintro ⟨c', text'?, hmem, ha⟩
        rcases List.mem_append.1 hmem with hmem | hmem
        · exact .inr ⟨c', text'?, hmem, ha⟩
        · obtain ⟨rfl, rfl⟩ := AccountReport.declared.inj (List.mem_singleton.1 hmem)
          exact .inl ha
    · simpa [add, observe] using ih

lemma creation?_isSome_eq_false_iff {rs : List AccountReport} {a : Account} :
    (AccountReport.creation? rs a).isSome = false ↔
      ∀ c text?, .declared c text? ∈ rs → c.account = a → c.verb = .alter := by
  rw [AccountReport.creation?, Option.isSome_eq_false_iff, Option.isNone_iff_eq_none,
    List.getLast?_eq_none_iff, List.filterMap_eq_nil_iff]
  constructor
  · intro h c text? hmem ha
    have hnone := h _ hmem
    rcases hverb : c.verb with _ | _
    · simp [AccountReport.creationOf?, ha, hverb] at hnone
    · rfl
  · rintro h (⟨c, text?⟩ | c) hmem
    · have halter := h c text? hmem
      simp only [AccountReport.creationOf?]
      split
      · next hcreate => simp [halter hcreate.2] at hcreate
      · rfl
    · rfl

lemma mem_missing_iff (l : AccountLedger) (a : Account) : a ∈ l.missing ↔
    (l.declared.get? a).isSome = true ∧ l.isCreated a = false ∧ l.live.contains a = false := by
  simp only [missing, List.mem_map, List.mem_filter, Prod.exists, ← OrderedMap.get?_eq_some_iff,
    isCreated]
  constructor
  · rintro ⟨b, declared, ⟨hdeclared, hmissing⟩, rfl⟩
    simpa [hdeclared] using hmissing
  · rintro ⟨hsome, hcreated, hlive⟩
    obtain ⟨declared, hdeclared⟩ := Option.isSome_iff_exists.1 hsome
    refine ⟨a, declared, ⟨hdeclared, ?_⟩, rfl⟩
    simpa [hdeclared, hlive] using hcreated

lemma nodup_missing (l : AccountLedger) : l.missing.Nodup :=
  l.declared.nodup_keys.sublist (List.filter_sublist.map _)

end AccountLedger

namespace Schema

/-- The clauses on accounts of all statements. -/
def accountClauses (d : LiveDatabase) (ps : List (String × String)) : List AccountClause :=
  ps.flatMap fun p => (clauses d p.2).map (·.1)

lemma exists_reports (d : LiveDatabase) (sources : List Source) : ∃ rs : List AccountReport,
    (∀ c, (∃ text?, .declared c text? ∈ rs) ↔ c ∈ accountClauses d (attributed sources)) ∧
      (ofSources d sources).accounts = .ofReports rs := by
  refine ⟨((attributed sources).flatMap fun p => clauses d p.2).map fun c => .declared c.1 c.2,
    fun c => ?_, ?_⟩
  · simp only [accountClauses, List.mem_map, List.mem_flatMap, AccountReport.declared.injEq]
    constructor
    · rintro ⟨text?, c', ⟨p, hp, hc'⟩, rfl, -⟩
      exact ⟨p, hp, c', hc', rfl⟩
    · rintro ⟨p, hp, c', hc', rfl⟩
      exact ⟨c'.2, c', ⟨p, hp, hc'⟩, rfl, rfl⟩
  · rw [part_ofSources accounts _ accounts_declare, ← map_snd_attributed, AccountLedger.ofReports]
    simp only [List.foldl_map, List.foldl_flatMap]
    rfl

lemma mem_missing_of_declared {d : LiveDatabase} {sources : List Source} {l : AccountLedger}
    (hl : l.declared = (ofSources d sources).accounts.declared) (a : Account) : a ∈ l.missing ↔
      (∃ c ∈ accountClauses d (attributed sources), c.account = a) ∧
      (∀ c ∈ accountClauses d (attributed sources), c.account = a → c.verb = .alter) ∧
      l.live.contains a = false := by
  obtain ⟨rs, hrs, hreports⟩ := exists_reports d sources
  have hcreated : l.isCreated a = (AccountLedger.ofReports rs).isCreated a := by
    rw [AccountLedger.isCreated, AccountLedger.isCreated, hl, hreports]
  rw [AccountLedger.mem_missing_iff, hcreated, hl, hreports,
    AccountLedger.isSome_declared_ofReports, AccountLedger.isCreated_ofReports,
    AccountLedger.creation?_isSome_eq_false_iff]
  refine and_congr ?_ (and_congr_left' ?_)
  · constructor
    · rintro ⟨c, text?, hmem, ha⟩
      exact ⟨c, (hrs c).1 ⟨text?, hmem⟩, ha⟩
    · rintro ⟨c, hmem, ha⟩
      obtain ⟨text?, hmem⟩ := (hrs c).2 hmem
      exact ⟨c, text?, hmem, ha⟩
  · constructor
    · intro h c hmem ha
      obtain ⟨text?, hmem⟩ := (hrs c).2 hmem
      exact h c text? hmem ha
    · exact fun h c text? hmem ha => h c ((hrs c).1 ⟨text?, hmem⟩) ha

end Schema

/-! ### The plan -/

namespace Plan

variable {server : Server}

lemma yields_surveyAccounts_skips (d : LiveDatabase) (s : Schema) :
    Attempt.Yields server (surveyAccounts d s) fun survey =>
      survey.findings.skips.length = survey.ledger.missing.length := by
  have hclause (a : Account) :
      Attempt.Yields server (liveClause d a) fun r => r.2.skips.length = 0 := by
    refine .bind Attempt.yields_true fun answer _ => ?_
    rcases answer with fault | clause?
    · exact .pure rfl
    · exact .pure rfl
  refine .bind Attempt.yields_true fun live _ =>
    .bind (Attempt.yields_mapM fun a _ => hclause a) fun answers hanswers => .pure ?_
  have hzero : ((answers.map (·.2)).map (·.skips.length)).sum = 0 :=
    List.sum_eq_zero fun n hn => by
      simp only [List.map_map, List.mem_map] at hn
      obtain ⟨answer, hanswer, rfl⟩ := hn
      exact hanswers answer hanswer
  have hone (missing : List Account) :
      ((missing.map missingAccount).map (·.skips.length)).sum = missing.length := by
    rw [List.map_map]
    change (missing.map fun _ => 1).sum = _
    simp
  refine List.length_append.trans ?_
  rw [length_skips_joined, length_skips_joined, hzero, hone, Nat.zero_add]

lemma yields_surveyAccess_nil (d : LiveDatabase) {s : Schema} (hs : s.grants = [])
    (live : OrderedSet Account) :
    Attempt.Yields server (surveyAccess d s live) fun r => r.2.skips.length = 0 := by
  have hpure : surveyAccess d s live = pure ([], orphanFindings [] ++ Findings.joined []) := by
    unfold surveyAccess
    rw [hs]
    rfl
  rw [hpure]
  exact .pure rfl

lemma yields_learn_absent (t : Target) {s : Schema} (hs : s.grants = []) :
    Attempt.Yields server (learn t s false) fun k =>
      k.tables = [] ∧ k.accessFindings.skips.length = 0 ∧
      k.accounts.ledger.declared = s.accounts.declared ∧
      k.accounts.findings.skips.length = k.accounts.ledger.missing.length := by
  refine .bind Attempt.yields_true fun catalog _ =>
    .bind ((yields_surveyAccounts t.database s).and (yields_surveyAccounts_skips t.database s))
      fun accounts haccounts =>
      .bind (yields_surveyAccess_nil t.database hs accounts.live) fun access haccess => ?_
  exact .bind (.pure rfl : Attempt.Yields server _ (· = [])) fun tables htables =>
    .pure ⟨htables, haccess, haccounts⟩

lemma ne_table_of_mem_arranged {database : String} {accounts : List AccountDrift}
    {findings : Findings} {item : PlanItem}
    (h : item ∈ arranged [PlanItem.ofDatabase database] accounts [] findings) (table : TableItem)
    (steps : List Step) : item ≠ .table table steps := by
  rintro rfl
  simp [arranged, PlanItem.ofDatabase, PlanItem.ofAccount, PlanItem.ofSkips?] at h

/-- **A missing database loses the repeated declarations of a table, and nothing else.** When a plan
is made although the server does not have the database,

missing are the accounts that are only ever changed and that the server does not have, each once;

what is skipped, together with the repeated declarations, is every declaration of a table, every grant
or revocation of an account, every unreadable statement and every missing account; so that all are
skipped exactly if no table is declared twice alike;

nothing is done to a table or a privilege: all steps create the database or change accounts. -/
theorem skipped_absent {t : Target} {sources : List Source} {server : Server}
    {past asked record : List String} {plan : Plan}
    (habsent : t.database.isPresent.run server past = (.ok false, asked))
    (hmake : (make t sources).run server past = (.ok plan, record)) :
    let ps := Schema.attributed sources
    let ds := Schema.tableDeclarations t.database ps
    ∃ k, (learn t (schemaFor t sources false) false).run server asked = (.ok k, record) ∧
      plan = k.plan t (schemaFor t sources false) false ∧
      k.accounts.ledger.missing.Nodup ∧
      (∀ a, a ∈ k.accounts.ledger.missing ↔
        (∃ c ∈ Schema.accountClauses t.database ps, c.account = a) ∧
        (∀ c ∈ Schema.accountClauses t.database ps, c.account = a → c.verb = .alter) ∧
        k.accounts.ledger.live.contains a = false) ∧
      plan.skipped + Schema.repeats t.database ds =
        Schema.skippable t.database ps + k.accounts.ledger.missing.length ∧
      (plan.skipped = Schema.skippable t.database ps + k.accounts.ledger.missing.length ↔
        ∀ key, Agree (Schema.group t.database key ds) →
          (Schema.group t.database key ds).length ≤ 1) ∧
      (∀ item ∈ plan.items, ∀ table steps, item ≠ .table table steps) ∧
      ∀ step ∈ plan.steps,
        step.action ∈ [.createDatabase, .createAccount, .alterAccount, .dropAccount] := by
  intro ps ds
  rw [run_make habsent] at hmake
  obtain ⟨k, hlearn, rfl⟩ := Attempt.exists_of_run_map hmake
  obtain ⟨htables, haccess, hdeclared, haccounts⟩ := yields_learn_absent t rfl _ _ _ hlearn
  -- No table and no privilege is learnt, so all skips come from the schema and the accounts.
  have hskipped : (k.plan t (schemaFor t sources false) false).skipped +
      Schema.repeats t.database ds =
        Schema.skippable t.database ps + k.accounts.ledger.missing.length := by
    have hschema : _ + Schema.repeats t.database ds = Schema.skippable t.database ps :=
      Schema.accounted_ofSources t.database sources
    rw [← Schema.length_skips_withoutDatabase _ t.database.name] at hschema
    rw [k.skipped_plan, Knowledge.discards, haccess, haccounts, htables]
    change (Schema.withoutDatabase _ _).findings.skips.length + _ + _ + _ + _ = _
    rw [List.countP_nil]
    omega
  refine ⟨k, hlearn, rfl, k.accounts.ledger.nodup_missing,
    Schema.mem_missing_of_declared hdeclared, hskipped, ?_, ?_, ?_⟩
  · rw [← Schema.repeats_eq_zero_iff]
    omega
  · intro item hitem
    rw [Knowledge.plan, htables] at hitem
    exact ne_table_of_mem_arranged hitem
  · intro step hstep
    rw [Plan.steps, Knowledge.plan, htables] at hstep
    rcases mem_steps_arranged hstep with ⟨item, hitem, hstep⟩ | ⟨drift, -, change, -, rfl⟩
    · obtain rfl := List.mem_singleton.1 hitem
      obtain rfl := List.mem_singleton.1 hstep
      exact List.mem_cons_self
    · rcases change with ⟨c, text?⟩ | ⟨a, transport⟩ | a <;>
        simp [AccountChange.step, Step.harmless]

/-- A server without databases and accounts. -/
def bareServer : Server := .ofAnswers fun _ => .ok []

/-- A table, a grant for two accounts, a statement that breaks off, and a change of an account. -/
def mixedSources : List Source :=
  [⟨"shop.sql", ["CREATE TABLE t (a INT)", "GRANT SELECT ON shop.t TO 'app'@'%', 'web'@'%'",
    "CREATE TABLE u (a", "ALTER USER 'old'@'%' REQUIRE SSL"]⟩]

lemma isPresent_bareServer : shop.database.isPresent.run bareServer [] =
    (.ok false, ["SHOW DATABASES LIKE 'shop'"]) := rfl

theorem skipped_absent_mixed : ∃ asked record plan,
    shop.database.isPresent.run bareServer [] = (.ok false, asked) ∧
      (make shop mixedSources).run bareServer [] = (.ok plan, record) ∧ plan.skipped = 5 := by
  have hmade : ((make shop mixedSources).run bareServer []).1.isOk = true := by decide +kernel
  have hlearnt : ((learn shop (schemaFor shop mixedSources false) false).run bareServer
      ["SHOW DATABASES LIKE 'shop'"]).1.toOption.map (·.accounts.ledger.missing.length) =
      some 1 := by decide +kernel
  have hskippable : Schema.skippable shop.database (Schema.attributed mixedSources) = 4 := by
    decide +kernel
  have hone : (Schema.tableDeclarations shop.database (Schema.attributed mixedSources)).length = 1 := by
    decide +kernel
  rcases hmake : (make shop mixedSources).run bareServer [] with ⟨e | plan, record⟩
  · rw [hmake] at hmade
    cases hmade
  · obtain ⟨k, hlearn, -, -, -, -, hall, -, -⟩ := skipped_absent isPresent_bareServer hmake
    rw [hlearn] at hlearnt
    have hmissing : k.accounts.ledger.missing.length = 1 := Option.some.inj hlearnt
    refine ⟨_, record, plan, isPresent_bareServer, rfl, ?_⟩
    rw [hall.2 fun key _ => (List.length_filter_le _ _).trans hone.le, hskippable, hmissing]

/-- Two sources that declare a table alike. -/
def repeatedSources : List Source :=
  [⟨"a.sql", ["CREATE TABLE t (a INT)"]⟩, ⟨"b.sql", ["CREATE TABLE t (a INT)"]⟩]

/-- Two declarations take no part, and one of them is counted. -/
theorem exists_uncounted_absent : ∃ asked record plan,
    shop.database.isPresent.run bareServer [] = (.ok false, asked) ∧
      (make shop repeatedSources).run bareServer [] = (.ok plan, record) ∧
      (Schema.tableDeclarations shop.database (Schema.attributed repeatedSources)).length = 2 ∧
      plan.skipped = 1 := by
  have hskipped : ((make shop repeatedSources).run bareServer []).1.toOption.map Plan.skipped =
      some 1 := by decide +kernel
  have htwo : (Schema.tableDeclarations shop.database
      (Schema.attributed repeatedSources)).length = 2 := by
    decide +kernel
  rcases hmake : (make shop repeatedSources).run bareServer [] with ⟨e | plan, record⟩
  · rw [hmake] at hskipped
    cases hskipped
  · rw [hmake] at hskipped
    exact ⟨_, record, plan, isPresent_bareServer, rfl, htwo, Option.some.inj hskipped⟩

end Plan

end SchemaDrift
