import Mathlib
import SchemaDrift.Proofs.AccessReached
import SchemaDrift.Proofs.PlanKnowledge
import SchemaDrift.Proofs.SchemaOutline

/-!
The order of declarations does not matter. Whatever the server answers, and however the statements of
the sources are rearranged, the same queries are sent, and the plan has the same steps and skips.
Only what explains the steps can differ: the sources that an item names, and the order of notices.
-/

namespace SchemaDrift

/-! ### Privileges -/

namespace AccessLedger

open Privileges (reach_injective reach_merge)

lemma merge_right_comm (ps qs rs : Privileges) : (ps.merge qs).merge rs = (ps.merge rs).merge qs :=
  reach_injective (by simp only [reach_merge, sup_right_comm])

/-- What a declaration adds to what is gathered for its account and object. -/
def gathering (g : Grant) (e : Gathered) : Gathered :=
  match g.verb with
  | .revoke => { e with revoked := e.revoked.merge g.privileges }
  | .grant => { e with declared := e.declared.merge g.privileges }

/-- What a declared grant on the whole database adds to the baseline. -/
def rebasing (g : Grant) (b : Baseline) : Baseline :=
  { b with declared := b.declared.merge g.privileges, version := b.version + 1 }

lemma declare_eq (l : AccessLedger) (g : Grant) : l.declare g =
    ⟨l.database,
      if g.verb = .grant ∧ g.isDatabaseWide = true then
        l.baselines.alter g.account fun old? => rebasing g (old?.getD .none)
      else l.baselines,
      l.gathered.alter ⟨g.account, g.object⟩ fun old? => gathering g (old?.getD .none)⟩ := by
  unfold declare gathering
  rcases hverb : g.verb with _ | _
  · rcases hwide : g.isDatabaseWide with _ | _ <;> simp [gather, rebase, rebasing]
  · simp [gather]

lemma gathering_comm (g g' : Grant) (e : Gathered) :
    gathering g' (gathering g e) = gathering g (gathering g' e) := by
  unfold gathering
  rcases g.verb with _ | _ <;> rcases g'.verb with _ | _
  · simp only [merge_right_comm]
  · rfl
  · rfl
  · simp only [merge_right_comm]

lemma rebasing_comm (g g' : Grant) (b : Baseline) :
    rebasing g' (rebasing g b) = rebasing g (rebasing g' b) := by
  simp only [rebasing, merge_right_comm]

lemma declare_comm (l : AccessLedger) (g g' : Grant) :
    (l.declare g).declare g' = (l.declare g').declare g := by
  let gather (g : Grant) (old? : Option Gathered) : Gathered := gathering g (old?.getD .none)
  let rebase (g : Grant) (old? : Option Baseline) : Baseline := rebasing g (old?.getD .none)
  have hgathered : (l.gathered.alter ⟨g.account, g.object⟩ (gather g)).alter
      ⟨g'.account, g'.object⟩ (gather g') =
        (l.gathered.alter ⟨g'.account, g'.object⟩ (gather g')).alter
          ⟨g.account, g.object⟩ (gather g) :=
    OrderedMap.alter_comm _ fun _ old? => gathering_comm g g' _
  have hbaselines : (l.baselines.alter g.account (rebase g)).alter g'.account (rebase g') =
      (l.baselines.alter g'.account (rebase g')).alter g.account (rebase g) :=
    OrderedMap.alter_comm _ fun _ old? => rebasing_comm g g' _
  simp only [declare_eq]
  congr 1
  · split_ifs
    · exact hbaselines
    all_goals rfl

end AccessLedger

/-! ### Schemas in another order -/

namespace Schema.Alike

variable {s s' : Schema}

lemma refl (s : Schema) : Alike s s := ⟨fun _ => rfl, rfl, .refl _, rfl, rfl⟩

lemma keys (h : Alike s s') : s.tables.keys = s'.tables.keys := by
  have hmaps : s.tables.filterMap (fun _ d => some d.table.unqualified) =
      s'.tables.filterMap fun _ d => some d.table.unqualified := by
    refine OrderedMap.ext_get? fun key => ?_
    rw [OrderedMap.get?_filterMap, OrderedMap.get?_filterMap]
    have hkey := h.tables key
    rw [Option.map_eq_bind, Option.map_eq_bind] at hkey
    exact hkey
  have hkeys (m : OrderedMap String DeclaredTable) :
      (m.filterMap fun _ d => some d.table.unqualified).keys = m.keys := by
    simp [OrderedMap.keys, OrderedMap.filterMap, List.filterMap_eq_map', Function.comp_def]
  rw [← hkeys, hmaps, hkeys]

lemma length_grants (h : Alike s s') : s.grants.length = s'.grants.length := by
  simpa using h.grants.length_eq

lemma size_tables (h : Alike s s') : s.tables.size = s'.tables.size := by
  have hsize (m : OrderedMap String DeclaredTable) : m.size = m.keys.length := by
    simp [OrderedMap.size, OrderedMap.keys]
  rw [hsize, hsize, h.keys]

lemma withoutDatabase (h : Alike s s') (database : String) :
    Alike (s.withoutDatabase database) (s'.withoutDatabase database) := by
  have hskips (s : Schema) : (s.withoutDatabase database).findings.skips.length =
      s.findings.skips.length + (s.tables.size + s.grants.length) := by
    change (s.findings.skips ++ [] ++ List.replicate _ _).length = _
    rw [List.append_nil, List.length_append, List.length_replicate]
  refine ⟨fun _ => rfl, h.collided, .refl _, h.accounts, ?_⟩
  rw [hskips, hskips, h.skips, h.size_tables, h.length_grants]

lemma mentionedUsers (h : Alike s s') : Plan.mentionedUsers s = Plan.mentionedUsers s' := by
  have husers (s : Schema) : s.grants.map (·.grant.account.user) =
      (s.grants.map (·.grant)).map (·.account.user) := by
    rw [List.map_map, Function.comp_def]
  refine OrderedSet.ext_mem fun user => ?_
  simp only [Plan.mentionedUsers, OrderedSet.mem_ofList, List.mem_append, h.accounts]
  rw [husers, husers, (h.grants.map _).mem_iff]

lemma surveyAccounts (h : Alike s s') (d : LiveDatabase) :
    Plan.surveyAccounts d s = Plan.surveyAccounts d s' := by
  simp only [Plan.surveyAccounts, Plan.declaredUsers, h.mentionedUsers, h.accounts]

lemma filter_grants (h : Alike s s') (p : Grant → Bool) :
    ((s.grants.filter fun g => p g.grant).map (·.grant)).Perm
      ((s'.grants.filter fun g => p g.grant).map (·.grant)) := by
  have hmap (s : Schema) : (s.grants.filter fun g => p g.grant).map (·.grant) =
      (s.grants.map (·.grant)).filter p := by
    rw [List.filter_map, Function.comp_def]
  rw [hmap, hmap]
  exact h.grants.filter p

lemma surveyAccess (h : Alike s s') (d : LiveDatabase) (live : OrderedSet Account) :
    (fun r => (r.1, r.2.skips)) <$> Plan.surveyAccess d s live =
      (fun r => (r.1, r.2.skips)) <$> Plan.surveyAccess d s' live := by
  let p (g : Grant) : Bool := live.contains g.account || s'.accounts.isCreated g.account
  have hkept := h.filter_grants p
  have hreferenced : OrderedSet.ofList
        (((s.grants.filter fun g => p g.grant).map (·.grant.account)).filter live.contains) =
      OrderedSet.ofList
        (((s'.grants.filter fun g => p g.grant).map (·.grant.account)).filter live.contains) := by
    have haccounts := hkept.map (·.account)
    simp only [List.map_map, Function.comp_def] at haccounts
    refine OrderedSet.ext_mem fun a => ?_
    rw [OrderedSet.mem_ofList, OrderedSet.mem_ofList, (haccounts.filter _).mem_iff]
  have hledger := hkept.foldl_eq' (fun g _ g' _ l => AccessLedger.declare_comm l g g')
    (AccessLedger.empty d.name)
  have horphans : (Plan.orphanFindings (s.grants.filter fun g => !p g.grant)).skips =
      (Plan.orphanFindings (s'.grants.filter fun g => !p g.grant)).skips := by
    have hlength := (h.filter_grants fun g => !p g).length_eq
    rw [List.length_map, List.length_map] at hlength
    simp only [Plan.orphanFindings, List.map_const', hlength]
  have hsplit (s : Schema) (hs : s.accounts = s'.accounts) : (s.grants.partition fun g =>
      live.contains g.grant.account || s.accounts.isCreated g.grant.account) =
        (s.grants.filter fun g => p g.grant, s.grants.filter fun g => !p g.grant) := by
    rw [List.partition_eq_filter_filter, hs]
    rfl
  unfold Plan.surveyAccess
  rw [hsplit s h.accounts, hsplit s' rfl]
  simp only [map_eq_pure_bind, bind_assoc, pure_bind]
  rw [hreferenced]
  refine bind_congr fun reported => congrArg pure ?_
  simp only [hledger]
  exact congrArg (Prod.mk _) (congrArg (· ++ _) horphans)

lemma learnTables (h : Alike s s') (t : Target) (access : List AccessDrift) :
    Plan.learnTables t s access = Plan.learnTables t s' access := by
  simp only [Plan.learnTables, Plan.tableNames, Plan.askTable, h.keys, h.collided]

end Schema.Alike

namespace Plan

/-! ### Plans in another order -/

/-- What a plan comes to: its steps, and the number of declarations that take no part. -/
def effect (p : Plan) : List Step × Nat := (p.steps, p.skipped)

/-- What is learnt without the notices on privileges. -/
def Knowledge.quiet (k : Knowledge) : Knowledge :=
  { k with accessFindings := ⟨[], k.accessFindings.skips⟩ }

variable {s s' : Schema}

lemma quiet_learn (h : s.Alike s') (t : Target) (isPresent : Bool) :
    Knowledge.quiet <$> learn t s isPresent = Knowledge.quiet <$> learn t s' isPresent := by
  have hquiet (s : Schema) : Knowledge.quiet <$> learn t s isPresent = (do
      let catalog ← if isPresent then LiveDatabase.catalog else pure .builtin
      let accounts ← surveyAccounts t.database s
      let access ← (fun r => (r.1, r.2.skips)) <$> surveyAccess t.database s accounts.live
      let tables ← if isPresent then learnTables t s access.1 else pure []
      return ⟨catalog, accounts, access.1, ⟨[], access.2⟩, tables⟩) := by
    rcases isPresent with _ | _ <;>
      simp only [learn, Bool.false_eq_true, if_true, if_false, map_eq_pure_bind, bind_assoc,
        pure_bind] <;> rfl
  simp only [hquiet, h.surveyAccounts, h.surveyAccess, h.learnTables]

lemma steps_congr (catalog : Catalog) (live? : Option Table) {declared? declared'? : Option Table}
    (h : declared?.map Table.unqualified = declared'?.map Table.unqualified) :
    (⟨⟨live?, declared?⟩, catalog⟩ : TableDrift).steps =
      (⟨⟨live?, declared'?⟩, catalog⟩ : TableDrift).steps := by
  have hunqualified (table? : Option Table) : (⟨⟨live?, table?⟩, catalog⟩ : TableDrift).steps =
      (⟨⟨live?, table?.map Table.unqualified⟩, catalog⟩ : TableDrift).steps := by
    rcases live? with _ | live <;> rcases table? with _ | table <;> rfl
  rw [hunqualified declared?, h, ← hunqualified]

lemma steps_tableItem_congr (t : Target) (catalog : Catalog) (access : List AccessDrift)
    (name : String) (live? : Option Table) {declared? declared'? : Option DeclaredTable}
    (h : declared?.map (·.table.unqualified) = declared'?.map (·.table.unqualified)) :
    (tableItem t catalog access name declared? live?).steps =
      (tableItem t catalog access name declared'? live?).steps := by
  have hsome : declared?.isSome = declared'?.isSome := by
    simpa using congrArg Option.isSome h
  have hsteps : (⟨⟨live?, declared?.map (·.table)⟩, catalog⟩ : TableDrift).steps =
      (⟨⟨live?, declared'?.map (·.table)⟩, catalog⟩ : TableDrift).steps :=
    steps_congr catalog live? (by rwa [Option.map_map, Option.map_map])
  simp only [tableItem, PlanItem.steps, hsome, hsteps]

/-- The steps for a table, if it can be read. -/
def Knowledge.tableSteps (k : Knowledge) (t : Target) (s : Schema) (p : String × Reported Table) :
    List Step :=
  match p.2 with
  | .error _ => []
  | .ok live? => (tableItem t k.catalog (k.accessOn p.1) p.1 (s.tables.get? p.1) live?).steps

lemma Knowledge.steps_item? (k : Knowledge) (t : Target) (s : Schema)
    (tables : List (String × Reported Table)) :
    (tables.filterMap (k.item? t s)).flatMap PlanItem.steps = tables.flatMap (k.tableSteps t s) := by
  induction tables with
  | nil => rfl
  | cons p tables ih =>
    rw [List.flatMap_cons, ← ih, List.filterMap_cons]
    rcases p with ⟨name, fault | live?⟩
    · rfl
    · simp only [item?, tableSteps]
      split
      · next hnone =>
        -- an item without steps is left out
        have hnil : (tableItem t k.catalog (k.accessOn name) name (s.tables.get? name)
            live?).steps = [] := by
          by_contra hne
          rw [if_neg (by simpa using hne)] at hnone
          cases hnone
        rw [hnil, List.nil_append]
      · next item hsome =>
        split at hsome
        · cases hsome
        · rw [List.flatMap_cons, ← Option.some.inj hsome]

lemma steps_arranged_congr {tables tables' : List PlanItem}
    (h : tables.flatMap PlanItem.steps = tables'.flatMap PlanItem.steps)
    (databases : List PlanItem) (accounts : List AccountDrift) (findings findings' : Findings) :
    (arranged databases accounts tables findings).flatMap PlanItem.steps =
      (arranged databases accounts tables' findings').flatMap PlanItem.steps := by
  have hnotices (notices : List Notice) :
      (notices.map PlanItem.notice).flatMap PlanItem.steps = [] := by
    simp [List.flatMap_eq_nil_iff, PlanItem.steps]
  have hskips (skips : List SkipReason) :
      (SkipReason.all.filterMap (PlanItem.ofSkips? skips)).flatMap PlanItem.steps = [] := by
    refine List.flatMap_eq_nil_iff.2 fun item hitem => ?_
    obtain ⟨reason, -, hskip⟩ := List.mem_filterMap.1 hitem
    simp only [PlanItem.ofSkips?] at hskip
    split at hskip
    · cases hskip
    · obtain rfl := Option.some.inj hskip
      rfl
  simp only [arranged, List.flatMap_append, hnotices, hskips, h]

lemma effect_plan (h : s.Alike s') (k : Knowledge) (t : Target) (isPresent : Bool) :
    (k.plan t s isPresent).effect = (k.quiet.plan t s' isPresent).effect := by
  have hsteps : k.tableSteps t s = k.quiet.tableSteps t s' := by
    funext p
    rcases p with ⟨name, fault | live?⟩
    · rfl
    · exact steps_tableItem_congr t k.catalog (k.accessOn name) name live? (h.tables name)
  have htables : (k.tables.filterMap (k.item? t s)).flatMap PlanItem.steps =
      (k.quiet.tables.filterMap (k.quiet.item? t s')).flatMap PlanItem.steps := by
    rw [Knowledge.steps_item?, Knowledge.steps_item?, hsteps]
    rfl
  have hskipped : (k.plan t s isPresent).skipped = (k.quiet.plan t s' isPresent).skipped := by
    rw [Knowledge.skipped_plan, Knowledge.skipped_plan, Knowledge.discards, h.skips]
    rfl
  exact Prod.ext (steps_arranged_congr htables _ _ _ _) hskipped

lemma alike_schemaFor {t : Target} {sources sources' : List Source}
    (hperm : (sources.flatMap (·.statements)).Perm (sources'.flatMap (·.statements)))
    (honce : Schema.SettlesOnce t.database (sources.flatMap (·.statements))) (isPresent : Bool) :
    (schemaFor t sources isPresent).Alike (schemaFor t sources' isPresent) := by
  have halike := Schema.alike_of_perm hperm honce
  rcases isPresent with _ | _
  · exact halike.withoutDatabase t.database.name
  · exact halike

lemma effect_make {t : Target} {sources sources' : List Source}
    (hperm : (sources.flatMap (·.statements)).Perm (sources'.flatMap (·.statements)))
    (honce : Schema.SettlesOnce t.database (sources.flatMap (·.statements))) :
    effect <$> make t sources = effect <$> make t sources' := by
  have hmake (sources : List Source) : effect <$> make t sources = (do
      let isPresent ← t.database.isPresent
      (fun k : Knowledge => (k.plan t (schemaFor t sources isPresent) isPresent).effect) <$>
        learn t (schemaFor t sources isPresent) isPresent) := by
    simp only [make_eq, map_eq_pure_bind, bind_assoc, pure_bind]
  rw [hmake, hmake]
  refine bind_congr fun isPresent => ?_
  have halike := alike_schemaFor hperm honce isPresent
  let effectOf (k : Knowledge) : List Step × Nat :=
    (k.plan t (schemaFor t sources' isPresent) isPresent).effect
  have hquiet {s : Schema} (h : s.Alike (schemaFor t sources' isPresent)) :
      (fun k : Knowledge => (k.plan t s isPresent).effect) <$> learn t s isPresent =
        effectOf <$> Knowledge.quiet <$> learn t s isPresent := by
    simp only [map_eq_pure_bind, bind_assoc, pure_bind, effect_plan h, effectOf]
  rw [hquiet halike, hquiet (.refl _), quiet_learn halike]

/-- **The order of declarations does not matter.** Whatever the server answers: if two lists of
sources have the same statements, in any order and under any names, and no two of them create the
same account or both require something of it, then the same queries are sent, and either both attempts
fail for the same reason, or both plans have the same steps, in order, and the same number of skips. -/
theorem make_of_perm {t : Target} {sources sources' : List Source}
    (hperm : (sources.flatMap (·.statements)).Perm (sources'.flatMap (·.statements)))
    (honce : Schema.SettlesOnce t.database (sources.flatMap (·.statements))) (server : Server)
    (past : List String) :
    let made := (make t sources).run server past
    let made' := (make t sources').run server past
    made.2 = made'.2 ∧
      made.1.map (fun p => (p.steps, p.skipped)) = made'.1.map fun p => (p.steps, p.skipped) := by
  intro made made'
  have heffect := congrArg (fun m : Attempt (List Step × Nat) => m.run server past)
    (effect_make hperm honce)
  simp only [Attempt.run_map] at heffect
  obtain ⟨hresult, hrecord⟩ := Prod.mk.inj heffect
  exact ⟨hrecord, hresult⟩

/-- A table with and without the name of its database, an account and a grant: written down in two
files, and in one the other way round. -/
theorem make_of_perm_reversed :
    let sources : List Source := [
      ⟨"tables.sql", ["CREATE TABLE t (a INT)", "CREATE TABLE shop.t (a INT)"]⟩,
      ⟨"access.sql", ["CREATE USER 'app'@'%'", "GRANT SELECT ON shop.t TO 'app'@'%'"]⟩]
    let sources' : List Source := [
      ⟨"all.sql", ["GRANT SELECT ON shop.t TO 'app'@'%'", "CREATE USER 'app'@'%'",
        "CREATE TABLE shop.t (a INT)", "CREATE TABLE t (a INT)"]⟩]
    let server : Server := .ofAnswers fun _ => .ok [[some "shop"]]
    let made := (make ⟨⟨"shop", .double⟩, true⟩ sources).run server []
    let made' := (make ⟨⟨"shop", .double⟩, true⟩ sources').run server []
    made.2 = made'.2 ∧
      made.1.map (fun p => (p.steps, p.skipped)) = made'.1.map fun p => (p.steps, p.skipped) := by
  intro sources sources' server
  have hperm : (sources.flatMap (·.statements)).Perm (sources'.flatMap (·.statements)) := by decide
  have honce : Schema.SettlesOnce ⟨"shop", .double⟩ (sources.flatMap (·.statements)) := by
    decide +kernel
  exact make_of_perm (t := ⟨⟨"shop", .double⟩, true⟩) hperm honce server []

end Plan

end SchemaDrift
