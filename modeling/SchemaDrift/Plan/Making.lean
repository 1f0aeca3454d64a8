import SchemaDrift.Plan

/-!
How a plan is made. The sources are read first. Then the server is asked, each thing once: for the
database, its accounts, their grants and its tables. What comes back unreadable becomes a notice;
only a refused query ends the making.
-/

namespace SchemaDrift

/-- What a plan is made for. -/
structure Target where
  database : LiveDatabase
  /-- Whether tables that nothing declares are dropped. -/
  dropTables : Bool
  deriving DecidableEq, Repr

namespace Plan

/-! ### Accounts -/

/-- The live accounts that matter, and the declared ones beside them. -/
structure AccountSurvey where
  live : OrderedSet Account
  ledger : AccountLedger
  findings : Findings

/-- The user names that declarations of accounts mention. -/
def declaredUsers (s : Schema) : OrderedSet String :=
  OrderedSet.ofList (s.accounts.accounts.map Account.user)

/-- The user names that any declaration mentions. -/
def mentionedUsers (s : Schema) : OrderedSet String :=
  OrderedSet.ofList (s.accounts.accounts.map Account.user ++ s.grants.map (·.grant.account.user))

/-- A live account as a clause; one of which nothing can be learnt counts as a bare one. -/
def liveClause (d : LiveDatabase) (a : Account) : Attempt (AccountClause × Findings) := do
  match ← d.accountClause? a with
  | .ok clause? => return (clause?.getD (.bare .create a), Findings.none)
  | .error fault => return (.bare .create a, Findings.ofAnswer fault)

/-- The finding that an account is altered which does not exist. -/
def missingAccount (a : Account) : Findings :=
  .ofFault (.missingAccount a) none ++ .ofSkips 1 .absentAccount

/-- Asks for the live accounts, and for the declaration of those that the schema declares. -/
def surveyAccounts (d : LiveDatabase) (s : Schema) : Attempt AccountSurvey := do
  let live ← LiveDatabase.accounts (mentionedUsers s)
  let answers ← (live.toList.filter fun a => (declaredUsers s).contains a.user).mapM (liveClause d)
  let ledger := (answers.map (·.1)).foldl AccountLedger.observe s.accounts
  return ⟨live, ledger,
    Findings.joined (answers.map (·.2)) ++ Findings.joined (ledger.missing.map missingAccount)⟩

/-! ### Privileges -/

/-- The first grant of every account. -/
def firstGrants : List DeclaredGrant → List DeclaredGrant
  | [] => []
  | g :: gs => g :: (firstGrants gs).filter fun h => h.grant.account ≠ g.grant.account

/-- The findings on grants for accounts that do not exist: all are skipped, and each account is
noticed once. -/
def orphanFindings (gs : List DeclaredGrant) : Findings :=
  ⟨(firstGrants gs).map fun g => ⟨.missingAccount g.grant.account, some g.source⟩,
    gs.map fun _ => .absentAccount⟩

/-- The drifts of privileges for the accounts that are live or about to be created. -/
def surveyAccess (d : LiveDatabase) (s : Schema) (live : OrderedSet Account) :
    Attempt (List AccessDrift × Findings) := do
  let (kept, orphans) := s.grants.partition fun g =>
    live.contains g.grant.account || s.accounts.isCreated g.grant.account
  let referenced := OrderedSet.ofList
    ((kept.map (·.grant.account)).filter live.contains)
  let reported ← d.grants referenced
  let ledger := (kept.map (·.grant)).foldl AccessLedger.declare (AccessLedger.empty d.name)
  let ledger := reported.grants.foldl AccessLedger.observe ledger
  return (ledger.drifts, orphanFindings orphans ++ Findings.joined (reported.faults.map fun f =>
    .ofAnswer f ++ .ofSkips 1 .unreadableGrant))

/-! ### Tables -/

/-- The item for a table with its steps: those of the table, then those of the privileges on it. A
table that nothing declares is left alone unless tables are dropped. -/
def tableItem (t : Target) (catalog : Catalog) (access : List AccessDrift) (name : String)
    (declared? : Option DeclaredTable) (live? : Option Table) : PlanItem :=
  let drift : TableDrift := ⟨⟨live?, declared?.map (·.table)⟩, catalog⟩
  let compared := declared?.isSome || t.dropTables
  .table
    { name := ((live?.orElse fun _ => declared?.map (·.table)).map (·.name.name)).getD name
      presence := .ofSides drift.sides
      sources := (declared?.map (·.sources)).getD [] ++
        if live?.isSome then [LiveDatabase.sourceName] else []
      columns := if compared then drift.columns else []
      keys := if compared then drift.keys else []
      options := if compared then drift.options else []
      access := access }
    ((if compared then drift.steps else []) ++ access.flatMap (·.steps))

/-- Asks for a live table and makes its item, if there is something to do. An unreadable table is
skipped. -/
def surveyTable (t : Target) (s : Schema) (catalog : Catalog) (listing : Listing)
    (access : List AccessDrift) (name : String) : Attempt (Option PlanItem × Findings) := do
  let answer ← if s.collided.contains name then pure (.ok none) else t.database.table? listing name
  match answer with
  | .error fault => return (none, .ofAnswer fault ++ .ofSkips 1 .unreadableTable)
  | .ok live? =>
    let item := tableItem t catalog (access.filter fun d => Text.lower d.object = name) name
      (s.tables.get? name) live?
    return (if item.steps.isEmpty then none else some item, Findings.none)

/-- The items of all tables in order of their lower-case names. -/
def surveyTables (t : Target) (s : Schema) (catalog : Catalog) (access : List AccessDrift) :
    Attempt (List PlanItem × Findings) := do
  let listing ← t.database.listing
  let names := OrderedSet.ofList (s.tables.keys ++
    listing.keys.filter (fun name => !s.collided.contains name) ++
    access.map fun d => Text.lower d.object)
  let answers ← names.toList.mapM (surveyTable t s catalog listing access)
  return (answers.filterMap (·.1), Findings.joined (answers.map (·.2)))

/-! ### The whole plan -/

/-- The items in the order in which they run. Accounts are created before the privileges on tables
are granted, and dropped at the end. -/
def arranged (databases : List PlanItem) (accounts : List AccountDrift) (tables : List PlanItem)
    (findings : Findings) : List PlanItem :=
  let having (p : Verdict → Bool) : List PlanItem :=
    (accounts.filter fun d => p d.verdict).map PlanItem.ofAccount
  findings.notices.map .notice ++ databases ++ having (· = .added) ++
    having (fun v => v ≠ .added && v ≠ .dropped) ++ tables ++ having (· = .dropped) ++
    SkipReason.all.filterMap (PlanItem.ofSkips? findings.skips)

/-- The plan that brings the server's database to what the sources declare. -/
def make (t : Target) (sources : List Source) : Attempt Plan := do
  let declared := Schema.ofSources t.database sources
  let isPresent ← t.database.isPresent
  let catalog ← if isPresent then LiveDatabase.catalog else pure .builtin
  let s := if isPresent then declared else declared.withoutDatabase t.database.name
  let accounts ← surveyAccounts t.database s
  let (access, accessFindings) ← surveyAccess t.database s accounts.live
  let (tables, tableFindings) ←
    if isPresent then surveyTables t s catalog access else pure ([], Findings.none)
  return ⟨arranged (if isPresent then [] else [PlanItem.ofDatabase t.database.name])
    accounts.ledger.drifts tables
    (s.findings ++ accounts.findings ++ accessFindings ++ tableFindings), s.passthrough⟩

end Plan

end SchemaDrift
