import Mathlib
import SchemaDrift.Plan.Making

/-!
The making of a plan in two parts: what is learnt from the server, and what is made of it. A plan is a
function of the schema and of what was learnt.
-/

namespace SchemaDrift

/-! ### Runs of attempts -/

namespace Attempt

variable {α β : Type} {m : Attempt α} {server : Server} {past later : List String}

lemma run_bind_of_ok {a : α} (h : m.run server past = (.ok a, later)) (f : α → Attempt β) :
    (m >>= f).run server past = (f a).run server later := by
  change ExceptT.bindCont f (m.run server past).1 server (m.run server past).2 = _
  rw [h]
  rfl

lemma run_map (f : α → β) (server : Server) (past : List String) : (f <$> m).run server past =
    ((m.run server past).1.map f, (m.run server past).2) := by
  rw [map_eq_pure_bind]
  change ExceptT.bindCont (fun a => (pure (f a) : Attempt β)) (m.run server past).1 server
    (m.run server past).2 = _
  rcases (m.run server past).1 with fault | a <;> rfl

lemma exists_of_run_map {f : α → β} {b : β} (h : (f <$> m).run server past = (.ok b, later)) :
    ∃ a, m.run server past = (.ok a, later) ∧ b = f a := by
  rw [run_map] at h
  rcases hm : m.run server past with ⟨fault | a, later'⟩
  · rw [hm] at h
    cases h
  · rw [hm] at h
    cases h
    exact ⟨a, rfl, rfl⟩

lemma mapM_map {α β γ : Type} (f : α → Attempt β) (g : β → γ) (l : List α) :
    l.mapM (fun a => g <$> f a) = List.map g <$> l.mapM f := by
  induction l with
  | nil => simp
  | cons a l ih =>
    rw [List.mapM_cons, List.mapM_cons, ih]
    simp only [map_eq_pure_bind, bind_assoc, pure_bind, List.map_cons]

end Attempt

namespace Plan

/-! ### What is learnt -/

/-- What the making of a plan learns from the server. -/
structure Knowledge where
  catalog : Catalog
  accounts : AccountSurvey
  access : List AccessDrift
  accessFindings : Findings
  /-- All tables by their lower-case names, with what the server says of each. -/
  tables : List (String × Reported Table)

/-- The schema that counts for a database which is there, or for one that is not. -/
def schemaFor (t : Target) (sources : List Source) (isPresent : Bool) : Schema :=
  if isPresent then Schema.ofSources t.database sources
  else (Schema.ofSources t.database sources).withoutDatabase t.database.name

/-- The tables that are declared or live, and those with drifts of privileges alone. -/
def tableNames (s : Schema) (listing : Listing) (access : List AccessDrift) : OrderedSet String :=
  OrderedSet.ofList (s.tables.keys ++ listing.keys.filter (fun name => !s.collided.contains name) ++
    access.map fun d => Text.lower d.object)

/-- Asks for a live table, unless its declarations collide. -/
def askTable (t : Target) (s : Schema) (listing : Listing) (name : String) :
    Attempt (Reported Table) :=
  if s.collided.contains name then pure (.ok none) else t.database.table? listing name

def learnTables (t : Target) (s : Schema) (access : List AccessDrift) :
    Attempt (List (String × Reported Table)) := do
  let listing ← t.database.listing
  (tableNames s listing access).toList.mapM fun name =>
    (fun answer => (name, answer)) <$> askTable t s listing name

/-- Asks for all that a plan depends on, once it is known whether the database is there. -/
def learn (t : Target) (s : Schema) (isPresent : Bool) : Attempt Knowledge := do
  let catalog ← if isPresent then LiveDatabase.catalog else pure .builtin
  let accounts ← surveyAccounts t.database s
  let (access, accessFindings) ← surveyAccess t.database s accounts.live
  let tables ← if isPresent then learnTables t s access else pure []
  return ⟨catalog, accounts, access, accessFindings, tables⟩

/-! ### What is made of it -/

namespace Knowledge

variable (k : Knowledge) (t : Target) (s : Schema)

def accessOn (name : String) : List AccessDrift :=
  k.access.filter fun d => Text.lower d.object = name

/-- The item for a table, if it can be read and there is something to do. -/
def item? (p : String × Reported Table) : Option PlanItem :=
  match p.2 with
  | .error _ => none
  | .ok live? =>
    let item := tableItem t k.catalog (k.accessOn p.1) p.1 (s.tables.get? p.1) live?
    if item.steps.isEmpty then none else some item

def tableFindings (p : String × Reported Table) : Findings :=
  match p.2 with
  | .error fault => .ofAnswer fault ++ .ofSkips 1 .unreadableTable
  | .ok _ => Findings.none

def findings : Findings :=
  s.findings ++ k.accounts.findings ++ k.accessFindings ++
    Findings.joined (k.tables.map tableFindings)

/-- The number of declarations, accounts, grants and tables that are left out. -/
def discards : Nat :=
  s.findings.skips.length + k.accounts.findings.skips.length + k.accessFindings.skips.length +
    k.tables.countP fun p => !p.2.isOk

/-- The plan for a database, which is created if it is not there. -/
def plan (isPresent : Bool) : Plan :=
  ⟨arranged (if isPresent then [] else [PlanItem.ofDatabase t.database.name])
    k.accounts.ledger.drifts (k.tables.filterMap (k.item? t s)) (k.findings s), s.passthrough⟩

end Knowledge

/-! ### The two parts -/

lemma surveyTable_eq (t : Target) (s : Schema) (k : Knowledge) (listing : Listing) (name : String) :
    surveyTable t s k.catalog listing k.access name =
      (fun p => (k.item? t s p, Knowledge.tableFindings p)) <$>
        (fun answer => (name, answer)) <$> askTable t s listing name := by
  unfold surveyTable askTable
  split
  · rw [pure_bind, map_pure, map_pure]
    rfl
  · simp only [map_eq_pure_bind, bind_assoc, pure_bind]
    refine bind_congr fun answer => ?_
    rcases answer with fault | live? <;> rfl

lemma surveyTables_eq (t : Target) (s : Schema) (k : Knowledge) :
    surveyTables t s k.catalog k.access =
      (fun tables => (tables.filterMap (k.item? t s),
        Findings.joined (tables.map Knowledge.tableFindings))) <$> learnTables t s k.access := by
  have hanswers (listing : Listing) (names : List String) :
      names.mapM (surveyTable t s k.catalog listing k.access) =
        List.map (fun p => (k.item? t s p, Knowledge.tableFindings p)) <$>
          names.mapM fun name => (fun answer => (name, answer)) <$> askTable t s listing name := by
    rw [← Attempt.mapM_map]
    exact congrArg (names.mapM ·) (funext (surveyTable_eq t s k listing))
  unfold surveyTables learnTables
  simp only [hanswers, map_eq_pure_bind, bind_assoc, pure_bind, List.filterMap_map, List.map_map]
  rfl

/-- A plan is made by learning what it depends on. -/
theorem make_eq (t : Target) (sources : List Source) : make t sources = (do
    let isPresent ← t.database.isPresent
    let k ← learn t (schemaFor t sources isPresent) isPresent
    return k.plan t (schemaFor t sources isPresent) isPresent) := by
  refine bind_congr fun isPresent => ?_
  unfold learn schemaFor
  rcases isPresent with _ | _
  · simp only [Bool.false_eq_true, if_false, bind_assoc, pure_bind]
    rfl
  · simp only [if_true, bind_assoc, pure_bind]
    refine bind_congr fun catalog => bind_congr fun accounts => bind_congr fun access => ?_
    simp only [surveyTables_eq t _ ⟨catalog, accounts, access.1, access.2, []⟩, map_eq_pure_bind,
      bind_assoc, pure_bind]
    rfl

lemma run_make {t : Target} {server : Server} {past asked : List String} {isPresent : Bool}
    (hpresent : t.database.isPresent.run server past = (.ok isPresent, asked))
    (sources : List Source) :
    (make t sources).run server past =
      ((fun k : Knowledge => k.plan t (schemaFor t sources isPresent) isPresent) <$>
        learn t (schemaFor t sources isPresent) isPresent).run server asked := by
  rw [make_eq, map_eq_pure_bind]
  exact Attempt.run_bind_of_ok hpresent _

/-! ### What is skipped -/

lemma skipped_eq_sum (p : Plan) : p.skipped = (p.items.map (·.skipCount)).sum := by
  unfold skipped
  induction p.items with
  | nil => rfl
  | cons item items ih => rw [List.foldr_cons, List.map_cons, List.sum_cons, ih]

lemma sum_count_all (skips : List SkipReason) :
    (SkipReason.all.map skips.count).sum = skips.length := by
  induction skips with
  | nil => rfl
  | cons r skips ih =>
    rw [List.length_cons, ← ih]
    cases r <;> simp [SkipReason.all, List.count_cons] <;> omega

lemma skipped_arranged {databases tables : List PlanItem}
    (hdatabases : ∀ item ∈ databases, item.skipCount = 0)
    (htables : ∀ item ∈ tables, item.skipCount = 0) (accounts : List AccountDrift)
    (findings : Findings) (passthrough : List String) :
    (⟨arranged databases accounts tables findings, passthrough⟩ : Plan).skipped =
      findings.skips.length := by
  have hzero {items : List PlanItem} (h : ∀ item ∈ items, item.skipCount = 0) :
      (items.map (·.skipCount)).sum = 0 :=
    List.sum_eq_zero (by simpa using h)
  have hnotices : (findings.notices.map PlanItem.notice |>.map (·.skipCount)).sum = 0 :=
    hzero (by simp [PlanItem.skipCount])
  have haccounts (p : AccountDrift → Bool) :
      ((accounts.filter p).map PlanItem.ofAccount |>.map (·.skipCount)).sum = 0 :=
    hzero fun item hitem => by
      obtain ⟨d, -, rfl⟩ := List.mem_map.1 hitem
      rfl
  have hreason (reasons : List SkipReason) :
      ((reasons.filterMap (PlanItem.ofSkips? findings.skips)).map (·.skipCount)).sum =
        (reasons.map findings.skips.count).sum := by
    induction reasons with
    | nil => rfl
    | cons r reasons ih =>
      rw [List.filterMap_cons, List.map_cons, List.sum_cons, ← ih]
      by_cases h : findings.skips.count r = 0 <;> simp [PlanItem.ofSkips?, PlanItem.skipCount, h]
  rw [skipped_eq_sum]
  simp only [arranged, List.map_append, List.sum_append, hnotices, haccounts, hzero hdatabases,
    hzero htables, hreason, sum_count_all, Nat.zero_add]

lemma length_skips_joined (fs : List Findings) :
    (Findings.joined fs).skips.length = (fs.map (·.skips.length)).sum := by
  induction fs with
  | nil => rfl
  | cons f fs ih =>
    rw [List.map_cons, List.sum_cons, ← ih]
    exact List.length_append

lemma Knowledge.length_skips_findings (k : Knowledge) (s : Schema) :
    (k.findings s).skips.length = k.discards s := by
  have hsplit (a b c d : Findings) : (a ++ b ++ c ++ d).skips.length =
      a.skips.length + b.skips.length + c.skips.length + d.skips.length := by
    change (a.skips ++ b.skips ++ c.skips ++ d.skips).length = _
    simp only [List.length_append]
  have htables : (Findings.joined (k.tables.map tableFindings)).skips.length =
      k.tables.countP fun p => !p.2.isOk := by
    rw [length_skips_joined, List.map_map]
    induction k.tables with
    | nil => rfl
    | cons p ps ih =>
      rw [List.map_cons, List.sum_cons, ih, List.countP_cons, Nat.add_comm]
      rcases p with ⟨name, fault | live?⟩ <;> rfl
  rw [findings, hsplit, htables, discards]

lemma Knowledge.skipCount_of_item? {k : Knowledge} {t : Target} {s : Schema}
    {p : String × Reported Table} {item : PlanItem} (h : k.item? t s p = some item) :
    item.skipCount = 0 := by
  unfold item? at h
  split at h
  · cases h
  · simp only at h
    split at h
    · cases h
    · obtain rfl := Option.some.inj h
      rfl

lemma Knowledge.skipped_plan (k : Knowledge) (t : Target) (s : Schema) (isPresent : Bool) :
    (k.plan t s isPresent).skipped = k.discards s := by
  refine (skipped_arranged ?_ ?_ _ _ _).trans (k.length_skips_findings s)
  · rcases isPresent with _ | _ <;> simp [PlanItem.ofDatabase, PlanItem.skipCount]
  · intro item hitem
    obtain ⟨p, -, hp⟩ := List.mem_filterMap.1 hitem
    exact skipCount_of_item? hp

end Plan

end SchemaDrift
