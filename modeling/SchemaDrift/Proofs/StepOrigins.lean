import Mathlib
import SchemaDrift.Plan.Making
import SchemaDrift.Proofs.OrderedLookup

/-!
Where the steps of a plan come from. Whatever the server answers, a step of a plan creates the
database, changes an account, grants or revokes, or closes the drift of a table that was compared:
one whose declared form is in the schema and whose live form the server answered.
-/

namespace SchemaDrift

/-! ### What attempts yield -/

namespace Attempt

variable {α β : Type} {server : Server}

/-- Every result of an attempt on the server satisfies `P`. -/
def Yields (server : Server) (m : Attempt α) (P : α → Prop) : Prop :=
  ∀ earlier a later, m.run server earlier = (.ok a, later) → P a

lemma Yields.bind {m : Attempt α} {f : α → Attempt β} {Q : α → Prop} {P : β → Prop}
    (hm : Yields server m Q) (hf : ∀ a, Q a → Yields server (f a) P) :
    Yields server (m >>= f) P := by
  intro earlier b later h
  change ExceptT.bindCont f (m.run server earlier).1 server (m.run server earlier).2 =
    (.ok b, later) at h
  rcases hr : m.run server earlier with ⟨e | a, middle⟩
  · rw [hr] at h
    cases h
  · rw [hr] at h
    exact hf a (hm _ _ _ hr) _ _ _ h

lemma Yields.pure {a : α} {P : α → Prop} (h : P a) : Yields server (pure a) P := by
  intro earlier b later hb
  cases hb
  exact h

lemma yields_true {m : Attempt α} : Yields server m fun _ => True := fun _ _ _ _ => trivial

lemma yields_query (query : String) : Yields server (Attempt.query query) fun rows =>
    ∃ earlier, server earlier query = .ok rows := by
  intro earlier rows later h
  refine ⟨earlier, ?_⟩
  change ((server earlier query).mapError (Fault.refused query), earlier ++ [query]) =
    (Except.ok rows, later) at h
  rcases hr : server earlier query with reason | rows'
  · rw [hr] at h
    cases h
  · rw [hr] at h
    cases h
    rfl

lemma yields_mapM {f : α → Attempt β} {P : β → Prop} {l : List α}
    (h : ∀ a ∈ l, Yields server (f a) P) : Yields server (l.mapM f) fun bs => ∀ b ∈ bs, P b := by
  induction l with
  | nil => exact Yields.pure (by simp)
  | cons a l ih =>
    rw [List.mapM_cons]
    refine Yields.bind (h a List.mem_cons_self) fun b hb => ?_
    refine Yields.bind (ih fun a ha => h a (List.mem_cons_of_mem _ ha)) fun bs hbs => ?_
    exact Yields.pure (by simpa using ⟨hb, hbs⟩)

end Attempt

/-! ### Declared creations of accounts -/

namespace AccountLedger

/-- The text of every declared creation is a statement on accounts. -/
def CreationsRead (real : FloatSize) (l : AccountLedger) : Prop :=
  ∀ a d c text, l.declared.get? a = some d → d.creation? = some (c, some text) →
    ∃ cs, Statement.read real text = .accounts cs

variable {real : FloatSize} {l : AccountLedger}

lemma CreationsRead.declare (h : l.CreationsRead real) {c : AccountClause} {text? : Option String}
    (htext : ∀ text ∈ text?, ∃ cs, Statement.read real text = .accounts cs) :
    (l.declare c text?).CreationsRead real := by
  intro a d c' text hd hcreation
  rw [AccountLedger.declare, OrderedMap.get?_alter] at hd
  split at hd
  · obtain rfl := Option.some.inj hd
    split at hcreation
    · obtain ⟨-, rfl⟩ := Prod.mk.inj (Option.some.inj hcreation)
      exact htext text rfl
    · rcases hold : l.declared.get? c.account with _ | old
      · rw [hold] at hcreation
        cases hcreation
      · rw [hold] at hcreation
        exact h c.account old c' text hold hcreation
  · exact h a d c' text hd hcreation

lemma CreationsRead.foldl_declare {text? : Option String}
    (htext : ∀ text ∈ text?, ∃ cs, Statement.read real text = .accounts cs)
    (cs : List AccountClause) (h : l.CreationsRead real) :
    (cs.foldl (fun l c => l.declare c text?) l).CreationsRead real := by
  induction cs generalizing l with
  | nil => exact h
  | cons c cs ih => exact ih (h.declare htext)

lemma declared_foldl_observe (cs : List AccountClause) :
    (cs.foldl observe l).declared = l.declared := by
  induction cs generalizing l with
  | nil => rfl
  | cons c cs ih => exact ih

lemma exists_read_of_mem_drifts (h : l.CreationsRead real) {d : AccountDrift} (hd : d ∈ l.drifts)
    {c : AccountClause} {text : String} (hc : .create c (some text) ∈ d.changes) :
    ∃ cs, Statement.read real text = .accounts cs := by
  rcases List.mem_append.1 hd with hd | hd
  · obtain ⟨⟨a, da⟩, hmem, hdrift⟩ := List.mem_filterMap.1 hd
    have hget : l.declared.get? a = some da := OrderedMap.get?_eq_some_iff.2 hmem
    replace hdrift : l.declaredDrift? a da = some d := hdrift
    unfold declaredDrift? at hdrift
    split at hdrift
    · rename_i hcreation
      obtain rfl := Option.some.inj hdrift
      rcases List.mem_cons.1 hc with he | hc
      · obtain ⟨-, rfl⟩ := AccountChange.create.inj he
        exact h a da _ _ hget hcreation
      · split at hc
        · split at hc
          · cases hc
          · simp at hc
        · cases hc
    · obtain ⟨t, -, hdrift⟩ := Option.bind_eq_some_iff.1 hdrift
      split at hdrift
      · cases hdrift
      · obtain rfl := Option.some.inj hdrift
        simp at hc
    · cases hdrift
  · obtain ⟨e, -, rfl⟩ := List.mem_map.1 hd
    simp at hc

end AccountLedger

namespace Schema

@[simp] lemma accounts_declareTable (s : Schema) (database source : String) (t : Table) :
    (s.declareTable database source t).accounts = s.accounts := by
  unfold declareTable declareOwnTable
  simp only
  split
  · rfl
  · split
    · rfl
    · split
      · rfl
      · split
        · rfl
        · split <;> rfl

lemma accounts_foldl_declareGrant (s : Schema) (database source : String) (gs : List Grant) :
    (gs.foldl (declareGrant database source) s).accounts = s.accounts := by
  induction gs generalizing s with
  | nil => rfl
  | cons g gs ih =>
    rw [List.foldl_cons, ih]
    unfold declareGrant
    simp only
    split <;> rfl

lemma creationsRead_declare {d : LiveDatabase} {s : Schema} (h : s.accounts.CreationsRead d.real)
    (source text : String) : (s.declare d source text).accounts.CreationsRead d.real := by
  unfold declare
  split
  · rwa [accounts_declareTable]
  · rwa [accounts_foldl_declareGrant]
  · rename_i cs hread
    refine h.foldl_declare (fun text' ht => ?_) cs
    split at ht
    · obtain rfl := Option.some.inj ht
      exact ⟨cs, hread⟩
    · cases ht
  · exact h
  · exact h
  · exact h

lemma creationsRead_ofSources (d : LiveDatabase) (sources : List Source) :
    (ofSources d sources).accounts.CreationsRead d.real := by
  have hstatements (source : Source) (texts : List String) (s : Schema)
      (h : s.accounts.CreationsRead d.real) :
      (texts.foldl (declare d source.name) s).accounts.CreationsRead d.real := by
    induction texts generalizing s with
    | nil => exact h
    | cons text texts ih => exact ih _ (creationsRead_declare h source.name text)
  have hsources (s : Schema) (h : s.accounts.CreationsRead d.real) :
      (sources.foldl (fun s source => source.statements.foldl (declare d source.name) s)
        s).accounts.CreationsRead d.real := by
    induction sources generalizing s with
    | nil => exact h
    | cons source sources ih => exact ih _ (hstatements source source.statements s h)
  refine hsources empty fun a d c text hd => ?_
  cases hd

end Schema

/-! ### The making of a plan -/

namespace Plan

variable {t : Target} {sources : List Source} {server : Server}

def Answered (d : LiveDatabase) (server : Server) (live : Table) : Prop :=
  ∃ earlier name rows, server earlier (d.tableQuery name) = .ok rows ∧
    d.reported LiveDatabase.tablePart? (rows.head?.bind fun r => r[1]?.join) = .ok (some live)

/-- The server answered the character sets of a catalog. -/
def AnsweredCatalog (server : Server) (catalog : Catalog) : Prop :=
  ∃ earlier rows, server earlier LiveDatabase.charsetQuery = .ok rows ∧
    catalog = .ofReport (rows.filterMap LiveDatabase.charset?)

/-- A drift between tables that the making compares: the declared side is of the schema, the live
one answered by the server, and so are the character sets. -/
structure Compared (t : Target) (sources : List Source) (server : Server) (d : TableDrift) :
    Prop where
  declared : ∀ table ∈ d.sides.declared, ∃ name declaration,
    (Schema.ofSources t.database sources).tables.get? name = some declaration ∧
      declaration.table = table
  live : ∀ table ∈ d.sides.live, Answered t.database server table
  catalog : AnsweredCatalog server d.catalog

/-- What gives rise to a step. -/
inductive Origin (t : Target) (sources : List Source) (server : Server) : Step → Prop
  | database : Origin t sources server
      (.harmless .createDatabase t.database.name
        ("CREATE DATABASE " ++ Sql.name t.database.name ++ ";"))
  | account (change : AccountChange)
      (hread : ∀ c text, change = .create c (some text) →
        ∃ cs, Statement.read t.database.real text = .accounts cs) :
      Origin t sources server change.step
  | access (g : Grant) : Origin t sources server g.step
  | table (d : TableDrift) (hd : Compared t sources server d) {s : Step} (hs : s ∈ d.steps) :
      Origin t sources server s

lemma yields_catalog : Attempt.Yields server LiveDatabase.catalog (AnsweredCatalog server) :=
  .bind (Attempt.yields_query _) fun rows hrows => .pure <| by
    obtain ⟨earlier, hrows⟩ := hrows
    exact ⟨earlier, rows, hrows, rfl⟩

lemma yields_surveyAccounts (d : LiveDatabase) (s : Schema) :
    Attempt.Yields server (surveyAccounts d s) fun survey =>
      survey.ledger.declared = s.accounts.declared := by
  unfold surveyAccounts
  refine .bind Attempt.yields_true fun live _ => .bind Attempt.yields_true fun answers _ => ?_
  exact .pure (AccountLedger.declared_foldl_observe _)

lemma yields_surveyAccess (d : LiveDatabase) (s : Schema) (live : OrderedSet Account) :
    Attempt.Yields server (surveyAccess d s live) fun r =>
      ∀ drift ∈ r.1, ∀ step ∈ drift.steps, ∃ g : Grant, step = g.step := by
  unfold surveyAccess
  refine .bind Attempt.yields_true fun reported _ => .pure fun drift hd step hs => ?_
  obtain ⟨⟨h, g⟩, -, hdrift⟩ := List.mem_filterMap.1 hd
  replace hdrift : AccessLedger.drift? _ h g = some drift := hdrift
  unfold AccessLedger.drift? at hdrift
  simp only at hdrift
  split at hdrift
  · cases hdrift
  · obtain rfl := Option.some.inj hdrift
    obtain ⟨g, -, rfl⟩ := List.mem_map.1 hs
    exact ⟨g, rfl⟩

lemma yields_table? (d : LiveDatabase) (l : Listing) (name : String) :
    Attempt.Yields server (d.table? l name) fun answer =>
      ∀ live, answer = .ok (some live) → Answered d server live := by
  unfold LiveDatabase.table?
  split
  · exact .pure fun live h => by cases h
  · rename_i actual _
    refine .bind (Attempt.yields_query _) fun rows hrows => .pure fun live h => ?_
    obtain ⟨earlier, hrows⟩ := hrows
    exact ⟨earlier, actual, rows, hrows, h⟩

def FromTables (t : Target) (sources : List Source) (server : Server) (access : List AccessDrift)
    (item : PlanItem) : Prop :=
  ∀ s ∈ item.steps, (∃ d, Compared t sources server d ∧ s ∈ d.steps) ∨ ∃ d ∈ access, s ∈ d.steps

lemma yields_surveyTable {catalog : Catalog} (hcatalog : AnsweredCatalog server catalog)
    (listing : Listing) (access : List AccessDrift) (name : String) :
    Attempt.Yields server
      (surveyTable t (Schema.ofSources t.database sources) catalog listing access name) fun r =>
        ∀ item ∈ r.1, FromTables t sources server access item := by
  unfold surveyTable
  extract_lets survey
  have hsurvey (answer : Reported Table)
      (hlive : ∀ live, answer = .ok (some live) → Answered t.database server live) :
      Attempt.Yields server (survey answer) fun r =>
        ∀ item ∈ r.1, FromTables t sources server access item := by
    rcases answer with fault | live?
    · exact .pure fun item h => by cases h
    · refine .pure fun item h s hs => ?_
      simp only at h
      split at h
      · cases h
      · obtain rfl := Option.some.inj h
        rcases List.mem_append.1 hs with hs | hs
        · split at hs
          · refine .inl ⟨_, ⟨fun table htable => ?_, fun table htable => ?_, hcatalog⟩, hs⟩
            · obtain ⟨declaration, hget, rfl⟩ := Option.map_eq_some_iff.1 htable
              exact ⟨name, declaration, hget, rfl⟩
            · exact hlive table (congrArg Except.ok htable)
          · cases hs
        · obtain ⟨d, hd, hs⟩ := List.mem_flatMap.1 hs
          exact .inr ⟨d, List.mem_of_mem_filter hd, hs⟩
  split
  · exact .bind (.pure fun live h => by cases h) hsurvey
  · exact .bind (yields_table? t.database listing name) hsurvey

lemma yields_surveyTables {catalog : Catalog} (hcatalog : AnsweredCatalog server catalog)
    (access : List AccessDrift) :
    Attempt.Yields server (surveyTables t (Schema.ofSources t.database sources) catalog access)
      fun r => ∀ item ∈ r.1, FromTables t sources server access item := by
  unfold surveyTables
  refine .bind Attempt.yields_true fun listing _ => ?_
  refine .bind (Attempt.yields_mapM fun name _ => yields_surveyTable hcatalog listing access name)
    fun answers hanswers => .pure fun item h => ?_
  obtain ⟨answer, hanswer, hitem⟩ := List.mem_filterMap.1 h
  exact hanswers answer hanswer item hitem

lemma mem_steps_arranged {databases tables : List PlanItem} {accounts : List AccountDrift}
    {findings : Findings} {s : Step}
    (h : s ∈ (arranged databases accounts tables findings).flatMap PlanItem.steps) :
    (∃ item ∈ databases ++ tables, s ∈ item.steps) ∨
      ∃ d ∈ accounts, ∃ change ∈ d.changes, s = change.step := by
  obtain ⟨item, hitem, hs⟩ := List.mem_flatMap.1 h
  simp only [arranged, List.mem_append] at hitem
  have haccount {p : AccountDrift → Bool}
      (hm : item ∈ (accounts.filter p).map PlanItem.ofAccount) :
      ∃ d ∈ accounts, ∃ change ∈ d.changes, s = change.step := by
    obtain ⟨d, hd, rfl⟩ := List.mem_map.1 hm
    obtain ⟨change, hchange, rfl⟩ := List.mem_map.1 hs
    exact ⟨d, List.mem_of_mem_filter hd, change, hchange, rfl⟩
  rcases hitem with (((((h | h) | h) | h) | h) | h) | h
  · obtain ⟨n, -, rfl⟩ := List.mem_map.1 h
    cases hs
  · exact .inl ⟨item, List.mem_append_left _ h, hs⟩
  · exact .inr (haccount h)
  · exact .inr (haccount h)
  · exact .inl ⟨item, List.mem_append_right _ h, hs⟩
  · exact .inr (haccount h)
  · obtain ⟨reason, -, hskip⟩ := List.mem_filterMap.1 h
    unfold PlanItem.ofSkips? at hskip
    simp only at hskip
    split at hskip
    · cases hskip
    · obtain rfl := Option.some.inj hskip
      cases hs

lemma origin_of_mem_arranged {isPresent : Bool} {accounts : List AccountDrift}
    {access : List AccessDrift} {tables : List PlanItem} {findings : Findings}
    (haccounts : ∀ d ∈ accounts, ∀ c text, .create c (some text) ∈ d.changes →
      ∃ cs, Statement.read t.database.real text = .accounts cs)
    (haccess : ∀ d ∈ access, ∀ s ∈ d.steps, ∃ g : Grant, s = g.step)
    (htables : ∀ item ∈ tables, FromTables t sources server access item) {s : Step}
    (h : s ∈ (arranged (if isPresent then [] else [.ofDatabase t.database.name]) accounts tables
      findings).flatMap PlanItem.steps) : Origin t sources server s := by
  rcases mem_steps_arranged h with ⟨item, hitem, hs⟩ | ⟨d, hd, change, hchange, rfl⟩
  · rcases List.mem_append.1 hitem with hitem | hitem
    · split at hitem
      · cases hitem
      · obtain rfl := List.mem_singleton.1 hitem
        obtain rfl := List.mem_singleton.1 hs
        exact .database
    · rcases htables item hitem s hs with ⟨d, hd, hs⟩ | ⟨d, hd, hs⟩
      · exact .table d hd hs
      · obtain ⟨g, rfl⟩ := haccess d hd s hs
        exact .access g
  · exact .account change fun c text he => haccounts d hd c text (he ▸ hchange)

theorem yields_make : Attempt.Yields server (make t sources) fun plan =>
    ∀ s ∈ plan.steps, Origin t sources server s := by
  unfold make
  extract_lets declared
  refine .bind Attempt.yields_true fun isPresent _ => ?_
  extract_lets s makeFrom
  have hcreations : s.accounts.CreationsRead t.database.real := by
    have haccounts : s.accounts = declared.accounts := by
      rcases isPresent with _ | _ <;> rfl
    rw [haccounts]
    exact Schema.creationsRead_ofSources t.database sources
  have hmake (catalog : Catalog) (hcatalog : isPresent = true → AnsweredCatalog server catalog) :
      Attempt.Yields server (makeFrom catalog) fun plan =>
        ∀ s ∈ plan.steps, Origin t sources server s := by
    refine .bind (yields_surveyAccounts t.database s) fun accounts haccounts => ?_
    refine .bind (yields_surveyAccess t.database s accounts.live) fun ⟨access, _⟩ haccess => ?_
    simp -zeta only
    extract_lets finish
    have hfinish (r : List PlanItem × Findings)
        (htables : ∀ item ∈ r.1, FromTables t sources server access item) :
        Attempt.Yields server (finish r) fun plan =>
          ∀ s ∈ plan.steps, Origin t sources server s := by
      refine .pure fun step =>
        origin_of_mem_arranged (fun d hd c text hchange => ?_) haccess htables
      refine AccountLedger.exists_read_of_mem_drifts (l := accounts.ledger) ?_ hd hchange
      rw [AccountLedger.CreationsRead, haccounts]
      exact hcreations
    split
    · rename_i hpresent
      have hs : s = declared := if_pos hpresent
      rw [hs]
      exact .bind (yields_surveyTables (hcatalog hpresent) access) hfinish
    · exact .bind (.pure (by simp)) hfinish
  -- The catalog is asked for only where the database is present, and compared with only there.
  split
  · exact .bind yields_catalog fun catalog hcatalog => hmake catalog fun _ => hcatalog
  · rename_i habsent
    exact .bind Attempt.yields_true fun catalog _ => hmake catalog fun h => absurd h habsent

end Plan

end SchemaDrift
