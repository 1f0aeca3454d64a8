import Mathlib
import SchemaDrift.Plan.Making
import SchemaDrift.Proofs.SealedText

/-!
The queries that the making of a plan sends. Names from the sources and from the server stand in them,
but each is an inquiry: it reads something, and a script that consists of it has it as its only
statement.
-/

namespace SchemaDrift

/-! ### What attempts send -/

namespace Attempt

variable {α β : Type} {P : String → Prop}

/-- Whatever the server answers, all queries that the attempt sends satisfy `P`. -/
def Sends (P : String → Prop) (m : Attempt α) : Prop :=
  ∀ server earlier, ∃ sent, (m.run server earlier).2 = earlier ++ sent ∧ ∀ q ∈ sent, P q

lemma Sends.pure (a : α) : Sends P (pure a : Attempt α) := fun _ earlier =>
  ⟨[], (List.append_nil earlier).symm, by simp⟩

lemma Sends.bind {m : Attempt α} {f : α → Attempt β} (hm : Sends P m) (hf : ∀ a, Sends P (f a)) :
    Sends P (m >>= f) := by
  intro server earlier
  obtain ⟨sent, hsent, hall⟩ := hm server earlier
  change ∃ sent, (ExceptT.bindCont f (m.run server earlier).1 server (m.run server earlier).2).2 =
    earlier ++ sent ∧ ∀ q ∈ sent, P q
  rcases (m.run server earlier).1 with fault | a
  · exact ⟨sent, hsent, hall⟩
  · obtain ⟨more, hmore, hall'⟩ := hf a server (earlier ++ sent)
    rw [hsent]
    refine ⟨sent ++ more, hmore.trans (List.append_assoc ..), fun q hq => ?_⟩
    exact (List.mem_append.1 hq).elim (hall q) (hall' q)

lemma Sends.query {q : String} (h : P q) : Sends P (Attempt.query q) := fun _ _ =>
  ⟨[q], rfl, by simpa using h⟩

lemma Sends.mapM {f : α → Attempt β} (h : ∀ a, Sends P (f a)) (l : List α) :
    Sends P (l.mapM f) := by
  induction l with
  | nil => exact Sends.pure []
  | cons a l ih =>
    rw [List.mapM_cons]
    exact (h a).bind fun b => ih.bind fun bs => Sends.pure (b :: bs)

end Attempt

/-! ### Inquiries -/

/-- A query that reads something and is one statement. -/
def IsInquiry (q : String) : Prop :=
  ("SHOW ".toList <+: q.toList ∨ "SELECT ".toList <+: q.toList) ∧ Script.statements q = [q]

open Script

lemma isInquiry_of_solid {q : String} (h : Solid q)
    (hstart : "SHOW ".toList <+: q.toList ∨ "SELECT ".toList <+: q.toList) : IsInquiry q := by
  refine ⟨hstart, statements_of_solid h ⟨'S', ?_, by decide⟩⟩
  rcases hstart with ⟨rest, hrest⟩ | ⟨rest, hrest⟩ <;>
  · rw [← hrest]
    rfl

lemma isPrefix_append {w : List Char} {s : String} (h : w <+: s.toList) (t : String) :
    w <+: (s ++ t).toList := by
  rw [String.toList_append]
  exact h.trans (List.prefix_append _ _)

lemma isInquiry_append {start s : String} (hplain : ∀ c ∈ start.toList, c ∉ marks)
    (hstart : "SHOW ".toList <+: start.toList ∨ "SELECT ".toList <+: start.toList) (hs : Solid s) :
    IsInquiry (start ++ s) :=
  isInquiry_of_solid (.append (sealed_of_notMem_marks hplain) hs)
    (hstart.imp (isPrefix_append · s) (isPrefix_append · s))

namespace LiveDatabase

variable (d : LiveDatabase)

lemma isInquiry_presenceQuery : IsInquiry d.presenceQuery :=
  isInquiry_append (by simp [marks]) (by simp) (solid_literal _)

lemma isInquiry_charsetQuery : IsInquiry charsetQuery := by
  refine isInquiry_of_solid ⟨sealed_of_notMem_marks ?_, 'T', ?_, by decide⟩ (.inl ?_) <;>
    simp [charsetQuery, marks]

lemma isInquiry_listingQuery : IsInquiry d.listingQuery :=
  isInquiry_append (by simp [marks]) (by simp) (solid_name _)

lemma isInquiry_tableQuery (name : String) : IsInquiry (d.tableQuery name) :=
  isInquiry_append (by simp [marks]) (by simp) (solid_tableName _)

lemma isInquiry_accountsQuery (names : List String) : IsInquiry (accountsQuery names) := by
  have hnames : Sealed .plain (Text.joined ", " (names.map Sql.literal)).toList := by
    refine sealed_joined (sealed_of_notMem_marks (by simp [marks])) fun s hs => ?_
    obtain ⟨name, -, rfl⟩ := List.mem_map.1 hs
    exact (solid_literal name).isSealed
  have hend : Solid ")" := ⟨sealed_of_notMem_marks (by simp [marks]), ')', by simp, by decide⟩
  have hwhole : IsInquiry ("SELECT User, Host FROM mysql.user WHERE User IN (" ++
      (Text.joined ", " (names.map Sql.literal) ++ ")")) :=
    isInquiry_append (by simp [marks]) (by simp) (hend.append hnames)
  rwa [← String.append_assoc] at hwhole

lemma solid_accountLiteral (a : Account) : Solid (accountLiteral a) := by
  refine .append ?_ (solid_literal a.host)
  exact sealed_append (solid_literal a.user).isSealed (sealed_of_notMem_marks (by simp [marks]))

lemma isInquiry_accountQuery (a : Account) : IsInquiry (accountQuery a) :=
  isInquiry_append (by simp [marks]) (by simp) (solid_accountLiteral a)

lemma isInquiry_grantsQuery (a : Account) : IsInquiry (grantsQuery a) :=
  isInquiry_append (by simp [marks]) (by simp) (solid_accountLiteral a)

/-- The part of the query for grantees that asks on one level. -/
def levelQuery (level : String) : String :=
  "SELECT GRANTEE FROM information_schema." ++ level ++ "_privileges WHERE TABLE_SCHEMA = " ++
    Sql.literal d.name

lemma isInquiry_granteesQuery : IsInquiry d.granteesQuery := by
  have hlevel (level : String) (h : ∀ c ∈ level.toList, c ∉ marks) : Solid (d.levelQuery level) := by
    refine .append (sealed_append (sealed_append ?_ (sealed_of_notMem_marks h)) ?_)
      (solid_literal d.name) <;>
    exact sealed_of_notMem_marks (by simp [marks])
  have hunion : Sealed .plain " UNION ".toList := sealed_of_notMem_marks (by simp [marks])
  have hschema := sealed_append (hlevel "schema" (by simp [marks])).isSealed hunion
  have htable := sealed_append (hlevel "table" (by simp [marks])).isSealed hunion
  have hcolumn := hlevel "column" (by simp [marks])
  have hstart : "SELECT ".toList <+: "SELECT GRANTEE FROM information_schema.".toList := by simp
  have hfirst : "SELECT ".toList <+: (d.levelQuery "schema").toList :=
    isPrefix_append (isPrefix_append (isPrefix_append hstart _) _) _
  change IsInquiry (d.levelQuery "schema" ++ " UNION " ++
    (d.levelQuery "table" ++ " UNION " ++ d.levelQuery "column"))
  exact isInquiry_of_solid (.append hschema (.append htable hcolumn))
    (.inr (isPrefix_append (isPrefix_append hfirst _) _))

end LiveDatabase

/-! ### The making of a plan -/

namespace Plan

open Attempt LiveDatabase

variable (t : Target) (s : Schema)

lemma sends_table? (d : LiveDatabase) (l : Listing) (name : String) :
    Sends IsInquiry (d.table? l name) := by
  unfold LiveDatabase.table?
  split
  · exact Sends.pure _
  · exact (Sends.query (d.isInquiry_tableQuery _)).bind fun rows => Sends.pure _

lemma sends_accounts (names : OrderedSet String) : Sends IsInquiry (LiveDatabase.accounts names) := by
  unfold LiveDatabase.accounts
  split
  · exact Sends.pure _
  · exact (Sends.query (isInquiry_accountsQuery _)).bind fun rows => Sends.pure _

lemma sends_grants (d : LiveDatabase) (accounts : OrderedSet Account) :
    Sends IsInquiry (d.grants accounts) := by
  unfold LiveDatabase.grants
  split
  · exact Sends.pure _
  · refine (Sends.query d.isInquiry_granteesQuery).bind fun rows => ?_
    refine (Sends.mapM (fun a => Sends.query (isInquiry_grantsQuery a)) _).bind fun answers => ?_
    exact Sends.pure _

lemma sends_liveClause (d : LiveDatabase) (a : Account) : Sends IsInquiry (liveClause d a) := by
  have hclause : Sends IsInquiry (d.accountClause? a) :=
    (Sends.query (isInquiry_accountQuery a)).bind fun rows => Sends.pure _
  refine hclause.bind fun answer => ?_
  rcases answer with fault | clause? <;> exact Sends.pure _

lemma sends_surveyAccounts (d : LiveDatabase) : Sends IsInquiry (surveyAccounts d s) := by
  refine (sends_accounts _).bind fun live => ?_
  exact (Sends.mapM (sends_liveClause d) _).bind fun answers => Sends.pure _

lemma sends_surveyAccess (d : LiveDatabase) (live : OrderedSet Account) :
    Sends IsInquiry (surveyAccess d s live) :=
  (sends_grants d _).bind fun _ => Sends.pure _

lemma sends_surveyTable (catalog : Catalog) (listing : Listing) (access : List AccessDrift)
    (name : String) : Sends IsInquiry (surveyTable t s catalog listing access name) := by
  unfold surveyTable
  split
  · exact (Sends.pure (Except.ok none)).bind fun answer => by
      rcases answer with fault | live? <;> exact Sends.pure _
  · exact (sends_table? t.database listing name).bind fun answer => by
      rcases answer with fault | live? <;> exact Sends.pure _

lemma sends_surveyTables (catalog : Catalog) (access : List AccessDrift) :
    Sends IsInquiry (surveyTables t s catalog access) := by
  have hlisting : Sends IsInquiry t.database.listing :=
    (Sends.query t.database.isInquiry_listingQuery).bind fun rows => Sends.pure _
  refine hlisting.bind fun listing => ?_
  exact (Sends.mapM (sends_surveyTable t s catalog listing access) _).bind fun answers =>
    Sends.pure _

/-- **Nothing breaks out of a query.** Whatever the names in the sources and whatever the server
answers, every query that the making of a plan sends begins with `SHOW` or `SELECT`, and cutting it
into statements gives back just that query. -/
theorem sends_inquiries (sources : List Source) (server : Server) (earlier : List String) :
    ∃ sent, ((make t sources).run server earlier).2 = earlier ++ sent ∧ ∀ q ∈ sent,
      ("SHOW ".toList <+: q.toList ∨ "SELECT ".toList <+: q.toList) ∧ Script.statements q = [q] := by
  have hpresent : Sends IsInquiry t.database.isPresent :=
    (Sends.query t.database.isInquiry_presenceQuery).bind fun rows => Sends.pure _
  have hmake : Sends IsInquiry (make t sources) := by
    refine hpresent.bind fun isPresent => ?_
    rcases isPresent with _ | _
    · -- A database that is not there has no tables to ask for.
      refine (Sends.pure Catalog.builtin).bind fun catalog => ?_
      refine (sends_surveyAccounts _ t.database).bind fun accounts => ?_
      refine (sends_surveyAccess _ t.database accounts.live).bind fun access => ?_
      exact (Sends.pure ([], Findings.none)).bind fun tables => Sends.pure _
    · have hcatalog : Sends IsInquiry LiveDatabase.catalog :=
        (Sends.query isInquiry_charsetQuery).bind fun rows => Sends.pure _
      refine hcatalog.bind fun catalog => ?_
      refine (sends_surveyAccounts _ t.database).bind fun accounts => ?_
      refine (sends_surveyAccess _ t.database accounts.live).bind fun access => ?_
      exact (sends_surveyTables t _ catalog access.1).bind fun tables => Sends.pure _
  exact hmake server earlier

/-- A server with a table whose name tries to end the query that asks for it. -/
theorem sends_inquiries_escaping :
    let server : Server := .ofAnswers fun query =>
      if query = "SHOW DATABASES LIKE 'shop'" then .ok [[some "shop"]]
      else if query = "SHOW TABLES FROM shop" then .ok [[some "t`; DROP TABLE u; -- "]]
      else .ok []
    let query := "SHOW CREATE TABLE shop.`t``; DROP TABLE u; -- `"
    query ∈ ((make ⟨⟨"shop", .double⟩, true⟩ []).run server []).2 ∧
      Script.statements query = [query] := by
  intro server query
  have hmem : query ∈ ((make ⟨⟨"shop", .double⟩, true⟩ []).run server []).2 := by decide +kernel
  obtain ⟨sent, hsent, hall⟩ := sends_inquiries ⟨⟨"shop", .double⟩, true⟩ [] server []
  have hquery : query ∈ sent := by rwa [hsent, List.nil_append] at hmem
  exact ⟨hmem, (hall query hquery).2⟩

end Plan

end SchemaDrift
