import SchemaDrift.Drift.Account
import SchemaDrift.Findings
import SchemaDrift.Source

/-!
The schema that sources declare for one database. Declarations of one table that say the same count
as one; two that differ collide, and none of that table's declarations takes part.
-/

namespace SchemaDrift

/-- A table with the sources that declare it, in order. -/
structure DeclaredTable where
  table : Table
  sources : List String
  deriving DecidableEq

structure DeclaredGrant where
  grant : Grant
  source : String
  deriving DecidableEq

structure Schema where
  /-- The tables by lower-case name. -/
  tables : OrderedMap String DeclaredTable
  /-- The lower-case names of tables whose declarations collide. -/
  collided : OrderedSet String
  grants : List DeclaredGrant
  accounts : AccountLedger
  /-- The statements that are not interpreted. -/
  passthrough : List String
  findings : Findings
  deriving DecidableEq

namespace Schema

def empty : Schema :=
  ⟨OrderedMap.empty, OrderedSet.empty, [], AccountLedger.empty, [], Findings.none⟩

def report (s : Schema) (f : Findings) : Schema := { s with findings := s.findings ++ f }

def skip (s : Schema) (count : Nat) (reason : SkipReason) : Schema :=
  s.report (.ofSkips count reason)

/-- Whether two tables are declared alike; the database may be named or not. -/
def sameDeclaration (a b : Table) : Bool :=
  { a with name := a.name.unqualified } = { b with name := b.name.unqualified }

/-- Adds a declaration of a table that is meant for the database. -/
def declareOwnTable (s : Schema) (source : String) (t : Table) : Schema :=
  let key := Text.lower t.name.name
  if s.collided.contains key then s.skip 1 .collidingTable
  else match s.tables.get? key with
    | none => { s with tables := s.tables.insert key ⟨t, [source]⟩ }
    | some d =>
      if sameDeclaration d.table t then
        { s with tables := s.tables.insert key { d with sources := d.sources ++ [source] } }
      else
        let fault := Fault.collision ("table " ++ t.name.name) (d.sources.headD "") source
        let s := s.report (.ofFault fault (some source))
        { s with tables := s.tables.erase key, collided := s.collided.insert key }.skip
          (d.sources.length + 1) .collidingTable

/-- Adds a declaration of a table, unless it is temporary or belongs to another database. -/
def declareTable (database : String) (s : Schema) (source : String) (t : Table) : Schema :=
  if t.name.database?.any fun d => !Text.sameName d database then s.skip 1 .foreignTable
  else if t.temporary then s.skip 1 .temporaryTable
  else s.declareOwnTable source t

/-- Adds a grant or revocation, unless it belongs to another database. -/
def declareGrant (database source : String) (s : Schema) (g : Grant) : Schema :=
  let g := g.inDatabase database
  if g.database? = some database then { s with grants := s.grants ++ [⟨g, source⟩] }
  else s.skip 1 .foreignGrant

/-- Adds the clauses of one statement; its text is kept if it names a single account. -/
def declareAccounts (s : Schema) (text : String) (cs : List AccountClause) : Schema :=
  let text? := if cs.length = 1 then some text else none
  { s with accounts := cs.foldl (fun l c => l.declare c text?) s.accounts }

/-- Adds what one statement declares. -/
def declare (d : LiveDatabase) (source : String) (s : Schema) (text : String) : Schema :=
  match Statement.read d.real text with
  | .table t => s.declareTable d.name source t
  | .grants _ gs => gs.foldl (declareGrant d.name source) s
  | .accounts cs => s.declareAccounts text cs
  | .insert | .unknown => { s with passthrough := s.passthrough ++ [text] }
  | .invalid _ fault =>
    (s.report (.ofFault (.unreadable source fault) (some source))).skip 1 .unreadableStatement

/-- What the sources declare for the database. -/
def ofSources (d : LiveDatabase) (sources : List Source) : Schema :=
  sources.foldl (fun s source => source.statements.foldl (declare d source.name) s) empty

/-- The schema for a database that does not exist: that is noticed, and tables and grants are
skipped. -/
def withoutDatabase (s : Schema) (database : String) : Schema :=
  ({ s with tables := OrderedMap.empty, grants := [] }.report
    (.ofFault (.missingDatabase database) none)).skip (s.tables.size + s.grants.length)
      .absentDatabase

end Schema

end SchemaDrift
