import SchemaDrift.Drift.Sides
import SchemaDrift.Privilege.Grant
import SchemaDrift.Step

/-!
The drift of privileges in one database. Declared and live privileges are gathered for every account
and object. What an account may do in the whole database is its baseline: a privilege on a table
counts only as far as its side's baseline does not give it already.

The privileges that count are remembered with the version of the baseline that they were reduced by;
a grant on the whole database makes a new version.
-/

namespace SchemaDrift

/-- An account and an object of the database. -/
structure Holding where
  account : Account
  object : String
  deriving DecidableEq, Repr

namespace Holding

/-- Ordered by account, those of one account by object. -/
instance : Ord Holding := ⟨compareLex (compareOn account) (compareOn object)⟩

instance : Std.TransOrd Holding :=
  inferInstanceAs (Std.TransCmp (compareLex (compareOn account) (compareOn object)))

end Holding

/-- What an account may do in the whole database. -/
structure Baseline where
  declared : Privileges
  live : Privileges
  /-- The number of grants that have gone into it. -/
  version : Nat
  deriving DecidableEq

def Baseline.none : Baseline := ⟨OrderedMap.empty, OrderedMap.empty, 0⟩

/-- The privileges that count on either side. -/
structure Effective where
  declared : Privileges
  live : Privileges
  deriving DecidableEq

/-- What has been gathered for an account and an object. -/
structure Gathered where
  declared : Privileges
  /-- What is declared to be revoked. -/
  revoked : Privileges
  live : Privileges
  /-- The privileges that counted last, with the version of the baseline. -/
  remembered? : Option (Nat × Effective)
  deriving DecidableEq

namespace Gathered

def none : Gathered := ⟨OrderedMap.empty, OrderedMap.empty, OrderedMap.empty, .none⟩

/-- The privileges that count, reduced by the baseline unless the object is the whole database. -/
def reduced (g : Gathered) (object : String) (b : Baseline) : Effective :=
  let declared := g.declared.subtract g.revoked
  if object = Grant.everything then ⟨declared, g.live⟩
  else ⟨declared.subtract b.declared, g.live.subtract b.live⟩

/-- The privileges that count: the remembered ones, if the baseline has still that version. -/
def effective (g : Gathered) (object : String) (b : Baseline) : Effective :=
  match g.remembered? with
  | some (version, e) => if version = b.version then e else g.reduced object b
  | .none => g.reduced object b

/-- Remembers the privileges that count. -/
def remember (g : Gathered) (object : String) (b : Baseline) : Gathered :=
  { g with remembered? := some (b.version, g.effective object b) }

end Gathered

/-- The drift of an account's privileges on an object. -/
structure AccessDrift where
  account : Account
  object : String
  sides : Sides Privileges
  /-- The steps that close the gap, revocations first. -/
  steps : List Step
  deriving DecidableEq

/-- The declared and live privileges of one database. -/
structure AccessLedger where
  database : String
  baselines : OrderedMap Account Baseline
  gathered : OrderedMap Holding Gathered
  deriving DecidableEq

/-! ### Closing one gap -/

structure Closing where
  revoke : Privileges
  grant : Privileges
  deriving DecidableEq

namespace Closing

def none : Closing := ⟨OrderedMap.empty, OrderedMap.empty⟩

def revoking (c : Closing) (name : String) (scope : Scope) : Closing :=
  { c with revoke := c.revoke.grant name scope }

def granting (c : Closing) (name : String) (scope : Scope) : Closing :=
  { c with grant := c.grant.grant name scope }

def grantingMissing (c : Closing) (name : String) (wanted held : Scope) : Closing :=
  match wanted.subtract held with
  | some missing => c.granting name missing
  | .none => c

/-- Closes the gap of one declared privilege. A whole object narrowed to columns is revoked before
the columns are granted afresh. -/
def closeDeclared (live : Privileges) (c : Closing) (p : String × Scope) : Closing :=
  let (name, wanted) := p
  match live.get? name with
  | .none => c.granting name wanted
  | some held =>
    match held.subtract wanted with
    | some .whole => (c.revoking name .whole).granting name wanted
    | some excess => (c.revoking name excess).grantingMissing name wanted held
    | .none => c.grantingMissing name wanted held

/-- Revokes a live privilege that nothing declares. -/
def closeLive (declared : Privileges) (c : Closing) (p : String × Scope) : Closing :=
  if declared.contains p.1 then c else c.revoking p.1 p.2

/-- Revokes a declared revocation as far as the server holds the privilege. -/
def closeRevoked (live : Privileges) (c : Closing) (p : String × Scope) : Closing :=
  match (live.get? p.1).bind (Scope.intersect · p.2) with
  | some held => c.revoking p.1 held
  | .none => c

/-- What to revoke and grant. Declared revocations reach all that the server holds on the object,
whether the baseline gives it too or not. -/
def ofGap (g : Gathered) (e : Effective) : Closing :=
  let c := g.revoked.entries.foldl (closeRevoked g.live) none
  let c := e.declared.entries.foldl (closeDeclared e.live) c
  e.live.entries.foldl (closeLive e.declared) c

/-- The revocation and the grant, those of them that do something. -/
def statements (c : Closing) (database : String) (h : Holding) : List Grant :=
  let statement (verb : GrantVerb) (privileges : Privileges) : Grant :=
    ⟨verb, h.account, .none, some database, h.object, privileges⟩
  (if c.revoke.isEmpty then [] else [statement .revoke c.revoke]) ++
    if c.grant.isEmpty then [] else [statement .grant c.grant]

end Closing

/-- The step that runs a grant or revocation. -/
def Grant.step (g : Grant) : Step :=
  .harmless (match g.verb with | .grant => .grant | .revoke => .revoke)
    (g.account.key ++ "@" ++ g.database?.getD "" ++ "." ++ g.object) (g.sql ++ ";")

/-! ### The ledger -/

namespace AccessLedger

/-- The ledger of a database before anything is gathered. -/
def empty (database : String) : AccessLedger := ⟨database, OrderedMap.empty, OrderedMap.empty⟩

def gather (l : AccessLedger) (g : Grant) (f : Gathered → Gathered) : AccessLedger :=
  { l with gathered := l.gathered.alter ⟨g.account, g.object⟩ fun old? => f (old?.getD .none) }

/-- Changes the baseline of an account, which makes a new version of it. -/
def rebase (l : AccessLedger) (account : Account) (f : Baseline → Baseline) : AccessLedger :=
  { l with baselines := l.baselines.alter account fun old? =>
      let b := f (old?.getD .none)
      { b with version := b.version + 1 } }

/-- Adds a declared grant or revocation. -/
def declare (l : AccessLedger) (g : Grant) : AccessLedger :=
  match g.verb with
  | .revoke => l.gather g fun e => { e with revoked := e.revoked.merge g.privileges }
  | .grant =>
    let l := l.gather g fun e => { e with declared := e.declared.merge g.privileges }
    if g.isDatabaseWide then
      l.rebase g.account fun b => { b with declared := b.declared.merge g.privileges }
    else l

def observe (l : AccessLedger) (g : Grant) : AccessLedger :=
  let l := l.gather g fun e => { e with live := e.live.merge g.privileges }
  if g.isDatabaseWide then
    l.rebase g.account fun b => { b with live := b.live.merge g.privileges }
  else l

def baseline (l : AccessLedger) (account : Account) : Baseline :=
  (l.baselines.get? account).getD .none

def drift? (l : AccessLedger) (h : Holding) (g : Gathered) : Option AccessDrift :=
  let e := g.effective h.object (l.baseline h.account)
  let steps := ((Closing.ofGap g e).statements l.database h).map Grant.step
  if steps.isEmpty then none else some ⟨h.account, h.object, ⟨some e.live, some e.declared⟩, steps⟩

/-- The drifts in order of accounts and objects. -/
def drifts (l : AccessLedger) : List AccessDrift :=
  l.gathered.entries.filterMap fun (h, g) => l.drift? h g

/-- Remembers the privileges that count everywhere. -/
def remember (l : AccessLedger) : AccessLedger :=
  { l with
    gathered := l.gathered.filterMap fun h g => some (g.remember h.object (l.baseline h.account)) }

/-- The drifts, and the ledger that remembers what they came from. -/
def take (l : AccessLedger) : List AccessDrift × AccessLedger := (l.drifts, l.remember)

end AccessLedger

end SchemaDrift
