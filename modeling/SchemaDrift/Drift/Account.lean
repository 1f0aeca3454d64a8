import SchemaDrift.Drift.Sides
import SchemaDrift.Ordered.Map
import SchemaDrift.Ordered.Set
import SchemaDrift.Step
import SchemaDrift.Text.Blank

/-!
The drift of accounts. The user names of declared creations are managed: a live account of such a
name that is not declared is dropped. Of accounts on both sides only the requirement on connections
is compared.
-/

namespace SchemaDrift

/-- What is declared of an account. -/
structure DeclaredAccount where
  /-- The creation, and its text if it names this account alone. -/
  creation? : Option (AccountClause × Option String)
  /-- The last requirement that a change states. -/
  altered? : Option Transport
  deriving DecidableEq, Repr

namespace DeclaredAccount

def none : DeclaredAccount := ⟨.none, .none⟩

/-- The declared requirement: that of the last change, else that of the creation. -/
def transport? (d : DeclaredAccount) : Option Transport :=
  d.altered?.orElse fun _ => d.creation?.map fun c => c.1.transport

end DeclaredAccount

/-- One change to an account. -/
inductive AccountChange where
  /-- Creates the account; the text, if there is one, is run as it is written. -/
  | create (clause : AccountClause) (text? : Option String)
  | require (account : Account) (transport : Transport)
  | drop (account : Account)
  deriving DecidableEq, Repr

namespace AccountChange

/-- A statement's text with one semicolon at its end. -/
def closedText (text : String) : String :=
  String.ofList (Text.dropEndWhile (· = ';') (Text.trim text.toList)) ++ ";"

def step : AccountChange → Step
  | create c text? => .harmless .createAccount c.account.key
      (match text? with
        | some text => closedText text
        | none => c.sql ++ ";")
  | require a t => .harmless .alterAccount a.key
      ("ALTER USER " ++ a.sql ++ " REQUIRE " ++ t.sql ++ ";")
  | drop a => .harmless .dropAccount a.key ("DROP USER " ++ a.sql ++ ";")

end AccountChange

structure AccountDrift where
  account : Account
  verdict : Verdict
  /-- The requirement on either side. -/
  sides : Sides Transport
  changes : List AccountChange
  deriving DecidableEq, Repr

def AccountDrift.steps (d : AccountDrift) : List Step := d.changes.map AccountChange.step

/-- The declared and the live accounts. -/
structure AccountLedger where
  declared : OrderedMap Account DeclaredAccount
  live : OrderedMap Account AccountClause
  deriving DecidableEq

namespace AccountLedger

def empty : AccountLedger := ⟨OrderedMap.empty, OrderedMap.empty⟩

/-- Adds a declared clause; `text?` is its statement, if that names this account alone. -/
def declare (l : AccountLedger) (c : AccountClause) (text? : Option String) : AccountLedger :=
  { l with declared := l.declared.alter c.account fun old? =>
      let d := old?.getD .none
      match c.verb with
      | .create => { d with creation? := some (c, text?) }
      | .alter => { d with altered? := c.transport?.orElse fun _ => d.altered? } }

def observe (l : AccountLedger) (c : AccountClause) : AccountLedger :=
  { l with live := l.live.insert c.account c }

/-- Whether the account is declared to be created. -/
def isCreated (l : AccountLedger) (a : Account) : Bool :=
  (l.declared.get? a).any fun d => d.creation?.isSome

/-- The user names under management. -/
def managedNames (l : AccountLedger) : OrderedSet String :=
  OrderedSet.ofList ((l.declared.entries.filter fun e => e.2.creation?.isSome).map (·.1.user))

def accounts (l : AccountLedger) : List Account := l.declared.keys

/-- The accounts that are to be changed but neither declared to be created nor live. -/
def missing (l : AccountLedger) : List Account :=
  (l.declared.entries.filter fun e => e.2.creation?.isNone && !l.live.contains e.1).map (·.1)

def declaredDrift? (l : AccountLedger) (a : Account) (d : DeclaredAccount) : Option AccountDrift :=
  match l.live.get? a, d.creation? with
  | none, some (c, text?) =>
    let requirement := match d.transport? with
      | some t => if t = c.transport then [] else [.require a t]
      | none => []
    some ⟨a, .added, ⟨none, d.transport?⟩, .create c text? :: requirement⟩
  | some live, _ =>
    d.transport?.bind fun t =>
      if t = live.transport then none
      else some ⟨a, .modified, ⟨some live.transport, some t⟩, [.require a t]⟩
  | none, none => none

/-- The drifts: declared accounts in their order, then live ones to be dropped. -/
def drifts (l : AccountLedger) : List AccountDrift :=
  let managed := l.managedNames
  l.declared.entries.filterMap (fun (a, d) => l.declaredDrift? a d) ++
    (l.live.entries.filter fun e => managed.contains e.1.user && !l.isCreated e.1).map
      fun (a, c) => ⟨a, .dropped, ⟨some c.transport, none⟩, [.drop a]⟩

end AccountLedger

end SchemaDrift
