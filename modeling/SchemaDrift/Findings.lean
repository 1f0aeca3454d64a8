import SchemaDrift.LiveDatabase

/-!
Findings: what a run has to say beside its steps. A notice reports a fault; a skip is a declaration
that takes no part in the run, with the reason.
-/

namespace SchemaDrift

/-- Why a declaration takes no part. -/
inductive SkipReason where
  | collidingTable
  | foreignGrant
  | unreadableGrant
  | unreadableTable
  | unreadableStatement
  | foreignTable
  | absentDatabase
  | temporaryTable
  | absentAccount
  deriving DecidableEq, Repr

namespace SkipReason

def text : SkipReason → String
  | collidingTable => "colliding table declarations"
  | foreignGrant => "grant outside the target database"
  | unreadableGrant => "live grant does not parse"
  | unreadableTable => "live table definition does not parse"
  | unreadableStatement => "statement does not parse"
  | foreignTable => "table outside the target database"
  | absentDatabase => "target database does not exist"
  | temporaryTable => "temporary table"
  | absentAccount => "user does not exist"

/-- All reasons, in the order in which they are reported. -/
def all : List SkipReason := [collidingTable, foreignGrant, unreadableGrant, unreadableTable,
  unreadableStatement, foreignTable, absentDatabase, temporaryTable, absentAccount]

/-- The order is that of the texts. -/
theorem pairwise_all : all.Pairwise fun a b => a.text < b.text := by decide

theorem mem_all (r : SkipReason) : r ∈ all := by cases r <;> decide

end SkipReason

/-- A fault with the source that it belongs to, if that is one. -/
structure Notice where
  fault : Fault
  source? : Option String
  deriving DecidableEq, Repr

/-- Notices in order, and one reason for every declaration that is skipped. -/
structure Findings where
  notices : List Notice
  skips : List SkipReason
  deriving DecidableEq, Repr

namespace Findings

def none : Findings := ⟨[], []⟩

instance : Append Findings := ⟨fun a b => ⟨a.notices ++ b.notices, a.skips ++ b.skips⟩⟩

def joined (fs : List Findings) : Findings := fs.foldr (· ++ ·) none

def ofFault (fault : Fault) (source? : Option String) : Findings := ⟨[⟨fault, source?⟩], []⟩

def ofSkips (count : Nat) (reason : SkipReason) : Findings := ⟨[], List.replicate count reason⟩

/-- A statement of the server cannot be read. -/
def ofAnswer (fault : ReadingFault) : Findings :=
  ofFault (LiveDatabase.unreadable fault) (some LiveDatabase.sourceName)

end Findings

end SchemaDrift
