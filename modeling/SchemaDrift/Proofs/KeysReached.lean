import Mathlib
import SchemaDrift.Proofs.KeyNaming
import SchemaDrift.Proofs.TableAfter

/-!
Keys and columns altered together. A key can be added only while all its columns are there. Keys are
added after the last alteration of a column, when the columns are the declared ones; those are the
columns that a declared key is over.
-/

namespace SchemaDrift

open Text (lower)
open TablePair (columnNames)

/-! ### Keys over columns -/

/-- What keys depend on: the names of a table's columns, in lower case, and its keys with theirs. -/
structure TableShape where
  columns : List String
  keys : List Key
  deriving DecidableEq

def Table.shape (t : Table) : TableShape :=
  ⟨columnNames t, t.namedKeys.map fun k => k.2.withName k.1⟩

namespace Alteration

end Alteration

namespace TablePair

variable {p : TablePair}

end TablePair

end SchemaDrift
