import SchemaDrift.Script

/-!
Sources: named lists of statements.
-/

namespace SchemaDrift

structure Source where
  name : String
  statements : List String
  deriving DecidableEq, Repr

def Source.ofText (name text : String) : Source := ⟨name, Script.statements text⟩

end SchemaDrift
