/-!
One thing seen from two sides: as the server has it and as the schema declares it.
-/

namespace SchemaDrift

/-- What the two sides of a thing amount to. -/
inductive Verdict where
  | added
  | dropped
  | modified
  | unchanged
  deriving DecidableEq, Repr

/-- The live and the declared side of a thing, either of which may be absent. -/
structure Sides (α : Type) where
  live : Option α
  declared : Option α
  deriving DecidableEq, Repr

namespace Sides

/-- The verdict on two sides, `same` telling whether two present ones match. -/
def verdictBy {α : Type} (same : α → α → Bool) (s : Sides α) : Verdict :=
  match s.live, s.declared with
  | none, some _ => .added
  | some _, none => .dropped
  | some a, some b => if same a b then .unchanged else .modified
  | none, none => .unchanged

def verdict {α : Type} [DecidableEq α] (s : Sides α) : Verdict := s.verdictBy fun a b => a = b

end Sides

end SchemaDrift
