/-!
Which elements of a list moved. The longest sequence common to the old and the new order stays in
place; the elements outside it moved. Main statement: the sequence found row by row satisfies the
recursion that defines it.
-/

namespace SchemaDrift.Moves

variable {α : Type} [DecidableEq α]

/-- The longer of two sequences; of equal ones the first. -/
def longer (s t : List α) : List α := if t.length ≤ s.length then s else t

/-- The best common sequences of `x :: xs` with every suffix of a list, from those of `xs`
(`below`). -/
def row (x : α) : List α → (below : List (List α)) → List (List α)
  | [], _ => [[]]
  | y :: ys, below =>
    let right := row x ys below.tail
    (if x = y then x :: below.tail.headD [] else longer (below.headD []) (right.headD [])) :: right

/-- The best common sequences of `xs` with every suffix of `ys`. -/
def bests (xs ys : List α) : List (List α) :=
  xs.foldr (fun x below => row x ys below) (List.replicate (ys.length + 1) [])

/-- The longest sequence common to both lists; of several, the one that leaves out elements of the
first list as early as it can. -/
def longestCommon (xs ys : List α) : List α := (bests xs ys).headD []

theorem tail_bests (xs : List α) (y : α) (ys : List α) :
    (bests xs (y :: ys)).tail = bests xs ys := by
  induction xs with
  | nil => simp [bests, List.replicate_succ]
  | cons x xs ih => simp only [bests, List.foldr_cons, row, List.tail_cons] at ih ⊢; rw [ih]

@[simp] theorem longestCommon_nil_left (ys : List α) : longestCommon [] ys = [] := by
  simp [longestCommon, bests, List.replicate_succ]

@[simp] theorem longestCommon_nil_right (xs : List α) : longestCommon xs [] = [] := by
  cases xs <;> simp [longestCommon, bests, row]

/-- **The recursion**: equal heads are common, and of unequal ones one is left out. -/
theorem longestCommon_cons_cons (x : α) (xs : List α) (y : α) (ys : List α) :
    longestCommon (x :: xs) (y :: ys) =
      if x = y then x :: longestCommon xs ys
      else longer (longestCommon xs (y :: ys)) (longestCommon (x :: xs) ys) := by
  have ht := tail_bests xs y ys
  simp only [longestCommon, bests, List.foldr_cons] at ht ⊢
  rw [row, ht]
  rfl

/-- The elements of `new` outside the longest order that it shares with `old`. -/
def moved (new old : List α) : List α :=
  let stable := longestCommon new old
  new.filter fun x => !stable.contains x

end SchemaDrift.Moves
