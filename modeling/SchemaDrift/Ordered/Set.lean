/-!
Finite sets whose members stand in increasing order. As for ordered maps the order is part of the
type, so sets with the same members are equal.
-/

namespace SchemaDrift

/-- A finite set as its list of members, strictly increasing. -/
structure OrderedSet (α : Type) [Ord α] where
  toList : List α
  increasing : toList.Pairwise fun a b => compare a b = .lt
  deriving DecidableEq

namespace OrderedSet

variable {α : Type} [Ord α]

def empty : OrderedSet α := ⟨[], .nil⟩

instance : Inhabited (OrderedSet α) := ⟨empty⟩

def isEmpty (s : OrderedSet α) : Bool := s.toList.isEmpty

def contains (s : OrderedSet α) (x : α) : Bool := s.toList.any fun y => compare y x == .eq

def filter (s : OrderedSet α) (p : α → Bool) : OrderedSet α :=
  ⟨s.toList.filter p, s.increasing.filter _⟩

def inter (s t : OrderedSet α) : OrderedSet α := s.filter t.contains

/-- The members of `s` that are not in `t`. -/
def diff (s t : OrderedSet α) : OrderedSet α := s.filter fun x => !t.contains x

def subset (s t : OrderedSet α) : Bool := s.toList.all t.contains

/-- Puts `x` into its place in an increasing list, unless it is there. -/
def insertSorted (x : α) : List α → List α
  | [] => [x]
  | y :: rest =>
    match compare x y with
    | .lt => x :: y :: rest
    | .eq => y :: rest
    | .gt => y :: insertSorted x rest

theorem mem_of_mem_insertSorted {x z : α} {l : List α} (h : z ∈ insertSorted x l) :
    z = x ∨ z ∈ l := by
  induction l with
  | nil => simpa [insertSorted] using h
  | cons y rest ih =>
    rw [insertSorted] at h
    split at h
    · simpa using h
    · exact .inr h
    · rcases List.mem_cons.1 h with rfl | h
      · simp
      · rcases ih h with h | h <;> simp [h]

variable [Std.TransOrd α]

theorem increasing_insertSorted {x : α} {l : List α}
    (h : l.Pairwise fun a b => compare a b = .lt) :
    (insertSorted x l).Pairwise fun a b => compare a b = .lt := by
  induction l with
  | nil => simp [insertSorted]
  | cons y rest ih =>
    rw [List.pairwise_cons] at h
    rw [insertSorted]
    split
    · rename_i hlt
      refine List.pairwise_cons.2 ⟨fun z hz => ?_, List.pairwise_cons.2 h⟩
      rcases List.mem_cons.1 hz with rfl | hz
      · exact hlt
      · exact Std.TransCmp.lt_trans hlt (h.1 z hz)
    · exact List.pairwise_cons.2 h
    · rename_i hgt
      refine List.pairwise_cons.2 ⟨fun z hz => ?_, ih h.2⟩
      rcases mem_of_mem_insertSorted hz with rfl | hz
      · exact Std.OrientedCmp.lt_of_gt hgt
      · exact h.1 z hz

def insert (s : OrderedSet α) (x : α) : OrderedSet α :=
  ⟨insertSorted x s.toList, increasing_insertSorted s.increasing⟩

def union (s t : OrderedSet α) : OrderedSet α := t.toList.foldl insert s

def ofList (l : List α) : OrderedSet α := l.foldl insert empty

theorem insert_ne_empty (s : OrderedSet α) (x : α) : (s.insert x).toList ≠ [] := by
  obtain ⟨l, h⟩ := s
  rcases l with _ | ⟨y, rest⟩
  · simp [insert, insertSorted]
  · simp only [insert, insertSorted]
    split <;> simp

/-- A union is empty only if its first part is. -/
theorem union_ne_empty {s : OrderedSet α} (h : s.toList ≠ []) (t : OrderedSet α) :
    (s.union t).toList ≠ [] := by
  unfold union
  generalize t.toList = l
  induction l generalizing s with
  | nil => exact h
  | cons x rest ih => exact ih (insert_ne_empty s x)

end OrderedSet

end SchemaDrift
