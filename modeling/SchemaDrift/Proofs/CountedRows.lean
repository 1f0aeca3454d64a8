import Mathlib
import SchemaDrift.Guard

/-!
What guards count. Whether a guard counts a row depends on which conditions hold of the value in its
column. The guard of a modified column counts the values that the change of the type endangers, and
none where the change alone keeps every value.
-/

namespace SchemaDrift.Guard

/-- Whether the guard counts a row with a value of which just the conditions that `holds` says are
true. -/
def Counts (holds : Condition → Prop) (g : Guard) : Prop :=
  match g.rows with
  | .all => True
  | .matching _ condition => holds condition
  | .matchingAny _ conditions => ∃ c ∈ conditions, holds c

variable {table : TableName} {catalog : Catalog} {before after : Column} {g : Guard}
  {holds : Condition → Prop}

lemma counts_ofModifyColumn_iff (hg : ofModifyColumn table catalog before after = some g)
    (hnull : ¬ holds .isNull) : g.Counts holds ↔ keepsValues catalog before after = false ∧
      ∃ c ∈ endangeredValues before.type after.type, holds c := by
  have hnulls (tightened : Bool) :
      ¬ ∃ c ∈ (if tightened then [Condition.isNull] else []), holds c := by
    rintro ⟨c, hc, hholds⟩
    cases tightened with
    | false => cases hc
    | true => exact hnull (List.mem_singleton.1 hc ▸ hholds)
  simp only [ofModifyColumn] at hg
  split at hg
  · cases hg
  · cases hg
    simp only [Counts, List.mem_append, or_and_right, exists_or]
    rw [or_iff_left (hnulls _)]
    rcases keepsValues catalog before after with _ | _ <;> simp

lemma endangeredValues_eq {a b : ColumnType} (h : a.losses b ≠ []) :
    endangeredValues a b = a.losses b := by
  rw [endangeredValues, if_neg (by simpa using h)]

lemma keepsValues_of_ofModifyColumn_eq_none (h : ofModifyColumn table catalog before after = none) :
    keepsValues catalog before after = true := by
  simp only [ofModifyColumn] at h
  split at h
  next hkept => exact (Bool.and_eq_true_iff.1 hkept).1
  next => cases h

end SchemaDrift.Guard
