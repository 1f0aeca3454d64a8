import Mathlib
import SchemaDrift.Proofs.CountedRows
import SchemaDrift.Proofs.NumberGuard

/-!
Guards of floating columns. A floating column with declared digits holds the numbers that a decimal
column with these digits holds. A guard of such a column looks for negative numbers, and for those that
the cast to the size of the column changes, which are none: so it counts every damaged row only where
the digits do not get fewer.
-/

namespace SchemaDrift

/-- Whether the condition is true of a number; `cast` is what becomes of it in a floating size. -/
def Condition.HoldsOfNumber (cast : FloatSize → ℚ → ℚ) (v : ℚ) : Condition → Prop
  | changedByCast size => v ≠ cast size v
  | isNotNull => True
  | c => ∃ e ∈ c.comparison?, e.Holds v

namespace ColumnType

/-- Whether a floating column can hold the number, as far as signs and declared digits say. -/
def HoldsFloat : ColumnType → ℚ → Prop
  | floating _ none flags, v => flags.isUnsigned = true → 0 ≤ v
  | floating _ (some (precision, scale)) flags, v => (decimal precision scale flags).HoldsNumber v
  | _, _ => False

/-- The digits of the first declaration, if it has any, are among those of the second. -/
def DeclaresWithin (digits : Option (ℕ × ℕ)) (precision scale : ℕ) : Prop :=
  ∃ p s, digits = some (p, s) ∧ digitsKept p s precision scale = true

variable {size : FloatSize} {digits : Option (ℕ × ℕ)} {p s p' s' : ℕ} {f g : NumberFlags} {v : ℚ}

lemma not_holdsNumber_pow : ¬ (decimal p s f).HoldsNumber (10 ^ (p - s)) := by
  rintro ⟨-, hlt, -⟩
  rw [abs_of_pos (by positivity)] at hlt
  exact lt_irrefl _ hlt

lemma exists_holdsNumber_of_not_digitsKept (h : digitsKept p s p' s' = false) :
    ∃ v, 0 < v ∧ (decimal p s f).HoldsNumber v ∧ ¬ (decimal p' s' g).HoldsNumber v := by
  rw [digitsKept, Bool.and_eq_false_iff, decide_eq_false_iff_not, decide_eq_false_iff_not, not_le,
    not_le] at h
  rcases h with hscale | hwhole
  · have hpos : (0 : ℚ) < 1 / 10 ^ s := by positivity
    refine ⟨1 / 10 ^ s, hpos, ⟨HasScale.unit_iff.2 le_rfl, ?_, fun _ => hpos.le⟩, ?_⟩
    · calc |(1 : ℚ) / 10 ^ s| = 1 / 10 ^ s := abs_of_pos hpos
        _ < 1 := by
          rw [div_lt_one (by positivity)]
          exact one_lt_pow₀ (by norm_num) (by omega)
        _ ≤ 10 ^ (p - s) := one_le_pow₀ (by norm_num)
    · rintro ⟨hunit, -, -⟩
      exact hscale.not_ge (HasScale.unit_iff.1 hunit)
  · exact ⟨10 ^ (p' - s'), by positivity, holdsNumber_pow hwhole, not_holdsNumber_pow⟩

lemma exists_holdsFloat_of_not_declaresWithin (h : ¬ DeclaresWithin digits p s) :
    ∃ v, 0 < v ∧ (floating size digits f).HoldsFloat v ∧
      ¬ (floating size (some (p, s)) g).HoldsFloat v := by
  rcases digits with _ | ⟨p', s'⟩
  · have hpos : (0 : ℚ) < 10 ^ (p - s) := by positivity
    exact ⟨10 ^ (p - s), hpos, fun _ => hpos.le, not_holdsNumber_pow⟩
  · refine exists_holdsNumber_of_not_digitsKept ?_
    by_contra hkept
    exact h ⟨p', s', rfl, by simpa using hkept⟩

lemma neg_of_declaresWithin (h : DeclaresWithin digits p s)
    (hv : (floating size digits f).HoldsFloat v)
    (hlost : ¬ (floating size (some (p, s)) g).HoldsFloat v) :
    f.isUnsigned = false ∧ g.isUnsigned = true ∧ v < 0 := by
  obtain ⟨p', s', rfl, hkept⟩ := h
  obtain ⟨hscale, hlt, hnonneg⟩ := hv
  obtain ⟨hs, hp⟩ : s' ≤ s ∧ p' - s' ≤ p - s := by
    simpa [digitsKept] using hkept
  have hwhole : |v| < 10 ^ (p - s) := hlt.trans_le (pow_le_pow_right₀ (by norm_num) hp)
  obtain ⟨hunsigned, hneg⟩ : g.isUnsigned = true ∧ v < 0 := by
    by_contra hkeeps
    exact hlost ⟨hscale.mono hs, hwhole, fun hg => not_lt.1 fun hv => hkeeps ⟨hg, hv⟩⟩
  refine ⟨?_, hunsigned, hneg⟩
  by_contra hf
  exact hneg.not_ge (hnonneg (by simpa using hf))

lemma exists_loss_floating_iff {cast : FloatSize → ℚ → ℚ} (hcast : cast size v = v) {a : ColumnType} :
    (∃ c ∈ a.losses (floating size digits g), c.HoldsOfNumber cast v) ↔
      g.isUnsigned = true ∧ v < 0 := by
  rcases hunsigned : g.isUnsigned <;>
    simp [losses, hunsigned, Condition.HoldsOfNumber, hcast, Condition.comparison?, Comparison.Holds,
      Comparator.Holds, Term.eval]

lemma losses_floating_ne_nil {a : ColumnType} : a.losses (floating size digits g) ≠ [] := by
  simp [losses]

end ColumnType

namespace Guard

open ColumnType (DeclaresWithin)

section

variable {table : TableName} {catalog : Catalog} {before after : Column} {size : FloatSize}
  {digits : Option (ℕ × ℕ)} {flags : NumberFlags} {cast : FloatSize → ℚ → ℚ} {v : ℚ} {g : Guard}

lemma counts_floating_iff (hafter : after.type = .floating size digits flags) (hcast : cast size v = v)
    (hg : ofModifyColumn table catalog before after = some g) :
    (g.Counts fun c => c.HoldsOfNumber cast v) ↔
      keepsValues catalog before after = false ∧ flags.isUnsigned = true ∧ v < 0 := by
  rw [counts_ofModifyColumn_iff hg (by simp [Condition.HoldsOfNumber, Condition.comparison?]), hafter,
    endangeredValues_eq ColumnType.losses_floating_ne_nil, ColumnType.exists_loss_floating_iff hcast]

end

/-- **What the guard of a floating column counts.** When a floating column gets declared digits, its
guard counts every number that the new type cannot hold exactly if the column had digits declared
before and these do not get fewer. -/
theorem counts_lost_floats_iff (table : TableName) (catalog : Catalog) {before after : Column}
    {size : FloatSize} {digits : Option (ℕ × ℕ)} {precision scale : ℕ} {f f' : NumberFlags}
    (hbefore : before.type = .floating size digits f)
    (hafter : after.type = .floating size (some (precision, scale)) f')
    {cast : FloatSize → ℚ → ℚ} (hcast : ∀ v, cast size v = v) {g : Guard}
    (hg : ofModifyColumn table catalog before after = some g) :
    (∀ v, before.type.HoldsFloat v → ¬ after.type.HoldsFloat v →
        g.Counts fun c => c.HoldsOfNumber cast v) ↔
      DeclaresWithin digits precision scale := by
  have hcounts (v : ℚ) := counts_floating_iff (v := v) hafter (hcast v) hg
  constructor
  · intro hall
    by_contra hfewer
    obtain ⟨v, hpos, hv, hlost⟩ : ∃ v, 0 < v ∧ (ColumnType.floating size digits f).HoldsFloat v ∧
        ¬ (ColumnType.floating size (some (precision, scale)) f').HoldsFloat v :=
      ColumnType.exists_holdsFloat_of_not_declaresWithin hfewer
    have hneg := ((hcounts v).1 (hall v (hbefore ▸ hv) (hafter ▸ hlost))).2.2
    exact hneg.not_gt hpos
  · intro hwithin v hv hlost
    rw [hbefore] at hv
    rw [hafter] at hlost
    obtain ⟨hsigned, hunsigned, hneg⟩ := ColumnType.neg_of_declaresWithin hwithin hv hlost
    refine (hcounts v).2 ⟨?_, hunsigned, hneg⟩
    -- a conversion that drops the sign is not lossless
    have hne : f ≠ f' := by
      rintro rfl
      simp [hsigned] at hunsigned
    simp [keepsValues, hbefore, hafter, ColumnType.losslessTo, ColumnType.signKept, hsigned,
      hunsigned, hne]

theorem counts_lost_floats_iff_unsigned :
    let before := Column.ofType "c" (.floating .single (some (5, 2)) .none)
    let after := Column.ofType "c" (.floating .single (some (7, 3)) ⟨true, false⟩)
    (∀ v : ℚ, (fun (_ : FloatSize) (v : ℚ) => v) .single v = v) ∧
    ∃ g, ofModifyColumn ⟨none, "t"⟩ .builtin before after = some g ∧
      g.sql = "SELECT count(*) FROM t WHERE (c <> CAST(c AS FLOAT)) OR (c < 0)" ∧
      ∀ v, before.type.HoldsFloat v → ¬ after.type.HoldsFloat v →
        g.Counts fun c => c.HoldsOfNumber (fun _ v => v) v := by
  intro before after
  obtain ⟨g, hg, hsql⟩ : ∃ g, ofModifyColumn ⟨none, "t"⟩ .builtin before after = some g ∧
      g.sql = "SELECT count(*) FROM t WHERE (c <> CAST(c AS FLOAT)) OR (c < 0)" :=
    ⟨_, rfl, by decide +kernel⟩
  refine ⟨fun _ => rfl, g, hg, hsql, ?_⟩
  have hbefore : before.type = .floating .single (some (5, 2)) .none := rfl
  have hafter : after.type = .floating .single (some (7, 3)) ⟨true, false⟩ := rfl
  exact (counts_lost_floats_iff ⟨none, "t"⟩ .builtin hbefore hafter (fun _ => rfl) hg).2
    ⟨5, 2, rfl, by decide⟩

/-- A thousandth is no number of two digits after the point, and is not counted. -/
theorem not_counts_thousandth :
    let before := Column.ofType "c" (.floating .single none .none)
    let after := Column.ofType "c" (.floating .single (some (5, 2)) .none)
    ∃ g, ofModifyColumn ⟨none, "t"⟩ .builtin before after = some g ∧
      g.sql = "SELECT count(*) FROM t WHERE (c <> CAST(c AS FLOAT))" ∧
      before.type.HoldsFloat (1 / 10 ^ 3) ∧ ¬ HasScale 2 (1 / 10 ^ 3) ∧
      ¬ after.type.HoldsFloat (1 / 10 ^ 3) ∧
      ¬ g.Counts fun c => c.HoldsOfNumber (fun _ v => v) (1 / 10 ^ 3) := by
  intro before after
  have hfine : ¬ HasScale 2 (1 / 10 ^ 3) := fun h => absurd (HasScale.unit_iff.1 h) (by decide)
  obtain ⟨g, hg, hsql⟩ : ∃ g, ofModifyColumn ⟨none, "t"⟩ .builtin before after = some g ∧
      g.sql = "SELECT count(*) FROM t WHERE (c <> CAST(c AS FLOAT))" :=
    ⟨_, rfl, by decide +kernel⟩
  refine ⟨g, hg, hsql, nofun, hfine, fun hholds => hfine hholds.1, fun hcounts => ?_⟩
  have hunsigned := ((counts_floating_iff rfl rfl hg).1 hcounts).2.1
  cases hunsigned

end Guard

end SchemaDrift
